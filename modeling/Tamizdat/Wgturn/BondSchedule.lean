/- source: internal/wgturn/bond.go
   digest: The worker registry of a bond and the scheduler that hands frames to its queues. -/

import Tamizdat.Machine.CyclicScan
import Tamizdat.Machine.Runs
import Tamizdat.Wgturn.Devices

set_option autoImplicit false

open List Option
namespace Tamizdat.Wgturn.BondSchedule
open Machine.Checked
open Machine.Folds (ok_bind toOption_eq_some foldlM_cons_ok)
open Machine.Maps Machine.RoundRobin Machine.Runs Machine.SortedKeys
open Machine.Word (addW)
open Wgturn.BondWorkers
def bondSmallPacketMax : Nat := 384
def bondWorkerQueue : Nat := 128
abbrev Frame := List UInt8

structure BondWorker where
  room : Int
  worker : Int
  send : List Frame := []
  cancelled : Bool := false

/-- The counters of the downlink; those of the uplink are not touched here. -/
structure BondRoomMetrics where
  downPackets : Nat := 0
  downBytes : Nat := 0
  drops : Nat := 0

/-- The fields of `bondRoom` that only the scheduler uses. They stand beside the registry, under
the id of the room: a room is never taken out of the map once it is in it. -/
structure Turn where
  rr : Nat := 0
  metrics : BondRoomMetrics := {}

structure ServerBond where
  registry : Workers := {}
  objects : List BondWorker := []
  turns : GoMap Int Turn := ∅
  primaryRoom : Int
  rrRoom : Nat := 0
  scheduleDrop : Nat := 0

namespace ServerBond
def occupant (b : ServerBond) (room worker : Int) : Option Nat :=
  (b.registry.rooms.lookup room).bind fun found => found.workers.lookup worker

def cancelOld (b : ServerBond) (room worker : Int) : List BondWorker :=
  match b.occupant room worker with
  | none => b.objects
  | some old => b.objects.modify old fun object => { object with cancelled := true }

def addWorker (b : ServerBond) (room worker : Int) : ServerBond :=
  { b with
    registry := b.registry.addWorker room worker b.objects.length
    objects := b.cancelOld room worker ++ [{ room := room, worker := worker }] }

/-- The goroutine of an object takes it out, also when another one stands in its slot by now. -/
def removeWorker (b : ServerBond) (object : Nat) : Option ServerBond :=
  (b.objects[object]?).map fun found =>
    { b with registry := b.registry.removeWorker found.room found.worker object }

def drain (b : ServerBond) (object : Nat) : Option ServerBond :=
  match b.objects[object]? with
  | none => none
  | some found =>
    match found.send with
    | [] => none
    | _ :: rest => some { b with objects := b.objects.set object { found with send := rest } }

def turn (b : ServerBond) (room : Int) : Turn := (b.turns.lookup room).getD {}

def isActive (b : ServerBond) (id : Int) : Except Panic Bool := do
  let room ← deref (b.registry.rooms.lookup id)
  return 0 < size room.workers

def countActive (b : ServerBond) (ids : List Int) : Except Panic Nat :=
  ids.foldlM (fun active id => do return if ← b.isActive id then active + 1 else active) 0

def primaryStart (b : ServerBond) (ordinal : Nat) : List Int → Except Panic Nat
  | [] => .ok 0
  | id :: rest => do
    if ← b.isActive id then
      if b.primaryRoom ≤ id then .ok ordinal else b.primaryStart (ordinal + 1) rest
    else b.primaryStart ordinal rest

def activeRoomAt (b : ServerBond) (want ordinal : Nat) : List Int → Except Panic Int
  | [] => index b.registry.roomOrder 0
  | id :: rest => do
    if ← b.isActive id then
      if ordinal = want then .ok id else b.activeRoomAt want (ordinal + 1) rest
    else b.activeRoomAt want ordinal rest

def sent (b : ServerBond) (frame : Frame) (payloadLen roomIndex : Nat) (roomID : Int)
    (workerIndex object : Nat) (worker : BondWorker) : ServerBond :=
  let turn := b.turn roomID
  { b with
    objects := b.objects.set object { worker with send := worker.send ++ [frame] }
    turns := b.turns.insert roomID
      { rr := workerIndex + 1
        metrics :=
          { turn.metrics with
            downPackets := addW 64 turn.metrics.downPackets 1
            downBytes := addW 64 turn.metrics.downBytes payloadLen } }
    rrRoom := if bondSmallPacketMax < payloadLen then roomIndex + 1 else b.rrRoom }

def refused (b : ServerBond) (roomID : Int) : ServerBond :=
  let turn := b.turn roomID
  { b with
    turns := b.turns.insert roomID
      { turn with metrics := { turn.metrics with drops := addW 64 turn.metrics.drops 1 } } }

def offer (frame : Frame) (payloadLen roomIndex : Nat) (roomID : Int) (room : BondRoom)
    (b : ServerBond) (workerIndex : Nat) : Except Panic (ServerBond × Bool) := do
  let slot ← index room.workerOrder workerIndex
  let object ← deref (room.workers.lookup slot)
  let worker ← deref b.objects[object]?
  if worker.send.length < bondWorkerQueue then
    .ok (b.sent frame payloadLen roomIndex roomID workerIndex object worker, true)
  else .ok (b.refused roomID, false)

def offerRoom (frame : Frame) (payloadLen : Nat) (b : ServerBond) (roomIndex : Nat) :
    Except Panic (ServerBond × Bool) := do
  let roomID ← b.activeRoomAt roomIndex 0 b.registry.roomOrder
  let room ← deref (b.registry.rooms.lookup roomID)
  let workerStart ← modulo (b.turn roomID).rr room.workerOrder.length
  seek (offer frame payloadLen roomIndex roomID room) b (cycle room.workerOrder.length workerStart)

def countDrop (b : ServerBond) : ServerBond := { b with scheduleDrop := addW 64 b.scheduleDrop 1 }

def startOf (b : ServerBond) (payloadLen active : Nat) : Except Panic Nat :=
  if payloadLen ≤ bondSmallPacketMax then b.primaryStart 0 b.registry.roomOrder
  else modulo b.rrRoom active

def schedule (b : ServerBond) (frame : Frame) (payloadLen : Nat) :
    Except Panic (ServerBond × Bool) := do
  let active ← b.countActive b.registry.roomOrder
  if active = 0 then .ok (b.countDrop, false)
  else
    let start ← b.startOf payloadLen active
    let (tried, sent) ← seek (offerRoom frame payloadLen) b (cycle active start)
    if sent then .ok (tried, true) else .ok (tried.countDrop, false)
end ServerBond

inductive Label where
  | addWorker (room worker : Int)
  | removeWorker (object : Nat)
  | schedule (frame : Frame) (payloadLen : Nat)
  | drain (object : Nat)

def step (b : ServerBond) : Label → Option ServerBond
  | .addWorker room worker => some (b.addWorker room worker)
  | .removeWorker object => b.removeWorker object
  | .schedule frame payloadLen => (b.schedule frame payloadLen).toOption.map (·.1)
  | .drain object => b.drain object

/-- The counter and the two kinds of order slices agree with the maps. -/
structure Ordered (w : Workers) : Prop where
  counted : w.Counted
  rooms : Lists w.roomOrder w.rooms
  workers : ∀ id room, w.rooms.lookup id = some room → Lists room.workerOrder room.workers

@[simp] lemma armEmptyCleanupLocked_roomOrder (w : Workers) :
    w.armEmptyCleanupLocked.roomOrder = w.roomOrder := by
  unfold Workers.armEmptyCleanupLocked Workers.stopCleanup
  split_ifs
  · rfl
  · split <;> rfl

namespace Ordered
lemma empty : Ordered {} :=
  ⟨Workers.counted_empty, Lists.empty, fun id room found => by simp at found⟩

lemma congr {w w'} (h : Ordered w) (rooms : w'.rooms = w.rooms) (order : w'.roomOrder = w.roomOrder)
    (workers : w'.workers = w.workers) : Ordered w' := by
  refine ⟨h.counted.congr rooms workers, ?_, ?_⟩
  · rw [rooms, order]
    exact h.rooms
  · rw [rooms]
    exact h.workers

lemma seat {r : BondRoom} (h : Lists r.workerOrder r.workers) (worker : Int) (id : Nat) :
    Lists (r.seat worker id).workerOrder (r.seat worker id).workers := by
  simp only [BondRoom.seat]
  split_ifs with taken
  · exact h.insert_present taken id
  · exact h.insert_new (by simpa using taken) id

lemma addWorker {w} (h : Ordered w) (room worker : Int) (id : Nat) :
    Ordered (w.addWorker room worker id) := by
  have opened : Lists (w.openRoom room).1.workerOrder (w.openRoom room).1.workers := by
    unfold Workers.openRoom
    cases found : w.rooms.lookup room with
    | none => exact Lists.empty
    | some there => exact h.workers room there found
  refine ⟨h.counted.addWorker room worker id, ?_, ?_⟩
  · simp only [Workers.addWorker]
    unfold Workers.openRoom
    cases found : w.rooms.lookup room with
    | none => exact h.rooms.insert_new found _
    | some there => exact h.rooms.insert_present (by rw [found]; rfl) _
  · intro other there found
    simp only [Workers.addWorker, lookup_insert] at found
    split_ifs at found with same
    · cases found
      exact seat opened worker id
    · exact h.workers other there found

lemma vacate {w} (h : Ordered w) {room worker : Int} {id : Nat} {found : BondRoom}
    (located : w.rooms.lookup room = some found)
    (occupied : found.workers.lookup worker = some id) : Ordered (w.vacate room worker found) := by
  refine ⟨h.counted.vacate located occupied, ?_, ?_⟩
  · exact h.rooms.insert_present (by rw [located]; rfl) _
  · intro other there lookup
    simp only [Workers.vacate, lookup_insert] at lookup
    split_ifs at lookup with same
    · cases lookup
      exact (h.workers room found located).erase worker
    · exact h.workers other there lookup

lemma removeWorker {w} (h : Ordered w) (room worker : Int) (id : Nat) :
    Ordered (w.removeWorker room worker id) := by
  unfold Workers.removeWorker
  cases located : w.rooms.lookup room with
  | none => exact h
  | some found =>
    dsimp only
    split_ifs with occupied last
    · refine (h.vacate located occupied).congr ?_ ?_ ?_
      · exact Workers.armEmptyCleanupLocked_rooms _
      · exact armEmptyCleanupLocked_roomOrder _
      · exact Workers.armEmptyCleanupLocked_workers _
    · exact h.vacate located occupied
    · exact h
end Ordered
namespace ServerBond
variable (b : ServerBond)
def Attached (room : Int) (object : Nat) : Prop :=
  ∃ found slot, b.registry.rooms.lookup room = some found ∧ found.workers.lookup slot = some object

def queue (object : Nat) : List Frame := ((b.objects[object]?).map (·.send)).getD []
def HasRoom (object : Nat) : Prop := (b.queue object).length < bondWorkerQueue
def Free (room : Int) : Prop := ∃ object, b.Attached room object ∧ b.HasRoom object

def active (id : Int) : Bool :=
  (b.registry.rooms.lookup id).any fun room => decide (0 < size room.workers)

def activeIds : List Int := b.registry.roomOrder.filter b.active
end ServerBond
variable {b t : ServerBond} {object : Nat} {frame : Frame} {id : Int}
open ServerBond

/-- The registry is in order, and every slot holds an object that was made for it. -/
structure Registered (b : ServerBond) : Prop where
  ordered : Ordered b.registry
  made : ∀ room found slot object, b.registry.rooms.lookup room = some found →
    found.workers.lookup slot = some object →
    ∃ worker, b.objects[object]? = some worker ∧ worker.room = room ∧ worker.worker = slot

namespace Registered
lemma empty (primaryRoom : Int) : Registered { primaryRoom := primaryRoom } :=
  ⟨Ordered.empty, fun room found slot object located => by simp at located⟩

lemma congr {b'} (h : Registered b) (ordered : Ordered b'.registry)
    (fewer : ∀ room found slot object, b'.registry.rooms.lookup room = some found →
      found.workers.lookup slot = some object → ∃ found,
        b.registry.rooms.lookup room = some found ∧ found.workers.lookup slot = some object)
    (objects : ∀ (object : Nat) (worker : BondWorker), b.objects[object]? = some worker →
      ∃ worker', b'.objects[object]? = some worker' ∧ worker'.room = worker.room ∧
        worker'.worker = worker.worker) : Registered b' := by
  refine ⟨ordered, ?_⟩
  intro room found slot object located occupied
  obtain ⟨old, oldLocated, oldOccupied⟩ := fewer room found slot object located occupied
  obtain ⟨worker, present, sameRoom, sameSlot⟩ := h.made room old slot object oldLocated oldOccupied
  obtain ⟨worker', present', room', slot'⟩ := objects object worker present
  exact ⟨worker', present', room'.trans sameRoom, slot'.trans sameSlot⟩

section
variable (h : Registered b)
include h
lemma present (listed : id ∈ b.registry.roomOrder) :
    ∃ room, b.registry.rooms.lookup id = some room :=
  isSome_iff_exists.mp ((h.ordered.rooms.mem_iff id).mp listed)

lemma isActive_eq (listed : id ∈ b.registry.roomOrder) : b.isActive id = .ok (b.active id) := by
  obtain ⟨room, found⟩ := h.present listed
  simp only [isActive, active, found, any_some]
  rfl

lemma countActive_eq : b.countActive b.registry.roomOrder = .ok b.activeIds.length := by
  have count : ∀ (ids : List Int) (n : Nat), (∀ id ∈ ids, id ∈ b.registry.roomOrder) →
      ids.foldlM (fun active id => do return if ← b.isActive id then active + 1 else active) n =
        (.ok (n + (ids.filter b.active).length) : Except Panic Nat) := by
    intro ids
    induction ids with
    | nil => intro n _; rfl
    | cons id rest ih =>
      intro n listed
      obtain ⟨here, later⟩ := forall_mem_cons.mp listed
      rw [foldlM_cons_ok]
      refine ⟨if b.active id then n + 1 else n, ?_, ?_⟩
      · rw [h.isActive_eq here]
        rfl
      · rw [ih _ later, filter_cons]
        split_ifs
        · rw [length_cons, Nat.add_right_comm, Nat.add_assoc]
        · rfl
  have counted := count b.registry.roomOrder 0 (fun id member => member)
  rw [Nat.zero_add] at counted
  exact counted

lemma activeRoomAt_eq {i} (found : b.activeIds[i]? = some id) :
    b.activeRoomAt i 0 b.registry.roomOrder = .ok id := by
  have walk : ∀ (ids : List Int) (k ordinal : Nat), (∀ id ∈ ids, id ∈ b.registry.roomOrder) →
      (ids.filter b.active)[k]? = some id → b.activeRoomAt (ordinal + k) ordinal ids = .ok id := by
    intro ids
    induction ids with
    | nil => intro k ordinal _ found; simp at found
    | cons head rest ih =>
      intro k ordinal listed found
      obtain ⟨here, later⟩ := forall_mem_cons.mp listed
      rw [activeRoomAt, h.isActive_eq here]
      rw [filter_cons] at found
      cases act : b.active head with
      | false =>
        rw [act] at found
        exact ih k ordinal later found
      | true =>
        rw [act] at found
        cases k with
        | zero =>
          obtain rfl : head = id := by simpa using found
          simp
        | succ k =>
          have onward := ih k (ordinal + 1) later (by simpa using found)
          rw [Nat.add_right_comm, Nat.add_assoc] at onward
          rw [if_neg (by omega)]
          exact onward
  have started := walk b.registry.roomOrder i 0 (fun id member => member) found
  rwa [Nat.zero_add] at started
end
end Registered

/-- The ids from the first one that is not below `primary`, around to the ones before it. -/
def cyclicFrom (primary : Int) (ids : List Int) : List Int :=
  ids.dropWhile (· < primary) ++ ids.takeWhile (· < primary)

namespace Registered
lemma primaryStart_eq (h : Registered b) : ∃ start,
    b.primaryStart 0 b.registry.roomOrder = .ok start ∧
      b.activeIds.rotate start = cyclicFrom b.primaryRoom b.activeIds := by
  have walk : ∀ (ids : List Int) (ordinal : Nat), (∀ id ∈ ids, id ∈ b.registry.roomOrder) →
      b.primaryStart ordinal ids =
        .ok (if (ids.filter b.active).dropWhile (· < b.primaryRoom) = [] then 0
          else ordinal + ((ids.filter b.active).takeWhile (· < b.primaryRoom)).length) := by
    intro ids
    induction ids with
    | nil => intro ordinal _; rfl
    | cons head rest ih =>
      intro ordinal listed
      obtain ⟨here, later⟩ := forall_mem_cons.mp listed
      rw [primaryStart, h.isActive_eq here, filter_cons]
      cases act : b.active head with
      | false => exact ih ordinal later
      | true =>
        by_cases below : head < b.primaryRoom
        · simp only [ok_bind, if_true, if_neg (not_le.mpr below), ih _ later,
            dropWhile_cons, takeWhile_cons, below, decide_true, length_cons]
          split_ifs
          · rfl
          · rw [Nat.add_right_comm, Nat.add_assoc]
        · simp [below, not_lt.mp below]
  refine ⟨_, walk b.registry.roomOrder 0 (fun id member => member), ?_⟩
  have whole : b.activeIds.takeWhile (· < b.primaryRoom) ++
      b.activeIds.dropWhile (· < b.primaryRoom) = b.activeIds := takeWhile_append_dropWhile
  rw [cyclicFrom]
  split_ifs with none
  · rw [show b.activeIds.dropWhile (· < b.primaryRoom) = [] from none] at whole ⊢
    rw [rotate_zero, nil_append]
    rw [append_nil] at whole
    exact whole.symm
  · conv_lhs => rw [← whole]
    rw [Nat.zero_add]
    exact rotate_append_length_eq _ _
end Registered

structure Agrees (b t : ServerBond) : Prop where
  registry : t.registry = b.registry
  objects : t.objects = b.objects
  primaryRoom : t.primaryRoom = b.primaryRoom

/-- One channel has one more frame; only counters and turns may differ otherwise. -/
structure Places (b t : ServerBond) (object : Nat) (frame : Frame) : Prop where
  registry : t.registry = b.registry
  primaryRoom : t.primaryRoom = b.primaryRoom
  objects : ∃ worker, b.objects[object]? = some worker ∧
    t.objects = b.objects.set object { worker with send := worker.send ++ [frame] }

lemma Agrees.refl (b : ServerBond) : Agrees b b := ⟨rfl, rfl, rfl⟩

namespace Places
lemma queue_self (h : Places b t object frame) : t.queue object = b.queue object ++ [frame] := by
  obtain ⟨worker, present, changed⟩ := h.objects
  have inside := Machine.lt_of_getElem? present
  rw [queue, queue, changed, present, getElem?_set_self inside]
  rfl

lemma queue_other {other} (h : Places b t object frame) (different : other ≠ object) :
    t.queue other = b.queue other := by
  obtain ⟨worker, present, changed⟩ := h.objects
  rw [queue, queue, changed, getElem?_set_ne different.symm]
end Places
section
variable {s : ServerBond} {payloadLen : Nat} {room : BondRoom} {i : Nat}
lemma Registered.worker_at (h : Registered b)
    (located : b.registry.rooms.lookup id = some room) (inside : i < room.workerOrder.length) :
    ∃ slot object worker, room.workerOrder[i]? = some slot ∧
      room.workers.lookup slot = some object ∧ b.objects[object]? = some worker := by
  have listed := h.ordered.workers id room located
  have member : room.workerOrder[i] ∈ room.workerOrder := getElem_mem inside
  obtain ⟨object, occupied⟩ := isSome_iff_exists.mp ((listed.mem_iff _).mp member)
  obtain ⟨worker, present, -⟩ := h.made id room _ object located occupied
  exact ⟨room.workerOrder[i], object, worker, getElem?_eq_getElem inside, occupied, present⟩

def AcceptsAt (b : ServerBond) (room : BondRoom) (i : Nat) : Prop :=
  ∃ slot object, room.workerOrder[i]? = some slot ∧ room.workers.lookup slot = some object ∧
    b.HasRoom object

lemma offer_eq {slot object worker roomIndex} (order : room.workerOrder[i]? = some slot)
    (occupied : room.workers.lookup slot = some object)
    (present : s.objects[object]? = some worker) :
    offer frame payloadLen roomIndex id room s i =
      if worker.send.length < bondWorkerQueue then
        .ok (s.sent frame payloadLen roomIndex id i object worker, true)
      else .ok (s.refused id, false) := by
  rw [offer, index_of_getElem? order]
  simp only [ok_bind, occupied, present, deref]

lemma offer_accept (payloadLen roomIndex : Nat) (h : Registered b)
    (located : b.registry.rooms.lookup id = some room) (same : Agrees b s)
    (accepts : AcceptsAt b room i) :
    ∃ t, offer frame payloadLen roomIndex id room s i = .ok (t, true) ∧
      ∃ object, b.Attached id object ∧ b.HasRoom object ∧ Places b t object frame := by
  obtain ⟨slot, object, order, occupied, space⟩ := accepts
  obtain ⟨worker, present, -⟩ := h.made id room slot object located occupied
  have short : worker.send.length < bondWorkerQueue := by
    rw [HasRoom, queue, present] at space
    exact space
  refine ⟨s.sent frame payloadLen roomIndex id i object worker, ?_, object, ?_, space, ?_⟩
  · rw [offer_eq order occupied (same.objects ▸ present), if_pos short]
  · exact ⟨room, slot, located, occupied⟩
  · refine ⟨same.registry, same.primaryRoom, worker, present, ?_⟩
    simp only [sent, same.objects]

lemma offer_refuse (payloadLen roomIndex : Nat) (h : Registered b)
    (located : b.registry.rooms.lookup id = some room) (same : Agrees b s)
    (inside : i < room.workerOrder.length) (refuses : ¬ AcceptsAt b room i) :
    ∃ t, offer frame payloadLen roomIndex id room s i = .ok (t, false) ∧ Agrees b t := by
  obtain ⟨slot, object, worker, order, occupied, present⟩ := h.worker_at located inside
  have full : ¬ worker.send.length < bondWorkerQueue := by
    intro short
    refine refuses ⟨slot, object, order, occupied, ?_⟩
    rw [HasRoom, queue, present]
    exact short
  refine ⟨s.refused id, ?_, same.registry, same.objects, same.primaryRoom⟩
  rw [offer_eq order occupied (same.objects ▸ present), if_neg full]

lemma Registered.free_iff (h : Registered b) (located : b.registry.rooms.lookup id = some room) :
    b.Free id ↔ ∃ i < room.workerOrder.length, AcceptsAt b room i := by
  constructor
  · rintro ⟨object, ⟨found, slot, there, occupied⟩, space⟩
    obtain rfl : room = found := some.inj (located.symm.trans there)
    have listed : slot ∈ room.workerOrder := by
      rw [(h.ordered.workers id room located).mem_iff, occupied]
      rfl
    obtain ⟨i, order⟩ := getElem?_of_mem listed
    exact ⟨i, Machine.lt_of_getElem? order, slot, object, order, occupied, space⟩
  · rintro ⟨i, -, slot, object, -, occupied, space⟩
    exact ⟨object, ⟨room, slot, located, occupied⟩, space⟩

lemma Agrees.activeRoomAt (same : Agrees b s) (want ordinal : Nat) (ids : List Int) :
    s.activeRoomAt want ordinal ids = b.activeRoomAt want ordinal ids := by
  induction ids generalizing ordinal with
  | nil => rw [ServerBond.activeRoomAt, ServerBond.activeRoomAt, same.registry]
  | cons head rest ih => simp only [ServerBond.activeRoomAt, isActive, same.registry, ih]

lemma offerRoom_spec {roomIndex} (frame : Frame) (payloadLen : Nat) (h : Registered b)
    (same : Agrees b s)
    (found : b.activeIds[roomIndex]? = some id) :
    (b.Free id → ∃ t, offerRoom frame payloadLen s roomIndex = .ok (t, true) ∧
      ∃ object, b.Attached id object ∧ b.HasRoom object ∧ Places b t object frame) ∧
    (¬ b.Free id → ∃ t, offerRoom frame payloadLen s roomIndex = .ok (t, false) ∧ Agrees b t) := by
  obtain ⟨listed, act⟩ := mem_filter.mp (mem_of_getElem? found)
  obtain ⟨room, located⟩ := h.present listed
  have occupiedRoom : 0 < room.workerOrder.length := by
    rw [(h.ordered.workers id room located).length_eq]
    simpa [active, located] using act
  have opens : offerRoom frame payloadLen s roomIndex =
      seek (offer frame payloadLen roomIndex id room) s
        (cycle room.workerOrder.length ((s.turn id).rr % room.workerOrder.length)) := by
    rw [offerRoom, same.activeRoomAt, same.registry, h.activeRoomAt_eq found]
    simp only [ok_bind, located, deref, modulo_of_pos occupiedRoom]
  rw [opens]
  generalize (s.turn id).rr % room.workerOrder.length = start
  have accept : ∀ s, Agrees b s → ∀ i ∈ cycle room.workerOrder.length start, AcceptsAt b room i →
      ∃ t, offer frame payloadLen roomIndex id room s i = .ok (t, true) ∧
        ∃ object, b.Attached id object ∧ b.HasRoom object ∧ Places b t object frame :=
    fun s agrees i _ accepts => offer_accept payloadLen roomIndex h located agrees accepts
  have refuse : ∀ s, Agrees b s → ∀ i ∈ cycle room.workerOrder.length start,
      ¬ AcceptsAt b room i →
      ∃ t, offer frame payloadLen roomIndex id room s i = .ok (t, false) ∧ Agrees b t :=
    fun s agrees i member refuses =>
      offer_refuse payloadLen roomIndex h located agrees (mem_cycle member) refuses
  rw [h.free_iff located]
  rcases seek_spec accept refuse same with
    ⟨t, ended, agrees, none⟩ | ⟨before, i, after, t, whole, -, accepts, ended, placed⟩
  · refine ⟨?_, fun _ => ⟨t, ended, agrees⟩⟩
    rintro ⟨i, inside, accepts⟩
    exact absurd accepts (none i (mem_cycle_of_lt start inside))
  · have member : i ∈ cycle room.workerOrder.length start := by
      rw [whole]
      exact mem_append_right before mem_cons_self
    exact ⟨fun _ => ⟨t, ended, placed⟩,
      fun refused => absurd ⟨i, mem_cycle member, accepts⟩ refused⟩
end
lemma Registered.mem_activeIds (h : Registered b) {id : Int} (free : b.Free id) :
    id ∈ b.activeIds := by
  obtain ⟨object, ⟨room, slot, located, occupied⟩, -⟩ := free
  have fewer := size_erase_of_lookup occupied
  refine mem_filter.mpr ⟨?_, ?_⟩
  · rw [h.ordered.rooms.mem_iff, located]
    rfl
  · rw [active, located, any_some, decide_eq_true_eq]
    omega

lemma seek_rooms (h : Registered b) (frame : Frame) (payloadLen start : Nat) :
    (∃ t, seek (offerRoom frame payloadLen) b (cycle b.activeIds.length start) = .ok (t, false) ∧
      Agrees b t ∧ ∀ id, ¬ b.Free id) ∨
    ∃ t id object former latter,
      seek (offerRoom frame payloadLen) b (cycle b.activeIds.length start) = .ok (t, true) ∧
      b.activeIds.rotate start = former ++ id :: latter ∧ (∀ other ∈ former, ¬ b.Free other) ∧
      b.Attached id object ∧ b.HasRoom object ∧ Places b t object frame := by
  have located : ∀ i ∈ cycle b.activeIds.length start, ∃ id, b.activeIds[i]? = some id :=
    fun i member => ⟨_, getElem?_eq_getElem (mem_cycle member)⟩
  have accept : ∀ s, Agrees b s → ∀ i ∈ cycle b.activeIds.length start,
      (∃ id, b.activeIds[i]? = some id ∧ b.Free id) →
      ∃ t, offerRoom frame payloadLen s i = .ok (t, true) ∧ ∃ id object,
        b.activeIds[i]? = some id ∧ b.Attached id object ∧ b.HasRoom object ∧
          Places b t object frame := by
    rintro s agrees i - ⟨id, found, free⟩
    obtain ⟨t, ended, object, placed⟩ := (offerRoom_spec frame payloadLen h agrees found).1 free
    exact ⟨t, ended, id, object, found, placed⟩
  have refuse : ∀ s, Agrees b s → ∀ i ∈ cycle b.activeIds.length start,
      ¬ (∃ id, b.activeIds[i]? = some id ∧ b.Free id) →
      ∃ t, offerRoom frame payloadLen s i = .ok (t, false) ∧ Agrees b t := by
    intro s agrees i member refuses
    obtain ⟨id, found⟩ := located i member
    exact (offerRoom_spec frame payloadLen h agrees found).2 fun free => refuses ⟨id, found, free⟩
  rcases seek_spec accept refuse (Agrees.refl b) with
    ⟨t, ended, agrees, none⟩ |
      ⟨before, i, after, t, whole, refused, accepts, ended, id, object, found, placed⟩
  · refine .inl ⟨t, ended, agrees, ?_⟩
    intro id free
    obtain ⟨i, found⟩ := getElem?_of_mem (h.mem_activeIds free)
    have inside := Machine.lt_of_getElem? found
    exact none i (mem_cycle_of_lt start inside) ⟨id, found, free⟩
  · obtain ⟨former, latter, rotated, earlier⟩ := rotate_split whole found
    refine .inr ⟨t, id, object, former, latter, ended, rotated, ?_, placed⟩
    intro other member free
    obtain ⟨j, seen, here⟩ := earlier other member
    exact refused j seen ⟨other, here, free⟩

lemma Agrees.countDrop {t} (h : Agrees b t) : Agrees b t.countDrop :=
  ⟨h.registry, h.objects, h.primaryRoom⟩

lemma schedule_spec (h : Registered b) (frame : Frame) (payloadLen : Nat) :
    (∃ t, b.schedule frame payloadLen = .ok (t, false) ∧ Agrees b t ∧ ∀ id, ¬ b.Free id) ∨
    ∃ t id object, b.schedule frame payloadLen = .ok (t, true) ∧ b.Attached id object ∧
      b.HasRoom object ∧ Places b t object frame ∧
      (payloadLen ≤ bondSmallPacketMax → ∃ former latter,
        cyclicFrom b.primaryRoom b.activeIds = former ++ id :: latter ∧
          ∀ other ∈ former, ¬ b.Free other) := by
  by_cases none : b.activeIds.length = 0
  · have empty : b.activeIds = [] := length_eq_zero_iff.mp none
    refine .inl ⟨b.countDrop, ?_, (Agrees.refl b).countDrop, ?_⟩
    · rw [schedule, h.countActive_eq, ok_bind, if_pos none]
    · intro id free
      have member := h.mem_activeIds free
      rw [empty] at member
      exact not_mem_nil member
  · obtain ⟨start, started, small⟩ : ∃ start, b.startOf payloadLen b.activeIds.length = .ok start ∧
        (payloadLen ≤ bondSmallPacketMax →
          b.activeIds.rotate start = cyclicFrom b.primaryRoom b.activeIds) := by
      unfold startOf
      split_ifs with size
      · obtain ⟨start, found, rotated⟩ := h.primaryStart_eq
        exact ⟨start, found, fun _ => rotated⟩
      · exact ⟨_, modulo_of_pos (by omega), fun small => absurd small size⟩
    have opens : b.schedule frame payloadLen = (do
          let (tried, sent) ← seek (offerRoom frame payloadLen) b (cycle b.activeIds.length start)
          if sent then .ok (tried, true) else .ok (tried.countDrop, false)) := by
      rw [schedule, h.countActive_eq, ok_bind, if_neg none, started]
      rfl
    rw [opens]
    rcases seek_rooms h frame payloadLen start with
      ⟨t, ended, agrees, full⟩ |
        ⟨t, id, object, former, latter, ended, rotated, refused, attached, space, placed⟩ <;>
      rw [ended]
    · exact .inl ⟨t.countDrop, rfl, agrees.countDrop, full⟩
    · refine .inr ⟨t, id, object, rfl, attached, space, placed, ?_⟩
      intro size
      exact ⟨former, latter, (small size).symm.trans rotated, refused⟩
namespace Registered
lemma cancelOld_keeps (b : ServerBond) (room worker : Int) {object : Nat} {found : BondWorker}
    (present : b.objects[object]? = some found) :
    ∃ found', (b.cancelOld room worker)[object]? = some found' ∧ found'.room = found.room ∧
      found'.worker = found.worker := by
  unfold cancelOld
  cases b.occupant room worker with
  | none => exact ⟨found, present, rfl, rfl⟩
  | some old =>
    rw [getElem?_modify, present]
    split_ifs <;> exact ⟨_, rfl, rfl, rfl⟩

lemma length_cancelOld (b : ServerBond) (room worker : Int) :
    (b.cancelOld room worker).length = b.objects.length := by
  unfold cancelOld
  cases b.occupant room worker with
  | none => rfl
  | some old => exact length_modify _ _ _

lemma removeWorker_fewer {other found slot} (w : Workers) (room worker : Int) (id : Nat)
    (located : (w.removeWorker room worker id).rooms.lookup other = some found)
    (occupied : found.workers.lookup slot = some object) :
    ∃ before, w.rooms.lookup other = some before ∧ before.workers.lookup slot = some object := by
  unfold Workers.removeWorker at located
  cases there : w.rooms.lookup room with
  | none =>
    rw [there] at located
    exact ⟨found, located, occupied⟩
  | some before =>
    rw [there] at located
    have inVacated : (w.vacate room worker before).rooms.lookup other = some found →
        ∃ before, w.rooms.lookup other = some before ∧
          before.workers.lookup slot = some object := by
      intro vacated
      simp only [Workers.vacate, lookup_insert] at vacated
      split_ifs at vacated with same
      · cases vacated
        exact ⟨before, same ▸ there, lookup_of_erase occupied⟩
      · exact ⟨found, vacated, occupied⟩
    dsimp only at located
    split_ifs at located
    · rw [Workers.armEmptyCleanupLocked_rooms] at located
      exact inVacated located
    · exact inVacated located
    · exact ⟨found, located, occupied⟩

section
variable (h : Registered b)
include h
lemma addWorker (room worker : Int) : Registered (b.addWorker room worker) := by
  refine ⟨h.ordered.addWorker room worker b.objects.length, ?_⟩
  have old : ∀ other found slot object, b.registry.rooms.lookup other = some found →
      found.workers.lookup slot = some object → ∃ entry,
        (b.cancelOld room worker ++ [{ room := room, worker := worker }])[object]? = some entry ∧
          entry.room = other ∧ entry.worker = slot := by
    intro other found slot object located occupied
    obtain ⟨entry, present, sameRoom, sameSlot⟩ := h.made other found slot object located occupied
    obtain ⟨entry', present', room', slot'⟩ := cancelOld_keeps b room worker present
    have inside := Machine.lt_of_getElem? present'
    refine ⟨entry', ?_, room'.trans sameRoom, slot'.trans sameSlot⟩
    rw [getElem?_append_left inside]
    exact present'
  intro other found slot object located occupied
  simp only [ServerBond.addWorker, Workers.addWorker, lookup_insert] at located
  split_ifs at located with same
  · cases located
    subst same
    simp only [BondRoom.seat, lookup_insert] at occupied
    split_ifs at occupied with here
    · cases occupied
      subst here
      refine ⟨{ room := other, worker := slot }, ?_, rfl, rfl⟩
      simp only [ServerBond.addWorker]
      rw [← length_cancelOld b other slot, getElem?_concat_length]
    · unfold Workers.openRoom at occupied
      cases there : b.registry.rooms.lookup other with
      | none =>
        rw [there] at occupied
        simp at occupied
      | some before =>
        rw [there] at occupied
        exact old other before slot object there occupied
  · exact old other found slot object located occupied

lemma removeWorker (moved : b.removeWorker object = some t) : Registered t := by
  obtain ⟨found, -, rfl⟩ := map_eq_some_iff.mp moved
  refine h.congr (h.ordered.removeWorker found.room found.worker object) ?_ ?_
  · intro room after slot other located occupied
    exact removeWorker_fewer b.registry found.room found.worker object located occupied
  · intro other worker present
    exact ⟨worker, present, rfl, rfl⟩

lemma set_send {worker send} (registry : t.registry = b.registry)
    (present : b.objects[object]? = some worker)
    (objects : t.objects = b.objects.set object { worker with send := send }) : Registered t := by
  refine h.congr (registry ▸ h.ordered) ?_ ?_
  · rw [registry]
    intro room found slot other located occupied
    exact ⟨found, located, occupied⟩
  · intro other found there
    rw [objects, getElem?_set]
    by_cases same : object = other
    · subst same
      obtain rfl : worker = found := some.inj (present.symm.trans there)
      have inside := Machine.lt_of_getElem? there
      exact ⟨{ worker with send := send }, by simp [inside], rfl, rfl⟩
    · exact ⟨found, by simp [same, there], rfl, rfl⟩

lemma schedule {frame : Frame} {payloadLen : Nat} {sent : Bool}
    (moved : b.schedule frame payloadLen = .ok (t, sent)) : Registered t := by
  rcases schedule_spec h frame payloadLen with
    ⟨u, ended, agrees, -⟩ | ⟨u, id, object, ended, -, -, placed, -⟩ <;>
    obtain ⟨rfl, -⟩ := Prod.mk.inj (Except.ok.inj (moved.symm.trans ended))
  · refine h.congr (agrees.registry ▸ h.ordered) ?_ ?_
    · rw [agrees.registry]
      intro room found slot other located occupied
      exact ⟨found, located, occupied⟩
    · rw [agrees.objects]
      intro other worker present
      exact ⟨worker, present, rfl, rfl⟩
  · obtain ⟨worker, present, objects⟩ := placed.objects
    exact h.set_send placed.registry present objects

lemma drain (moved : b.drain object = some t) : Registered t := by
  unfold ServerBond.drain at moved
  cases present : b.objects[object]? with
  | none => simp [present] at moved
  | some found =>
    cases queued : found.send with
    | nil => simp [present, queued] at moved
    | cons head rest =>
      simp only [present, queued] at moved
      cases moved
      exact h.set_send rfl present rfl
end

lemma step {l} (h : Registered b) (moved : step b l = some t) : Registered t := by
  cases l with
  | addWorker room worker =>
    cases moved
    exact h.addWorker room worker
  | removeWorker object => exact h.removeWorker moved
  | schedule frame payloadLen =>
    obtain ⟨⟨u, sent⟩, ended, rfl⟩ := map_eq_some_iff.mp moved
    exact h.schedule (toOption_eq_some.mp ended)
  | drain object => exact h.drain moved
end Registered

/-- In every state a bond can reach, whatever the order of joins, leaves, stale removals, sends
and drains, the registry is in order and the scheduler does what it is for. -/
theorem registry_and_schedule (primaryRoom : Int) {labels : List Label} {b : ServerBond}
    (arrive : run step { primaryRoom := primaryRoom } labels = some b) (frame : Frame)
    (payloadLen : Nat) :
    b.registry.workers = (total (fun room => size room.workers) b.registry.rooms : Nat) ∧
      Lists b.registry.roomOrder b.registry.rooms ∧
      (∀ id room, b.registry.rooms.lookup id = some room → Lists room.workerOrder room.workers) ∧
      ∃ t sent, b.schedule frame payloadLen = .ok (t, sent) ∧
        (sent = true ↔ ∃ room object, b.Attached room object ∧ b.HasRoom object) ∧
        (sent = false → ∀ object, t.queue object = b.queue object) ∧
        (sent = true → ∃ room object, b.Attached room object ∧ b.HasRoom object ∧
          t.queue object = b.queue object ++ [frame] ∧
          (∀ other, other ≠ object → t.queue other = b.queue other) ∧
          (payloadLen ≤ bondSmallPacketMax → ∃ former latter,
            cyclicFrom b.primaryRoom b.activeIds = former ++ room :: latter ∧
              ∀ earlier ∈ former, ¬ b.Free earlier)) := by
  have h : Registered b := run_invariant Registered.step (Registered.empty primaryRoom) arrive
  refine ⟨h.ordered.counted, h.ordered.rooms, h.ordered.workers, ?_⟩
  rcases schedule_spec h frame payloadLen with
    ⟨t, ended, agrees, full⟩ | ⟨t, room, object, ended, attached, space, placed, first⟩
  · refine ⟨t, false, ended, ?_, ?_, nofun⟩
    · refine ⟨nofun, ?_⟩
      rintro ⟨room, object, attached, space⟩
      exact absurd ⟨object, attached, space⟩ (full room)
    · intro _ object
      rw [queue, queue, agrees.objects]
  · refine ⟨t, true, ended, ?_, nofun, ?_⟩
    · exact ⟨fun _ => ⟨room, object, attached, space⟩, fun _ => rfl⟩
    · intro _
      exact ⟨room, object, attached, space, placed.queue_self, fun other => placed.queue_other,
        first⟩

def replacedWorker : List Label :=
  [Label.addWorker 3 0, .addWorker 1 5, .addWorker 1 5, .removeWorker 1]

theorem registry_and_schedule_replaced : ∃ b t,
    run step { primaryRoom := 2 } replacedWorker = some b ∧ b.registry.roomOrder = [1, 3] ∧
      b.registry.workers = 2 ∧ b.schedule [7] 1 = .ok (t, true) ∧ t.queue 0 = [[7]] ∧
      Lists b.registry.roomOrder b.registry.rooms := by
  obtain ⟨b, arrive, rooms, workers, outcome⟩ : ∃ b,
      run step { primaryRoom := 2 } replacedWorker = some b ∧ b.registry.roomOrder = [1, 3] ∧
        b.registry.workers = 2 ∧
        (b.schedule [7] 1).toOption.map (fun r => (r.2, r.1.queue 0)) = some (true, [[7]]) := by
    decide +kernel
  obtain ⟨-, lists, -, t, sent, ended, -⟩ := registry_and_schedule 2 arrive [7] 1
  rw [ended] at outcome
  simp only [Except.toOption, map_some, some.injEq, Prod.mk.injEq] at outcome
  obtain ⟨rfl, queued⟩ := outcome
  exact ⟨b, t, arrive, rooms, workers, ended, queued, lists⟩
end Tamizdat.Wgturn.BondSchedule
