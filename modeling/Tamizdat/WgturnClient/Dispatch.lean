/- source: internal/wgturnclient/bondv2.go, shaper.go, dispatcher.go
   digest: Bond frames, which worker a packet gets, and their numbers. -/

import Tamizdat.Machine.Bytes
import Tamizdat.Machine.Maps
import Tamizdat.Machine.Runs
import Mathlib.Data.List.Dedup

set_option autoImplicit false

open List Option
namespace Tamizdat.WgturnClient
namespace Frames
open Machine.Bytes (putBE getBE getBE_putBE putBE_take)
def bondMagic : List UInt8 := [84, 90, 66, 50]
def bondVersion : UInt8 := 2
def bondHeaderLen : Nat := 16
def bondMaxBindJSON : Nat := 4096
def bondMaxDataPayload : Nat := 4096
def bondFlagLatency : UInt16 := 1

/-- The frame types are bytes; only the seven named ones are valid. -/
abbrev BondFrameType := UInt8

def bondFrameBind : BondFrameType := 1
def bondFrameData : BondFrameType := 5
def bondFrameKeepalive : BondFrameType := 6
def bondFrameError : BondFrameType := 7

structure BondFrame where
  type : BondFrameType
  flags : UInt16
  seq : UInt64
  payload : List UInt8
deriving DecidableEq

def limit (type : BondFrameType) : Nat :=
  if type = bondFrameBind then bondMaxBindJSON else bondMaxDataPayload

def header (frame : BondFrame) : List UInt8 :=
  bondMagic ++ [bondVersion, frame.type] ++ putBE 2 frame.flags.toNat ++ putBE 8 frame.seq.toNat

def encodeBondFrame (frame : BondFrame) : Except String (List UInt8) :=
  if frame.type < bondFrameBind ∨ bondFrameError < frame.type then
    .error ("invalid bond frame type " ++ toString frame.type.toNat)
  else if limit frame.type < frame.payload.length then .error "bond frame payload too large"
  else .ok (header frame ++ frame.payload)

def decodeBondFrame (buf : List UInt8) : Except String BondFrame :=
  if buf.length < bondHeaderLen then .error "bond frame too short"
  else if buf.take 4 ≠ bondMagic then .error "bond bad magic"
  else
    let version := buf.getD 4 0
    let type := buf.getD 5 0
    let payload := buf.drop bondHeaderLen
    if version ≠ bondVersion then
      .error ("bond unsupported version " ++ toString version.toNat)
    else if type < bondFrameBind ∨ bondFrameError < type then
      .error ("bond unknown frame type " ++ toString type.toNat)
    else if limit type < payload.length then .error "bond frame payload too large"
    else
      .ok
        { type := type
          flags := UInt16.ofNat (getBE ((buf.drop 6).take 2))
          seq := UInt64.ofNat (getBE ((buf.drop 8).take 8))
          payload := payload }

def bondLatencyLane (flags : UInt16) : Bool × Bool :=
  if flags &&& ~~~bondFlagLatency ≠ 0 then (false, false)
  else (flags &&& bondFlagLatency ≠ 0, true)

@[simp] lemma length_header (frame : BondFrame) : (header frame).length = bondHeaderLen := by
  simp [header, bondMagic, bondHeaderLen]

lemma header_fields (frame : BondFrame) (payload : List UInt8) :
    (header frame ++ payload).take 4 = bondMagic ∧
      (header frame ++ payload).getD 4 0 = bondVersion ∧
      (header frame ++ payload).getD 5 0 = frame.type ∧
      ((header frame ++ payload).drop 6).take 2 = putBE 2 frame.flags.toNat ∧
      ((header frame ++ payload).drop 8).take 8 = putBE 8 frame.seq.toNat ∧
      (header frame ++ payload).drop bondHeaderLen = payload := by
  refine ⟨?_, ?_, ?_, ?_, ?_, ?_⟩
  · simp [header, bondMagic]
  · simp [header, bondMagic]
  · simp [header, bondMagic]
  · simp [header, bondMagic]
  · simp [header, bondMagic]
  · exact List.drop_left' (length_header frame)

lemma decode_of_encode {frame buf} (encoded : encodeBondFrame frame = .ok buf) :
    decodeBondFrame buf = .ok frame := by
  unfold encodeBondFrame at encoded
  split_ifs at encoded with invalid large
  obtain rfl := Except.ok.inj encoded
  obtain ⟨magic, version, type, flags, seq, payload⟩ := header_fields frame frame.payload
  have long : ¬ (header frame ++ frame.payload).length < bondHeaderLen := by
    rw [List.length_append, length_header]
    omega
  have flagBytes : getBE (putBE 2 frame.flags.toNat) = frame.flags.toNat :=
    getBE_putBE frame.flags.toNat_lt
  have seqBytes : getBE (putBE 8 frame.seq.toNat) = frame.seq.toNat :=
    getBE_putBE frame.seq.toNat_lt
  simp only [decodeBondFrame, long, magic, version, type, flags, seq, payload, flagBytes, seqBytes,
    invalid, large, if_false, ne_eq, not_true_eq_false, UInt16.ofNat_toNat, UInt64.ofNat_toNat]

lemma encode_of_decode {buf frame} (decoded : decodeBondFrame buf = .ok frame) :
    encodeBondFrame frame = .ok buf := by
  unfold decodeBondFrame at decoded
  split_ifs at decoded with short magic
  dsimp only at decoded
  split_ifs at decoded with version invalid large
  obtain ⟨⟩ := decoded
  have long : 16 ≤ buf.length := not_lt.mp short
  obtain ⟨flags, flagBytes⟩ := putBE_take (show 2 ≤ (buf.drop 6).length by grind)
  obtain ⟨seq, seqBytes⟩ := putBE_take (show 8 ≤ (buf.drop 8).length by grind)
  have pair : [buf.getD 4 0, buf.getD 5 0] = (buf.drop 4).take 2 := by
    rw [drop_eq_getElem_cons (by omega), drop_eq_getElem_cons (by omega)]
    grind
  rw [encodeBondFrame, if_neg invalid, if_neg large, header]
  dsimp only
  rw [UInt16.toNat_ofNat_of_lt' flags, UInt64.toNat_ofNat_of_lt' seq, flagBytes, seqBytes,
    ← not_not.mp magic, ← not_not.mp version, pair, ← take_add, ← take_add, ← take_add]
  exact congrArg _ (take_append_drop 16 buf)
end Frames
namespace Scheduler
open Machine.Folds (tryEach tryEach_spec)
open Machine.Maps
open Machine.Pool (getElem?_set_apply)
abbrev Time := Int
def bondSmallPacketMax : Nat := 384
def defaultWorkerRateBPS : Int := 7250
def workerBurstBytes : Int := 4500

/-- The arithmetic of the buckets, `float64` in the source. No law of it is used. -/
class Arithmetic (K : Type) extends Add K, Sub K, Mul K where
  less : K → K → Bool
  ofInt : Int → K
  seconds : Int → K

open Arithmetic (less ofInt seconds)
variable {K : Type}

structure WorkerTokenBucket (K : Type) where
  rateBytesPerSecond : K
  burst : K
  tokens : K
  lastRefill : Time

def newWorkerTokenBucket [Arithmetic K] (rateBPS : Int) (current : Time) : WorkerTokenBucket K where
  rateBytesPerSecond := ofInt (if rateBPS ≤ 0 then defaultWorkerRateBPS else rateBPS)
  burst := ofInt workerBurstBytes
  tokens := ofInt workerBurstBytes
  lastRefill := current

namespace WorkerTokenBucket
variable [Arithmetic K]
variable (b : WorkerTokenBucket K)
def capped (tokens : K) : K :=
  if less b.burst tokens then b.burst else tokens

def refill (now : Time) : WorkerTokenBucket K :=
  { b with
    tokens :=
      if b.lastRefill < now then
        b.capped (b.tokens + seconds (now - b.lastRefill) * b.rateBytesPerSecond)
      else b.tokens
    lastRefill := now }

def admitPacket (now : Time) (size : Nat) (latency : Bool) : WorkerTokenBucket K × Bool :=
  let filled := b.refill now
  let need : K := ofInt size
  if latency then ({ filled with tokens := filled.tokens - need }, true)
  else if less filled.tokens need then (filled, false)
  else ({ filled with tokens := filled.tokens - need }, true)

def refund (size : Nat) : WorkerTokenBucket K :=
  if size = 0 then b else { b with tokens := b.capped (b.tokens + ofInt size) }
end WorkerTokenBucket

structure SendCh where
  capacity : Nat
  queued : List (List UInt8)

structure WorkerSlot (K : Type) where
  id : Int
  roomID : Int
  sendCh : Option SendCh
  bucket : Option (WorkerTokenBucket K)

def workerQueueAvailable (w : WorkerSlot K) : Bool :=
  match w.sendCh with
  | none => false
  | some ch => 0 < ch.capacity ∧ ch.queued.length < ch.capacity

/-- An address outside stands for the nil pointer. -/
abbrev Slots (K : Type) := List (WorkerSlot K)

structure BondScheduler where
  roomRR : Nat
  primary : Int
  workerRateBPS : Int
  workerRR : GoMap Int Nat

def newBondScheduler (workerRate : Int) : BondScheduler where
  roomRR := 0
  primary := 0
  workerRateBPS := if 0 < workerRate then workerRate else defaultWorkerRateBPS
  workerRR := ∅

section
variable (slots : Slots K)
def activeRooms (workers : List Nat) : List Int :=
  ((workers.filterMap (fun p => (slots[p]?).map WorkerSlot.roomID)).dedup).insertionSort (· ≤ ·)

def around (start n : Nat) : List Nat := (List.range n).map (fun i => (start + i) % n)

/-- One round of the loop of `chooseInRoom`: the bucket of a worker with room in its queue is
asked. `clock` is the time that its bucket reads. -/
def askWorker [Arithmetic K] (rate : Int) (size : Nat) (clock : Nat → Time) (slots : Slots K)
    (p : Nat) : Slots K × Option Nat :=
  match slots[p]? with
  | none => (slots, none)
  | some w =>
    if workerQueueAvailable w then
      let bucket := w.bucket.getD (newWorkerTokenBucket rate (clock p))
      let asked := bucket.admitPacket (clock p) size (size ≤ bondSmallPacketMax)
      (slots.set p { w with bucket := some asked.1 }, if asked.2 then some p else none)
    else (slots, none)

def roomWorkers (workers : List Nat) (room : Int) : List Nat :=
  workers.filter (fun p => (slots[p]?).any (fun w => w.roomID = room))

def chooseInRoom [Arithmetic K] (s : BondScheduler) (slots : Slots K) (workers : List Nat)
    (room : Int) (size : Nat) (clock : Nat → Time) : (BondScheduler × Slots K) × Option Nat :=
  let inRoom := roomWorkers slots workers room
  let start := (s.workerRR.lookup room).getD 0 % inRoom.length
  let tried := tryEach (fun slots idx =>
      let asked := askWorker s.workerRateBPS size clock slots (inRoom.getD idx 0)
      (asked.1, asked.2.map (fun p => (idx, p)))) slots (around start inRoom.length)
  match tried.2 with
  | none => ((s, tried.1), none)
  | some (idx, p) =>
    (({ s with workerRR := s.workerRR.insert room ((idx + 1) % inRoom.length) }, tried.1), some p)

/-- The rooms are tried in turn from index `start`; `remember` is what the scheduler keeps of the
room that had a worker. -/
def chooseFrom [Arithmetic K] (remember : BondScheduler → Nat → Int → BondScheduler)
    (rooms : List Int) (start : Nat) (s : BondScheduler) (slots : Slots K) (workers : List Nat)
    (size : Nat) (clock : Nat → Time) : (BondScheduler × Slots K) × Option Nat :=
  tryEach (fun state idx =>
    let room := rooms.getD idx 0
    let chosen := chooseInRoom state.1 state.2 workers room size clock
    match chosen.2 with
    | none => (chosen.1, none)
    | some p => ((remember chosen.1.1 idx room, chosen.1.2), some p))
    (s, slots) (around start rooms.length)

def choose [Arithmetic K] (s : BondScheduler) (slots : Slots K) (workers : List Nat) (size : Nat)
    (clock : Nat → Time) : (BondScheduler × Slots K) × Option Nat :=
  let rooms := activeRooms slots workers
  if size ≤ bondSmallPacketMax then
    chooseFrom (fun s _ room => { s with primary := room }) rooms
      ((rooms.findIdx? (· = s.primary)).getD 0) s slots workers size clock
  else
    chooseFrom (fun s idx _ => { s with roomRR := (idx + 1) % rooms.length }) rooms
      (s.roomRR % rooms.length) s slots workers size clock

def channels : List (Option SendCh) := slots.map WorkerSlot.sendCh

def Ready (p : Nat) : Prop :=
  ∃ w, slots[p]? = some w ∧ workerQueueAvailable w = true ∧ w.bucket.isSome
end

lemma channels_set {slots p w} (found : slots[p]? = some w)
    (bucket : Option (WorkerTokenBucket K)) :
    channels (slots.set p { w with bucket := bucket }) = channels slots := by
  apply List.ext_getElem?
  intro q
  rw [channels, channels, List.getElem?_map, List.getElem?_map, getElem?_set_apply found]
  split_ifs with same
  · rw [same, found]
    rfl
  · rfl

lemma ready_set {p} {slots : Slots K} {w : WorkerSlot K} (found : slots[p]? = some w)
    (free : workerQueueAvailable w = true) (bucket : WorkerTokenBucket K) :
    Ready (slots.set p { w with bucket := some bucket }) p := by
  have here := getElem?_set_apply found { w with bucket := some bucket } p
  rw [if_pos rfl] at here
  exact ⟨_, here, free, rfl⟩

variable [Arithmetic K]
section
variable (clock : Nat → Time)
include clock
lemma askWorker_spec (rate : Int) (size : Nat) (slots : Slots K) (p : Nat) :
    channels (askWorker rate size clock slots p).1 = channels slots ∧
      ∀ q, (askWorker rate size clock slots p).2 = some q →
        Ready (askWorker rate size clock slots p).1 q := by
  unfold askWorker
  cases found : slots[p]? with
  | none => exact ⟨rfl, nofun⟩
  | some w =>
    dsimp only
    by_cases free : workerQueueAvailable w
    · rw [if_pos free]
      refine ⟨channels_set found _, ?_⟩
      intro q chosen
      dsimp only at chosen
      split_ifs at chosen with admitted
      cases chosen
      exact ready_set found free _
    · rw [if_neg free]
      exact ⟨rfl, nofun⟩

lemma chooseInRoom_spec (s : BondScheduler) (slots : Slots K) (workers : List Nat) (room : Int)
    (size : Nat) :
    channels (chooseInRoom s slots workers room size clock).1.2 = channels slots ∧
      ∀ p, (chooseInRoom s slots workers room size clock).2 = some p →
        Ready (chooseInRoom s slots workers room size clock).1.2 p := by
  let inRoom := roomWorkers slots workers room
  let attempt : Slots K → Nat → Slots K × Option (Nat × Nat) := fun slots idx =>
    ((askWorker s.workerRateBPS size clock slots (inRoom.getD idx 0)).1,
      (askWorker s.workerRateBPS size clock slots (inRoom.getD idx 0)).2.map (fun p => (idx, p)))
  have each : ∀ slots idx, channels (attempt slots idx).1 = channels slots ∧
      ∀ found : Nat × Nat, (attempt slots idx).2 = some found →
        Ready (attempt slots idx).1 found.2 := by
    intro slots idx
    obtain ⟨same, ready⟩ := askWorker_spec clock s.workerRateBPS size slots (inRoom.getD idx 0)
    refine ⟨same, ?_⟩
    intro found chosen
    obtain ⟨p, asked, rfl⟩ := Option.map_eq_some_iff.mp chosen
    exact ready p asked
  obtain ⟨same, ready⟩ := tryEach_spec channels
    (fun slots (found : Nat × Nat) => Ready slots found.2) each slots
    (around ((s.workerRR.lookup room).getD 0 % inRoom.length) inRoom.length)
  dsimp only [chooseInRoom]
  split
  · exact ⟨same, nofun⟩
  · next idx p outcome =>
    refine ⟨same, ?_⟩
    rintro q ⟨⟩
    exact ready (idx, p) outcome

lemma chooseFrom_spec (remember : BondScheduler → Nat → Int → BondScheduler) (rooms : List Int)
    (start : Nat) (s : BondScheduler) (slots : Slots K) (workers : List Nat) (size : Nat) :
    channels (chooseFrom remember rooms start s slots workers size clock).1.2 = channels slots ∧
      ∀ p, (chooseFrom remember rooms start s slots workers size clock).2 = some p →
        Ready (chooseFrom remember rooms start s slots workers size clock).1.2 p := by
  refine tryEach_spec (fun state => channels state.2) (fun state p => Ready state.2 p) ?_
    (s, slots) (around start rooms.length)
  rintro ⟨t, slots⟩ idx
  obtain ⟨same, ready⟩ := chooseInRoom_spec clock t slots workers (rooms.getD idx 0) size
  dsimp only
  split
  · exact ⟨same, nofun⟩
  · next p outcome =>
    refine ⟨same, ?_⟩
    rintro q ⟨⟩
    exact ready p outcome

lemma choose_spec (s : BondScheduler) (slots : Slots K) (workers : List Nat) (size : Nat) :
    channels (choose s slots workers size clock).1.2 = channels slots ∧
      ∀ p, (choose s slots workers size clock).2 = some p →
        Ready (choose s slots workers size clock).1.2 p := by
  dsimp only [choose]
  split_ifs <;> exact chooseFrom_spec clock _ _ _ s slots workers size
end
end Scheduler
namespace Dispatch
open Machine.Pool (getElem?_snoc)
open WgturnClient.Frames WgturnClient.Scheduler
variable {K : Type}

structure Sent where
  payload : List UInt8
  frame : List UInt8

/-- `sent` is the record of what was put into worker channels, in that order; the source has no
such field. Statistics and logs are left out. -/
structure Dispatcher (K : Type) where
  slots : Slots K
  workers : List Nat
  bondBulkSeq : UInt64
  bondLatencySeq : UInt64
  bondSched : BondScheduler
  workerRateBPS : Int
  sent : List Sent

def newDispatcher (workerRateBPS : Int) (slots : Slots K) : Dispatcher K where
  slots := slots
  workers := []
  bondBulkSeq := 0
  bondLatencySeq := 0
  bondSched := newBondScheduler (if workerRateBPS ≤ 0 then defaultWorkerRateBPS else workerRateBPS)
  workerRateBPS := if workerRateBPS ≤ 0 then defaultWorkerRateBPS else workerRateBPS
  sent := []

def latency (payload : List UInt8) : Bool := payload.length ≤ bondSmallPacketMax
def laneFlags (lane : Bool) : UInt16 := if lane then bondFlagLatency else 0

namespace Dispatcher
variable (d : Dispatcher K)
def counter (lane : Bool) : UInt64 :=
  if lane then d.bondLatencySeq else d.bondBulkSeq

def addCounter (lane : Bool) (delta : UInt64) : Dispatcher K :=
  if lane then { d with bondLatencySeq := d.bondLatencySeq + delta }
  else { d with bondBulkSeq := d.bondBulkSeq + delta }

def refund [Arithmetic K] (d : Dispatcher K) (p size : Nat) : Dispatcher K :=
  match d.slots[p]? with
  | none => d
  | some w => { d with slots := d.slots.set p { w with bucket := w.bucket.map (·.refund size) } }

/-- The non-blocking send. `raced` says that another writer has filled the queue meanwhile. -/
def trySend (p : Nat) (frame : List UInt8) (raced : Bool) : Option (Slots K) :=
  match d.slots[p]? with
  | none => none
  | some w =>
    match w.sendCh with
    | none => none
    | some ch =>
      if raced = false ∧ ch.queued.length < ch.capacity then
        some (d.slots.set p { w with sendCh := some { ch with queued := ch.queued ++ [frame] } })
      else none

/-- The part of `dispatchBond` after a worker was chosen: number the payload, encode it and try
to send it; the number and the tokens are given back where that fails. -/
def sendTo [Arithmetic K] (d : Dispatcher K) (p : Nat) (payload : List UInt8) (raced : Bool) :
    Dispatcher K :=
  let lane := latency payload
  let numbered := d.addCounter lane 1
  let undone := (numbered.addCounter lane (~~~0)).refund p payload.length
  match encodeBondFrame ⟨bondFrameData, laneFlags lane, numbered.counter lane, payload⟩ with
  | .error _ => undone
  | .ok frame =>
    match numbered.trySend p frame raced with
    | some slots => { numbered with slots := slots, sent := numbered.sent ++ [⟨payload, frame⟩] }
    | none => undone

def dispatchBond [Arithmetic K] (d : Dispatcher K) (payload : List UInt8) (clock : Nat → Time)
    (raced : Bool) : Dispatcher K :=
  if d.workers.length = 0 then d
  else
    let chosen := choose d.bondSched d.slots d.workers payload.length clock
    let d := { d with bondSched := chosen.1.1, slots := chosen.1.2 }
    match chosen.2 with
    | none => d
    | some p => d.sendTo p payload raced

def register [Arithmetic K] (d : Dispatcher K) (p : Nat) (now : Time) : Dispatcher K :=
  match d.slots[p]? with
  | none => d
  | some w =>
    { d with
      slots := d.slots.set p { w with bucket := some (newWorkerTokenBucket d.workerRateBPS now) }
      workers := d.workers ++ [p] }

def unregister (p : Nat) : Dispatcher K :=
  match d.slots[p]? with
  | none => d
  | some w =>
    if p ∈ d.workers then
      { d with slots := d.slots.set p { w with bucket := none }, workers := d.workers.erase p }
    else d

def take (p : Nat) : Dispatcher K :=
  match d.slots[p]? with
  | none => d
  | some w =>
    let rest := w.sendCh.map (fun ch => { ch with queued := ch.queued.tail })
    { d with slots := d.slots.set p { w with sendCh := rest } }
end Dispatcher

inductive Op
  | dispatchBond (payload : List UInt8) (clock : Nat → Time) (raced : Bool)
  | register (p : Nat) (now : Time)
  | unregister (p : Nat)
  | take (p : Nat)

def Dispatcher.step [Arithmetic K] (d : Dispatcher K) : Op → Dispatcher K
  | .dispatchBond payload clock raced => d.dispatchBond payload clock raced
  | .register p now => d.register p now
  | .unregister p => d.unregister p
  | .take p => d.take p

def Dispatcher.run [Arithmetic K] (d : Dispatcher K) (ops : List Op) : Dispatcher K :=
  ops.foldl Dispatcher.step d

def Dispatcher.lane (d : Dispatcher K) (lane : Bool) : List Sent :=
  d.sent.filter (fun e => latency e.payload = lane)

namespace Dispatcher
variable (d : Dispatcher K)
lemma lane_eq (lane : Bool) : d.lane lane = d.sent.filter (fun e => latency e.payload = lane) := rfl

lemma counter_addCounter (lane other : Bool) (delta : UInt64) :
    (d.addCounter lane delta).counter other =
      if other = lane then d.counter other + delta else d.counter other := by
  cases lane <;> cases other <;> rfl

lemma addCounter_frame (lane : Bool) (delta : UInt64) :
    (d.addCounter lane delta).slots = d.slots ∧ (d.addCounter lane delta).sent = d.sent := by
  cases lane <;> exact ⟨rfl, rfl⟩

lemma rollback (n : UInt64) : n + 1 + ~~~0 = n := by
  have zero : (1 : UInt64) + ~~~0 = 0 := by decide
  rw [UInt64.add_assoc, zero, UInt64.add_zero]

lemma refund_frame [Arithmetic K] (d : Dispatcher K) (p size : Nat) :
    channels (d.refund p size).slots = channels d.slots ∧ (d.refund p size).sent = d.sent ∧
      ∀ lane, (d.refund p size).counter lane = d.counter lane := by
  unfold refund
  cases found : d.slots[p]? with
  | none => exact ⟨rfl, rfl, fun _ => rfl⟩
  | some w => exact ⟨channels_set found _, rfl, fun _ => rfl⟩
end Dispatcher

structure Dropped (d d' : Dispatcher K) : Prop where
  channels_eq : channels d'.slots = channels d.slots
  sent_eq : d'.sent = d.sent
  counter_eq : ∀ lane, d'.counter lane = d.counter lane

/-- One frame went to the end of one queue, under the next number of its lane. -/
structure Enqueued (d d' : Dispatcher K) (payload : List UInt8) (p : Nat) (frame : List UInt8) :
    Prop where
  encoded : encodeBondFrame ⟨bondFrameData, laneFlags (latency payload),
    d.counter (latency payload) + 1, payload⟩ = .ok frame
  channels_eq : ∃ ch, (channels d.slots)[p]? = some (some ch) ∧ channels d'.slots =
      (channels d.slots).set p (some { ch with queued := ch.queued ++ [frame] })
  sent_eq : d'.sent = d.sent ++ [⟨payload, frame⟩]
  counter_eq : ∀ lane, d'.counter lane =
    if lane = latency payload then d.counter lane + 1 else d.counter lane

namespace Dispatcher
lemma dropped_of_rollback [Arithmetic K] (d : Dispatcher K) (lane : Bool) (p size : Nat) :
    Dropped d (((d.addCounter lane 1).addCounter lane (~~~0)).refund p size) := by
  obtain ⟨refunded, kept, counted⟩ :=
    refund_frame ((d.addCounter lane 1).addCounter lane (~~~0)) p size
  obtain ⟨slots, log⟩ := addCounter_frame d lane 1
  obtain ⟨slots', log'⟩ := addCounter_frame (d.addCounter lane 1) lane (~~~0)
  refine ⟨?_, ?_, ?_⟩
  · rw [refunded, slots', slots]
  · rw [kept, log', log]
  · intro other
    rw [counted, counter_addCounter, counter_addCounter]
    split_ifs
    · exact rollback _
    · rfl

variable {d : Dispatcher K} {p : Nat}
lemma trySend_some {raced} {frame : List UInt8} {slots : Slots K}
    (sent : d.trySend p frame raced = some slots) :
    ∃ ch, (channels d.slots)[p]? = some (some ch) ∧ channels slots =
        (channels d.slots).set p (some { ch with queued := ch.queued ++ [frame] }) := by
  unfold trySend at sent
  cases found : d.slots[p]? with
  | none =>
    rw [found] at sent
    cases sent
  | some w =>
    rw [found] at sent
    dsimp only at sent
    cases opened : w.sendCh with
    | none =>
      rw [opened] at sent
      cases sent
    | some ch =>
      rw [opened, ite_some_none_eq_some] at sent
      obtain ⟨-, rfl⟩ := sent
      refine ⟨ch, ?_, ?_⟩
      · rw [channels, getElem?_map, found, map_some, opened]
      · rw [channels, map_set]
        rfl

lemma sendTo_cases [Arithmetic K] (d : Dispatcher K) (p : Nat) (payload : List UInt8)
    (raced : Bool) :
    Dropped d (d.sendTo p payload raced) ∨
      ∃ frame, Enqueued d (d.sendTo p payload raced) payload p frame := by
  obtain ⟨slots_eq, log⟩ := addCounter_frame d (latency payload) 1
  have number : (d.addCounter (latency payload) 1).counter (latency payload) =
      d.counter (latency payload) + 1 := by
    rw [counter_addCounter, if_pos rfl]
  dsimp only [sendTo]
  rw [number]
  cases encoded : encodeBondFrame ⟨bondFrameData, laneFlags (latency payload),
      d.counter (latency payload) + 1, payload⟩ with
  | error _ => exact .inl (dropped_of_rollback d _ p payload.length)
  | ok frame =>
    dsimp only
    cases sent : (d.addCounter (latency payload) 1).trySend p frame raced with
    | none => exact .inl (dropped_of_rollback d _ p payload.length)
    | some slots =>
      obtain ⟨ch, opened, appended⟩ := trySend_some sent
      rw [slots_eq] at opened appended
      refine .inr ⟨frame, encoded, ⟨ch, opened, appended⟩, ?_, ?_⟩
      · rw [log]
      · intro lane
        exact counter_addCounter d (latency payload) lane 1

variable {payload : List UInt8}
lemma dispatchBond_cases [Arithmetic K] (d : Dispatcher K) (payload : List UInt8)
    (clock : Nat → Time) (raced : Bool) :
    Dropped d (d.dispatchBond payload clock raced) ∨
      ∃ p frame, Enqueued d (d.dispatchBond payload clock raced) payload p frame := by
  unfold dispatchBond
  by_cases none_left : d.workers.length = 0
  · rw [if_pos none_left]
    exact .inl ⟨rfl, rfl, fun _ => rfl⟩
  rw [if_neg none_left]
  obtain ⟨same, -⟩ := choose_spec clock d.bondSched d.slots d.workers payload.length
  generalize choose d.bondSched d.slots d.workers payload.length clock = chosen at same
  obtain ⟨⟨sched, slots⟩, outcome⟩ := chosen
  cases outcome with
  | none => exact .inl ⟨same, rfl, fun _ => rfl⟩
  | some p =>
    let e : Dispatcher K := { d with bondSched := sched, slots := slots }
    have same_channels : channels e.slots = channels d.slots := same
    rcases sendTo_cases e p payload raced with dropped | ⟨frame, sent⟩
    · exact .inl ⟨dropped.channels_eq.trans same, dropped.sent_eq, dropped.counter_eq⟩
    · refine .inr ⟨p, frame, sent.encoded, ?_, sent.sent_eq, sent.counter_eq⟩
      rw [← same_channels]
      exact sent.channels_eq

/-- What every run keeps: the frames of a lane are numbered from one, and its counter stands at
their number. -/
structure Numbered (d : Dispatcher K) : Prop where
  frames : ∀ lane i (e : Sent), (d.lane lane)[i]? = some e → decodeBondFrame e.frame =
      .ok ⟨bondFrameData, laneFlags lane, UInt64.ofNat (i + 1), e.payload⟩
  counter : ∀ lane, d.counter lane = UInt64.ofNat (d.lane lane).length

lemma Numbered.of_same {d' : Dispatcher K} (numbered : d.Numbered) (sent : d'.sent = d.sent)
    (counter : ∀ lane, d'.counter lane = d.counter lane) : d'.Numbered := by
  have lanes : ∀ lane, d'.lane lane = d.lane lane := fun lane => by rw [lane_eq, sent]; rfl
  refine ⟨?_, ?_⟩
  · intro lane i e found
    rw [lanes] at found
    exact numbered.frames lane i e found
  · intro lane
    rw [counter, lanes]
    exact numbered.counter lane

lemma Numbered.enqueue {d' frame} (numbered : d.Numbered) (sent : Enqueued d d' payload p frame) :
    d'.Numbered := by
  have lanes : ∀ lane, d'.lane lane =
      if lane = latency payload then d.lane lane ++ [⟨payload, frame⟩] else d.lane lane := by
    intro lane
    rw [lane_eq, sent.sent_eq, filter_append]
    by_cases same : lane = latency payload
    · simp [same, lane_eq]
    · simp [same, Ne.symm same, lane_eq]
  have next : ∀ lane, d.counter lane + 1 = UInt64.ofNat ((d.lane lane).length + 1) := by
    intro lane
    rw [numbered.counter, UInt64.ofNat_add]
    rfl
  refine ⟨?_, ?_⟩
  · intro lane i e found
    rw [lanes] at found
    split_ifs at found with same
    · rw [getElem?_snoc] at found
      split_ifs at found with last
      · -- the new frame
        cases found
        rw [decode_of_encode sent.encoded, last, ← next, same]
      · exact numbered.frames lane i e found
    · exact numbered.frames lane i e found
  · intro lane
    rw [sent.counter_eq, lanes]
    split_ifs with same
    · rw [next, length_append, length_singleton]
    · exact numbered.counter lane

lemma numbered_new (workerRateBPS : Int) (slots : Slots K) :
    (newDispatcher workerRateBPS slots).Numbered where
  frames := nofun
  counter := by
    intro lane
    cases lane <;> rfl

lemma Numbered.step [Arithmetic K] (numbered : d.Numbered) (op : Op) : (d.step op).Numbered := by
  cases op with
  | dispatchBond payload clock raced =>
    rcases dispatchBond_cases d payload clock raced with dropped | ⟨p, frame, sent⟩
    · exact numbered.of_same dropped.sent_eq dropped.counter_eq
    · exact numbered.enqueue sent
  | register p now =>
    have kept : (d.register p now).sent = d.sent ∧
        ∀ lane, (d.register p now).counter lane = d.counter lane := by
      unfold register
      split <;> exact ⟨rfl, fun _ => rfl⟩
    exact numbered.of_same kept.1 kept.2
  | unregister p =>
    have kept : (d.unregister p).sent = d.sent ∧
        ∀ lane, (d.unregister p).counter lane = d.counter lane := by
      unfold unregister
      split
      · exact ⟨rfl, fun _ => rfl⟩
      · split_ifs <;> exact ⟨rfl, fun _ => rfl⟩
    exact numbered.of_same kept.1 kept.2
  | take p =>
    have kept : (d.take p).sent = d.sent ∧ ∀ lane, (d.take p).counter lane = d.counter lane := by
      unfold take
      split <;> exact ⟨rfl, fun _ => rfl⟩
    exact numbered.of_same kept.1 kept.2

lemma Numbered.run [Arithmetic K] (numbered : d.Numbered) (ops : List Op) :
    (d.run ops).Numbered := by
  induction ops generalizing d with
  | nil => exact numbered
  | cons op ops ih => exact ih (numbered.step op)
end Dispatcher

/-- After any calls, workers, queues, clocks and races, the frames enqueued on a lane decode to
their payloads under the numbers 1, 2, 3, … in their order, and the lane's counter stands at how
many there are. The next dispatch enqueues one more frame or changes nothing. -/
theorem enqueued_frames_gap_free [Arithmetic K] (workerRateBPS : Int) (slots : Slots K)
    (ops : List Op) (payload : List UInt8) (clock : Nat → Time) (raced : Bool) :
    let d := (newDispatcher workerRateBPS slots).run ops
    (∀ lane i (e : Sent), (d.lane lane)[i]? = some e → decodeBondFrame e.frame =
        .ok ⟨bondFrameData, laneFlags lane, UInt64.ofNat (i + 1), e.payload⟩) ∧
    (∀ lane, d.counter lane = UInt64.ofNat (d.lane lane).length) ∧
    (Dropped d (d.dispatchBond payload clock raced) ∨
      ∃ p frame, Enqueued d (d.dispatchBond payload clock raced) payload p frame) := by
  intro d
  have numbered : d.Numbered := (Dispatcher.numbered_new workerRateBPS slots).run ops
  exact ⟨numbered.frames, numbered.counter, d.dispatchBond_cases payload clock raced⟩
end Dispatch
end Tamizdat.WgturnClient
