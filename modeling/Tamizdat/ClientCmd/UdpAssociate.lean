/- source: cmd/tamizdat-client/udp_associate.go
   digest: The relay loop of a SOCKS5 UDP association and the watcher of its control connection. -/

import Tamizdat.Machine.Bytes
import Tamizdat.Machine.Maps
import Tamizdat.Machine.Runs

set_option autoImplicit false

open List Option
namespace Tamizdat.ClientCmd.UdpAssociate
open Machine.Bytes (getBE)
open Machine.Maps Machine.Runs
abbrev GoString := List UInt8

structure UDPAddr where
  ip : List UInt8
  port : Nat
deriving DecidableEq

def itoa (n : Nat) : GoString := (Nat.toDigits 10 n).map fun digit => UInt8.ofNat digit.toNat

/-- `net.JoinHostPort`: a host with a colon is taken for an IPv6 address. -/
def joinHostPort (host port : GoString) : GoString :=
  if 58 ∈ host then 91 :: host ++ 93 :: 58 :: port else host ++ 58 :: port

/-- The header of a datagram: the destination as the key of its flow, and the payload. `ipString`
is `net.IP.String`. -/
def parseDatagram (ipString : List UInt8 → GoString) : List UInt8 → Option (GoString × List UInt8)
  | rsv :: rsv' :: frag :: atyp :: rest =>
    if rsv ≠ 0 ∨ rsv' ≠ 0 then none
    else if frag ≠ 0 then none
    else if atyp = 1 then fixed 4 rest
    else if atyp = 3 then
      match rest with
      | [] => none
      | dl :: rest =>
        if rest.length < dl.toNat + 2 then none
        else some (address (rest.take dl.toNat) (rest.drop dl.toNat), rest.drop (dl.toNat + 2))
    else if atyp = 4 then fixed 16 rest
    else none
  | _ => none
where
  address (host portField : List UInt8) : GoString :=
    joinHostPort host (itoa (getBE (portField.take 2)))
  fixed (width : Nat) (rest : List UInt8) : Option (GoString × List UInt8) :=
    if rest.length < width + 2 then none
    else some (address (ipString (rest.take width)) (rest.drop width), rest.drop (width + 2))

/-- `flow`. A `PacketConn` is named by the order of the successful dials. -/
structure Flow where
  pc : Nat
  clientSrc : UDPAddr

inductive LoopStage
  | receive
  | lookup (dest data : List UInt8) (src : UDPAddr)
  | dial (dest data : List UInt8) (src : UDPAddr)
  | write (pc : Nat) (data : List UInt8)
  | closeAll | closeRelay | returned
deriving DecidableEq

inductive WatcherStage
  | reading | closeRelay | closeAll | done
deriving DecidableEq

structure State where
  relayClosed : Bool
  locked : Bool
  /-- The map `flows`; `none` is the nil map. -/
  flows : Option (GoMap GoString Flow)
  clients : GoMap GoString UDPAddr
  conns : List Bool
  loop : LoopStage
  watcher : WatcherStage
  nilWrite : Bool

def State.initial : State :=
  { relayClosed := false, locked := false, flows := some ∅, clients := ∅, conns := [],
    loop := .receive, watcher := .reading, nilWrite := false }

def State.closeAll (s : State) : State :=
  { s with
    conns := match s.flows with
      | none => s.conns
      | some flows => (valuesAt flows flows.keys).foldl (fun conns f => conns.set f.pc true) s.conns
    flows := none }

def advanceLoop (s : State) (dialed : Bool) : LoopStage → Option State
  | .receive => none
  | .lookup dest data src =>
    if s.locked then none
    else
      match s.flows.bind fun flows => flows.lookup dest with
      | some f =>
        some { s with
          flows := s.flows.map fun flows => flows.insert dest { f with clientSrc := src }
          clients := s.clients.insert dest src
          loop := .write f.pc data }
      | none => some { s with locked := true, loop := .dial dest data src }
  | .dial dest data src =>
    if dialed then
      match s.flows with
      -- The panic runs `closeAll` first, which waits for the mutex that the loop still holds.
      | none => some { s with conns := s.conns ++ [false], nilWrite := true, loop := .closeAll }
      | some flows =>
        some { s with
          conns := s.conns ++ [false]
          flows := some (flows.insert dest ⟨s.conns.length, src⟩)
          clients := s.clients.insert dest src
          locked := false
          loop := .write s.conns.length data }
    else some { s with locked := false, loop := .receive }
  | .write _ _ => some { s with loop := .receive }
  | .closeAll => if s.locked then none else some { s.closeAll with loop := .closeRelay }
  | .closeRelay => some { s with relayClosed := true, loop := .returned }
  | .returned => none

def advanceWatcher (s : State) : WatcherStage → Option State
  | .reading => none
  | .closeRelay => some { s with relayClosed := true, watcher := .closeAll }
  | .closeAll => if s.locked then none else some { s.closeAll with watcher := .done }
  | .done => none

inductive Label
  | datagram (rbuf : List UInt8) (src : UDPAddr)
  | readFails
  /-- The loop goes on; `dialed` is the outcome of `DialUDP`. -/
  | loop (dialed : Bool)
  | controlEnds | watcher

def step (ipString : List UInt8 → GoString) (s : State) : Label → Option State
  | .datagram rbuf src =>
    if s.loop = .receive ∧ s.relayClosed = false then
      some { s with
        loop := match parseDatagram ipString rbuf with
          | none => .receive
          | some (dest, data) => .lookup dest data src }
    else none
  | .readFails => if s.loop = .receive then some { s with loop := .closeAll } else none
  | .loop dialed => advanceLoop s dialed s.loop
  | .controlEnds => if s.watcher = .reading then some { s with watcher := .closeRelay } else none
  | .watcher => advanceWatcher s s.watcher

/-- The condition on a step: no dial succeeds after the flows have been dropped. -/
def DialsInTime (s : State) : Label → Prop
  | .loop true =>
    match s.loop with
    | .dial _ _ _ => s.flows ≠ none
    | _ => True
  | _ => True

instance (s : State) (label : Label) : Decidable (DialsInTime s label) := by
  unfold DialsInTime
  split
  · split <;> infer_instance
  · infer_instance

def Halted (ipString : List UInt8 → GoString) (s : State) : Prop :=
  step ipString s .readFails = none ∧ (∀ dialed, step ipString s (.loop dialed) = none) ∧
    step ipString s .watcher = none

lemma closed_foldl_set {flows : List Flow} {conns : List Bool} {pc : Nat}
    (still : (flows.foldl (fun conns f => conns.set f.pc true) conns)[pc]? = some false) :
    conns[pc]? = some false ∧ ∀ f ∈ flows, f.pc ≠ pc := by
  induction flows generalizing conns with
  | nil => exact ⟨still, by simp⟩
  | cons f flows ih =>
    obtain ⟨before, rest⟩ := ih still
    rw [getElem?_set] at before
    split_ifs at before with same inside
    · exact absurd before (by simp)
    · refine ⟨before, ?_⟩
      intro g member
      rcases mem_cons.mp member with rfl | later
      · exact same
      · exact rest g later

lemma closeAll_open {s : State} {pc : Nat} (still : s.closeAll.conns[pc]? = some false) :
    s.conns[pc]? = some false ∧
      ∀ flows dest f, s.flows = some flows → flows.lookup dest = some f → f.pc ≠ pc := by
  unfold State.closeAll at still
  cases held : s.flows with
  | none =>
    rw [held] at still
    exact ⟨still, by simp⟩
  | some flows =>
    rw [held] at still
    obtain ⟨before, others⟩ := closed_foldl_set still
    refine ⟨before, ?_⟩
    rintro _ dest f ⟨⟩ found
    exact others f (mem_valuesAt.mpr ⟨dest, mem_keys_iff.mpr ⟨f, found⟩, found⟩)

/-- Every open `PacketConn` belongs to a flow, and the mutex is held by a dial only. -/
structure Accounted (s : State) : Prop where
  owned : ∀ pc, s.conns[pc]? = some false →
    ∃ flows dest f, s.flows = some flows ∧ flows.lookup dest = some f ∧ f.pc = pc
  dialing : ∀ dest data src, s.loop = .dial dest data src →
    s.locked = true ∧ ∀ flows, s.flows = some flows → flows.lookup dest = none
  free : (∀ dest data src, s.loop ≠ .dial dest data src) → s.locked = false
  dropped : s.loop = .closeRelay ∨ s.loop = .returned → s.flows = none
  intact : s.nilWrite = false

namespace Accounted
lemma initial : Accounted State.initial where
  owned := by simp [State.initial]
  dialing := by simp [State.initial]
  free := fun _ => rfl
  dropped := by simp [State.initial]
  intact := rfl

variable {s : State}
variable (inv : Accounted s)
include inv
variable {t : State}
lemma restage (dialing : ∀ dest data src, t.loop = .dial dest data src →
      t.locked = true ∧ ∀ flows, s.flows = some flows → flows.lookup dest = none)
    (free : (∀ dest data src, t.loop ≠ .dial dest data src) → t.locked = false)
    (dropped : t.loop = .closeRelay ∨ t.loop = .returned → s.flows = none)
    (conns : t.conns = s.conns := by rfl) (flows : t.flows = s.flows := by rfl)
    (nilWrite : t.nilWrite = s.nilWrite := by rfl) : Accounted t where
  owned := by
    rw [conns, flows]
    exact inv.owned
  dialing := by
    rw [flows]
    exact dialing
  free := free
  dropped := by
    rw [flows]
    exact dropped
  intact := nilWrite.trans inv.intact

section
variable (unlocked : s.locked = false)
include unlocked
lemma not_dialing {dest data src} : s.loop ≠ .dial dest data src := by
  intro dialing
  have held := (inv.dialing dest data src dialing).1
  rw [unlocked] at held
  exact absurd held (by decide)

lemma closeAll (conns : t.conns = s.closeAll.conns) (flows : t.flows = none)
    (locked : t.locked = s.locked) (nilWrite : t.nilWrite = s.nilWrite)
    (idle : ∀ dest data src, t.loop ≠ .dial dest data src) :
    Accounted t where
  owned := by
    intro pc still
    rw [conns] at still
    obtain ⟨before, others⟩ := closeAll_open still
    obtain ⟨held, dest, f, has, found, same⟩ := inv.owned pc before
    exact absurd same (others held dest f has found)
  dialing := fun dest data src dialing => absurd dialing (idle dest data src)
  free := fun _ => locked.trans unlocked
  dropped := fun _ => flows
  intact := nilWrite.trans inv.intact

lemma refresh {dest f src data} (known : (s.flows.bind fun flows => flows.lookup dest) = some f)
    (conns : t.conns = s.conns)
    (flows : t.flows = s.flows.map fun flows => flows.insert dest { f with clientSrc := src })
    (locked : t.locked = s.locked) (nilWrite : t.nilWrite = s.nilWrite)
    (loop : t.loop = .write f.pc data) : Accounted t where
  owned := by
    intro pc still
    rw [conns] at still
    obtain ⟨held, other, g, has, found, same⟩ := inv.owned pc still
    rw [has, bind_some] at known
    rw [has, map_some] at flows
    by_cases here : other = dest
    · subst here
      rw [known] at found
      cases found
      exact ⟨_, other, { f with clientSrc := src }, flows, AList.lookup_insert _, same⟩
    · refine ⟨_, other, g, flows, ?_, same⟩
      rw [lookup_insert, if_neg here]
      exact found
  dialing := by simp [loop]
  free := fun _ => locked.trans unlocked
  dropped := by simp [loop]
  intact := nilWrite.trans inv.intact
end

lemma insert {dest data src flows} (dialing : s.loop = .dial dest data src)
    (has : s.flows = some flows)
    (conns : t.conns = s.conns ++ [false])
    (after : t.flows = some (flows.insert dest ⟨s.conns.length, src⟩)) (locked : t.locked = false)
    (nilWrite : t.nilWrite = s.nilWrite) (loop : t.loop = .write s.conns.length data) :
    Accounted t where
  owned := by
    intro pc still
    rw [conns, getElem?_append] at still
    have absent := (inv.dialing dest data src dialing).2 flows has
    split_ifs at still with old
    · obtain ⟨held, other, g, same, found, named⟩ := inv.owned pc still
      rw [has] at same
      cases same
      have distinct : other ≠ dest := by
        rintro rfl
        rw [absent] at found
        exact absurd found (by simp)
      refine ⟨_, other, g, after, ?_, named⟩
      rw [lookup_insert, if_neg distinct]
      exact found
    · have last : pc - s.conns.length = 0 := by
        by_contra beyond
        rw [getElem?_eq_none (by simp; omega)] at still
        exact absurd still (by simp)
      exact ⟨_, dest, _, after, AList.lookup_insert _, by dsimp only; omega⟩
  dialing := by simp [loop]
  free := fun _ => locked
  dropped := by simp [loop]
  intact := nilWrite.trans inv.intact

lemma advanceLoop {dialed} (inTime : DialsInTime s (.loop dialed))
    (moved : UdpAssociate.advanceLoop s dialed s.loop = some t) : Accounted t := by
  unfold UdpAssociate.advanceLoop at moved
  cases stage : s.loop <;> simp only [stage] at moved
  case receive | returned => cases moved
  case lookup dest data src =>
    rw [ite_none_left_eq_some, Bool.not_eq_true] at moved
    obtain ⟨unlocked, moved⟩ := moved
    split at moved
    · next f known =>
      cases moved
      exact inv.refresh unlocked known rfl rfl rfl rfl rfl
    · next unknown =>
      cases moved
      refine inv.restage ?_ (by simp) (by simp)
      rintro _ _ _ ⟨⟩
      refine ⟨rfl, ?_⟩
      intro flows has
      simpa [has] using unknown
  case dial dest data src =>
    cases dialed with
    | false =>
      cases moved
      exact inv.restage (by simp) (fun _ => rfl) (by simp)
    | true =>
      simp only [if_true] at moved
      simp only [DialsInTime, stage] at inTime
      split at moved
      · next gone => exact absurd gone inTime
      · next flows has =>
        cases moved
        exact inv.insert stage has rfl rfl rfl rfl rfl
  case write pc data =>
    cases moved
    exact inv.restage (by simp) (fun _ => inv.free (by simp [stage])) (by simp)
  case closeAll =>
    rw [ite_none_left_eq_some, Bool.not_eq_true] at moved
    obtain ⟨unlocked, ⟨⟩⟩ := moved
    exact inv.closeAll unlocked rfl rfl rfl rfl (by simp)
  case closeRelay =>
    cases moved
    exact inv.restage (by simp) (fun _ => inv.free (by simp [stage]))
      (fun _ => inv.dropped (.inl stage))

lemma aside (conns : t.conns = s.conns) (flows : t.flows = s.flows)
    (nilWrite : t.nilWrite = s.nilWrite) (loop : t.loop = s.loop) (locked : t.locked = s.locked) :
    Accounted t := by
  refine inv.restage ?_ ?_ ?_ conns flows nilWrite
  · rw [loop, locked]
    exact inv.dialing
  · rw [loop, locked]
    exact inv.free
  · rw [loop]
    exact inv.dropped

lemma advanceWatcher (moved : UdpAssociate.advanceWatcher s s.watcher = some t) : Accounted t := by
  unfold UdpAssociate.advanceWatcher at moved
  split at moved
  · exact absurd moved (by simp)
  · cases moved
    exact inv.aside rfl rfl rfl rfl rfl
  · simp only [ite_none_left_eq_some, Bool.not_eq_true, some.injEq] at moved
    obtain ⟨unlocked, rfl⟩ := moved
    exact inv.closeAll unlocked rfl rfl rfl rfl fun _ _ _ => inv.not_dialing unlocked
  · exact absurd moved (by simp)

lemma step {label ipString} (inTime : DialsInTime s label)
    (moved : UdpAssociate.step ipString s label = some t) :
    Accounted t := by
  unfold UdpAssociate.step at moved
  cases label with
  | datagram rbuf src =>
    simp only [ite_some_none_eq_some] at moved
    obtain ⟨⟨receiving, -⟩, rfl⟩ := moved
    have unlocked := inv.free (by simp [receiving])
    cases parsed : parseDatagram ipString rbuf with
    | none | some header => exact inv.restage (by simp) (fun _ => unlocked) (by simp)
  | readFails =>
    simp only [ite_some_none_eq_some] at moved
    obtain ⟨receiving, rfl⟩ := moved
    exact inv.restage (by simp) (fun _ => inv.free (by simp [receiving])) (by simp)
  | loop dialed => exact inv.advanceLoop inTime moved
  | controlEnds =>
    simp only [ite_some_none_eq_some] at moved
    obtain ⟨-, rfl⟩ := moved
    exact inv.aside rfl rfl rfl rfl rfl
  | watcher => exact inv.advanceWatcher moved

lemma closed_of_halted {ipString} (halted : Halted ipString s) : ∀ conn ∈ s.conns, conn = true := by
  obtain ⟨reads, loops, -⟩ := halted
  have returned : s.loop = .returned := by
    have moves := loops false
    simp only [UdpAssociate.step, UdpAssociate.advanceLoop] at reads moves
    cases stage : s.loop with
    | receive => simp [stage] at reads
    | lookup dest data src =>
      have unlocked := inv.free (by simp [stage])
      simp only [stage, unlocked, Bool.false_eq_true, if_false] at moves
      split at moves <;> simp at moves
    | dial dest data src | write pc data | closeRelay => simp [stage] at moves
    | closeAll =>
      have unlocked := inv.free (by simp [stage])
      simp [stage, unlocked] at moves
    | returned => rfl
  have dropped := inv.dropped (.inr returned)
  intro conn member
  obtain ⟨pc, here⟩ := mem_iff_getElem?.mp member
  cases conn with
  | true => rfl
  | false =>
    obtain ⟨flows, _, _, has, -⟩ := inv.owned pc here
    rw [dropped] at has
    exact absurd has (by simp)
end Accounted

def LoopStage.remaining : LoopStage → Nat
  | .lookup _ _ _ => 6
  | .dial _ _ _ => 5
  | .write _ _ => 4
  | .receive => 3
  | .closeAll => 2
  | .closeRelay => 1
  | .returned => 0

def WatcherStage.remaining : WatcherStage → Nat
  | .reading => 3
  | .closeRelay => 2
  | .closeAll => 1
  | .done => 0

def State.remaining (s : State) : Nat := s.loop.remaining + s.watcher.remaining

open LoopStage (remaining)
variable {t s : State} {dialed : Bool}
lemma remaining_advanceLoop (moved : advanceLoop s dialed s.loop = some t)
    (closed : s.relayClosed = true) :
    t.relayClosed = true ∧ t.loop.remaining < s.loop.remaining ∧ t.watcher = s.watcher := by
  unfold advanceLoop at moved
  cases stage : s.loop <;> simp only [stage] at moved
  case receive | returned => cases moved
  case lookup =>
    obtain ⟨-, moved⟩ := ite_none_left_eq_some.mp moved
    split at moved <;> cases moved <;> exact ⟨closed, by simp [remaining], rfl⟩
  case dial =>
    repeat' split at moved
    all_goals
      cases moved
      exact ⟨closed, by simp [remaining], rfl⟩
  case write =>
    cases moved
    exact ⟨closed, by simp [remaining], rfl⟩
  case closeAll =>
    obtain ⟨-, ⟨⟩⟩ := ite_none_left_eq_some.mp moved
    exact ⟨closed, by simp [remaining], rfl⟩
  case closeRelay =>
    cases moved
    exact ⟨rfl, by simp [remaining], rfl⟩

lemma remaining_advanceWatcher (moved : advanceWatcher s s.watcher = some t) :
    (s.relayClosed = true → t.relayClosed = true) ∧
      t.watcher.remaining < s.watcher.remaining ∧ t.loop = s.loop := by
  unfold advanceWatcher at moved
  cases stage : s.watcher <;> simp only [stage] at moved
  case reading | done => cases moved
  case closeRelay =>
    cases moved
    exact ⟨fun _ => rfl, by simp [WatcherStage.remaining], rfl⟩
  case closeAll =>
    obtain ⟨-, ⟨⟩⟩ := ite_none_left_eq_some.mp moved
    exact ⟨id, by simp [WatcherStage.remaining], rfl⟩

lemma remaining_step {ipString label} (moved : step ipString s label = some t)
    (closed : s.relayClosed = true) :
    t.relayClosed = true ∧ t.remaining < s.remaining := by
  unfold step at moved
  cases label with
  | datagram rbuf src => simp [closed] at moved
  | readFails =>
    simp only [ite_some_none_eq_some] at moved
    obtain ⟨receiving, rfl⟩ := moved
    refine ⟨closed, ?_⟩
    simp [State.remaining, receiving, remaining]
  | loop dialed =>
    obtain ⟨kept, fewer, same⟩ := remaining_advanceLoop moved closed
    refine ⟨kept, ?_⟩
    rw [State.remaining, State.remaining, same]
    omega
  | controlEnds =>
    simp only [ite_some_none_eq_some] at moved
    obtain ⟨reading, rfl⟩ := moved
    refine ⟨closed, ?_⟩
    simp [State.remaining, reading, WatcherStage.remaining]
  | watcher =>
    obtain ⟨kept, fewer, same⟩ := remaining_advanceWatcher moved
    refine ⟨kept closed, ?_⟩
    rw [State.remaining, State.remaining, same]
    omega

lemma remaining_run {ipString labels} (arrive : run (step ipString) s labels = some t)
    (closed : s.relayClosed = true) : labels.length + t.remaining ≤ s.remaining :=
  length_add_le State.remaining (fun _ _ _ closed moved => remaining_step moved closed) closed
    arrive

lemma remaining_le (s : State) : s.remaining ≤ 9 := by
  unfold State.remaining
  cases s.loop <;> cases s.watcher <;> simp [remaining, WatcherStage.remaining]

/-- As long as every dial that succeeds does so before the flows are dropped, the loop never
writes to the nil map, and an association whose relay socket is closed comes to rest within nine
steps with every `PacketConn` closed. -/
theorem association_torn_down (ipString : List UInt8 → GoString) {labels more : List Label}
    {t u : State} (inTime : Meets (step ipString) DialsInTime State.initial (labels ++ more))
    (arrive : run (step ipString) State.initial labels = some t)
    (goesOn : run (step ipString) t more = some u) :
    u.nilWrite = false ∧ (t.relayClosed = true → more.length ≤ 9 ∧
        (Halted ipString u → ∀ conn ∈ u.conns, conn = true)) := by
  obtain ⟨before, after⟩ := meets_append inTime
  have start := invariant_of_meets (fun inv => inv.step) Accounted.initial before arrive
  have inv := invariant_of_meets (fun inv => Accounted.step inv) start (after t arrive) goesOn
  refine ⟨inv.intact, ?_⟩
  intro closed
  have few := remaining_run goesOn closed
  have bounded := remaining_le t
  exact ⟨by omega, inv.closed_of_halted⟩

def client : UDPAddr := ⟨[127, 0, 0, 1], 5000⟩
def datagramTo (host : UInt8) : Label := .datagram [0, 0, 0, 3, 1, host, 0, 53, 7] client

theorem association_torn_down_after_reuse : ∃ t u : State,
      run (step id) State.initial
        [datagramTo 97, .loop false, .loop true, .loop false, datagramTo 97, .controlEnds,
          .loop false, .watcher] = some t ∧
      run (step id) t [.watcher, .loop false, .readFails, .loop false, .loop false] = some u ∧
      t.relayClosed = true ∧ t.conns = [false] ∧ Halted id u ∧ ∀ conn ∈ u.conns, conn = true := by
  refine exists_two_of (P := fun t u => t.relayClosed = true ∧ t.conns = [false] ∧
    u.loop = .returned ∧ u.watcher = .done) (by decide +kernel) ?_
  rintro t u arrive goesOn ⟨closed, dialed, returned, done⟩
  have halted : Halted id u := by
    simp [Halted, step, returned, done, advanceLoop, advanceWatcher]
  exact ⟨closed, dialed, halted,
    ((association_torn_down id (by decide +kernel) arrive goesOn).2 closed).2 halted⟩

/-- The control connection ends between the receipt of the first datagram and its lookup: the loop
dials, writes to the nil map and waits forever for its own mutex, the connection open. -/
theorem late_dial_writes_nil_map : ∃ t : State,
      run (step id) State.initial
        [datagramTo 97, .controlEnds, .watcher, .watcher, .loop false, .loop true] = some t ∧
      t.nilWrite = true ∧ t.relayClosed = true ∧ t.conns = [false] ∧ Halted id t := by
  refine exists_some_of (P := fun t => t.nilWrite = true ∧ t.relayClosed = true ∧
    t.conns = [false] ∧ t.loop = .closeAll ∧ t.locked = true ∧ t.watcher = .done)
    (by decide +kernel) ?_
  rintro t - ⟨wrote, closed, left, stage, held, done⟩
  refine ⟨wrote, closed, left, ?_⟩
  simp [Halted, step, stage, held, done, advanceLoop, advanceWatcher]

/-- The association with its return pumps: those that have returned, and those that had returned
when the loop received its last datagram. -/
structure Relay where
  assoc : State
  ended : List Nat
  seen : List Nat

inductive Event
  | own (label : Label)
  /-- `ReadFrom` fails in the pump of a tunnel. -/
  | pumpEnds (pc : Nat)

variable (ipString : List UInt8 → GoString)
def Relay.step (r : Relay) : Event → Option Relay
  | .own label =>
    (UdpAssociate.step ipString r.assoc label).map fun after =>
      { r with
        assoc := after
        seen := match label with
          | .datagram _ _ => r.ended
          | _ => r.seen }
  | .pumpEnds pc =>
    if pc < r.assoc.conns.length ∧ pc ∉ r.ended then some { r with ended := pc :: r.ended }
    else none

def Relay.initial : Relay := ⟨State.initial, [], []⟩

/-- The condition on an event: no datagram arrives for a flow whose pump has returned. -/
def Spares (r : Relay) : Event → Prop
  | .own (.datagram rbuf _) =>
    ∀ header ∈ parseDatagram ipString rbuf,
      ∀ f ∈ r.assoc.flows.bind fun flows => flows.lookup header.1, f.pc ∉ r.ended
  | _ => True

instance (r : Relay) (event : Event) : Decidable (Spares ipString r event) := by
  rcases event with ⟨⟨⟩⟩ | _ <;> unfold Spares <;> infer_instance

/-- The loop is about to write, or has found a flow to write to, only where no pump had returned
when its datagram arrived. -/
structure Fresh (r : Relay) : Prop where
  dialled : ∀ pc ∈ r.ended, pc < r.assoc.conns.length
  seen : ∀ pc ∈ r.seen, pc ∈ r.ended
  found : ∀ dest data src f, r.assoc.loop = .lookup dest data src →
    (r.assoc.flows.bind fun flows => flows.lookup dest) = some f → f.pc ∉ r.seen
  sent : ∀ pc data, r.assoc.loop = .write pc data → pc ∉ r.seen

variable {ipString}
lemma length_closeAll (s : State) : s.closeAll.conns.length = s.conns.length := by
  unfold State.closeAll
  cases s.flows with
  | none => rfl
  | some flows =>
    dsimp only
    induction valuesAt flows flows.keys generalizing s with
    | nil => rfl
    | cons f rest ih => exact (ih { s with conns := s.conns.set f.pc true }).trans (length_set ..)

lemma Fresh.goOn {r} (fresh : Fresh r) (longer : r.assoc.conns.length ≤ t.conns.length)
    (found : ∀ dest data src f, t.loop = .lookup dest data src →
      (t.flows.bind fun flows => flows.lookup dest) = some f → f.pc ∉ r.seen)
    (sent : ∀ pc data, t.loop = .write pc data → pc ∉ r.seen) : Fresh { r with assoc := t } :=
  ⟨fun pc member => (fresh.dialled pc member).trans_le longer, fresh.seen, found, sent⟩

lemma fresh_loop {r} (fresh : Fresh r) (moved : advanceLoop r.assoc dialed r.assoc.loop = some t) :
    Fresh { r with assoc := t } := by
  unfold advanceLoop at moved
  cases stage : r.assoc.loop <;> simp only [stage] at moved
  case receive | returned => cases moved
  case lookup dest data src =>
    obtain ⟨-, moved⟩ := ite_none_left_eq_some.mp moved
    split at moved
    · next f known =>
      cases moved
      refine fresh.goOn le_rfl (by simp) ?_
      rintro _ _ ⟨⟩
      exact fresh.found dest data src f stage known
    · cases moved
      exact fresh.goOn le_rfl (by simp) (by simp)
  case dial dest data src =>
    split_ifs at moved
    · split at moved <;> cases moved
      · exact fresh.goOn (by simp) (by simp) (by simp)
      · refine fresh.goOn (by simp) (by simp) ?_
        -- the tunnel is younger than every one whose pump has returned
        rintro _ _ ⟨⟩ old
        exact lt_irrefl _ (fresh.dialled _ (fresh.seen _ old))
    · cases moved
      exact fresh.goOn le_rfl (by simp) (by simp)
  case write | closeRelay =>
    cases moved
    exact fresh.goOn le_rfl (by simp) (by simp)
  case closeAll =>
    obtain ⟨-, ⟨⟩⟩ := ite_none_left_eq_some.mp moved
    exact fresh.goOn (length_closeAll r.assoc).ge (by simp) (by simp)

lemma fresh_step {r event u} (fresh : Fresh r) (spares : Spares ipString r event)
    (moved : r.step ipString event = some u) : Fresh u := by
  cases event with
  | own label =>
    obtain ⟨t, stepped, rfl⟩ := map_eq_some_iff.mp moved
    cases label with
    | datagram rbuf src =>
      obtain ⟨-, ⟨⟩⟩ := ite_some_none_eq_some.mp stepped
      refine ⟨fresh.dialled, fun _ => id, ?_, ?_⟩
      · intro dest data src f stage known
        dsimp only at stage
        split at stage <;> cases stage
        next parsed => exact spares _ parsed f known
      · intro pc data stage
        dsimp only at stage
        split at stage <;> cases stage
    | readFails =>
      obtain ⟨-, ⟨⟩⟩ := ite_some_none_eq_some.mp stepped
      exact fresh.goOn le_rfl (by simp) (by simp)
    | loop dialed => exact fresh_loop fresh stepped
    | controlEnds =>
      obtain ⟨-, ⟨⟩⟩ := ite_some_none_eq_some.mp stepped
      exact fresh.goOn le_rfl fresh.found fresh.sent
    | watcher =>
      unfold UdpAssociate.step advanceWatcher at stepped
      dsimp only at stepped
      split at stepped
      · cases stepped
      · cases stepped
        exact fresh.goOn le_rfl fresh.found fresh.sent
      · obtain ⟨-, ⟨⟩⟩ := ite_none_left_eq_some.mp stepped
        exact fresh.goOn (length_closeAll r.assoc).ge (by simp [State.closeAll]) fresh.sent
      · cases stepped
  | pumpEnds pc =>
    obtain ⟨⟨dialled, -⟩, ⟨⟩⟩ := ite_some_none_eq_some.mp moved
    exact ⟨forall_mem_cons.mpr ⟨dialled, fresh.dialled⟩,
      fun pc member => mem_cons_of_mem _ (fresh.seen pc member), fresh.found, fresh.sent⟩

section
variable {dest data : List UInt8} {src : UDPAddr} {after : State}
lemma looked_up (inTime : DialsInTime s (.loop dialed))
    (moved : step ipString s (.loop dialed) = some after) :
    (s.loop = .lookup dest data src →
      after.loop = .dial dest data src ∨ ∃ pc, after.loop = .write pc data) ∧
    (s.loop = .dial dest data src →
      after.loop = if dialed then .write s.conns.length data else .receive) := by
  unfold step advanceLoop at moved
  constructor <;> intro stage <;> simp only [stage] at moved
  · obtain ⟨-, moved⟩ := ite_none_left_eq_some.mp moved
    split at moved <;> cases moved
    · exact .inr ⟨_, rfl⟩
    · exact .inl rfl
  · cases dialed with
    | false =>
      cases moved
      rfl
    | true =>
      simp only [DialsInTime, stage] at inTime
      simp only [if_true] at moved
      split at moved
      · next gone => exact absurd gone inTime
      · cases moved
        rfl

def Relay.Waits (dest data : List UInt8) (src : UDPAddr) (r : Relay) : Prop :=
  r.assoc.loop = .lookup dest data src ∨ r.assoc.loop = .dial dest data src

/-- The event is neither a write of the datagram nor a failed dial for it, nor a dial after the
flows have been dropped. -/
def Relay.Withholds (data : List UInt8) (r : Relay) : Event → Prop
  | .own (.loop dialed) => DialsInTime r.assoc (.loop dialed) ∧
    (dialed = false → ∀ dest src, r.assoc.loop ≠ .dial dest data src) ∧
    ∀ after pc, advanceLoop r.assoc dialed r.assoc.loop = some after → after.loop ≠ .write pc data
  | _ => True

lemma waits_step {r u : Relay} {event : Event} (waits : r.Waits dest data src)
    (withholds : r.Withholds data event)
    (moved : r.step ipString event = some u) : u.Waits dest data src := by
  cases event with
  | pumpEnds pc =>
    obtain ⟨-, ⟨⟩⟩ := ite_some_none_eq_some.mp moved
    exact waits
  | own label =>
    obtain ⟨t, stepped, rfl⟩ := map_eq_some_iff.mp moved
    have busy : r.assoc.loop ≠ .receive := by
      rcases waits with stage | stage <;> simp [stage]
    cases label with
    | datagram | readFails => simp [step, busy] at stepped
    | controlEnds =>
      obtain ⟨-, ⟨⟩⟩ := ite_some_none_eq_some.mp stepped
      exact waits
    | watcher => rwa [Relay.Waits, (remaining_advanceWatcher stepped).2.2]
    | loop dialed =>
      obtain ⟨inTime, dials, unwritten⟩ := withholds
      obtain ⟨looks, dialed'⟩ := looked_up inTime stepped
      rcases waits with stage | stage
      · rcases looks stage with dial | ⟨pc, writes⟩
        · exact .inr dial
        · exact absurd writes (unwritten t pc stepped)
      · cases dialed with
        | false => exact absurd stage (dials rfl dest src)
        | true => exact absurd (dialed' stage) (unwritten t _ stepped)
end

/-- As long as no datagram arrives for a flow whose pump has returned, the loop writes a datagram to
no tunnel whose pump had returned when the datagram arrived; and it stays with one until it writes
it or its dial fails, unless the flows have been dropped. -/
theorem dead_tunnel_not_reused {events : List Event} {r : Relay}
    (spares : Meets (Relay.step ipString) (Spares ipString) Relay.initial events)
    (arrive : run (Relay.step ipString) Relay.initial events = some r) :
    (∀ pc data, r.assoc.loop = .write pc data → pc ∉ r.seen) ∧
    (∀ dest data src dialed next, DialsInTime r.assoc (.loop dialed) →
      step ipString r.assoc (.loop dialed) = some next →
      (r.assoc.loop = .lookup dest data src →
        next.loop = .dial dest data src ∨ ∃ pc, next.loop = .write pc data) ∧
      (r.assoc.loop = .dial dest data src →
        next.loop = if dialed then .write r.assoc.conns.length data else .receive)) ∧
    ∀ dest data src more u, r.Waits dest data src →
      Meets (Relay.step ipString) (Relay.Withholds data) r more →
      run (Relay.step ipString) r more = some u → u.Waits dest data src := by
  have start : Fresh Relay.initial := by
    constructor <;> simp [Relay.initial, State.initial]
  have fresh := invariant_of_meets fresh_step start spares arrive
  exact ⟨fresh.sent, fun _ _ _ _ _ => looked_up, fun _ _ _ _ _ => invariant_of_meets waits_step⟩

theorem dead_tunnel_not_reused_elsewhere : ∃ r : Relay,
      run (Relay.step id) Relay.initial
        [.own (datagramTo 97), .own (.loop false), .own (.loop true), .own (.loop false),
          .pumpEnds 0, .own (datagramTo 98), .own (.loop false), .own (.loop true)] = some r ∧
      r.seen = [0] ∧ r.assoc.loop = .write 1 [7] ∧ 1 ∉ r.seen := by
  refine exists_some_of (P := fun r => r.seen = [0] ∧ r.assoc.loop = .write 1 [7])
    (by decide +kernel) ?_
  rintro r arrive ⟨seen, writing⟩
  exact ⟨seen, writing, (dead_tunnel_not_reused (by decide +kernel) arrive).1 1 [7] writing⟩

/-- The pump of a flow has returned, but the flow is still in the table: the next datagram for its
destination is written to the dead tunnel. -/
theorem dead_tunnel_reused : ∃ r : Relay,
      run (Relay.step id) Relay.initial
        [.own (datagramTo 97), .own (.loop false), .own (.loop true), .own (.loop false),
          .pumpEnds 0, .own (datagramTo 97), .own (.loop false)] = some r ∧
      r.seen = [0] ∧ r.assoc.loop = .write 0 [7] := by
  decide +kernel
end Tamizdat.ClientCmd.UdpAssociate
