/- source: pkg/tamizdat/connpool.go, h2transport.go, client.go
   digest: Every reserved slot is a tunnel or given back, and what closed transports prevent. -/

import Tamizdat.Client.PoolBook
import Mathlib.Logic.Relation

set_option autoImplicit false

open List Option
namespace Tamizdat.Client
open Machine Machine.Runs Client.ConnPool
namespace StreamSlots
open Machine.Pool (forall_set forall_snoc)
open Client.PoolBook (trades_advance)
open Label (get move)
def holds (t : Nat) (call : Call) : Int := if (slotOf call).map Prod.snd = some t then 1 else 0

def occupies (t : Nat) (tunnel : Tunnel) : Int :=
  if tunnel.transport = t ∧ tunnel.state ≠ .gone then 1 else 0

def openTunnels (m : Shared) (t : Nat) : Nat :=
  (m.tunnels.filter fun tunnel => tunnel.transport = t ∧ tunnel.state = .opened).length

def Tidy (s : State) : Label → Prop
  | .move i _ =>
    match s.calls[i]? with
    | some call => Admits s.shared call
    | none => True
  | _ => True

instance (s : State) (label : Label) : Decidable (Tidy s label) := by
  rcases label with ⟨⟩
  case move i _ =>
    dsimp only [Tidy]
    rcases s.calls[i]? with ⟨⟩ <;> infer_instance
  all_goals exact isTrue trivial

/-- Every slot that is taken is held by a call or occupied by a tunnel. -/
structure Conserved (s : State) : Prop where
  balance : ∀ t, streamCount s.shared t =
    Pool.total (holds t) s.calls + Pool.total (occupies t) s.shared.tunnels
  held : ∀ call ∈ s.calls, ∀ purpose t, slotOf call = some (purpose, t) →
    t < s.shared.transports.length
  based : ∀ tunnel ∈ s.shared.tunnels, tunnel.transport < s.shared.transports.length
  slotless : ∀ call ∈ s.calls, Slotless call

section
variable {s : State} {call : Call}
lemma holds_some {purpose u} (slot : slotOf call = some (purpose, u)) (t : Nat) :
    holds t call = if u = t then 1 else 0 := by
  simp [holds, slot]

lemma holds_none (free : slotOf call = none) (t : Nat) : holds t call = 0 := by
  simp [holds, free]

variable {m : Shared}
lemma held_set {i} {next : Call}
    (held : ∀ call ∈ s.calls, ∀ purpose t, slotOf call = some (purpose, t) →
      t < s.shared.transports.length) (grows : s.shared.transports.length ≤ m.transports.length)
    (one : ∀ purpose t, slotOf next = some (purpose, t) → t < m.transports.length) :
    ∀ call ∈ s.calls.set i next, ∀ purpose t, slotOf call = some (purpose, t) →
      t < m.transports.length :=
  forall_set (fun call old purpose t slot => (held call old purpose t slot).trans_le grows) one

lemma started_free {label} (starts : started label = some call) : slotOf call = none := by
  unfold started at starts
  split at starts <;> first
    | exact some.inj starts ▸ rfl
    | cases starts

lemma close_all (ts : List Nat) (m : Shared) :
    (∀ t, streamCount (ts.foldl Shared.close m) t = streamCount m t) ∧
      (ts.foldl Shared.close m).tunnels = m.tunnels ∧
        (ts.foldl Shared.close m).transports.length = m.transports.length := by
  induction ts generalizing m with
  | nil => exact ⟨fun _ => rfl, rfl, rfl⟩
  | cons t ts ih =>
    obtain ⟨counts, tunnels, same⟩ := ih (m.close t)
    refine ⟨fun u => ?_, ?_, ?_⟩
    · exact (counts u).trans (streamCount_close t)
    · exact tunnels
    · exact same.trans (length_onTransport t _)

lemma streamCount_releaseTunnel {u} (present : u < m.transports.length) (t : Nat) :
    streamCount (m.releaseTunnel u) t = streamCount m t + if u = t then -1 else 0 := by
  have kept : streamCount (m.releaseTunnel u) t = streamCount (m.addStreams u (-1)) t :=
    streamCount_onTransport u fun _ => rfl
  rw [kept, streamCount_addStreams present]

section
variable (conserved : Conserved s)
include conserved
lemma conserved_move {i} {after : Shared × Call} (here : s.calls[i]? = some call)
    (moves : Moves s.shared call after) :
    Conserved ⟨after.1, s.calls.set i after.2⟩ := by
  obtain ⟨balance, held, based, slotless⟩ := conserved
  have member := mem_of_getElem? here
  have traded (t : Nat) := Pool.total_set (holds t) here after.2
  cases moves with
  | keeps counts tunnels slot grows =>
    refine ⟨?_, ?_, ?_, ?_⟩
    · intro t
      have same : holds t after.2 = holds t call := by rw [holds, holds, slot]
      have kept := Pool.total_set_eq (holds t) here same
      simp only [counts t, balance t, tunnels, kept]
    · apply held_set held grows
      intro purpose t found
      exact (held call member purpose t (slot ▸ found)).trans_le grows
    · rw [tunnels]
      exact fun tunnel old => (based tunnel old).trans_le grows
    · exact forall_set slotless (fun t => slot ▸ slotless call member t)
  | reserves purpose u entitled present counts tunnels free slot grows =>
    refine ⟨?_, ?_, ?_, ?_⟩
    · intro t
      have swap := traded t
      rw [holds_some slot, holds_none free] at swap
      rw [counts t, balance t, tunnels]
      dsimp only
      omega
    · apply held_set held grows
      intro purpose' t found
      rw [slot, some.injEq, Prod.mk.injEq] at found
      exact found.2 ▸ present.trans_le grows
    · rw [tunnels]
      exact fun tunnel old => (based tunnel old).trans_le grows
    · refine forall_set slotless fun t found => ?_
      rw [slot, some.injEq, Prod.mk.injEq] at found
      exact entitled found.1
  | releases purpose u counts tunnels slot free grows =>
    have inside := held call member purpose u slot
    refine ⟨?_, ?_, ?_, ?_⟩
    · intro t
      have swap := traded t
      rw [holds_some slot, holds_none free] at swap
      rw [counts inside t, balance t, tunnels]
      dsimp only
      split_ifs at swap ⊢ <;> omega
    · exact held_set held grows fun _ _ found => absurd found (by simp [free])
    · rw [tunnels]
      exact fun tunnel old => (based tunnel old).trans_le grows
    · exact forall_set slotless fun t found => absurd found (by simp [free])
  | opens purpose u counts tunnels slot free grows =>
    have inside := held call member purpose u slot
    refine ⟨?_, ?_, ?_, ?_⟩
    · intro t
      have swap := traded t
      rw [holds_some slot, holds_none free] at swap
      have joined : occupies t ⟨u, .opened⟩ = if u = t then 1 else 0 := by simp [occupies]
      rw [counts t, balance t, tunnels, Pool.total_append, Pool.total_singleton, joined]
      dsimp only
      omega
    · exact held_set held grows fun _ _ found => absurd found (by simp [free])
    · rw [tunnels]
      exact forall_snoc (fun tunnel old => (based tunnel old).trans_le grows)
        (inside.trans_le grows)
    · exact forall_set slotless fun t found => absurd found (by simp [free])

lemma conserved_start (free : slotOf call = none) :
    Conserved { s with calls := s.calls ++ [call] } := by
  obtain ⟨balance, held, based, slotless⟩ := conserved
  refine ⟨?_, ?_, based, ?_⟩
  · intro t
    rw [Pool.total_snoc (holds t) s.calls (holds_none free t)]
    exact balance t
  · exact forall_snoc held fun _ _ found => absurd found (by simp [free])
  · exact forall_snoc slotless fun t found => absurd found (by simp [free])

lemma conserved_recount (counts : ∀ t, streamCount m t = streamCount s.shared t)
    (tunnels : m.tunnels = s.shared.tunnels)
    (same : m.transports.length = s.shared.transports.length) :
    Conserved { s with shared := m } := by
  obtain ⟨balance, held, based, slotless⟩ := conserved
  refine ⟨?_, ?_, ?_, slotless⟩
  · intro t
    simp only [counts t, balance t, tunnels]
  · simpa only [same] using held
  · simpa only [same, tunnels] using based

lemma conserved_tunnel {old j new} (live : old ≠ .gone)
    (moved : s.shared.moveTunnel j old new = some m) :
    Conserved { s with shared := m } := by
  obtain ⟨balance, held, based, slotless⟩ := conserved
  obtain ⟨tunnel, here, moved⟩ := bind_eq_some_iff.mp moved
  obtain ⟨state, moved⟩ := ite_none_right_eq_some.mp moved
  dsimp only at moved
  have inside := based tunnel (mem_of_getElem? here)
  have traded (t : Nat) := Pool.total_set (occupies t) here { tunnel with state := new }
  have before (t : Nat) : occupies t tunnel = if tunnel.transport = t then 1 else 0 := by
    simp [occupies, state, live]
  have still : ∀ other ∈ s.shared.tunnels.set j { tunnel with state := new },
      other.transport < s.shared.transports.length :=
    forall_set based inside
  by_cases gone : new = .gone
  · rw [if_pos gone, some.injEq] at moved
    have same : m.transports.length = s.shared.transports.length := by
      rw [← moved, Shared.releaseTunnel, length_onTransport, Shared.addStreams, length_onTransport]
    have tunnels : m.tunnels = s.shared.tunnels.set j { tunnel with state := new } := by
      rw [← moved]
      rfl
    refine ⟨?_, ?_, ?_, slotless⟩
    · intro t
      have swap := traded t
      have after : occupies t { tunnel with state := new } = 0 := by simp [occupies, gone]
      have counts : streamCount m t =
          streamCount s.shared t + if tunnel.transport = t then -1 else 0 := by
        rw [← moved]
        exact streamCount_releaseTunnel inside t
      rw [before, after] at swap
      dsimp only
      rw [counts, balance t, tunnels]
      split_ifs at swap ⊢ <;> omega
    · simpa only [same] using held
    · simpa only [same, tunnels] using still
  · rw [if_neg gone, some.injEq] at moved
    subst moved
    refine ⟨?_, held, still, slotless⟩
    intro t
    have after : occupies t { tunnel with state := new } = occupies t tunnel := by
      simp [occupies, state, live, gone]
    rw [Pool.total_set_eq (occupies t) here after]
    exact balance t
end

lemma step_conserved {label t} (conserved : Conserved s) (tidy : Tidy s label)
    (stepped : step s label = some t) : Conserved t := by
  unfold step at stepped
  split at stepped
  case h_1 i choice =>
    obtain ⟨call, after, here, moved, rfl⟩ := Pool.moved_eq_some stepped
    have admits : Admits s.shared call := by simpa only [Tidy, here] using tidy
    have slotless := conserved.slotless call (mem_of_getElem? here)
    exact conserved_move conserved here ((trades_advance moved).slots slotless admits)
  case h_2 u =>
    cases stepped
    exact conserved_recount conserved (fun _ => streamCount_markDraining u) rfl
      (length_onTransport u _)
  case h_3 | h_4 | h_5 =>
    obtain ⟨m, moved, rfl⟩ := map_eq_some_iff.mp stepped
    exact conserved_tunnel conserved (by decide) moved
  case h_6 =>
    obtain ⟨-, stepped⟩ := ite_none_left_eq_some.mp stepped
    cases stepped
    obtain ⟨counts, tunnels, same⟩ := close_all s.shared.pool.transports s.shared
    exact conserved_recount conserved counts tunnels same
  case h_7 =>
    obtain ⟨call, starts, rfl⟩ := map_eq_some_iff.mp stepped
    exact conserved_start conserved (started_free starts)

lemma initial_conserved (pool : ConnPool.Pool) : Conserved (State.initial pool) := by
  refine ⟨fun _ => rfl, ?_, ?_, ?_⟩ <;> intro _ member <;> cases member

lemma Conserved.quiescent (conserved : Conserved s) (quiet : s.Quiescent) (t : Nat) :
    streamCount s.shared t = openTunnels s.shared t := by
  obtain ⟨idle, drained⟩ := quiet
  have unheld : Pool.total (holds t) s.calls = 0 := by
    apply Pool.total_of_light
    intro call inside
    rw [idle call inside]
    rfl
  have counted : Pool.total (occupies t) s.shared.tunnels = openTunnels s.shared t := by
    apply Pool.total_eq_length_filter
    intro tunnel member
    cases state : tunnel.state <;> simp_all [occupies]
  rw [conserved.balance t, unheld, zero_add, counted]
end

/-- Every run of the client in which no bundle refresh gets a slot and every transport that is
dialed for a call joins the pool: whenever nothing is under way, the streams counted on a
transport are its open tunnels. -/
theorem slots_conserved (pool : ConnPool.Pool) {labels : List Label} {s : State}
    (tidy : Meets step Tidy (State.initial pool) labels)
    (arrive : run step (State.initial pool) labels = some s) (quiet : s.Quiescent) (t : Nat) :
    streamCount s.shared t = openTunnels s.shared t := by
  have conserved : Conserved s :=
    invariant_of_meets step_conserved (initial_conserved pool) tidy arrive
  exact conserved.quiescent quiet t

/-- One call opens a tunnel on a new transport; a second one reserves a slot there, and its round
trip fails; a third one opens a tunnel that is closed again. -/
def threeDials : List Label :=
  [get .dialContext] ++ List.replicate 11 (move 0 .plain) ++
  [get .dialUDP] ++ List.replicate 7 (move 1 .plain) ++
  [move 1 (.fails false), .move 1 .plain] ++
  [get .dialContext] ++ List.replicate 8 (move 2 .plain) ++
  [Label.closeTunnel 1, .drained 1]

theorem slots_conserved_after_three_dials :
    ∃ s, run step (State.initial (newConnPool 8 1 1 0 false)) threeDials = some s ∧
      s.Quiescent ∧ streamCount s.shared 0 = 1 ∧
        streamCount s.shared 0 = openTunnels s.shared 0 := by
  refine exists_some_of (P := fun s => s.Quiescent ∧ streamCount s.shared 0 = 1) (by decide +kernel)
    fun s arrive ⟨quiet, counted⟩ => ?_
  exact ⟨quiet, counted, slots_conserved _ (by decide +kernel) arrive quiet 0⟩

def refresh : List Label := .get .bundleRefresh :: List.replicate 9 (.move 0 .plain)

def dialAfterRefresh : List Label := .get .dialContext :: List.replicate 9 (.move 1 .plain)

def closedWhileDialing : List Label :=
  get .dialContext :: List.replicate 8 (move 0 .plain) ++ [Label.closeClient, .move 0 .plain]

/-- A refresh leaves the pool's only slot taken with no tunnel open, and so does a client that is
closed while a dial has a slot on a new transport. -/
theorem refresh_keeps_its_slot :
    (∃ s t, run step (State.initial (newConnPool 1 1 1 0 false)) refresh = some s ∧
      s.Quiescent ∧ streamCount s.shared 0 = 1 ∧ openTunnels s.shared 0 = 0 ∧
      run step s dialAfterRefresh = some t ∧ t.Quiescent ∧ t.shared.tunnels = []) ∧
    ∃ s, run step (State.initial (newConnPool 1 1 1 0 false)) closedWhileDialing = some s ∧
      s.Quiescent ∧ streamCount s.shared 0 = 1 ∧ openTunnels s.shared 0 = 0 := by decide +kernel
end StreamSlots
namespace DeadTransports
open Client.PoolBook
open Relation (ReflTransGen)
def unclosed (m : Shared) : Nat := (m.pool.transports.filter fun t => !isClosed m t).length

def NoneClosed (m : Shared) : Prop := ∀ t ∈ m.pool.transports, isClosed m t = false
deriving Decidable

/-- The capacity that the next step of the call reports with `ErrPoolBackpressure`, if it returns
that. -/
def backpressure (m : Shared) : Call → Option Int
  | .get _ .full =>
    if m.capacity ≤ m.pool.transports.length + m.pool.creating ∧ ¬0 < m.pool.creating ∧
        m.pool.maxTransports ≠ 1 then some m.capacity
    else none
  | .get _ (.prune [] alive capacity) =>
    if alive.length ≠ m.pool.transports.length ∧
        (alive.length : Int) + m.pool.creating < capacity then none
    else some capacity
  | _ => none

/-- The condition on a step of `getTransport`: it decides about capacity on a pool without closed
transports, or it cleans them up, and no transport that the cleanup has kept closes before it
returns. -/
def Swept (s : State) : Label → Prop
  | .move i _ =>
    match s.calls[i]? with
    | some (.get _ .full) => s.shared.pool.maxTransports = 1 ∨ NoneClosed s.shared
    | some (.get _ (.prune [] alive _)) => ∀ t ∈ alive, isClosed s.shared t = false
    | _ => True
  | _ => True

lemma unclosed_of_none {m} (none : NoneClosed m) : unclosed m = m.pool.transports.length := by
  unfold unclosed
  rw [filter_eq_self.mpr]
  intro t member
  simp [none t member]

lemma kept_le_unclosed {m} {alive : List Nat} (sub : alive.Sublist m.pool.transports)
    (opened : ∀ t ∈ alive, isClosed m t = false) : alive.length ≤ unclosed m := by
  have all : alive.filter (fun t => !isClosed m t) = alive := by
    apply filter_eq_self.mpr
    intro t member
    simp [opened t member]
  have fewer := (sub.filter fun t => !isClosed m t).length_le
  rwa [all] at fewer

variable {i : Nat} {s : State} {call : Call}
lemma capacity_le_unclosed {capacity} {choice : Choice} (booked : Booked s)
    (swept : Swept s (.move i choice)) (here : s.calls[i]? = some call)
    (refused : backpressure s.shared call = some capacity) : capacity ≤ unclosed s.shared := by
  unfold backpressure at refused
  split at refused
  · split_ifs at refused with full
    cases refused
    rw [Swept, here] at swept
    have none := swept.resolve_left full.2.2
    rw [unclosed_of_none none]
    omega
  · next purpose alive capacity' =>
    split_ifs at refused with freed
    cases refused
    rw [Swept, here] at swept
    have member := mem_of_getElem? here
    obtain ⟨bound, idle⟩ := booked.pruned _ member capacity rfl
    have sub := (booked.kept _ member alive [] rfl).1
    rw [append_nil] at sub
    have kept := kept_le_unclosed sub swept
    by_cases same : alive.length = s.shared.pool.transports.length
    · omega
    · have tight : ¬(alive.length : Int) + s.shared.pool.creating < capacity :=
        fun room => freed ⟨same, room⟩
      omega
  · cases refused

section

def Alone (a b : Shared × Call) : Prop := advance a.1 .plain a.2 = some b

lemma run_of_alone {a b} (path : ReflTransGen Alone a b) (shared : s.shared = a.1)
    (here : s.calls[i]? = some a.2) :
    ∃ labels, (∀ label ∈ labels, label = .move i .plain) ∧
      run step s labels = some ⟨b.1, s.calls.set i b.2⟩ := by
  induction path using ReflTransGen.head_induction_on generalizing s with
  | refl =>
    refine ⟨[], by simp, ?_⟩
    have same : s.calls.set i b.2 = s.calls := by
      obtain ⟨inside, there⟩ := List.getElem?_eq_some_iff.mp here
      rw [← there, set_getElem_self]
    rw [run_nil, same, ← shared]
  | @head a c first _ ih =>
    have moved : step s (.move i .plain) = some ⟨c.1, s.calls.set i c.2⟩ := by
      simp only [step, here, bind_some, shared]
      rw [first]
      rfl
    have there : (s.calls.set i c.2)[i]? = some c.2 := by
      rw [Pool.getElem?_set_apply here, if_pos rfl]
    obtain ⟨labels, own, onward⟩ := ih (s := ⟨c.1, s.calls.set i c.2⟩) rfl there
    refine ⟨.move i .plain :: labels, forall_mem_cons.mpr ⟨rfl, own⟩, ?_⟩
    rw [run_cons, moved, bind_some, onward, set_set]

variable {m : Shared}
lemma exists_of_isClosed {t} (closed : isClosed m t = true) :
    ∃ tr, m.transports[t]? = some tr ∧ tr.closed = true := by
  unfold isClosed at closed
  cases here : m.transports[t]? with
  | none => simp [here] at closed
  | some tr => exact ⟨tr, rfl, by simpa [here] using closed⟩

variable {purpose : Purpose}
lemma alone_scan (dead : ∀ t ∈ m.pool.transports, isClosed m t = true) (start tried : Nat) :
    ReflTransGen Alone (m, .get purpose (.scan start tried)) (m, .get purpose .full) := by
  -- by the number of transports that are left to try
  induction left : m.pool.transports.length - tried generalizing tried with
  | zero =>
    apply ReflTransGen.single
    simp only [Alone, advance, advanceGet, advanceScan]
    rw [if_pos (by omega)]
  | succ left ih =>
    have inside : (start + tried) % m.pool.transports.length < m.pool.transports.length :=
      Nat.mod_lt _ (by omega)
    obtain ⟨t, found⟩ : ∃ t, m.pool.transports[(start + tried) %
        m.pool.transports.length]? = some t := ⟨_, getElem?_eq_getElem inside⟩
    obtain ⟨tr, here, closed⟩ := exists_of_isClosed (dead t (mem_of_getElem? found))
    have looks : Alone (m, .get purpose (.scan start tried))
        (m, .get purpose (.reserve start tried t .check)) := by
      simp only [Alone, advance, advanceGet, advanceScan]
      rw [if_neg (by omega), found]
      rfl
    have passes : Alone (m, .get purpose (.reserve start tried t .check))
        (m, .get purpose (.scan start (tried + 1))) := by
      simp [Alone, advance, advanceGet, reserveStreamSlot, here, closed]
    exact .head looks (.head passes (ih (tried + 1) (by omega)))

lemma alone_prune {todo} (dead : ∀ t ∈ todo, isClosed m t = true) (capacity : Int) :
    ReflTransGen Alone (m, .get purpose (.prune todo [] capacity))
      (m, .get purpose (.prune [] [] capacity)) := by
  induction todo with
  | nil => exact .refl
  | cons t todo ih =>
    obtain ⟨tr, here, closed⟩ := exists_of_isClosed (dead t mem_cons_self)
    have drops : Alone (m, .get purpose (.prune (t :: todo) [] capacity))
        (m, .get purpose (.prune todo [] capacity)) := by
      simp [Alone, advance, advanceGet, here, closed]
    exact .head drops (ih fun u later => dead u (mem_cons_of_mem t later))

def inside (m : Shared) : Shared := m.setPool { m.pool with locked := true }

lemma alone_full (room : ¬m.capacity ≤ m.pool.transports.length + m.pool.creating) :
    Alone (m, .get purpose .full)
      (m.setPool { m.pool with creating := m.pool.creating + 1, locked := false },
        .get purpose .create) := by
  simp only [Alone, advance, advanceGet, advanceFull]
  rw [if_neg room]

lemma alone_empty (free : m.pool.locked = false) (opened : m.pool.closed = false)
    (empty : m.pool.transports = []) (idle : m.pool.creating = 0)
    (maximum : 1 ≤ m.pool.maxTransports) :
    ∃ m', ReflTransGen Alone (m, .get purpose .lock) (m', .get purpose .create) := by
  have locks : Alone (m, .get purpose .lock) (inside m, .get purpose .full) := by
    simp [Alone, advance, advanceGet, free, opened, empty, inside]
  have room : ¬(inside m).capacity ≤
      (inside m).pool.transports.length + (inside m).pool.creating := by
    simp only [inside, Shared.capacity, Shared.hasDrainingLocked, Shared.setPool, empty, idle,
      any_nil, Bool.false_eq_true, and_false, if_false, length_nil]
    omega
  exact ⟨_, .head locks (.single (alone_full room))⟩

lemma alone_pruned {capacity} (some : m.pool.transports ≠ []) (room : m.pool.creating < capacity) :
    Alone (inside m, .get purpose (.prune [] [] capacity))
      (m.setPool { m.pool with transports := [], locked := false }, .get purpose .lock) := by
  have fewer : ([] : List Nat).length ≠ (inside m).pool.transports.length :=
    (length_pos_iff.mpr some).ne
  have freed : (([] : List Nat).length : Int) + (inside m).pool.creating < capacity := by
    have same : (inside m).pool.creating = m.pool.creating := rfl
    simpa [same] using room
  simp only [Alone, advance, advanceGet]
  rw [if_pos fewer, if_pos freed]
  rfl

lemma one_le_capacity (maximum : 1 ≤ m.pool.maxTransports) : 1 ≤ m.capacity := by
  unfold Shared.capacity
  split_ifs with overlaps
  · omega
  · exact maximum

lemma alone_dials (free : m.pool.locked = false) (opened : m.pool.closed = false)
    (dead : ∀ t ∈ m.pool.transports, isClosed m t = true) (idle : m.pool.creating = 0)
    (maximum : 1 ≤ m.pool.maxTransports)
    (clean : m.pool.maxTransports = 1 ∨ (m.pool.transports.length : Int) < m.capacity) :
    ∃ m', ReflTransGen Alone (m, .get purpose .lock) (m', .get purpose .create) := by
  by_cases empty : m.pool.transports = []
  · exact alone_empty free opened empty idle maximum
  · have counts : (inside m).pool.creating = 0 := idle
    have dead' : ∀ t ∈ (inside m).pool.transports, isClosed (inside m) t = true := dead
    have locks : Alone (m, .get purpose .lock) (inside m,
        .get purpose (.scan (m.pool.roundRobin % m.pool.transports.length) 0)) := by
      simp [Alone, advance, advanceGet, free, opened, empty, inside]
    have looks : ReflTransGen Alone (m, .get purpose .lock) (inside m, .get purpose .full) :=
      .head locks (alone_scan dead' (m.pool.roundRobin % m.pool.transports.length) 0)
    by_cases full : (inside m).capacity ≤
        (inside m).pool.transports.length + (inside m).pool.creating
    · -- the pool is full of closed transports: they are dropped, and the call starts again
      have one : m.pool.maxTransports = 1 := by
        have crowded : m.capacity ≤ m.pool.transports.length + (inside m).pool.creating := full
        omega
      have capable : 1 ≤ (inside m).capacity := one_le_capacity maximum
      have begins : Alone (inside m, .get purpose .full)
          (inside m, .get purpose (.prune m.pool.transports [] (inside m).capacity)) := by
        simp only [Alone, advance, advanceGet, advanceFull]
        rw [if_pos full, if_neg, if_neg]
        · rfl
        · exact not_not.mpr one
        · omega
      have prunes : ReflTransGen Alone
          (inside m, .get purpose (.prune m.pool.transports [] (inside m).capacity))
          (inside m, .get purpose (.prune [] [] (inside m).capacity)) := alone_prune dead' _
      have ends : Alone (inside m, .get purpose (.prune [] [] (inside m).capacity))
          (m.setPool { m.pool with transports := [], locked := false }, .get purpose .lock) :=
        alone_pruned empty (by omega)
      obtain ⟨m', again⟩ : ∃ m', ReflTransGen Alone
          (m.setPool { m.pool with transports := [], locked := false }, .get purpose .lock)
          (m', .get purpose .create) := alone_empty rfl opened rfl idle maximum
      exact ⟨m', looks.trans (.head begins (prunes.trans (.head ends again)))⟩
    · exact ⟨_, looks.tail (alone_full full)⟩

/-- Where a call can stand that finds a full pool of closed transports and may not clean up. -/
def Refused (m : Shared) (purpose : Purpose) (place : Shared × Call) : Prop :=
  place = (m, .get purpose .lock) ∨ place.2 = .done ∨
    place.1 = inside m ∧ ((∃ start tried, place.2 = .get purpose (.scan start tried)) ∨
      (∃ start tried t, t ∈ m.pool.transports ∧
        place.2 = .get purpose (.reserve start tried t .check)) ∨
      place.2 = .get purpose .full)

section
variable (free : m.pool.locked = false) (opened : m.pool.closed = false)
    (dead : ∀ t ∈ m.pool.transports, isClosed m t = true) (idle : m.pool.creating = 0)
    (maximum : 1 ≤ m.pool.maxTransports) (several : m.pool.maxTransports ≠ 1)
    (full : m.capacity ≤ m.pool.transports.length)
include free opened dead idle maximum several full
lemma Refused.step {a b} (refused : Refused m purpose a) (moved : Alone a b) :
    Refused m purpose b := by
  have some : m.pool.transports ≠ [] := by
    intro empty
    have capable := one_le_capacity maximum
    rw [empty, length_nil] at full
    omega
  obtain ⟨n, call⟩ := a
  rcases refused with same | ended | ⟨same, scans | reserves | fulls⟩
  · cases same
    simp only [Alone, advance, advanceGet, free, opened, some, Bool.false_eq_true, if_false,
      Option.some.injEq] at moved
    subst moved
    exact .inr (.inr ⟨by simp [inside, opened], .inl ⟨_, _, rfl⟩⟩)
  · subst ended
    cases moved
  · obtain ⟨start, tried, scans⟩ := scans
    subst same scans
    simp only [Alone, advance, advanceGet, advanceScan] at moved
    split_ifs at moved
    · cases moved
      exact .inr (.inr ⟨rfl, .inr (.inr rfl)⟩)
    · obtain ⟨t, found, rfl⟩ := map_eq_some_iff.mp moved
      exact .inr (.inr ⟨rfl, .inr (.inl ⟨_, _, t, mem_of_getElem? found, rfl⟩)⟩)
  · obtain ⟨start, tried, t, member, reserves⟩ := reserves
    subst same reserves
    obtain ⟨tr, here, closed⟩ := exists_of_isClosed (dead t member)
    have here' : (inside m).transports[t]? = Option.some tr := here
    simp only [Alone, advance, advanceGet, reserveStreamSlot, here', closed, Bool.true_or, if_true,
      Option.map_some, Option.some.injEq] at moved
    subst moved
    exact .inr (.inr ⟨rfl, .inl ⟨_, _, rfl⟩⟩)
  · subst same fulls
    have crowded : (inside m).capacity ≤
        (inside m).pool.transports.length + (inside m).pool.creating := by
      have same : (inside m).pool.creating = 0 := idle
      have same' : (inside m).capacity = m.capacity := rfl
      have same'' : (inside m).pool.transports = m.pool.transports := rfl
      rw [same, same', same'']
      omega
    have none : ¬0 < (inside m).pool.creating := by
      have same : (inside m).pool.creating = 0 := idle
      omega
    have more : (inside m).pool.maxTransports ≠ 1 := several
    simp only [Alone, advance, advanceGet, advanceFull] at moved
    rw [if_pos crowded, if_neg none, if_pos more] at moved
    cases moved
    exact .inr (.inl rfl)

lemma Refused.path {b} (path : ReflTransGen Alone (m, .get purpose .lock) b) :
    Refused m purpose b := by
  induction path with
  | refl => exact .inl rfl
  | tail _ moved ih => exact ih.step free opened dead idle maximum several full moved
end

lemma alone_of_run {labels s'} (own : ∀ label ∈ labels, label = .move i .plain)
    (here : s.calls[i]? = some call) (reached : run step s labels = some s') :
    ∃ call', s'.calls[i]? = some call' ∧
      ReflTransGen Alone (s.shared, call) (s'.shared, call') := by
  induction labels generalizing s call with
  | nil =>
    cases reached
    exact ⟨call, here, .refl⟩
  | cons label labels ih =>
    obtain ⟨middle, first, rest⟩ := run_cons_some reached
    rw [own label mem_cons_self] at first
    simp only [step, here, bind_some] at first
    obtain ⟨after, advanced, rfl⟩ := map_eq_some_iff.mp first
    have there : (s.calls.set i after.2)[i]? = some after.2 := by
      rw [Pool.getElem?_set_apply here, if_pos rfl]
    obtain ⟨call', arrives, path⟩ :=
      ih (fun other later => own other (mem_cons_of_mem label later)) there rest
    exact ⟨call', arrives, .head advanced path⟩
end

lemma advance_ne_resize {m} {choice : Choice} {after : Shared × Call}
    (moved : advance m choice call = some after) (newMin newMax : Int) :
    after.2 ≠ .resize (.lock newMin newMax) := by
  intro same
  have unasked := (trades_advance moved).unasked
  rw [same] at unasked
  cases unasked

structure Limited (s : State) : Prop where
  booked : Booked s
  maximum : 1 ≤ s.shared.pool.maxTransports
  asked : ∀ call ∈ s.calls, ∀ newMin newMax, call = .resize (.lock newMin newMax) → 1 ≤ newMax

lemma Limited.step {s'} {label : Label} (limited : Limited s) (moved : step s label = some s') :
    Limited s' := by
  have booked := limited.booked.step moved
  cases kind_of_step moved with
  | starts call new =>
    obtain ⟨-, -, -, -, asked⟩ := started_fresh new
    exact ⟨booked, limited.maximum, Pool.forall_snoc limited.asked asked⟩
  | moves i choice call after here advanced same =>
    refine ⟨booked, ?_, Pool.forall_set limited.asked fun newMin newMax impossible =>
      absurd impossible (advance_ne_resize advanced newMin newMax)⟩
    obtain ⟨-, kept | ⟨newMin, resized⟩⟩ := (trades_advance advanced).limits
    · rw [kept]
      exact limited.maximum
    · exact limited.asked call (mem_of_getElem? here) newMin _ resized
  | ages m ages pool | closes m free transports pool =>
    refine ⟨booked, ?_, limited.asked⟩
    rw [pool]
    exact limited.maximum

lemma getTransport_dials_iff {purpose} (maximum : 1 ≤ s.shared.pool.maxTransports)
    (here : s.calls[i]? = some (.get purpose .lock)) (free : s.shared.pool.locked = false)
    (opened : s.shared.pool.closed = false)
    (dead : ∀ t ∈ s.shared.pool.transports, isClosed s.shared t = true)
    (idle : s.shared.pool.creating = 0) :
    (∃ own s', (∀ label ∈ own, label = .move i .plain) ∧ run step s own = some s' ∧
        s'.calls[i]? = some (.get purpose .create)) ↔
      s.shared.pool.maxTransports = 1 ∨
        (s.shared.pool.transports.length : Int) < s.shared.capacity := by
  constructor
  · rintro ⟨own, s', mine, onward, dials⟩
    by_contra neither
    obtain ⟨several, full⟩ := not_or.mp neither
    obtain ⟨call', arrives, path⟩ := alone_of_run mine here onward
    cases dials.symm.trans arrives
    have refused := Refused.path free opened dead idle maximum several (not_lt.mp full) path
    rcases refused with same | done | ⟨-, ⟨_, _, scans⟩ | ⟨_, _, _, -, reserves⟩ | fulls⟩
    · cases congrArg Prod.snd same
    · cases done
    · cases scans
    · cases reserves
    · cases fulls
  · intro clean
    obtain ⟨m', path⟩ := alone_dials free opened dead idle maximum clean
    obtain ⟨own, mine, onward⟩ := run_of_alone path rfl here
    refine ⟨own, _, mine, onward, ?_⟩
    rw [Pool.getElem?_set_apply here, if_pos rfl]

lemma topUp_dials_iff (here : s.calls[i]? = some (.topUp .check))
    (free : s.shared.pool.locked = false) (opened : s.shared.pool.closed = false)
    (usable : (s.shared.alive : Int) < s.shared.pool.minTransports) :
    (∃ s', step s (.move i .plain) = some s' ∧ s'.calls[i]? = some (.topUp .create)) ↔
      (s.shared.pool.transports.length : Int) + s.shared.pool.creating < s.shared.capacity := by
  simp only [step, here, bind_some, advance, advanceTopUp, free, Bool.false_eq_true, if_false]
  by_cases full : s.shared.capacity ≤ s.shared.pool.transports.length + s.shared.pool.creating
  · rw [if_pos (.inr (.inr full))]
    refine iff_of_false ?_ (not_lt.mpr full)
    rintro ⟨s', moved, dials⟩
    cases moved
    rw [Pool.getElem?_set_apply here, if_pos rfl] at dials
    cases dials
  · rw [if_neg]
    · refine iff_of_true ⟨_, rfl, ?_⟩ (not_le.mp full)
      rw [Pool.getElem?_set_apply here, if_pos rfl]
    · rintro (closed | enough | crowded)
      · rw [opened] at closed
        cases closed
      · exact absurd usable (not_lt.mpr enough)
      · exact full crowded

variable {maxStreams minTransports maxTransports rotationOverlapAllowance : Int} {softCapped : Bool}
  {labels : List Label}
open State (initial)
lemma limited_of_run (reached : run step (initial (newConnPool maxStreams minTransports
      maxTransports rotationOverlapAllowance softCapped)) labels = some s) : Limited s := by
  refine run_invariant Limited.step ⟨?_, ?_, ?_⟩ reached
  · exact .initial _ rfl rfl
  · simp only [initial, newConnPool]
    split_ifs <;> omega
  · simp [initial]

/-- Who decides about capacity where closed transports are out of the way has no error but for
transports that are not closed. In a pool of closed transports `getTransport` dials if and only if
it may clean up or the list still has room, and closed transports do not stop `topUp` if and only
if the list has room. -/
theorem closed_transports_hold_no_slot
    (reached : run step (initial (newConnPool maxStreams minTransports maxTransports
      rotationOverlapAllowance softCapped)) labels = some s) :
    (∀ i choice call capacity, Swept s (.move i choice) → s.calls[i]? = some call →
      backpressure s.shared call = some capacity →
        capacity ≤ unclosed s.shared + Pool.total dials s.calls) ∧
    (∀ i purpose, s.calls[i]? = some (.get purpose .lock) →
      s.shared.pool.locked = false → s.shared.pool.closed = false →
      (∀ t ∈ s.shared.pool.transports, isClosed s.shared t = true) →
      (∀ call ∈ s.calls, counted call = 0) →
        ((∃ own s', (∀ label ∈ own, label = .move i .plain) ∧ run step s own = some s' ∧
            s'.calls[i]? = some (.get purpose .create)) ↔
          s.shared.pool.maxTransports = 1 ∨
            (s.shared.pool.transports.length : Int) < s.shared.capacity)) ∧
    (∀ i, s.calls[i]? = some (.topUp .check) →
      s.shared.pool.locked = false → s.shared.pool.closed = false →
      (s.shared.alive : Int) < s.shared.pool.minTransports →
      (unclosed s.shared : Int) + s.shared.pool.creating < s.shared.capacity →
        ((∃ s', step s (.move i .plain) = some s' ∧ s'.calls[i]? = some (.topUp .create)) ↔
          (s.shared.pool.transports.length : Int) + s.shared.pool.creating <
            s.shared.capacity)) := by
  have limited := limited_of_run reached
  refine ⟨?_, ?_, ?_⟩
  · intro i choice call capacity swept here refused
    have bound := capacity_le_unclosed limited.booked swept here refused
    omega
  · intro i purpose here free opened dead idle
    have none : s.shared.pool.creating = 0 := by
      rw [limited.booked.creating]
      exact Pool.total_of_light idle
    exact getTransport_dials_iff limited.maximum here free opened dead none
  · intro i here free opened usable _
    exact topUp_dials_iff here free opened usable

def sampleLoses (i n : Nat) : List Label :=
  Label.get .dialContext :: List.replicate n (.move i .plain) ++
    [.move i (.fails true), .move i .plain]

theorem closed_transports_hold_no_slot_of_three :
    ∃ s, run step (initial (newConnPool 100 1 3 0 false)) (sampleLoses 0 10 ++ Label.topUp ::
        List.replicate 5 (.move 1 .plain) ++ sampleLoses 2 9 ++
        [Label.get .dialContext, .move 3 .plain]) = some s ∧
      unclosed s.shared = 0 ∧ s.shared.pool.transports = [0, 1] ∧
      ∃ own s', (∀ label ∈ own, label = .move 3 .plain) ∧ run step s own = some s' ∧
        s'.calls[3]? = some (.get .dialContext .create) := by
  refine exists_some_of (P := fun s => s.calls[3]? = some (.get .dialContext .lock) ∧
    s.shared.pool.locked = false ∧ s.shared.pool.closed = false ∧
    (∀ t ∈ s.shared.pool.transports, isClosed s.shared t = true) ∧
    (∀ call ∈ s.calls, counted call = 0) ∧ unclosed s.shared = 0 ∧
    s.shared.pool.transports = [0, 1] ∧ 2 < s.shared.capacity) (by decide +kernel) ?_
  rintro s reached ⟨here, free, working, dead, idle, none, two, room⟩
  refine ⟨none, two, ?_⟩
  exact ((closed_transports_hold_no_slot reached).2.1 3 .dialContext here free working dead
    idle).mpr (.inr (by rw [two]; exact room))

theorem closed_transports_exhaust_pool : ∃ s, run step (initial (newConnPool 100 2 2 0 false))
        (sampleLoses 0 10 ++ [Label.topUp, .move 1 .plain, .move 1 .plain, .move 1 .plain,
          .move 1 .plain, .move 1 .plain] ++ sampleLoses 2 9 ++ [Label.get .dialContext] ++
          List.replicate 7 (Label.move 3 .plain)) = some s ∧
      s.calls[3]? = some (.get .dialContext .full) ∧
      backpressure s.shared (.get .dialContext .full) = some 2 ∧
      unclosed s.shared = 0 ∧ Pool.total dials s.calls = 0 := by decide +kernel
end DeadTransports
end Tamizdat.Client
