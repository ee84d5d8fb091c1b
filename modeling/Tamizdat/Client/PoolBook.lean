/- source: pkg/tamizdat/connpool.go
   digest: Who holds the lock of the pool, which dials it counts, and where its transports are. -/

import Tamizdat.Client.ConnPool

set_option autoImplicit false

open List Option
namespace Tamizdat.Client.PoolBook
open Machine Client.ConnPool Client.StreamSlots
section
variable (m : Shared) (t : Nat)
def isLive : Bool := (m.transports[t]?.map fun tr => !tr.closed && !tr.draining).getD false
def isClosed : Bool := (m.transports[t]?.map (·.closed)).getD false

def isOpen : Bool := (m.transports[t]?.map fun tr => !tr.closed).getD false
end

structure Ages (m m' : Shared) : Prop where
  length : m'.transports.length = m.transports.length
  closed : ∀ t, isClosed m t = true → isClosed m' t = true
  live : ∀ t, isLive m' t = true → isLive m t = true

namespace Ages
variable {m : Shared}
lemma of_eq {m'} (same : m'.transports = m.transports) : Ages m m' where
  length := by rw [same]
  closed := by
    intro t closed
    rw [isClosed, same]
    exact closed
  live := by
    intro t live
    rw [isLive, same] at live
    exact live

variable (u : Nat)
lemma onTransport {change} (closes : ∀ tr, tr.closed = true → (change tr).closed = true)
    (drains : ∀ tr, tr.draining = true → (change tr).draining = true) :
    Ages m (m.onTransport u change) := by
  have moved : ∀ t, (m.onTransport u change).transports[t]? =
      m.transports[t]?.map fun tr => if u = t then change tr else tr := by
    intro t
    rw [Shared.onTransport, getElem?_modify]
    rfl
  constructor
  · exact length_modify _ _ _
  · intro t closed
    rw [isClosed, moved]
    cases here : m.transports[t]? with
    | none => simp [isClosed, here] at closed
    | some tr =>
      simp only [isClosed, here, map_some, getD_some] at closed ⊢
      split_ifs
      · exact closes tr closed
      · exact closed
  · intro t live
    rw [isLive, moved] at live
    rw [isLive]
    cases here : m.transports[t]? with
    | none => simp [here] at live
    | some tr =>
      simp only [here, map_some, getD_some, Bool.and_eq_true, Bool.not_eq_true'] at live ⊢
      split_ifs at live
      · refine ⟨?_, ?_⟩
        · by_contra closed
          rw [closes tr (by simpa using closed)] at live
          cases live.1
        · by_contra draining
          rw [drains tr (by simpa using draining)] at live
          cases live.2
      · exact live

lemma close : Ages m (m.close u) := onTransport u (fun _ _ => rfl) (fun _ => id)

lemma markDraining : Ages m (m.markDraining u) := onTransport u (fun _ => id) (fun _ _ => rfl)

lemma addStreams (n : Int) : Ages m (m.addStreams u n) := onTransport u (fun _ => id) (fun _ => id)

lemma trans {m' m''} (first : Ages m m') (second : Ages m' m'') : Ages m m'' where
  length := second.length.trans first.length
  closed := fun t closed => second.closed t (first.closed t closed)
  live := fun t live => first.live t (second.live t live)

lemma releaseTunnel : Ages m (m.releaseTunnel u) :=
  (addStreams u (-1)).trans (onTransport u (fun tr closed => by simp [closed]) (fun _ => id))

lemma isOpen_of {m' t} (ages : Ages m m') (opened : isOpen m' t = true) : isOpen m t = true := by
  cases here : m.transports[t]? with
  | none =>
    have beyond := getElem?_eq_none_iff.mp here
    rw [← ages.length, ← getElem?_eq_none_iff] at beyond
    simp [isOpen, beyond] at opened
  | some tr =>
    have closes := ages.closed t
    cases there : m'.transports[t]? <;> simp_all [isOpen, isClosed]
end Ages

variable {t : Nat} {m : Shared}
lemma isOpen_of_isLive (live : isLive m t = true) : isOpen m t = true := by
  unfold isLive at live
  unfold isOpen
  cases here : m.transports[t]? <;> simp_all

lemma isClosed_of_not_open (dialed : t < m.transports.length) (shut : isOpen m t = false) :
    isClosed m t = true := by
  unfold isOpen at shut
  unfold isClosed
  rw [getElem?_eq_getElem dialed] at shut ⊢
  simpa using shut

open Shared (close)
lemma isOpen_close (m : Shared) (t : Nat) : isOpen (m.close t) t = false := by
  rw [isOpen, close, Shared.onTransport, getElem?_modify]
  cases m.transports[t]? <;> simp

lemma isClosed_of {tr} (here : m.transports[t]? = some tr) (closed : tr.closed = true) :
    isClosed m t = true := by
  simp [isClosed, here, closed]

lemma isClosed_close {m : Shared} {tr : Transport} (here : m.transports[t]? = some tr) :
    isClosed (m.close t) t = true := by
  rw [isClosed, close, Shared.onTransport, getElem?_modify, here]
  simp

lemma not_open_of_closed (closed : isClosed m t = true) : isOpen m t = false := by
  unfold isClosed at closed
  unfold isOpen
  cases here : m.transports[t]? with
  | none => rfl
  | some tr =>
    rw [here] at closed
    have shut : tr.closed = true := closed
    simp [shut]

def holdsLock : Call → Nat
  | .get _ (.scan _ _) => 1
  | .get _ (.reserve _ _ _ _) => 1
  | .get _ .full => 1
  | .get _ (.prune _ _ _) => 1
  | .cleanup (.sweep _ _) => 1
  | .resize (.enforce _ _ _ _) => 1
  | _ => 0

def counted : Call → Int
  | .get _ .create => 1
  | .get _ (.created _) => 1
  | .topUp .create => 1
  | .topUp (.created _) => 1
  | _ => 0

def dials : Call → Nat
  | .get _ .create => 1
  | .topUp .create => 1
  | _ => 0

def carries : Call → Option Nat
  | .get _ (.created dialed) => dialed
  | .get _ (.fresh t _) => some t
  | .get _ (.enlist t) => some t
  | .topUp (.created dialed) => dialed
  | .topUp (.enlist t) => some t
  | _ => none

/-- The loop of the call over the pool: what it has kept, and what it has still to look at. -/
def sweeps : Call → Option (List Nat × List Nat)
  | .get _ (.prune todo alive _) => some (alive, todo)
  | .cleanup (.sweep todo alive) => some (alive, todo)
  | .resize (.enforce _ todo alive _) => some (alive, todo)
  | _ => none

def Kept (m : Shared) (call : Call) : Prop :=
  ∀ alive todo, sweeps call = some (alive, todo) → (alive ++ todo).Sublist m.pool.transports ∧
      ∀ t ∈ m.pool.transports, t ∈ alive ++ todo ∨ isClosed m t = true

variable {call : Call}
lemma Kept.of_none (none : sweeps call = none) : Kept m call := by
  intro alive todo some
  rw [none] at some
  cases some

/-- The capacity that the inline cleanup of `getTransport` has found exhausted. -/
def prunes : Call → Option Int
  | .get _ (.prune _ _ capacity) => some capacity
  | _ => none

def Pruned (m : Shared) (call : Call) : Prop :=
  ∀ capacity, prunes call = some capacity →
    capacity ≤ m.pool.transports.length ∧ m.pool.creating ≤ 0

lemma Pruned.of_none (none : sweeps call = none) : Pruned m call := by
  intro capacity some
  unfold prunes at some
  split at some
  · cases none
  · cases some

def asks : Call → Option Int
  | .resize (.lock _ newMax) => some newMax
  | _ => none

def plain (call : Call) : Bool := dials call = 0 && asks call = none && sweeps call = none

variable {alive todo : List Nat}
lemma dials_of_sweeps (loops : sweeps call = some (alive, todo)) :
    dials call = 0 ∧ asks call = none := by
  unfold sweeps at loops
  split at loops
  · exact ⟨rfl, rfl⟩
  · exact ⟨rfl, rfl⟩
  · exact ⟨rfl, rfl⟩
  · cases loops

def lockWeight (pool : Pool) : Nat := if pool.locked then 1 else 0

def Limits (m : Shared) (call : Call) (m' : Shared) : Prop :=
  m'.pool.rotationOverlapAllowance = m.pool.rotationOverlapAllowance ∧
    (m'.pool.maxTransports = m.pool.maxTransports ∨
      ∃ newMin, call = .resize (.lock newMin m'.pool.maxTransports))

lemma Limits.of_eq {m'}
    (allowance : m'.pool.rotationOverlapAllowance = m.pool.rotationOverlapAllowance)
    (maximum : m'.pool.maxTransports = m.pool.maxTransports) : Limits m call m' :=
  ⟨allowance, .inl maximum⟩

def FindsRoom (m : Shared) (call : Call) : Prop :=
  (m.pool.transports.length : Int) + m.pool.creating < m.capacity ∧
    ((∃ purpose, call = .get purpose .full) ∨
      call = .topUp .check ∧ m.pool.closed = false ∧ (m.alive : Int) < m.pool.minTransports)

def Begins (m : Shared) (call : Call) (after : Shared × Call) : Prop :=
  dials after.2 = 0 ∨ after.1.transports = m.transports ∧ FindsRoom m call

/-- What a step of a call does besides: it moves a slot, begins a dial, asks for a size. -/
structure Notes (m : Shared) (call : Call) (after : Shared × Call) : Prop where
  slots : Slotless call → Admits m call → Moves m call after
  begins : Begins m call after
  unasked : asks after.2 = none

def Relists (m m' : Shared) : Prop :=
  m'.pool.closed = m.pool.closed ∧ (m'.pool.transports.Sublist m.pool.transports ∨
      m.pool.closed = false ∧ (m.pool.transports.length : Int) < m.capacity ∧
        m'.pool.transports.length = m.pool.transports.length + 1)

lemma Relists.of_eq {m'} (closed : m'.pool.closed = m.pool.closed)
    (transports : m'.pool.transports = m.pool.transports) : Relists m m' :=
  ⟨closed, .inl (transports ▸ List.Sublist.refl _)⟩

structure Trades (m : Shared) (call : Call) (after : Shared × Call) : Prop extends
    Notes m call after where
  limits : Limits m call after.1
  grows : Ages m after.1 ∨ after.1 = m.dial ∧ dials call = 1
  lock : (holdsLock call = 1 → m.pool.locked = true) →
    lockWeight after.1.pool + holdsLock call = lockWeight m.pool + holdsLock after.2
  creating : after.1.pool.creating + counted call = m.pool.creating + counted after.2
  /-- Who does not hold the lock leaves the pool alone while it is held. -/
  frame : m.pool.locked = true → holdsLock call = 0 → after.1.pool = m.pool
  closed : ∀ t, isClosed m t = true → isClosed after.1 t = true
  live : ∀ t, isOpen after.1 t = true → isOpen m t = true ∨ carries after.2 = some t
  carried : ∀ t, carries call = some t → isOpen after.1 t = true →
    carries after.2 = some t ∨ t ∈ after.1.pool.transports
  pooled : Kept m call → ∀ t ∈ m.pool.transports, isOpen after.1 t = true →
    t ∈ after.1.pool.transports
  relists : Kept m call → Relists m after.1
  kept : Kept m call → Kept after.1 after.2
  pruned : Pruned m call → Pruned after.1 after.2

/-- Where a step leaves the call: no loop begins, and a dial only where there is room. -/
structure Settles (m : Shared) (call : Call) (after : Shared × Call) : Prop extends
    Notes m call after where
  loops : sweeps after.2 = none

variable {after : Shared × Call}
variable {next : Call}
lemma keeps_same (slot : slotOf next = slotOf call) :
    Slotless call → Admits m call → Moves m call (m, next) :=
  fun _ _ => .keeps (fun _ => rfl) rfl slot le_rfl

lemma keeps_close (t : Nat) (slot : slotOf next = slotOf call) :
    Slotless call → Admits m call → Moves m call (m.close t, next) :=
  fun _ _ => .keeps (fun _ => streamCount_close t) rfl slot (length_onTransport _ _).ge

lemma keeps_pool {pool} (slot : slotOf next = slotOf call) :
    Slotless call → Admits m call → Moves m call (m.setPool pool, next) :=
  fun _ _ => .keeps (fun _ => rfl) rfl slot le_rfl

namespace Settles
lemma of_plain (quiet : plain after.2 = true)
    (slots : Slotless call → Admits m call → Moves m call after) : Settles m call after := by
  simp only [plain, Bool.and_eq_true, decide_eq_true_eq] at quiet
  exact ⟨⟨slots, .inl quiet.1.1, quiet.1.2⟩, quiet.2⟩

lemma same {m' : Shared} (quiet : plain next = true) (slot : slotOf next = slotOf call)
    (transports : m'.transports = m.transports) (tunnels : m'.tunnels = m.tunnels) :
    Settles m call (m', next) :=
  of_plain quiet fun _ _ => .keeps (fun t => by rw [streamCount, streamCount, transports]) tunnels
    slot (by rw [transports])

lemma close (t : Nat) (quiet : plain next = true) (slot : slotOf next = slotOf call) :
    Settles m call (m.close t, next) := of_plain quiet (keeps_close t slot)

lemma dial (quiet : plain next = true) (slot : slotOf next = slotOf call) :
    Settles m call (m.dial, next) :=
  of_plain quiet fun _ _ => .keeps (fun _ => streamCount_dial) rfl slot (by simp [Shared.dial])
end Settles
namespace Trades
lemma idle (pool : after.1.pool = m.pool) (ages : Ages m after.1)
    (lock : holdsLock after.2 = holdsLock call) (counts : counted after.2 = counted call)
    (carried : ∀ t, carries call = some t → isOpen after.1 t = true → carries after.2 = some t)
    (kept : Kept m call → Kept after.1 after.2)
    (pruned : Pruned m call → Pruned after.1 after.2)
    (notes : Notes m call after) : Trades m call after where
  limits := .of_eq (by rw [pool]) (by rw [pool])
  grows := .inl ages
  lock := by
    intro _
    rw [pool, lock]
  creating := by rw [pool, counts]
  frame := fun _ _ => pool
  closed := ages.closed
  live := fun t live => .inl (ages.isOpen_of live)
  carried := fun t has live => .inl (carried t has live)
  pooled := by
    intro _ t member _
    rw [pool]
    exact member
  relists := fun _ => .of_eq (by rw [pool]) (by rw [pool])
  kept := kept
  pruned := pruned
  toNotes := notes

lemma critical (ages : Ages m after.1) (limits : Limits m call after.1)
    (lock : (holdsLock call = 1 → m.pool.locked = true) →
      lockWeight after.1.pool + holdsLock call = lockWeight m.pool + holdsLock after.2)
    (creating : after.1.pool.creating + counted call = m.pool.creating + counted after.2)
    (frame : m.pool.locked = true → holdsLock call = 1)
    (light : carries call = none)
    (pooled : Kept m call → ∀ t ∈ m.pool.transports, isOpen m t = true →
      t ∈ after.1.pool.transports) (relists : Kept m call → Relists m after.1)
    (kept : Kept m call → Kept after.1 after.2) (pruned : Pruned after.1 after.2)
    (notes : Notes m call after) : Trades m call after where
  limits := limits
  grows := .inl ages
  lock := lock
  creating := creating
  frame := by
    intro held free
    rw [frame held] at free
    cases free
  closed := ages.closed
  live := fun t live => .inl (ages.isOpen_of live)
  carried := by
    intro t has _
    rw [light] at has
    cases has
  pooled := fun before t member live => pooled before t member (ages.isOpen_of live)
  relists := relists
  kept := kept
  pruned := fun _ => pruned
  toNotes := notes

lemma takes (free : ¬m.pool.locked = true) (kept : Kept after.1 after.2)
    (limits : Limits m call after.1 := by exact .of_eq rfl rfl)
    (notes : Notes m call after := by exact ⟨keeps_pool rfl, .inl rfl, rfl⟩)
    (transports : after.1.transports = m.transports := by rfl)
    (outside : holdsLock call = 0 := by rfl) (inside : holdsLock after.2 = 1 := by rfl)
    (locked : after.1.pool.locked = true := by rfl)
    (closed : after.1.pool.closed = m.pool.closed := by rfl)
    (creating : after.1.pool.creating + counted call = m.pool.creating + counted after.2 := by rfl)
    (light : carries call = none := by rfl)
    (pooled : after.1.pool.transports = m.pool.transports := by rfl)
    (pruned : prunes after.2 = none := by rfl) : Trades m call after := by
  refine critical (.of_eq transports) limits ?_ creating (fun held => absurd held free) light ?_
    (fun _ => .of_eq closed pooled) (fun _ => kept) ?_ notes
  · intro _
    rw [lockWeight, lockWeight, if_pos locked, if_neg free, outside, inside]
  · intro _ t member _
    rw [pooled]
    exact member
  · intro capacity loops
    rw [pruned] at loops
    cases loops

lemma leaves (ages : Ages m after.1) (limits : Limits m call after.1) (inside : holdsLock call = 1)
    (outside : holdsLock after.2 = 0) (free : after.1.pool.locked = false)
    (creating : after.1.pool.creating + counted call = m.pool.creating + counted after.2)
    (light : carries call = none)
    (pooled : Kept m call → ∀ t ∈ m.pool.transports, isOpen m t = true →
      t ∈ after.1.pool.transports) (relists : Kept m call → Relists m after.1)
    (done : Settles m call after) : Trades m call after := by
  refine critical ages limits ?_ creating (fun _ => inside) light pooled relists
    (fun _ => .of_none done.loops) (.of_none done.loops) done.toNotes
  intro holds
  rw [lockWeight, lockWeight, if_pos (holds inside), free, inside, outside]
  rfl

lemma unlocks {next : Call} {transports : List Nat}
    (swept : Kept m call → transports.Sublist m.pool.transports ∧
      ∀ t ∈ m.pool.transports, isOpen m t = true → t ∈ transports)
    (inside : holdsLock call = 1 := by rfl) (outside : holdsLock next = 0 := by rfl)
    (counts : counted next = counted call := by rfl) (light : carries call = none := by rfl)
    (quiet : plain next = true := by rfl) (slot : slotOf next = slotOf call := by rfl) :
    Trades m call (m.setPool { m.pool with transports := transports, locked := false }, next) := by
  refine leaves (.of_eq rfl) (.of_eq rfl rfl) inside outside rfl ?_ light
    (fun kept => (swept kept).2) (fun kept => ⟨rfl, .inl (swept kept).1⟩) (.same quiet slot rfl rfl)
  rw [counts]
  rfl

section
variable (free : ¬m.pool.locked = true)
include free
lemma brief (transports : after.1.transports = m.transports) (limits : Limits m call after.1)
    (outside : holdsLock call = 0) (outside' : holdsLock after.2 = 0)
    (locked : after.1.pool.locked = m.pool.locked)
    (creating : after.1.pool.creating + counted call = m.pool.creating + counted after.2)
    (carried : ∀ t, carries call = some t → carries after.2 = some t ∨ t ∈ after.1.pool.transports)
    (pooled : ∀ t ∈ m.pool.transports, t ∈ after.1.pool.transports) (relists : Relists m after.1)
    (done : Settles m call after) : Trades m call after where
  limits := limits
  grows := .inl (.of_eq transports)
  lock := by
    intro _
    rw [lockWeight, lockWeight, locked, outside, outside']
  creating := creating
  frame := fun held => absurd held free
  closed := (Ages.of_eq transports).closed
  live := fun t live => .inl ((Ages.of_eq transports).isOpen_of live)
  carried := fun t has _ => carried t has
  pooled := fun _ t member _ => pooled t member
  relists := fun _ => relists
  kept := fun _ => .of_none done.loops
  pruned := fun _ => .of_none done.loops
  toNotes := done.toNotes

lemma uncounts {next : Call} (outside : holdsLock call = 0 ∧ counted call = 1)
    (outside' : holdsLock next = 0 ∧ counted next = 0) (carried : carries next = carries call)
    (quiet : plain next = true) (slot : slotOf next = slotOf call) :
    Trades m call (m.setPool { m.pool with creating := m.pool.creating - 1 }, next) := by
  refine brief free rfl (.of_eq rfl rfl) outside.1 outside'.1 rfl ?_
    (fun t has => .inl (carried.trans has)) (fun t => id) (.of_eq rfl rfl)
    (.same quiet slot rfl rfl)
  rw [outside.2, outside'.2]
  simp [Shared.setPool]

lemma joins {next : Call} (has : carries call = some t)
    (outside : holdsLock call = 0 ∧ counted call = 0)
    (outside' : holdsLock next = 0 ∧ counted next = 0) (quiet : plain next = true)
    (slot : slotOf next = slotOf call) (opened : ¬m.pool.closed = true)
    (room : ¬m.capacity ≤ m.pool.transports.length) :
    Trades m call (m.setPool { m.pool with transports := m.pool.transports ++ [t] }, next) := by
  refine brief free rfl (.of_eq rfl rfl) outside.1 outside'.1 rfl ?_ ?_
    (fun u => mem_append_left [t])
    ⟨rfl, .inr ⟨Bool.not_eq_true _ ▸ opened, not_le.mp room, length_append⟩⟩
    (.same quiet slot rfl rfl)
  · rw [outside.2, outside'.2]
    rfl
  · intro u has'
    cases has.symm.trans has'
    exact .inr (mem_append_right _ (mem_singleton_self t))
end

lemma walks (ages : Ages m after.1) (done : Settles m call after)
    (pool : after.1.pool = m.pool := by rfl) (lock : holdsLock after.2 = holdsLock call := by rfl)
    (counts : counted after.2 = counted call := by rfl) (light : carries call = none := by rfl) :
    Trades m call after :=
  idle pool ages lock counts (fun t has _ => by rw [light] at has; cases has)
    (fun _ => .of_none done.loops) (fun _ => .of_none done.loops) done.toNotes

lemma passes {next : Call} (lock : holdsLock next = holdsLock call := by rfl)
    (counts : counted next = counted call := by rfl) (light : carries call = none := by rfl)
    (quiet : plain next = true := by rfl) (slot : slotOf next = slotOf call := by rfl) :
    Trades m call (m, next) :=
  walks (.of_eq rfl) (.same quiet slot rfl rfl) rfl lock counts light

lemma discards {next : Call} (has : carries call = some t)
    (lock : holdsLock next = holdsLock call) (counts : counted next = counted call)
    (done : Settles m call (m.close t, next)) : Trades m call (m.close t, next) := by
  refine idle rfl (.close t) lock counts ?_ (fun _ => .of_none done.loops)
    (fun _ => .of_none done.loops) done.toNotes
  intro u has' live
  cases has.symm.trans has'
  rw [isOpen_close] at live
  cases live

lemma dialed {next : Call} (dialing : dials call = 1) (lock : holdsLock next = holdsLock call)
    (counts : counted next = counted call) (light : carries call = none)
    (fresh : carries next = some m.transports.length) (done : Settles m call (m.dial, next)) :
    Trades m call (m.dial, next) where
  limits := .of_eq rfl rfl
  grows := .inr ⟨rfl, dialing⟩
  lock := by
    intro _
    rw [lock]
    rfl
  creating := by
    rw [counts]
    rfl
  frame := fun _ _ => rfl
  closed := by
    intro t closed
    have old : t ≠ m.transports.length := by
      rintro rfl
      simp [isClosed] at closed
    rw [isClosed, Shared.dial, Pool.getElem?_snoc, if_neg old]
    exact closed
  live := by
    intro t live
    by_cases new : t = m.transports.length
    · exact .inr (new ▸ fresh)
    · rw [isOpen, Shared.dial, Pool.getElem?_snoc, if_neg new] at live
      exact .inl live
  carried := by
    intro t has _
    rw [light] at has
    cases has
  pooled := fun _ t member _ => member
  relists := fun _ => .of_eq rfl rfl
  kept := fun _ => .of_none done.loops
  pruned := fun _ => .of_none done.loops
  toNotes := done.toNotes

lemma sweepsOne {alive'}
    (decides : alive' = alive ++ [t] ∨ alive' = alive ∧ isClosed after.1 t = true)
    (ages : Ages m after.1 := by exact .of_eq rfl)
    (slots : Slotless call → Admits m call → Moves m call after := by exact keeps_same rfl)
    (before : sweeps call = some (alive, t :: todo) := by rfl)
    (now : sweeps after.2 = some (alive', todo) := by rfl) (pool : after.1.pool = m.pool := by rfl)
    (lock : holdsLock after.2 = holdsLock call := by rfl)
    (counts : counted after.2 = counted call := by rfl) (light : carries call = none := by rfl)
    (pruned : prunes after.2 = prunes call := by rfl) : Trades m call after := by
  obtain ⟨still, unasked⟩ := dials_of_sweeps now
  refine idle pool ages lock counts (fun t has _ => by rw [light] at has; cases has) ?_ ?_
    ⟨slots, .inl still, unasked⟩
  · intro kept alive₂ todo₂ same
    cases now.symm.trans same
    obtain ⟨sub, rest⟩ := kept alive (t :: todo) before
    rw [pool]
    rcases decides with rfl | ⟨rfl, closed⟩
    · rw [append_assoc]
      exact ⟨sub, fun u member => (rest u member).imp id (ages.closed u)⟩
    · refine ⟨((sublist_cons_self t todo).append_left alive').trans sub, fun u member => ?_⟩
      rcases rest u member with listed | shut
      · rw [mem_append, mem_cons] at listed
        rcases listed with old | rfl | later
        · exact .inl (mem_append_left todo old)
        · exact .inr closed
        · exact .inl (mem_append_right alive' later)
      · exact .inr (ages.closed u shut)
  · intro found capacity loops
    rw [pool]
    exact found capacity (pruned ▸ loops)

lemma swept (before : sweeps call = some (alive, [])) (kept : Kept m call) :
    alive.Sublist m.pool.transports ∧ ∀ t ∈ m.pool.transports, isOpen m t = true → t ∈ alive := by
  obtain ⟨sub, rest⟩ := kept alive [] before
  rw [append_nil] at sub rest
  refine ⟨sub, fun t member opened => (rest t member).resolve_right fun closed => ?_⟩
  rw [not_open_of_closed closed] at opened
  cases opened

lemma unswept (_ : Kept m call) : m.pool.transports.Sublist m.pool.transports ∧
    ∀ t ∈ m.pool.transports, isOpen m t = true → t ∈ m.pool.transports :=
  ⟨.refl _, fun _ member _ => member⟩
end Trades
variable {purpose : Purpose} {choice : Choice}
lemma trades_full (m : Shared) (purpose : Purpose) :
    Trades m (.get purpose .full) (advanceFull m purpose) := by
  unfold advanceFull
  split_ifs with full
  · exact .unlocks Trades.unswept
  · exact .unlocks Trades.unswept
  · refine .idle rfl (.of_eq rfl) rfl rfl nofun ?_ ?_
      ⟨keeps_same rfl, .inl rfl, rfl⟩
    · intro _ alive todo same
      cases same
      exact ⟨List.Sublist.refl _, fun t member => .inl member⟩
    · intro _ capacity same
      cases same
      dsimp only
      constructor <;> omega
  · refine .leaves (.of_eq rfl) (.of_eq rfl rfl) rfl rfl rfl ?_ rfl (fun _ t member _ => member)
      (fun _ => .of_eq rfl rfl)
      ⟨⟨keeps_pool rfl, .inr ⟨rfl, not_le.mp full, .inl ⟨purpose, rfl⟩⟩, rfl⟩, rfl⟩
    simp [Shared.setPool, counted]

lemma trades_get {stage : GetStage} (moved : advanceGet m purpose choice stage = some after) :
    Trades m (.get purpose stage) after := by
  cases stage with
  | clientOpen =>
    cases moved
    split_ifs <;> exact .passes
  | lock =>
    dsimp only [advanceGet] at moved
    split_ifs at moved with locked closed <;> cases moved
    · exact .passes
    · exact .takes locked (.of_none rfl)
    · exact .takes locked (.of_none rfl)
  | scan start tried =>
    dsimp only [advanceGet, advanceScan] at moved
    split_ifs at moved
    · cases moved
      exact .passes
    · obtain ⟨t, -, rfl⟩ := map_eq_some_iff.mp moved
      exact .passes
  | reserve start tried t stage =>
    obtain ⟨⟨m', result⟩, reserved, rfl⟩ := map_eq_some_iff.mp moved
    rcases reserve_counts reserved with ⟨unanswered, rfl⟩ | ⟨rfl, rfl, present, atomic⟩
    · cases result with
      | runs stage => exact .passes
      | answers yes =>
        cases yes with
        | false => exact .passes
        | true => exact absurd rfl unanswered
    · refine .leaves ((Ages.addStreams t 1).trans (.of_eq rfl)) (.of_eq rfl rfl) rfl rfl rfl rfl rfl
        (fun _ t member _ => member) (fun _ => .of_eq rfl rfl) (.of_plain rfl fun _ admits => ?_)
      refine moves_of_reserved ?_ present rfl rfl rfl rfl
      rintro rfl
      rcases atomic with rfl | rfl
      · exact admits
      · exact admits rfl
  | full =>
    cases moved
    exact trades_full m purpose
  | prune todo alive capacity =>
    cases todo with
    | nil =>
      dsimp only [advanceGet] at moved
      split_ifs at moved <;> cases moved
      · exact .unlocks (Trades.swept rfl)
      · exact .unlocks (Trades.swept rfl)
      · exact .unlocks Trades.unswept
    | cons t todo =>
      obtain ⟨tr, here, rfl⟩ := map_eq_some_iff.mp moved
      split_ifs with closed idle
      · exact .sweepsOne (.inr ⟨rfl, isClosed_of here closed⟩)
      · exact .sweepsOne (.inr ⟨rfl, isClosed_close here⟩) (.close t) (keeps_close t rfl)
      · exact .sweepsOne (.inl rfl)
  | wait =>
    cases moved
    split <;> exact .passes
  | create =>
    dsimp only [advanceGet] at moved
    split at moved <;> cases moved
    · exact .walks (.of_eq rfl) (.same rfl rfl rfl rfl)
    · exact .dialed rfl rfl rfl rfl rfl (.dial rfl rfl)
  | created dialed =>
    dsimp only [advanceGet] at moved
    split_ifs at moved with locked
    cases moved
    cases dialed <;> exact .uncounts locked ⟨rfl, rfl⟩ ⟨rfl, rfl⟩ rfl rfl rfl
  | fresh t stage =>
    obtain ⟨⟨m', result⟩, reserved, rfl⟩ := map_eq_some_iff.mp moved
    rcases reserve_counts reserved with ⟨unanswered, rfl⟩ | ⟨rfl, rfl, present, atomic⟩
    · cases result with
      | runs stage =>
        exact .idle rfl (.of_eq rfl) rfl rfl (fun t has _ => has) (fun _ => .of_none rfl)
          (fun _ => .of_none rfl) ⟨keeps_same rfl, .inl rfl, rfl⟩
      | answers yes =>
        cases yes with
        | false => exact .discards rfl rfl rfl (.close t rfl rfl)
        | true => exact absurd rfl unanswered
    · refine .idle rfl (.addStreams t 1) rfl rfl (fun t has _ => has) (fun _ => .of_none rfl)
        (fun _ => .of_none rfl) ⟨fun _ admits => ?_, .inl rfl, rfl⟩
      refine moves_of_reserved ?_ present rfl rfl rfl rfl
      rintro rfl
      rcases atomic with rfl | rfl
      · exact admits
      · exact admits rfl
  | enlist t =>
    -- The two ways out that close the transport with its slot reserved are not admitted.
    have refused (next : Call) (full : m.pool.closed = true ∨ m.capacity ≤ m.pool.transports.length)
        (quiet : plain next = true) : Settles m (.get purpose (.enlist t)) (m.close t, next) := by
      refine .of_plain quiet fun _ admits => ?_
      have room : m.pool.closed = false ∧ (m.pool.transports.length : Int) < m.capacity := by
        cases purpose <;> exact admits
      rcases full with closed | crowded
      · rw [room.1] at closed
        cases closed
      · exact absurd room.2 (not_lt.mpr crowded)
    dsimp only [advanceGet] at moved
    split_ifs at moved with locked closed crowded <;> cases moved
    · exact .discards rfl rfl rfl (refused _ (.inl closed) rfl)
    · exact .discards rfl rfl rfl (refused _ (.inr crowded) rfl)
    · exact .joins locked rfl ⟨rfl, rfl⟩ ⟨rfl, rfl⟩ rfl rfl closed crowded
  | got t =>
    cases purpose with
    | bundleRefresh =>
      cases moved
      exact .walks (.of_eq rfl) (.of_plain rfl fun slotless _ => absurd rfl (slotless t))
    | dialContext | dialUDP =>
      obtain ⟨tr, -, rfl⟩ := map_eq_some_iff.mp moved
      split_ifs <;> exact .passes
  | roundTrip t =>
    dsimp only [advanceGet] at moved
    split at moved <;> cases moved
    · split_ifs
      · exact .walks (.close t) (.close t rfl rfl)
      · exact .passes
    · exact .walks (.of_eq rfl)
        (.of_plain rfl fun _ _ => .opens purpose t (fun _ => rfl) rfl rfl rfl le_rfl)
  | release t =>
    cases moved
    exact .walks (.addStreams t (-1)) (.of_plain rfl fun _ _ =>
      .releases purpose t (fun present u => streamCount_addStreams present (-1)) rfl rfl rfl
        (length_onTransport _ _).ge)

lemma trades_topUp {stage} (moved : advanceTopUp m choice stage = some after) :
    Trades m (.topUp stage) after := by
  cases stage <;> dsimp only [advanceTopUp] at moved
  case check =>
    split_ifs at moved with locked refused <;> cases moved
    · exact .passes
    · simp only [not_or, not_le, Bool.not_eq_true] at refused
      obtain ⟨opened, few, room⟩ := refused
      refine .brief locked rfl (.of_eq rfl rfl) rfl rfl rfl ?_
        nofun (fun t => id) (.of_eq rfl rfl)
        ⟨⟨keeps_pool rfl, .inr ⟨rfl, room, .inr ⟨rfl, opened, few⟩⟩, rfl⟩, rfl⟩
      simp [Shared.setPool, counted]
  case create =>
    split at moved <;> cases moved
    · exact .walks (.of_eq rfl) (.same rfl rfl rfl rfl)
    · exact .dialed rfl rfl rfl rfl rfl (.dial rfl rfl)
  case created dialed =>
    split_ifs at moved with locked
    cases moved
    cases dialed <;> exact .uncounts locked ⟨rfl, rfl⟩ ⟨rfl, rfl⟩ rfl rfl rfl
  case enlist t =>
    split_ifs at moved with locked refused <;> cases moved
    · exact .discards rfl rfl rfl (.close t rfl rfl)
    · obtain ⟨opened, room⟩ := not_or.mp refused
      exact .joins locked rfl ⟨rfl, rfl⟩ ⟨rfl, rfl⟩ rfl rfl opened room

lemma trades_cleanup {stage : CleanupStage}
    (moved : advanceCleanup m choice stage = some after) : Trades m (.cleanup stage) after := by
  cases stage with
  | lock =>
    unfold advanceCleanup at moved
    split_ifs at moved with locked
    cases moved
    refine .takes locked ?_
    intro alive todo same
    cases same
    exact ⟨List.Sublist.refl _, fun t member => .inl member⟩
  | sweep todo alive =>
    cases todo with
    | nil =>
      cases moved
      exact .unlocks (Trades.swept rfl)
    | cons t todo =>
      obtain ⟨tr, here, rfl⟩ := map_eq_some_iff.mp moved
      split_ifs with closed
      · exact .sweepsOne (.inr ⟨rfl, isClosed_of here closed⟩)
      · exact .sweepsOne (.inr ⟨rfl, isClosed_close here⟩) (.close t) (keeps_close t rfl)
      · exact .sweepsOne (.inr ⟨rfl, isClosed_close here⟩) (.close t) (keeps_close t rfl)
      · exact .sweepsOne (.inl rfl)

lemma trades_resize {stage : ResizeStage} (moved : advanceResize m stage = some after) :
    Trades m (.resize stage) after := by
  cases stage with
  | lock newMin newMax =>
    dsimp only [advanceResize] at moved
    split_ifs at moved with locked same lowered
    · cases moved
      exact .passes
    all_goals
      cases moved
      refine .takes locked ?_ ⟨rfl, .inr ⟨newMin, rfl⟩⟩
      intro alive todo swept
      cases swept
      simp +contextual [Shared.setPool]
  | enforce usable todo alive grows =>
    cases todo with
    | nil =>
      cases moved
      split_ifs <;>
        exact .unlocks (Trades.swept rfl)
    | cons t todo =>
      obtain ⟨tr, here, rfl⟩ := map_eq_some_iff.mp moved
      split_ifs with closed
      · exact .sweepsOne (.inr ⟨rfl, isClosed_of here closed⟩)
      · exact .sweepsOne (.inl rfl)
      · exact .sweepsOne (.inl rfl)
      · exact .sweepsOne (.inr ⟨rfl, isClosed_close here⟩) (.close t) (keeps_close t rfl)
      · exact .sweepsOne (.inl rfl) (.markDraining t) fun _ _ =>
          .keeps (fun _ => streamCount_markDraining t) rfl rfl (length_onTransport _ _).ge

lemma trades_advance (moved : advance m choice call = some after) : Trades m call after := by
  cases call with
  | get purpose stage => exact trades_get moved
  | topUp stage => exact trades_topUp moved
  | cleanup stage => exact trades_cleanup moved
  | resize stage => exact trades_resize moved
  | done => cases moved

lemma foldl_close (l : List Nat) (m : Shared) :
    Ages m (l.foldl close m) ∧ ∀ t ∈ l, isOpen (l.foldl close m) t = false := by
  induction l generalizing m with
  | nil => exact ⟨.of_eq rfl, fun t member => absurd member not_mem_nil⟩
  | cons u l ih =>
    obtain ⟨ages, rest⟩ := ih (m.close u)
    refine ⟨(Ages.close u).trans ages, fun t member => ?_⟩
    rcases mem_cons.mp member with rfl | later
    · by_contra live
      have before := ages.isOpen_of (by simpa using live)
      rw [isOpen_close] at before
      cases before
    · exact rest t later

lemma moveTunnel {m' j old new} (moved : m.moveTunnel j old new = some m') :
    Ages m m' ∧ m'.pool = m.pool := by
  obtain ⟨tunnel, -, moved⟩ := bind_eq_some_iff.mp moved
  have same : Ages m { m with tunnels := m.tunnels.set j { tunnel with state := new } } :=
    .of_eq rfl
  split_ifs at moved <;> cases moved
  · exact ⟨same.trans (.releaseTunnel tunnel.transport), rfl⟩
  · exact ⟨same, rfl⟩

inductive Kind (s : State) (label : Label) : State → Prop
  | starts (call : Call) (new : started label = some call) :
      Kind s label { s with calls := s.calls ++ [call] }
  | moves (i : Nat) (choice : Choice) (call : Call) (after : Shared × Call)
      (here : s.calls[i]? = some call) (advanced : advance s.shared choice call = some after)
      (same : label = .move i choice) : Kind s label ⟨after.1, s.calls.set i after.2⟩
  | ages (m : Shared) (ages : Ages s.shared m) (pool : m.pool = s.shared.pool) :
      Kind s label { s with shared := m }
  | closes (m : Shared) (free : ¬s.shared.pool.locked = true)
      (transports : m.transports = (s.shared.pool.transports.foldl close s.shared).transports)
      (pool : m.pool = { s.shared.pool with closed := true, transports := [] }) :
      Kind s label { s with shared := m }

variable {label : Label}
lemma kind_of_step {s s'} (moved : step s label = some s') : Kind s label s' := by
  have tunnels : ∀ {j : Nat} {old new : TunnelState},
      (s.shared.moveTunnel j old new).map (fun m => { s with shared := m }) = some s' →
        Kind s label s' := by
    intro j old new moved
    obtain ⟨m, tunnel, rfl⟩ := map_eq_some_iff.mp moved
    obtain ⟨ages, pool⟩ := moveTunnel tunnel
    exact .ages m ages pool
  have arrives : (started label).map (fun call => { s with calls := s.calls ++ [call] }) =
      some s' → Kind s label s' := by
    intro moved
    obtain ⟨call, new, rfl⟩ := map_eq_some_iff.mp moved
    exact .starts call new
  cases label with
  | get purpose | topUp | cleanup | resize newMin newMax => exact arrives moved
  | move i choice =>
    obtain ⟨call, after, here, advanced, rfl⟩ := Pool.moved_eq_some moved
    exact .moves i choice call after here advanced rfl
  | drain t =>
    cases moved
    exact .ages _ (.markDraining t) rfl
  | closeTunnel j | drained j | fastClose j => exact tunnels moved
  | closeClient =>
    unfold step at moved
    split_ifs at moved with locked
    cases moved
    exact .closes _ locked rfl rfl

lemma started_fresh (new : started label = some call) :
    holdsLock call = 0 ∧ counted call = 0 ∧ dials call = 0 ∧ sweeps call = none ∧
      ∀ newMin newMax, call = .resize (.lock newMin newMax) → 1 ≤ newMax := by
  unfold started at new
  split at new <;> cases new
  all_goals refine ⟨rfl, rfl, rfl, rfl, ?_⟩
  all_goals intro newMin newMax same
  all_goals cases same
  omega

structure Booked (s : State) : Prop where
  lock : Pool.total holdsLock s.calls = lockWeight s.shared.pool
  creating : s.shared.pool.creating = Pool.total counted s.calls
  kept : ∀ call ∈ s.calls, Kept s.shared call
  pruned : ∀ call ∈ s.calls, Pruned s.shared call
  tracked : ∀ t, isOpen s.shared t = true →
    t ∈ s.shared.pool.transports ∨ ∃ call ∈ s.calls, carries call = some t

lemma holdsLock_of_sweeps (loops : sweeps call = some (alive, todo)) : holdsLock call = 1 := by
  unfold sweeps at loops
  split at loops
  · rfl
  · rfl
  · rfl
  · cases loops

lemma holdsLock_of_prunes {capacity} (loops : prunes call = some capacity) :
    holdsLock call = 1 := by
  unfold prunes at loops
  split at loops
  · rfl
  · cases loops

namespace Booked
variable {s : State}
lemma initial (pool : Pool) (free : pool.locked = false) (none : pool.creating = 0) :
    Booked (State.initial pool) where
  lock := by simp [State.initial, lockWeight, free]
  creating := by simp [State.initial, none]
  kept := by simp [State.initial]
  pruned := by simp [State.initial]
  tracked := by simp [State.initial, isOpen]

variable (booked : Booked s)
include booked
lemma locked_of_holds {i : Nat} {call : Call} (here : s.calls[i]? = some call)
    (holds : holdsLock call = 1) : s.shared.pool.locked = true := by
  have weight := Pool.le_total holdsLock here
  rw [booked.lock, holds, lockWeight] at weight
  by_contra free
  rw [if_neg free] at weight
  omega

lemma holds_apart {i j : Nat} {call other : Call} (here : s.calls[i]? = some call)
    (there : s.calls[j]? = some other) (apart : i ≠ j) (holds : holdsLock other = 1) :
    holdsLock call = 0 := by
  have weight := Pool.add_le_total holdsLock here there apart
  have bound : lockWeight s.shared.pool ≤ 1 := by
    unfold lockWeight
    split_ifs <;> omega
  rw [booked.lock] at weight
  omega

lemma move {i} {call : Call} (here : s.calls[i]? = some call)
    (trades : Trades s.shared call after) :
    Booked ⟨after.1, s.calls.set i after.2⟩ where
  lock := by
    have traded := Pool.total_set holdsLock here after.2
    have balance := trades.lock (booked.locked_of_holds here)
    have before := booked.lock
    dsimp only
    omega
  creating := by
    have traded := Pool.total_set counted here after.2
    have balance := trades.creating
    have before := booked.creating
    dsimp only
    omega
  kept := by
    intro other member
    obtain ⟨j, there⟩ := getElem?_of_mem member
    obtain ⟨-, rfl⟩ | ⟨mine, there⟩ := Pool.set_cases here there
    · exact trades.kept (booked.kept call (mem_of_getElem? here))
    · intro alive todo loops
      -- another call loops over the pool, so this one is outside the lock
      have holds := holdsLock_of_sweeps loops
      have outside := booked.holds_apart here there (Ne.symm mine) holds
      have same := trades.frame (booked.locked_of_holds there holds) outside
      obtain ⟨sub, rest⟩ := booked.kept other (mem_of_getElem? there) alive todo loops
      rw [same]
      exact ⟨sub, fun t pooled => (rest t pooled).imp id (trades.closed t)⟩
  pruned := by
    intro other member
    obtain ⟨j, there⟩ := getElem?_of_mem member
    obtain ⟨-, rfl⟩ | ⟨mine, there⟩ := Pool.set_cases here there
    · exact trades.pruned (booked.pruned call (mem_of_getElem? here))
    · intro capacity loops
      have holds := holdsLock_of_prunes loops
      have outside := booked.holds_apart here there (Ne.symm mine) holds
      have same := trades.frame (booked.locked_of_holds there holds) outside
      rw [same]
      exact booked.pruned other (mem_of_getElem? there) capacity loops
  tracked := by
    intro t live
    have inside : ∀ other, s.calls[i]? ≠ some other → other ∈ s.calls →
        other ∈ s.calls.set i after.2 := by
      intro other apart member
      obtain ⟨j, there⟩ := getElem?_of_mem member
      have elsewhere : j ≠ i := by
        rintro rfl
        exact apart there
      apply mem_of_getElem? (i := j)
      rw [Pool.getElem?_set_apply here, if_neg elsewhere]
      exact there
    have moved : after.2 ∈ s.calls.set i after.2 := by
      apply mem_of_getElem? (i := i)
      rw [Pool.getElem?_set_apply here, if_pos rfl]
    rcases trades.live t live with before | fresh
    · rcases booked.tracked t before with pooled | ⟨other, member, has⟩
      · exact .inl (trades.pooled (booked.kept call (mem_of_getElem? here)) t pooled live)
      · by_cases mine : s.calls[i]? = some other
        · cases here.symm.trans mine
          rcases trades.carried t has live with still | pooled
          · exact .inr ⟨after.2, moved, still⟩
          · exact .inl pooled
        · exact .inr ⟨other, inside other mine member, has⟩
    · exact .inr ⟨after.2, moved, fresh⟩

lemma ages (ages : Ages s.shared m) (pool : m.pool = s.shared.pool) :
    Booked { s with shared := m } where
  lock := by
    rw [pool]
    exact booked.lock
  creating := by
    rw [pool]
    exact booked.creating
  kept := by
    intro call member alive todo loops
    obtain ⟨sub, rest⟩ := booked.kept call member alive todo loops
    rw [pool]
    exact ⟨sub, fun t pooled => (rest t pooled).imp id (ages.closed t)⟩
  pruned := by
    intro call member capacity loops
    rw [pool]
    exact booked.pruned call member capacity loops
  tracked := by
    intro t live
    rw [pool]
    exact booked.tracked t (ages.isOpen_of live)

lemma starts (lock : holdsLock call = 0) (counts : counted call = 0) (loops : sweeps call = none) :
    Booked { s with calls := s.calls ++ [call] } where
  lock := by
    rw [Pool.total_snoc holdsLock s.calls lock]
    exact booked.lock
  creating := by
    rw [Pool.total_snoc counted s.calls counts]
    exact booked.creating
  kept := Pool.forall_snoc booked.kept (.of_none loops)
  pruned := Pool.forall_snoc booked.pruned (.of_none loops)
  tracked := by
    intro t live
    rcases booked.tracked t live with pooled | ⟨other, member, has⟩
    · exact .inl pooled
    · exact .inr ⟨other, mem_append_left [call] member, has⟩

lemma closeClient (free : ¬s.shared.pool.locked = true) {m : Shared} (transports : m.transports =
      (s.shared.pool.transports.foldl close s.shared).transports)
    (pool : m.pool = { s.shared.pool with closed := true, transports := [] }) :
    Booked { s with shared := m } where
  lock := by
    rw [pool]
    exact booked.lock
  creating := by
    rw [pool]
    exact booked.creating
  kept := by
    intro call member alive todo loops
    obtain ⟨i, here⟩ := getElem?_of_mem member
    exact absurd (booked.locked_of_holds here (holdsLock_of_sweeps loops)) free
  pruned := by
    intro call member capacity loops
    obtain ⟨i, here⟩ := getElem?_of_mem member
    exact absurd (booked.locked_of_holds here (holdsLock_of_prunes loops)) free
  tracked := by
    intro t live
    have shut := foldl_close s.shared.pool.transports s.shared
    have still : isOpen (s.shared.pool.transports.foldl close s.shared) t = true := by
      rw [isOpen, ← transports]
      exact live
    rcases booked.tracked t (shut.1.isOpen_of still) with pooled | carried
    · rw [shut.2 t pooled] at still
      cases still
    · exact .inr carried

lemma step {s'} (moved : step s label = some s') : Booked s' := by
  cases kind_of_step moved with
  | starts call new =>
    obtain ⟨lock, counts, -, loops, -⟩ := started_fresh new
    exact booked.starts lock counts loops
  | moves i choice call after here advanced => exact booked.move here (trades_advance advanced)
  | ages m ages pool => exact booked.ages ages pool
  | closes m free transports pool => exact booked.closeClient free transports pool
end Booked
end Tamizdat.Client.PoolBook
