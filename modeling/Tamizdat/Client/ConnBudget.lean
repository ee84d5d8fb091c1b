/- source: pkg/tamizdat/connpool.go
   digest: The connections that the pool answers for, and where a dialed transport can be. -/

import Tamizdat.Client.PoolBook

set_option autoImplicit false

open List
namespace Tamizdat.Client
open Machine Machine.Runs Client.ConnPool Client.PoolBook
variable {maxStreams minTransports maxTransports rotationOverlapAllowance : Int} {softCapped : Bool}
  {m : Shared} {s : State} {labels : List Label}
namespace ConnBudget
open Pool (total)
def liveTransports (m : Shared) : List Nat := (List.range m.transports.length).filter (isLive m)

/-- The connections that the pool is responsible for: dials in progress and live transports. -/
def connections (s : State) : Nat := total dials s.calls + (liveTransports s.shared).length

def budget (pool : Pool) : Int := pool.maxTransports + max (pool.rotationOverlapAllowance - 1) 0

/-- A transport that `creating` does not count any more and the pool does not list yet. -/
def unlisted : Call → Bool
  | .get _ (.fresh _ _) => true
  | .get _ (.enlist _) => true
  | .topUp (.enlist _) => true
  | _ => false

def Room (m : Shared) : Prop := (m.pool.transports.length : Int) + m.pool.creating < m.capacity
deriving Decidable

def BeginsDial (m : Shared) : Call → Prop
  | .get _ .full => Room m
  | .topUp .check => Room m ∧ m.pool.closed = false ∧ (m.alive : Int) < m.pool.minTransports
  | _ => False

instance (m : Shared) (call : Call) : Decidable (BeginsDial m call) := by
  unfold BeginsDial
  split <;> infer_instance

/-- The condition on a step: a dial begins only while every transport dialed before is in the
pool or counted by `creating`. -/
def Accounted (s : State) : Label → Prop
  | .move i _ =>
    match s.calls[i]? with
    | some call => BeginsDial s.shared call → ∀ other ∈ s.calls, unlisted other = false
    | none => True
  | _ => True

instance (s : State) (label : Label) : Decidable (Accounted s label) := by
  unfold Accounted
  split
  · split <;> infer_instance
  · infer_instance

def Unlowered (s : State) : Label → Prop
  | .move i _ =>
    match s.calls[i]? with
    | some (.resize (.lock _ newMax)) => s.shared.pool.maxTransports ≤ newMax
    | _ => True
  | _ => True

instance (s : State) (label : Label) : Decidable (Unlowered s label) := by
  unfold Unlowered
  split
  · split <;> infer_instance
  · infer_instance

section
variable {m' : Shared}
lemma liveTransports_of_ages (ages : Ages m m') :
    (liveTransports m').length ≤ (liveTransports m).length := by
  unfold liveTransports
  rw [ages.length]
  exact (monotone_filter_right _ ages.live).length_le

lemma liveTransports_dial (m : Shared) :
    (liveTransports m.dial).length ≤ (liveTransports m).length + 1 := by
  unfold liveTransports
  have grown : m.dial.transports.length = m.transports.length + 1 := by simp [Shared.dial]
  have same : ∀ t ∈ List.range m.transports.length, isLive m.dial t = isLive m t := by
    intro t inside
    have old : t ≠ m.transports.length := (mem_range.mp inside).ne
    rw [isLive, isLive, Shared.dial, Pool.getElem?_snoc, if_neg old]
  rw [grown, range_succ, filter_append, length_append, filter_congr same]
  exact Nat.add_le_add_left (length_filter_le _ _) _

lemma liveTransports_le {s} (booked : Booked s) :
    (liveTransports s.shared).length ≤
      (s.shared.pool.transports.filter (isLive s.shared)).length +
        (s.calls.filterMap carries).length := by
  have nodup : (liveTransports s.shared).Nodup := nodup_range.filter _
  have found : liveTransports s.shared ⊆
      s.shared.pool.transports.filter (isLive s.shared) ++ s.calls.filterMap carries := by
    intro t member
    have live := (mem_filter.mp member).2
    rw [mem_append, mem_filter, mem_filterMap]
    rcases booked.tracked t (isOpen_of_isLive live) with pooled | carried
    · exact .inl ⟨pooled, live⟩
    · exact .inr carried
  have bound := (nodup.subperm found).length_le
  rwa [length_append] at bound

lemma dials_add_carries_le {call} (listed : unlisted call = false) :
    (dials call : Int) + (carries call).toList.length ≤ counted call := by
  cases call with
  | get purpose stage =>
    cases stage with
    | created dialed => cases dialed <;> simp [dials, carries, counted]
    | fresh t stage | enlist t => cases listed
    | _ => simp [dials, carries, counted]
  | topUp stage =>
    cases stage with
    | created dialed => cases dialed <;> simp [dials, carries, counted]
    | enlist t => cases listed
    | _ => simp [dials, carries, counted]
  | _ => simp [dials, carries, counted]

lemma carried_le {calls} (listed : ∀ call ∈ calls, unlisted call = false) :
    ((total dials calls : Nat) : Int) + (calls.filterMap carries).length ≤ total counted calls := by
  induction calls with
  | nil => simp
  | cons call calls ih =>
    have rest := ih fun other later => listed other (mem_cons_of_mem call later)
    have here := dials_add_carries_le (listed call mem_cons_self)
    have dialing : total dials (call :: calls) = dials call + total dials calls := by
      simp [total]
    have counting : total counted (call :: calls) = counted call + total counted calls := by
      simp [total]
    have carrying : ((call :: calls).filterMap carries).length =
        (carries call).toList.length + (calls.filterMap carries).length := by
      cases has : carries call <;> simp [has, Nat.add_comm]
    omega

lemma pooled_live_lt (draining : m.hasDrainingLocked = true) :
    (m.pool.transports.filter (isLive m)).length < m.pool.transports.length := by
  obtain ⟨t, member, drains⟩ := any_eq_true.mp draining
  apply length_filter_lt_length_iff_exists.mpr
  refine ⟨t, member, ?_⟩
  cases here : m.transports[t]? with
  | none => simp [here] at drains
  | some tr =>
    have drained : tr.draining = true := by simpa [here] using drains
    simp [isLive, here, drained]
end
section
variable {choice : Choice} {call : Call} {after : Shared × Call}
lemma beginsDial_of_dials (moved : advance m choice call = some after)
    (dialing : dials after.2 = 1) : BeginsDial m call ∧ after.1.transports = m.transports := by
  rcases (trades_advance moved).begins with
    quiet | ⟨same, room, ⟨purpose, rfl⟩ | ⟨rfl, opened, few⟩⟩
  · rw [quiet] at dialing
    cases dialing
  · exact ⟨room, same⟩
  · exact ⟨⟨room, opened, few⟩, same⟩
end

structure Budgeted (s : State) : Prop where
  booked : Booked s
  within : (connections s : Int) ≤ budget s.shared.pool

namespace Budgeted
lemma room_for_one (booked : Booked s) (room : Room s.shared)
    (listed : ∀ other ∈ s.calls, unlisted other = false) :
    (connections s : Int) + 1 ≤ budget s.shared.pool := by
  have places := liveTransports_le booked
  have carried := carried_le listed
  have creating := booked.creating
  have pooled : (s.shared.pool.transports.filter (isLive s.shared)).length ≤
      s.shared.pool.transports.length := length_filter_le _ _
  unfold Room Shared.capacity at room
  unfold connections budget
  split_ifs at room with overlaps
  · have drained := pooled_live_lt overlaps.2
    omega
  · omega

lemma move (budgeted : Budgeted s) {i : Nat} {choice : Choice} {call : Call}
    (here : s.calls[i]? = some call) {after : Shared × Call}
    (moved : advance s.shared choice call = some after)
    (accounted : Accounted s (.move i choice)) (unlowered : Unlowered s (.move i choice)) :
    Budgeted ⟨after.1, s.calls.set i after.2⟩ := by
  have trades := trades_advance moved
  refine ⟨budgeted.booked.move here trades, ?_⟩
  have raised : budget s.shared.pool ≤ budget after.1.pool := by
    obtain ⟨allowance, same | ⟨newMin, resized⟩⟩ := trades.limits
    · rw [budget, budget, allowance, same]
    · have more : s.shared.pool.maxTransports ≤ after.1.pool.maxTransports := by
        rw [Unlowered, here, resized] at unlowered
        exact unlowered
      unfold budget
      omega
  have traded := Pool.total_set dials here after.2
  have within := budgeted.within
  by_cases dialing : dials after.2 = 1
  · obtain ⟨begins, transports⟩ := beginsDial_of_dials moved dialing
    have room : Room s.shared := by
      unfold BeginsDial at begins
      split at begins
      · exact begins
      · exact begins.1
      · cases begins
    rw [Accounted, here] at accounted
    have enough := room_for_one budgeted.booked room (accounted begins)
    have same := liveTransports_of_ages (Ages.of_eq transports)
    unfold connections at enough ⊢
    dsimp only
    omega
  · have quiet : dials after.2 = 0 := by
      unfold dials at dialing ⊢
      split at dialing <;> simp_all
    unfold connections at within ⊢
    dsimp only
    rcases trades.grows with ages | ⟨dial, before⟩
    · have fewer := liveTransports_of_ages ages
      omega
    · have more := liveTransports_dial s.shared
      rw [← dial] at more
      omega

lemma step {label s'} (budgeted : Budgeted s) (accounted : Accounted s label)
    (unlowered : Unlowered s label)
    (moved : step s label = some s') : Budgeted s' := by
  have booked := budgeted.booked.step moved
  have within := budgeted.within
  cases kind_of_step moved with
  | starts call new =>
    obtain ⟨-, -, quiet, -⟩ := started_fresh new
    refine ⟨booked, ?_⟩
    unfold connections at within ⊢
    rw [Pool.total_snoc dials s.calls quiet]
    exact within
  | moves i choice call after here advanced same =>
    subst same
    exact budgeted.move here advanced accounted unlowered
  | ages m ages pool =>
    have fewer := liveTransports_of_ages ages
    refine ⟨booked, ?_⟩
    unfold connections at within ⊢
    dsimp only
    rw [pool]
    omega
  | closes m free transports pool =>
    have fewer := liveTransports_of_ages
      ((foldl_close s.shared.pool.transports s.shared).1.trans (.of_eq transports))
    have same : budget m.pool = budget s.shared.pool := by rw [pool]; rfl
    refine ⟨booked, ?_⟩
    unfold connections at within ⊢
    dsimp only
    omega
end Budgeted
open State (initial)
lemma budgeted_initial : Budgeted (initial (newConnPool maxStreams minTransports maxTransports
      rotationOverlapAllowance softCapped)) := by
  refine ⟨.initial _ rfl rfl, ?_⟩
  unfold budget newConnPool
  simp only [connections, liveTransports, initial, Pool.total_nil, length_nil,
    range_zero, filter_nil, Nat.add_zero, Nat.cast_zero]
  split_ifs <;> omega

/-- Where every dial begins with the earlier transports listed, and the maximum is not lowered,
the pool keeps its budget. -/
theorem connections_within_budget
    (accounted : Meets step Accounted (initial (newConnPool maxStreams minTransports
      maxTransports rotationOverlapAllowance softCapped)) labels)
    (unlowered : Meets step Unlowered (initial (newConnPool maxStreams minTransports
      maxTransports rotationOverlapAllowance softCapped)) labels)
    (reached : run step (initial (newConnPool maxStreams minTransports maxTransports
      rotationOverlapAllowance softCapped)) labels = some s) :
    (connections s : Int) ≤ budget s.shared.pool :=
  (invariant_of_meets
    (fun budgeted admitted moved => budgeted.step admitted.1 admitted.2 moved)
    budgeted_initial (meets_and accounted unlowered) reached).within

def samplePool (n : Int) : Pool := newConnPool 100 n n 0 false

def sampleDial (i : Nat) : List Label :=
  [Label.get .dialContext, .move i .plain, .move i .plain, .move i .plain]

def sampleEnlist (i : Nat) : List Label :=
  [Label.move i .plain, .move i .plain, .move i .plain, .move i .plain, .move i .plain,
    .move i .plain]

theorem connections_within_budget_in_turn : ∃ s, run step (initial (samplePool 2))
        (sampleDial 0 ++ sampleEnlist 0 ++ [Label.topUp, .move 1 .plain]) = some s ∧
      connections s = 2 ∧ (connections s : Int) ≤ budget s.shared.pool := by
  refine exists_some_and (by decide +kernel) fun s reached count => ?_
  exact connections_within_budget (by decide +kernel) (by decide +kernel) reached

/-- The first dial has ended and its transport is on its way into a pool of one, when a second
call finds room and dials. -/
theorem two_connections_of_one : ∃ s, run step (initial (samplePool 1))
        (sampleDial 0 ++ [Label.move 0 .plain, .move 0 .plain] ++ sampleDial 1) = some s ∧
      s.shared.pool.maxTransports = 1 ∧ s.shared.pool.rotationOverlapAllowance = 0 ∧
      connections s = 2 := by decide +kernel
end ConnBudget
namespace PoolLeaks
open Client.ConnBudget

/-- The call is between `p.creating++` and `p.creating--`, around its `createFunc`. -/
def creates (call : Call) : Bool := counted call = 1

lemma counted_eq (call : Call) : counted call = if creates call then 1 else 0 := by
  unfold creates counted
  split <;> rfl

structure Sealed (s : State) : Prop where
  booked : Booked s
  shut : s.shared.pool.closed = true → s.shared.pool.transports = []

variable {s' : State} {label : Label}
lemma Sealed.step (h : Sealed s) (moved : step s label = some s') : Sealed s' := by
  refine ⟨h.booked.step moved, ?_⟩
  cases kind_of_step moved with
  | starts call new => exact h.shut
  | moves i choice call after here advanced =>
    have kept := h.booked.kept call (mem_of_getElem? here)
    obtain ⟨closed, fewer | ⟨opened, -⟩⟩ := (trades_advance advanced).relists kept <;> intro now
    · rw [closed] at now
      rw [h.shut now] at fewer
      exact sublist_nil.mp fewer
    · rw [closed, opened] at now
      cases now
  | ages m ages pool =>
    rw [pool]
    exact h.shut
  | closes m free transports pool =>
    intro _
    rw [pool]

lemma leaves_closed (booked : Booked s) (moved : step s label = some s') :
    (s.shared.pool.closed = true → s'.shared.pool.closed = true) ∧
      ∀ t ∈ s.shared.pool.transports, t < s.shared.transports.length →
        t ∈ s'.shared.pool.transports ∨ isClosed s'.shared t = true := by
  cases kind_of_step moved with
  | starts call new => exact ⟨id, fun t member _ => .inl member⟩
  | moves i choice call after here advanced =>
    have trades := trades_advance advanced
    have kept := booked.kept call (mem_of_getElem? here)
    refine ⟨fun closed => (trades.relists kept).1.trans closed, fun t member dialed => ?_⟩
    cases opened : isOpen after.1 t with
    | true => exact .inl (trades.pooled kept t member opened)
    | false =>
      refine .inr (isClosed_of_not_open ?_ opened)
      rcases trades.grows with ages | ⟨dial, -⟩
      · rwa [ages.length]
      · rw [dial, Shared.dial, length_append]
        exact Nat.lt_add_right 1 dialed
  | ages m ages pool =>
    rw [pool]
    exact ⟨id, fun t member _ => .inl member⟩
  | closes m free transports pool =>
    obtain ⟨ages, shut⟩ := foldl_close s.shared.pool.transports s.shared
    refine ⟨fun _ => by rw [pool], fun t member dialed => .inr (isClosed_of_not_open ?_ ?_)⟩
    · rwa [transports, ages.length]
    · rw [isOpen, transports]
      exact shut t member

structure Within (s : State) : Prop where
  booked : Booked s
  allowed : 0 ≤ s.shared.pool.rotationOverlapAllowance
  bound : (s.shared.pool.transports.length : Int) ≤
    s.shared.pool.maxTransports + s.shared.pool.rotationOverlapAllowance

lemma Within.step (h : Within s) (unlowered : Unlowered s label)
    (moved : step s label = some s') : Within s' := by
  have booked := h.booked.step moved
  have allowed := h.allowed
  have bound := h.bound
  cases kind_of_step moved with
  | starts call new => exact ⟨booked, allowed, bound⟩
  | moves i choice call after here advanced same =>
    subst same
    have trades := trades_advance advanced
    obtain ⟨allowance, maximum⟩ := trades.limits
    have raised : s.shared.pool.maxTransports ≤ after.1.pool.maxTransports := by
      rcases maximum with same | ⟨newMin, resized⟩
      · exact same.ge
      · rwa [Unlowered, here, resized] at unlowered
    refine ⟨booked, allowance ▸ allowed, ?_⟩
    dsimp only
    obtain ⟨-, fewer | ⟨-, room, one⟩⟩ := trades.relists (h.booked.kept call (mem_of_getElem? here))
    · have shorter := fewer.length_le
      omega
    · unfold Shared.capacity at room
      split_ifs at room <;> omega
  | ages m ages pool => exact ⟨booked, pool ▸ allowed, pool ▸ bound⟩
  | closes m free transports pool =>
    refine ⟨booked, by rw [pool]; exact allowed, ?_⟩
    rw [pool]
    simp only [length_nil]
    omega


/-- In every interleaving, `creating` counts the calls around their `createFunc`, and a transport is
in the pool, with the call that dialed it, or closed; it leaves the pool only closed. -/
theorem no_transport_leaked
    (reached : run step (State.initial (newConnPool maxStreams minTransports maxTransports
      rotationOverlapAllowance softCapped)) labels = some s) :
    s.shared.pool.creating = (s.calls.filter creates).length ∧
      (∀ t < s.shared.transports.length, t ∈ s.shared.pool.transports ∨
        (∃ call ∈ s.calls, carries call = some t) ∨ isClosed s.shared t = true) ∧
      (s.shared.pool.closed = true → s.shared.pool.transports = []) ∧
      (∀ label s', step s label = some s' →
        (s.shared.pool.closed = true → s'.shared.pool.closed = true) ∧
          ∀ t ∈ s.shared.pool.transports, t < s.shared.transports.length →
            t ∈ s'.shared.pool.transports ∨ isClosed s'.shared t = true) ∧
      (Meets step Unlowered (State.initial (newConnPool maxStreams minTransports maxTransports
          rotationOverlapAllowance softCapped)) labels →
        (s.shared.pool.transports.length : Int) ≤
          s.shared.pool.maxTransports + s.shared.pool.rotationOverlapAllowance) := by
  have fresh : Booked (State.initial (newConnPool maxStreams minTransports maxTransports
      rotationOverlapAllowance softCapped)) := .initial _ rfl rfl
  obtain ⟨booked, shut⟩ := run_invariant Sealed.step ⟨fresh, fun _ => rfl⟩ reached
  refine ⟨?_, ?_, shut, fun label s' moved => leaves_closed booked moved, fun unlowered => ?_⟩
  · rw [booked.creating]
    exact Pool.total_eq_length_filter fun call _ => counted_eq call
  · intro t dialed
    cases opened : isOpen s.shared t with
    | true => exact (booked.tracked t opened).imp id .inl
    | false => exact .inr (.inr (isClosed_of_not_open dialed opened))
  · refine (invariant_of_meets Within.step ?_
      unlowered reached).bound
    refine ⟨fresh, ?_, ?_⟩
    · dsimp only [State.initial, newConnPool]
      split_ifs <;> omega
    · unfold State.initial newConnPool
      simp only [length_nil]
      split_ifs <;> omega

theorem no_transport_leaked_close : ∃ s,
    run step (State.initial (samplePool 2))
        (sampleDial 0 ++ [Label.move 0 .plain, .move 0 .plain, .closeClient]) = some s ∧
      s.shared.transports.length = 1 ∧ s.shared.pool.transports = [] := by
  refine exists_some_of (P := fun s => s.shared.transports.length = 1 ∧
    s.shared.pool.closed = true) (by decide +kernel) fun s reached ⟨dialed, closed⟩ => ?_
  exact ⟨dialed, (no_transport_leaked reached).2.2.1 closed⟩
end PoolLeaks
end Tamizdat.Client
