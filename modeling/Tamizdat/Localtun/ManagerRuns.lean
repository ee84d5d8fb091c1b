/- source: internal/localtun/manager.go
   digest: Generations follow one another, and when a Reconcile that succeeds has its TUN. -/

import Tamizdat.Localtun.Manager

set_option autoImplicit false

open List Option
namespace Tamizdat.Localtun
open Machine Pool Machine.Runs Routing
open State (creating goOn initial leave)
open Generation (create stored)
variable {std : Stdlib} {snapshots : Nat → Snapshot} {s s' : State} {label : Label}
section

/-- The call finds its configuration unchanged after an attempt to stop that generation has
failed. -/
def Stale (s : State) (label : Label) (i : Nat) (cfg : Config) : Prop :=
  label = .lock i ∧ s.manager.current = cfg ∧ s.stopFailed = true

variable {i : Nat} {cfg : Config}
lemma returned_set {op k call} {calls : List Call} {err : Option ManagerError}
    (pending : calls[i]? ≠ some (.returned op err))
    (returns : (calls.set k call)[i]? = some (.returned op err)) :
    k = i ∧ call = .returned op err := by
  rw [getElem?_set] at returns
  split_ifs at returns with here inside
  · exact ⟨here, some.inj returns⟩
  · exact absurd returns pending

lemma returned_snoc {op call} {calls : List Call} {err : Option ManagerError}
    (pending : calls[i]? ≠ some (.returned op err))
    (returns : (calls ++ [call])[i]? = some (.returned op err)) : call = .returned op err := by
  rw [getElem?_snoc] at returns
  split_ifs at returns with here
  · exact some.inj returns
  · exact absurd returns pending

section
variable (pending : s.calls[i]? ≠ some (.returned (.reconcile (some cfg)) none))
include pending
lemma reconcile_returns_of_lock {k : Nat} (moved : s.lock k = some s')
    (returns : s'.calls[i]? = some (.returned (.reconcile (some cfg)) none)) :
    k = i ∧ s.critical = none ∧ s.manager.cancel.isSome ∧ s.manager.current = cfg ∧
      s'.generations = s.generations := by
  unfold State.lock at moved
  split at moved
  · next selected free waits =>
    split_ifs at moved with unchanged <;> cases moved
    · obtain ⟨mine, same⟩ := returned_set pending returns
      cases same
      exact ⟨mine, free, unchanged.2, (some.inj unchanged.1).symm, rfl⟩
    · cases (returned_set pending returns).2
  · cases moved
    cases (returned_set pending returns).2
  · cases moved

lemma reconcile_returns_of_work {outcome : Answer} (moved : s.work outcome = some s')
    (returns : s'.calls[i]? = some (.returned (.reconcile (some cfg)) none)) :
    ∃ j, s.critical = some (i, .reconcile (some cfg), .spawn j) ∧
      s' = s.spawn i (.reconcile (some cfg)) j := by
  unfold State.work at moved
  split at moved
  · cases moved
  · next k op work holds =>
    split at moved
    · cases moved
      unfold State.stop at returns
      split at returns <;> exact absurd returns pending
    · next result =>
      cases moved
      cases result with
      | some cause => cases (returned_set pending returns).2
      | none =>
        dsimp only [State.retry] at returns
        split at returns <;> exact absurd returns pending
    · obtain ⟨g, result, -, -, rfl⟩ := moved_eq_some moved
      split at returns
      · cases (returned_set pending returns).2
      · exact absurd returns pending
    · cases moved
      cases (returned_set pending returns).2
    · cases moved
      cases op with
      | reconcile selected => exact absurd returns pending
      | close => cases (returned_set pending returns).2
    · next selected =>
      cases moved
      cases selected with
      | none =>
        unfold State.publish at returns
        split_ifs at returns
        · exact absurd returns pending
        · cases (returned_set pending returns).2
      | some other => exact absurd returns pending
    · next selected =>
      cases moved
      cases selected with
      | none => cases (returned_set pending returns).2
      | some other => exact absurd returns pending
    · next j =>
      cases moved
      obtain ⟨rfl, same⟩ := returned_set pending returns
      cases same
      exact ⟨j, holds, rfl⟩
    · cases moved
end

/-- A `Reconcile` that returns without an error has its configuration running, if and only if it
has not met it unchanged after a failed stop. -/
theorem reconcile_running_iff {labels : List Label}
    (reached : run (step std snapshots) initial labels = some s)
    (moved : step std snapshots s label = some s')
    (pending : s.calls[i]? ≠ some (.returned (.reconcile (some cfg)) none))
    (returns : s'.calls[i]? = some (.returned (.reconcile (some cfg)) none)) :
    (∃ g ∈ s'.generations, g.started = true ∧ g.cfg = cfg ∧ g.cancelled = false) ↔
      ¬Stale s label i cfg := by
  have sound := Sound.of_run reached
  cases label with
  | reconcile configs =>
    dsimp only [step] at moved
    split at moved <;> cases moved <;> cases returned_snoc pending returns
  | close =>
    cases moved
    cases returned_snoc pending returns
  | lock k =>
    obtain ⟨rfl, free, kept, same, generations⟩ := reconcile_returns_of_lock pending moved returns
    obtain ⟨j, owner⟩ := isSome_iff_exists.mp kept
    obtain ⟨g, here, owned⟩ := sound.owns j owner
    have begun : g.stage ≠ .created := by simp [owned.created, creating, free]
    have cancelled : g.cancelled = s.stopFailed := by
      simpa [State.awaiting, free] using owned.cancelled
    rw [generations]
    constructor
    · rintro ⟨h, member, -, -, running⟩ ⟨-, -, failed⟩
      obtain ⟨k, there⟩ := getElem?_of_mem member
      -- all but the owned generation are cancelled, and that one was by the failed stop
      by_cases mine : s.manager.cancel = some k
      · cases owner.symm.trans mine
        cases here.symm.trans there
        rw [cancelled, failed] at running
        cases running
      · rw [(sound.settled k h there mine).cancelled] at running
        cases running
    · intro fresh
      refine ⟨g, mem_of_getElem? here, by simp [Generation.started, begun],
        owned.cfg.trans same, ?_⟩
      rw [cancelled, Bool.eq_false_iff]
      exact fun failed => fresh ⟨rfl, same, failed⟩
  | work outcome =>
    obtain ⟨j, holds, rfl⟩ := reconcile_returns_of_work pending moved returns
    obtain ⟨gen, cfg', sameOp, last, ⟨older, whole, -, -⟩, -⟩ := sound.fits i _ (.spawn j) holds
    cases sameOp
    have mine : j = older.length := by simpa [whole] using last
    have here : s.generations[j]? = some (create gen cfg) := by simp [whole, mine]
    refine iff_of_true ⟨{ create gen cfg with stage := .loop }, ?_, rfl, rfl, rfl⟩ ?_
    · apply mem_of_getElem? (i := j)
      simp only [State.spawn, leave]
      rw [Sound.modify_eq_set here, getElem?_set_apply here, if_pos rfl]
    · rintro ⟨impossible, -⟩
      cases impossible
  | supervise j event =>
    obtain ⟨g, after, -, -, rfl⟩ := moved_eq_some moved
    exact absurd returns pending
end

def State.Numbers (s : State) (gen : Nat) : Prop :=
  ∃ i op, s.critical = some (i, op, .publish gen) ∨ s.critical = some (i, op, .store gen)

def Inherits (s : State) (k : Nat) (h : Generation) : Prop :=
  (∃ g, s.generations[k]? = some g ∧ h.number = g.number ∧
    (h.delivered = false → g.delivered = false) ∧
    (h.started = true → g.started = true ∨ ∃ i op, s.critical = some (i, op, .spawn k))) ∨
  (h.started = false ∧ s.Numbers h.number)

structure Follows (s s' : State) : Prop where
  generations : ∀ (k : Nat) h, s'.generations[k]? = some h → Inherits s k h
  live : s'.live = s.live ∨ s'.live = .disabled ∨ ∃ n, s'.live.generation = some n ∧
      (s.Numbers n ∨ ∃ g ∈ s.generations, g.delivered = false ∧ g.number = n)
  numbers : ∀ gen, s'.Numbers gen → gen = s.manager.generation + 1 ∨ s.Numbers gen
  later : s.manager.generation ≤ s'.manager.generation

variable {k : Nat}
lemma inherits_self {h} (here : s.generations[k]? = some h) : Inherits s k h :=
  .inl ⟨h, here, rfl, id, .inl⟩

variable {j : Nat}
lemma inherits_set {g g' h} (here : s.generations[j]? = some g) (number : g'.number = g.number)
    (delivered : g'.delivered = false → g.delivered = false)
    (started : g'.started = true → g.started = true ∨ ∃ i op, s.critical = some (i, op, .spawn j))
    (there : (s.generations.set j g')[k]? = some h) : Inherits s k h := by
  obtain ⟨rfl, rfl⟩ | ⟨-, there⟩ := set_cases here there
  · exact .inl ⟨g, here, number, delivered, started⟩
  · exact inherits_self there

lemma inherits_modify {f h} (number : ∀ g, (f g).number = g.number)
    (stage : ∀ g, (f g).stage = g.stage)
    (there : (s.generations.modify j f)[k]? = some h) : Inherits s k h := by
  cases here : s.generations[j]? with
  | none =>
    rw [modify_eq_set_getElem?, here] at there
    exact inherits_self there
  | some g =>
    rw [Sound.modify_eq_set here] at there
    refine inherits_set here (number g) ?_ ?_ there
    · simp [Generation.delivered, Generation.result, stage]
    · exact fun begun => .inl (by simpa [Generation.started, stage] using begun)

namespace Follows
lemma quiet (generations : s'.generations = s.generations) (live : s'.live = s.live)
    (numbers : ∀ gen, ¬s'.Numbers gen)
    (later : s.manager.generation ≤ s'.manager.generation) : Follows s s' where
  generations := by
    rw [generations]
    exact fun k h there => inherits_self there
  live := .inl live
  numbers := fun gen numbered => absurd numbered (numbers gen)
  later := later

variable {i : Nat}
lemma lock (moved : s.lock i = some s') : Follows s s' := by
  unfold State.lock at moved
  split at moved
  · split_ifs at moved <;> cases moved
    · exact quiet rfl rfl (by simp [State.Numbers, leave]) le_rfl
    · exact quiet rfl rfl (by simp [State.Numbers]) le_rfl
  · cases moved
    exact quiet rfl rfl (by simp [State.Numbers]) (Nat.le_succ _)
  · cases moved

lemma stop (s : State) (i : Nat) (op : Op) : Follows s (s.stop i op) := by
  unfold State.stop
  split
  · exact quiet rfl rfl (by simp [State.Numbers, goOn]) le_rfl
  · exact quiet rfl rfl (by simp [State.Numbers, goOn]) le_rfl
  · exact ⟨fun _ _ => inherits_modify (fun _ => rfl) fun _ => rfl, .inl rfl,
      by simp [State.Numbers, goOn], le_rfl⟩

lemma retry (s : State) (i : Nat) (op : Op) (result : Option Text) :
    Follows s (s.retry i op result) := by
  unfold State.retry
  cases result with
  | some cause => exact quiet rfl rfl (by simp [State.Numbers, leave]) le_rfl
  | none =>
    dsimp only
    split
    · exact quiet rfl rfl (by simp [State.Numbers, goOn]) le_rfl
    · exact ⟨fun _ _ => inherits_modify (fun _ => rfl) fun _ => rfl, .inl rfl,
        by simp [State.Numbers, goOn], le_rfl⟩

lemma receive {op done} (moved : s.receive i op done = some s') : Follows s s' := by
  obtain ⟨g, result, here, -, rfl⟩ := moved_eq_some moved
  have generations : ∀ (k : Nat) h,
      (s.generations.set done { g with taken := true })[k]? = some h → Inherits s k h := by
    intro k h there
    refine inherits_set here ?_ ?_ ?_ there
    · rfl
    · exact id
    · exact .inl
  split
  · exact ⟨generations, .inl rfl, by simp [State.Numbers, leave], le_rfl⟩
  · exact ⟨generations, .inl rfl, by simp [State.Numbers, goOn], le_rfl⟩

lemma stopped (s : State) (i : Nat) (op : Op) : Follows s (s.stopped i op) := by
  cases op with
  | reconcile selected =>
    refine ⟨fun k h there => inherits_self there, .inl rfl, ?_, Nat.le_succ _⟩
    rintro gen ⟨i', op', now | now⟩ <;> cases now
    exact .inl rfl
  | close =>
    refine ⟨fun k h there => inherits_self there, .inr (.inl rfl), ?_, le_rfl⟩
    simp [State.Numbers, State.stopped, leave]

lemma publish {selected gen} (holds : s.critical = some (i, .reconcile selected, .publish gen)) :
    Follows s (s.publish i gen selected) := by
  have numbered : s.Numbers gen := ⟨i, _, .inl holds⟩
  unfold State.publish
  cases selected with
  | none =>
    split_ifs
    · refine ⟨fun k h there => inherits_self there, .inl rfl, ?_, le_rfl⟩
      rintro gen' ⟨i', op', now | now⟩ <;> cases now
      exact .inr numbered
    · exact quiet rfl rfl (by simp [State.Numbers, leave]) le_rfl
  | some cfg =>
    refine ⟨?_, .inl rfl, ?_, le_rfl⟩
    · intro k h there
      simp only [goOn] at there
      rw [getElem?_snoc] at there
      split_ifs at there
      · cases there
        exact .inr ⟨rfl, numbered⟩
      · exact inherits_self there
    · rintro gen' ⟨i', op', now | now⟩ <;> simp only [goOn] at now <;>
        split_ifs at now <;> cases now
      exact .inr numbered

lemma store {selected gen} (holds : s.critical = some (i, .reconcile selected, .store gen)) :
    Follows s (s.store i gen selected) := by
  cases selected with
  | none =>
    refine ⟨fun k h there => inherits_self there, .inr (.inl rfl), ?_, le_rfl⟩
    simp [State.Numbers, State.store, leave]
  | some cfg =>
    refine ⟨fun k h there => inherits_self there, .inr (.inr ⟨gen, rfl, .inl ?_⟩), ?_, le_rfl⟩
    · exact ⟨i, _, .inr holds⟩
    · simp [State.Numbers, State.store, goOn]

lemma spawn {op} (sound : Sound s) (holds : s.critical = some (i, op, .spawn j)) :
    Follows s (s.spawn i op j) := by
  refine ⟨?_, .inl rfl, by simp [State.Numbers, State.spawn, leave], le_rfl⟩
  obtain ⟨gen, cfg, -, last, ⟨older, whole, -, -⟩, -⟩ := sound.fits i op (.spawn j) holds
  have mine : j = older.length := by simpa [whole] using last
  have here : s.generations[j]? = some (create gen cfg) := by simp [whole, mine]
  intro k h there
  simp only [State.spawn, leave] at there
  rw [Sound.modify_eq_set here] at there
  refine inherits_set here ?_ ?_ ?_ there
  · rfl
  · exact fun _ => rfl
  · exact fun _ => .inr ⟨i, op, holds⟩

lemma work {outcome} (sound : Sound s) (moved : s.work outcome = some s') : Follows s s' := by
  unfold State.work at moved
  split at moved
  · cases moved
  · next i op work holds =>
    split at moved
    · cases moved
      exact stop s i _
    · cases moved
      exact retry s i _ _
    · exact receive moved
    · cases moved
      exact quiet rfl rfl (by simp [State.Numbers, State.timeout, leave]) le_rfl
    · cases moved
      exact stopped s i _
    · cases moved
      exact publish holds
    · cases moved
      exact store holds
    · cases moved
      exact spawn sound holds
    · cases moved

lemma supervise {event} (moved : s.supervise j event = some s') : Follows s s' := by
  obtain ⟨g, after, here, goes, rfl⟩ := moved_eq_some moved
  have moves := Generation.moves_supervise goes
  refine ⟨?_, ?_, fun gen numbered => .inr numbered, le_rfl⟩
  · intro k h there
    refine inherits_set here moves.number (fun _ => moves.running) ?_ there
    exact fun _ => .inl (by simp [Generation.started, moves.started])
  · unfold stored
    split
    · split
      · exact .inr (.inr ⟨g.number, rfl, .inr ⟨g, mem_of_getElem? here, moves.running, rfl⟩⟩)
      · exact .inl rfl
    · exact .inl rfl

lemma of_step (sound : Sound s) (moved : step std snapshots s label = some s') : Follows s s' := by
  have joins : ∀ call, Follows s { s with calls := s.calls ++ [call] } := fun call =>
    ⟨fun k h there => inherits_self there, .inl rfl, fun gen numbered => .inr numbered, le_rfl⟩
  cases label with
  | reconcile configs =>
    dsimp only [step] at moved
    split at moved <;> cases moved <;> exact joins _
  | close =>
    cases moved
    exact joins _
  | lock i => exact lock moved
  | work outcome => exact work sound moved
  | supervise j event => exact supervise moved
end Follows

structure AtLeast (b : Nat) (s : State) : Prop where
  live : ∀ n, s.live.generation = some n → b ≤ n
  running : ∀ g ∈ s.generations, g.delivered = false → b ≤ g.number
  numbers : ∀ gen, s.Numbers gen → b ≤ gen
  next : b ≤ s.manager.generation + 1

lemma AtLeast.follow {b} (above : AtLeast b s) (follows : Follows s s') : AtLeast b s' where
  live := by
    intro n shown
    rcases follows.live with same | off | ⟨n', shown', source⟩
    · exact above.live n (same ▸ shown)
    · rw [off] at shown
      cases shown
    · cases shown.symm.trans shown'
      rcases source with numbered | ⟨g, member, running, rfl⟩
      · exact above.numbers n numbered
      · exact above.running g member running
  running := by
    intro h member running
    obtain ⟨k, there⟩ := getElem?_of_mem member
    rcases follows.generations k h there with ⟨g, here, number, before, -⟩ | ⟨-, numbered⟩
    · rw [number]
      exact above.running g (mem_of_getElem? here) (before running)
    · exact above.numbers h.number numbered
  numbers := by
    intro gen numbered
    rcases follows.numbers gen numbered with rfl | before
    · exact above.next
    · exact above.numbers gen before
  next := above.next.trans (Nat.succ_le_succ follows.later)

lemma AtLeast.onward {b labels} (above : AtLeast b s) (sound : Sound s)
    (reached : run (step std snapshots) s labels = some s') : AtLeast b s' := by
  have preserve : ∀ {s label s'}, Sound s ∧ AtLeast b s → step std snapshots s label = some s' →
      Sound s' ∧ AtLeast b s' := by
    rintro s label s' ⟨sound, above⟩ moved
    exact ⟨sound.step moved, above.follow (Follows.of_step sound moved)⟩
  exact (run_invariant preserve ⟨sound, above⟩ reached).2

lemma newest_snoc {gen cfg} {older all : List Generation} (whole : all = older ++ [create gen cfg])
    (before : ∀ g ∈ older, g.number < gen) : ∀ g ∈ all, g.started = true → g.number < gen := by
  rw [whole]
  refine forall_snoc (fun g old _ => before g old) ?_
  rintro ⟨⟩

lemma Sound.running_shown {g} (sound : Sound s) (member : g ∈ s.generations)
    (running : g.delivered = false) :
    s.live.generation = some g.number ∨ (s.manager.generation = g.number ∧
        ∀ h ∈ s.generations, h.started = true → h.number < g.number) := by
  obtain ⟨j, here⟩ := getElem?_of_mem member
  have owner : s.manager.cancel = some j := by
    by_contra other
    rw [(sound.settled j g here other).delivered] at running
    cases running
  obtain ⟨g₀, here₀, owned⟩ := sound.owns j owner
  cases here.symm.trans here₀
  by_cases stands : g.stage = .created
  · have making := owned.created.mp stands
    unfold creating at making
    have made {older last} (whole : s.generations = older ++ [last])
        (owner' : s.manager.cancel = some older.length) : last = g := by
      simpa [whole, some.inj (owner.symm.trans owner')] using here
    split at making
    · next i cfg gen holds =>
      obtain ⟨now, older, whole, owner', before⟩ := sound.fits _ _ _ holds
      obtain rfl := made whole owner'
      exact .inr ⟨now, newest_snoc whole before⟩
    · next i op k holds =>
      obtain ⟨gen, cfg, -, -, ⟨older, whole, owner', -⟩, shown⟩ := sound.fits _ _ _ holds
      obtain rfl := made whole owner'
      exact .inl shown
    · cases making
  · exact .inl (owned.shown stands)

lemma Sound.numbers_newest {gen} (sound : Sound s) (numbered : s.Numbers gen) :
    s.manager.generation = gen ∧ ∀ g ∈ s.generations, g.started = true → g.number < gen := by
  obtain ⟨i, op, publishing | storing⟩ := numbered
  · obtain ⟨-, now, older⟩ := sound.fits _ _ _ publishing
    exact ⟨now, fun g member _ => older g member⟩
  · obtain ⟨now, rest⟩ := sound.fits _ _ _ storing
    refine ⟨now, ?_⟩
    split at rest
    · obtain ⟨older, whole, -, before⟩ := rest
      exact newest_snoc whole before
    · exact fun g member _ => rest.2 g member

lemma Sound.atLeast_shown {n} (sound : Sound s) (shown : s.live.generation = some n) :
    AtLeast n s where
  live := by
    intro m shown'
    cases shown.symm.trans shown'
    exact le_rfl
  running := by
    intro g member running
    rcases sound.running_shown member running with shown' | ⟨now, -⟩
    · cases shown.symm.trans shown'
      exact le_rfl
    · rw [← now]
      exact sound.live n shown
  numbers := by
    intro gen numbered
    rw [← (sound.numbers_newest numbered).1]
    exact sound.live n shown
  next := (sound.live n shown).trans (Nat.le_succ _)

lemma Sound.atLeast_disabled {g} (sound : Sound s) (disabled : s.live = .disabled)
    (member : g ∈ s.generations) (begun : g.started = true) : AtLeast (g.number + 1) s where
  live := by
    rw [disabled]
    exact nofun
  running := by
    intro h other running
    rcases sound.running_shown other running with shown | ⟨-, newest⟩
    · rw [disabled] at shown
      cases shown
    · exact newest g member begun
  numbers := fun gen numbered => (sound.numbers_newest numbered).2 g member begun
  next := Nat.succ_le_succ (sound.numbers g member)

/-- Generations follow one another. At most one that has started has still to deliver the result
of its cleanup; one starts when the others have been cleaned up; and once a generation or the
disabled state has been shown, no earlier generation is shown again. -/
theorem generations_in_turn {labels : List Label}
    (reached : run (step std snapshots) initial labels = some s) :
    (∀ (j k : Nat) g h, s.generations[j]? = some g → s.generations[k]? = some h →
      g.started = true → g.delivered = false → h.started = true → h.delivered = false → j = k) ∧
    (∀ label s', step std snapshots s label = some s' →
      ∀ (k : Nat) h, s'.generations[k]? = some h → h.started = true →
        (∀ g, s.generations[k]? = some g → g.started = false) →
        ∀ (j : Nat) g, j ≠ k → s.generations[j]? = some g → g.delivered = true ∧ g.cleaned = true) ∧
    (∀ more s', run (step std snapshots) s more = some s' → ∀ m status, s'.live = .shown m status →
        (∀ n before, s.live = .shown n before → n ≤ m) ∧
        (s.live = .disabled → ∀ g ∈ s.generations, g.started = true → g.number < m)) := by
  have sound := Sound.of_run reached
  refine ⟨?_, ?_, ?_⟩
  · intro j k g h here there _ running _ running'
    have owner : ∀ (j : Nat) g, s.generations[j]? = some g → g.delivered = false →
        s.manager.cancel = some j := by
      intro j g here running
      by_contra other
      rw [(sound.settled j g here other).delivered] at running
      cases running
    exact some.inj ((owner j g here running).symm.trans (owner k h there running'))
  · intro label s' moved k h there begun before j g other here
    rcases (Follows.of_step sound moved).generations k h there with
      ⟨g', here', -, -, source⟩ | ⟨unborn, -⟩
    · rcases source begun with already | ⟨i, op, holds⟩
      · rw [before g' here'] at already
        cases already
      · obtain ⟨gen, cfg, -, last, ⟨older, whole, owner, -⟩, -⟩ := sound.fits i op (.spawn k) holds
        have mine : k = older.length := by simpa [whole] using last
        have settled := sound.settled j g here (by simp [owner, ← mine, Ne.symm other])
        exact ⟨settled.delivered, settled.cleaned⟩
    · rw [unborn] at begun
      cases begun
  · intro more s' onward m status shown
    have shown' : s'.live.generation = some m := by rw [shown]; rfl
    constructor
    · intro n before earlier
      have from' : s.live.generation = some n := by rw [earlier]; rfl
      exact ((sound.atLeast_shown from').onward sound onward).live m shown'
    · intro disabled g member begun
      exact ((sound.atLeast_disabled disabled member begun).onward sound onward).live m shown'

def sampleConfig (userName : Text) : Config where
  userID := "1".toList
  userName := userName
  enabled := true
  fallbackTag := "proxy".toList
  tunAddress := "192.168.1.0/24".toList

def sampleSelected (userName : Text) : Config :=
  { (sampleConfig userName).normalized with outboundTag := "proxy".toList }

def sampleStart (i : Nat) (userName : Text) : List Label :=
  [Label.reconcile [sampleConfig userName], .lock i, .work .proceeds, .work .proceeds,
    .work .proceeds, .work .proceeds]

def sampleTimeout : List Label :=
  sampleStart 0 "lan".toList ++ [Label.work .proceeds,
    .reconcile [sampleConfig "guest".toList], .lock 1, .work .proceeds, .work .timesOut,
    .reconcile [sampleConfig "lan".toList]]

def sampleStep : State → Label → Option State := step sampleStdlib fun _ => ⟨[], none⟩

/-- A TUN is up when the next `Reconcile` asks for another one. -/
def sampleReplace : List Label :=
  sampleStart 0 "lan".toList ++ [Label.work .proceeds, .supervise 0 (.begins 5),
    .supervise 0 .tunUp, .supervise 0 .checks, .supervise 0 .stores] ++
    (sampleStart 1 "guest".toList).take 3 ++ [.supervise 0 (.returns none), .supervise 0 .looks,
    .supervise 0 (.cleans none), .work .receives, .work .proceeds, .work .proceeds, .work .proceeds]

theorem reconcile_running_replaced :
    ∃ s s', run sampleStep initial sampleReplace = some s ∧
      sampleStep s (.work .proceeds) = some s' ∧
      s'.calls[1]? = some (.returned (.reconcile (some (sampleSelected "guest".toList))) none) ∧
      ∃ g ∈ s'.generations, g.started = true ∧ g.cfg = sampleSelected "guest".toList ∧
        g.cancelled = false := by
  refine exists_two_of (P := fun s s' => s.calls[1]? = some .inside ∧ s'.calls[1]? =
    some (.returned (.reconcile (some (sampleSelected "guest".toList))) none))
    (by decide +kernel) ?_
  rintro s s' arrive moved ⟨before, after⟩
  refine ⟨after, ?_⟩
  refine (reconcile_running_iff arrive moved (by simp [before]) after).mpr ?_
  rintro ⟨impossible, -⟩
  cases impossible

/-- The third `Reconcile` returns without an error, and the generation that it relies on has been
cancelled. -/
theorem reconcile_nil_cancelled :
    ∃ s s', run sampleStep initial sampleTimeout = some s ∧ sampleStep s (.lock 2) = some s' ∧
      s.calls[2]? = some (.ready (.reconcile (some (sampleSelected "lan".toList)))) ∧
      s'.calls[2]? = some (.returned (.reconcile (some (sampleSelected "lan".toList))) none) ∧
      s'.generations.map (·.cancelled) = [true] := by decide +kernel

theorem generations_in_turn_two : ∃ s s', run sampleStep initial
        (sampleStart 0 "lan".toList ++ [Label.work .proceeds]) = some s ∧
      run sampleStep s [.supervise 0 (.begins 7), .supervise 0 .tunUp, .supervise 0 .checks,
        .supervise 0 .stores, .reconcile [sampleConfig "guest".toList], .lock 1, .work .proceeds,
        .supervise 0 (.returns none), .supervise 0 .looks, .supervise 0 (.cleans none),
        .work .receives, .work .proceeds, .work .proceeds, .work .proceeds] = some s' ∧
      s'.live = .shown 2 (statusFor (sampleSelected "guest".toList) .starting [] 0) ∧
      ∀ n before, s.live = .shown n before → n ≤ 2 := by
  refine exists_two_of (P := fun _ s' =>
    s'.live = .shown 2 (statusFor (sampleSelected "guest".toList) .starting [] 0))
    (by decide +kernel) fun s s' arrive reached shown => ?_
  exact ⟨shown, ((generations_in_turn arrive).2.2 _ s' reached 2 _ shown).1⟩
end Tamizdat.Localtun
