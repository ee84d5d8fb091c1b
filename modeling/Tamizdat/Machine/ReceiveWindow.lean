/- layer: library
   digest: A cursor and the packets held above it, and the timer that guards its lowest gap. -/

import Tamizdat.Machine.Runs

set_option autoImplicit false
universe u v

open List Option
namespace Tamizdat.Machine
namespace GapClock
open Machine.Runs (Meets meets_of_invariant)

/-- What a hold timer depends on: the lowest missing number, whether anything is held behind it,
and the date on the timer. Date zero stands for a timer that is not running. -/
structure View where
  cursor : Nat
  waiting : Bool
  timer : Int

/-- The instant since which something has been held behind the present cursor. It is computed
from the cursors and not from the timer. -/
def seen (before after : View) (since : Option Int) (now : Int) : Option Int :=
  if after.waiting then
    if before.waiting ∧ before.cursor = after.cursor then since else some now
  else none

/-- A number that a call stepped over: at or beyond the old cursor, left behind by the new one,
and not among the released ones. A cursor that falls has left every number behind. -/
def Skips (before after : Nat) (released : List Nat) (g : Nat) : Prop :=
  before ≤ g ∧ g ∉ released ∧ (g < after ∨ after < before)

instance (before after g : Nat) (released : List Nat) : Decidable (Skips before after released g) :=
  inferInstanceAs (Decidable (_ ∧ _))

lemma Skips.moved {before after g : Nat} {released : List Nat}
    (skips : Skips before after released g) : after ≠ before := by
  obtain ⟨low, -, high | wrapped⟩ := skips <;> omega

def Idle (v : View) : Prop := v.waiting = false → v.timer = 0

/-- What an honest call may do to the timer: stop it, date it now, or leave it alone while the
gap it guards stays the same one. -/
def Dates (before after : View) (now : Int) : Prop :=
  after.timer = 0 ∨ after.timer = now ∨ (after.timer = before.timer ∧
      (before.waiting = true → after.waiting = true → after.cursor = before.cursor))

lemma Dates.of_eq {before after : View} (same : after = before) (now : Int) :
    Dates before after now := by
  subst same
  exact .inr (.inr ⟨rfl, fun _ _ => rfl⟩)

structure Fresh (v : View) (since : Option Int) (clock : Int) : Prop where
  idle : Idle v
  visible : v.waiting = true → ∃ t, since = some t ∧ t ≤ clock ∧ (v.timer = 0 ∨ t ≤ v.timer)

lemma Fresh.step {v since clock now v'} (fresh : Fresh v since clock) (later : clock ≤ now)
    (dates : Dates v v' now)
    (idle : Idle v') : Fresh v' (seen v v' since now) now := by
  refine ⟨idle, ?_⟩
  intro waiting
  rw [seen, if_pos waiting]
  by_cases same : v.waiting ∧ v.cursor = v'.cursor
  · rw [if_pos same]
    obtain ⟨t, since_eq, past, dated⟩ := fresh.visible same.1
    refine ⟨t, since_eq, past.trans later, ?_⟩
    rcases dates with stopped | restarted | ⟨kept, -⟩
    · exact .inl stopped
    · exact .inr (by omega)
    · rw [kept]
      exact dated
  · rw [if_neg same]
    refine ⟨now, rfl, le_rfl, ?_⟩
    rcases dates with stopped | restarted | ⟨kept, guards⟩
    · exact .inl stopped
    · exact .inr restarted.ge
    · cases before : v.waiting with
      | false => exact .inl (kept.trans (fresh.idle before))
      | true => exact absurd ⟨before, (guards before waiting).symm⟩ same

variable {σ : Type u} {ℓ : Type v}

/-- A buffer, the instant since which its lowest gap has been visible, and the time of the last
call. -/
structure Watch (σ : Type u) where
  buffer : σ
  since : Option Int
  clock : Int

def Watch.step (call : σ → ℓ → Option σ) (time : ℓ → Int) (view : σ → View) (w : Watch σ)
    (l : ℓ) : Option (Watch σ) :=
  if w.clock ≤ time l then
    (call w.buffer l).map (fun s => ⟨s, seen (view w.buffer) (view s) w.since (time l), time l⟩)
  else none

variable {call : σ → ℓ → Option σ} {time : ℓ → Int} {view : σ → View}
lemma Watch.step_eq_some {w l w'} (moved : Watch.step call time view w l = some w') :
    w.clock ≤ time l ∧ ∃ s, call w.buffer l = some s ∧
      w' = ⟨s, seen (view w.buffer) (view s) w.since (time l), time l⟩ := by
  rw [Watch.step, ite_none_right_eq_some, map_eq_some_iff] at moved
  obtain ⟨later, s, called, rfl⟩ := moved
  exact ⟨later, s, called, rfl⟩

/-- If every admitted call treats the timer honestly, then at every point of an admitted run
whatever a fresh timer guarantees is guaranteed. -/
lemma Watch.meets_of_honest {ok : σ → ℓ → Prop} {fine : Watch σ → ℓ → Prop} {Inv : σ → Prop}
    (honest : ∀ s l s', Inv s → Idle (view s) → ok s l → call s l = some s' →
      Inv s' ∧ Idle (view s') ∧ Dates (view s) (view s') (time l))
    (implies : ∀ w l, Inv w.buffer → Fresh (view w.buffer) w.since w.clock → fine w l)
    {w : Watch σ} {ls : List ℓ} (inv : Inv w.buffer)
    (fresh : Fresh (view w.buffer) w.since w.clock)
    (admitted : Meets (Watch.step call time view) (fun w l => ok w.buffer l) w ls) :
    Meets (Watch.step call time view) fine w ls := by
  have preserve : ∀ w l w', (Inv w.buffer ∧ Fresh (view w.buffer) w.since w.clock) →
      ok w.buffer l → Watch.step call time view w l = some w' →
      Inv w'.buffer ∧ Fresh (view w'.buffer) w'.since w'.clock := by
    intro w l w' both allowed moved
    obtain ⟨later, s, called, rfl⟩ := Watch.step_eq_some moved
    obtain ⟨kept, idle, dates⟩ := honest _ _ _ both.1 both.2.idle allowed called
    exact ⟨kept, both.2.step later dates idle⟩
  exact meets_of_invariant preserve (fun w l both _ => implies w l both.1 both.2)
    ⟨inv, fresh⟩ admitted
end GapClock
namespace ReceiveWindow
variable {α : Type u}

/-- The cursor is the next sequence number to release. Nothing is held below it. -/
@[ext] structure Window (α : Type u) where
  cursor : Nat
  held : Nat → Option α
  above : ∀ {s : Nat} {a : α}, held s = some a → cursor ≤ s

def Window.empty (cursor : Nat) : Window α where
  cursor := cursor
  held := fun _ => none
  above := by simp

section
variable (w : Window α)
def Window.store (s : Nat) (a : α) (ahead : w.cursor ≤ s) : Window α where
  cursor := w.cursor
  held := Function.update w.held s (some a)
  above := by
    intro t b holds
    by_cases same : t = s
    · exact same ▸ ahead
    · rw [Function.update_of_ne same] at holds
      exact w.above holds

/-- Give up on missing numbers. No held packet may be jumped over. -/
def Window.skip (c : Nat) (clear : ∀ {s : Nat} {a : α}, w.held s = some a → c ≤ s) : Window α where
  cursor := c
  held := w.held
  above := clear

def Window.emit : Window α where
  cursor := w.cursor + 1
  held := Function.update w.held w.cursor none
  above := by
    intro t b holds
    by_cases same : t = w.cursor
    · subst same
      simp at holds
    · rw [Function.update_of_ne same] at holds
      have := w.above holds
      omega

@[simp] lemma Window.store_cursor (s : Nat) (a : α) (ahead : w.cursor ≤ s) :
    (w.store s a ahead).cursor = w.cursor := rfl

lemma Window.store_held (s t : Nat) (a : α) (ahead : w.cursor ≤ s) :
    (w.store s a ahead).held t = if t = s then some a else w.held t := by
  simp only [Window.store, Function.update_apply]

lemma Window.emit_held (t : Nat) : w.emit.held t = if t = w.cursor then none else w.held t := by
  simp only [Window.emit, Function.update_apply]
end

/-- A sequence of stores, skips and emissions, with the packets that came in and went out. -/
inductive Moves : Window α → List (Nat × α) → List (Nat × α) → Window α → Prop
  | refl (w : Window α) : Moves w [] [] w
  | store {w v : Window α} {ins outs : List (Nat × α)} (s : Nat) (a : α)
      (before : Moves w ins outs v) (ahead : v.cursor ≤ s) (fresh : v.held s = none) :
      Moves w (ins ++ [(s, a)]) outs (v.store s a ahead)
  | skip {w v : Window α} {ins outs : List (Nat × α)} (c : Nat)
      (before : Moves w ins outs v) (forward : v.cursor ≤ c)
      (clear : ∀ {s : Nat} {a : α}, v.held s = some a → c ≤ s) :
      Moves w ins outs (v.skip c clear)
  | emit {w v : Window α} {ins outs : List (Nat × α)} (a : α)
      (before : Moves w ins outs v) (present : v.held v.cursor = some a) :
      Moves w ins (outs ++ [(v.cursor, a)]) v.emit

variable {w v : Window α} {ins outs : List (Nat × α)}
lemma Moves.trans {ins' outs' x} (first : Moves w ins outs v) (second : Moves v ins' outs' x) :
    Moves w (ins ++ ins') (outs ++ outs') x := by
  induction second with
  | refl => simpa using first
  | store s a _ ahead fresh ih =>
    rw [← append_assoc]
    exact ih.store s a ahead fresh
  | skip c _ forward clear ih => exact ih.skip c forward clear
  | emit a _ present ih =>
    rw [← append_assoc]
    exact ih.emit a present

variable (moves : Moves w ins outs v)
include moves
lemma Moves.cursor_le : w.cursor ≤ v.cursor := by
  induction moves with
  | refl => exact le_rfl
  | store _ _ _ _ _ ih => exact ih
  | skip _ _ forward _ ih => exact ih.trans forward
  | emit _ _ _ ih => exact ih.trans (Nat.le_succ _)

lemma Moves.emitted_range {p} (member : p ∈ outs) : w.cursor ≤ p.1 ∧ p.1 < v.cursor := by
  induction moves with
  | refl => simp at member
  | store _ _ _ _ _ ih => exact ih member
  | skip _ _ forward _ ih =>
    have range := ih member
    exact ⟨range.1, range.2.trans_le forward⟩
  | emit a before _ ih =>
    rcases mem_append.mp member with old | new
    · have range := ih old
      exact ⟨range.1, range.2.trans (Nat.lt_succ_self _)⟩
    · obtain rfl := mem_singleton.mp new
      exact ⟨before.cursor_le, Nat.lt_succ_self _⟩

lemma Moves.emitted_increasing : outs.Pairwise (fun p q => p.1 < q.1) := by
  induction moves with
  | refl => exact List.Pairwise.nil
  | store _ _ _ _ _ ih | skip _ _ _ _ ih => exact ih
  | emit a before _ ih =>
    refine pairwise_append.mpr ⟨ih, pairwise_singleton _ _, ?_⟩
    intro p old q new
    obtain rfl := mem_singleton.mp new
    exact (before.emitted_range old).2

lemma Moves.origin {s a} (present : (s, a) ∈ outs ∨ v.held s = some a) :
    w.held s = some a ∨ (s, a) ∈ ins := by
  induction moves with
  | refl => simpa using present
  | @store v ins outs t b before ahead _ ih =>
    rcases present with out | holds
    · exact (ih (.inl out)).imp_right (mem_append_left _)
    · rw [Window.store_held] at holds
      split_ifs at holds with same
      · refine .inr (mem_append_right _ ?_)
        rw [some.injEq] at holds
        simp [same, holds]
      · exact (ih (.inr holds)).imp_right (mem_append_left _)
  | skip _ _ _ _ ih => exact ih present
  | @emit v ins outs b before head ih =>
    rcases present with out | holds
    · rcases mem_append.mp out with old | new
      · exact ih (.inl old)
      · obtain ⟨rfl, rfl⟩ := Prod.mk.inj (mem_singleton.mp new)
        exact ih (.inr head)
    · rw [Window.emit_held] at holds
      split_ifs at holds with same
      exact ih (.inr holds)

lemma Moves.conserve {s a} (known : w.held s = some a ∨ (s, a) ∈ ins) :
    (s, a) ∈ outs ∨ v.held s = some a := by
  induction moves with
  | refl => simpa using known
  | @store v ins outs t b before ahead fresh ih =>
    rw [Window.store_held]
    have old : w.held s = some a ∨ (s, a) ∈ ins →
        (s, a) ∈ outs ∨ (if s = t then some b else v.held s) = some a := by
      intro earlier
      rcases ih earlier with out | holds
      · exact .inl out
      · have other : s ≠ t := by
          rintro rfl
          rw [fresh] at holds
          cases holds
        exact .inr (by rw [if_neg other, holds])
    rcases known with start | member
    · exact old (.inl start)
    · rcases mem_append.mp member with earlier | last
      · exact old (.inr earlier)
      · obtain ⟨rfl, rfl⟩ := Prod.mk.inj (mem_singleton.mp last)
        exact .inr (if_pos rfl)
  | skip _ _ _ _ ih => exact ih known
  | @emit v ins outs b before head ih =>
    rw [Window.emit_held]
    rcases ih known with out | holds
    · exact .inl (mem_append_left _ out)
    · by_cases same : s = v.cursor
      · subst same
        rw [head, some.injEq] at holds
        exact .inl (mem_append_right _ (by simp [holds]))
      · exact .inr (by rw [if_neg same, holds])
end ReceiveWindow
end Tamizdat.Machine
