/- layer: library
   digest: Finite schedules of partial step functions, and totals over a list of threads. -/

import Mathlib.Data.List.Basic
import Mathlib.Data.Option.Basic
import Mathlib.Tactic

set_option autoImplicit false
universe u v

open List Option
namespace Tamizdat.Machine
lemma lt_of_getElem? {α : Type u} {l : List α} {i : Nat} {a : α} (here : l[i]? = some a) :
    i < l.length := (List.getElem?_eq_some_iff.mp here).1

namespace Pool
variable {α : Type u} {M : Type v} [AddCommMonoid M]
variable (w : α → M)
def total (l : List α) : M := (l.map w).sum

@[simp] lemma total_nil : total w [] = 0 := rfl

@[simp] lemma total_append (l m : List α) : total w (l ++ m) = total w l + total w m := by
  simp [total]

@[simp] lemma total_singleton (a : α) : total w [a] = w a := by
  simp [total]

variable {a : α}
lemma total_snoc (l : List α) (light : w a = 0) : total w (l ++ [a]) = total w l := by
  rw [total_append, total_singleton, light, add_zero]

variable {l : List α} {i : Nat} {b : α}
lemma forall_set {P : α → Prop} (all : ∀ a ∈ l, P a) (one : P b) : ∀ a ∈ l.set i b, P a := by
  intro a member
  rcases mem_or_eq_of_mem_set member with old | rfl
  · exact all a old
  · exact one

lemma forall_snoc {P : α → Prop} (all : ∀ a ∈ l, P a) (one : P b) : ∀ a ∈ l ++ [b], P a := by
  intro a member
  rcases mem_append.mp member with old | new
  · exact all a old
  · exact mem_singleton.mp new ▸ one

lemma getElem?_set_apply (here : l[i]? = some a) (b : α) (j : Nat) :
    (l.set i b)[j]? = if j = i then some b else l[j]? := by
  have inside := lt_of_getElem? here
  rw [getElem?_set]
  by_cases same : i = j
  · simp [same, same ▸ inside]
  · simp [same, Ne.symm same]

lemma moved_eq_some {β γ c x} {f : α → Option β} {g : α → β → γ}
    (moved : (x.bind fun a => (f a).map (g a)) = some c) :
    ∃ a b, x = some a ∧ f a = some b ∧ g a b = c := by
  obtain ⟨a, here, moved⟩ := bind_eq_some_iff.mp moved
  obtain ⟨b, advanced, same⟩ := map_eq_some_iff.mp moved
  exact ⟨a, b, here, advanced, same⟩

lemma set_cases {j c} (here : l[i]? = some a) (found : (l.set i b)[j]? = some c) :
    j = i ∧ c = b ∨ j ≠ i ∧ l[j]? = some c := by
  rw [getElem?_set_apply here] at found
  split_ifs at found with same
  · exact .inl ⟨same, (some.inj found).symm⟩
  · exact .inr ⟨same, found⟩

lemma exists_set {P : α → Prop} {j : Nat} {c : α} (here : l[j]? = some c) (there : l[i]? = some a)
    (own : j = i → c = a → P b) (other : j ≠ i → P c) : ∃ d, (l.set i b)[j]? = some d ∧ P d := by
  rw [getElem?_set_apply there]
  by_cases same : j = i
  · exact ⟨b, if_pos same, own same (some.inj (here.symm.trans (same ▸ there)))⟩
  · exact ⟨c, by rw [if_neg same, here], other same⟩

lemma getElem?_snoc (l : List α) (a : α) (j : Nat) :
    (l ++ [a])[j]? = if j = l.length then some a else l[j]? := by
  rw [getElem?_append]
  split_ifs with inside same same
  · omega
  · rfl
  · simp [same]
  · rw [getElem?_eq_none (by simp; omega), getElem?_eq_none (by omega)]

lemma total_set (here : l[i]? = some a) (b : α) : total w (l.set i b) + w a = total w l + w b := by
  induction l generalizing i with
  | nil => simp at here
  | cons c l ih =>
    cases i with
    | zero =>
      cases here
      simp only [total, set_cons_zero, map_cons, sum_cons]
      abel
    | succ i =>
      have rest := ih (i := i) here
      simp only [total, set_cons_succ, map_cons, sum_cons] at rest ⊢
      rw [add_assoc, rest, add_assoc]

lemma total_set_eq [IsRightCancelAdd M] (w : α → M) (here : l[i]? = some a) (same : w b = w a) :
    total w (l.set i b) = total w l := by
  have traded := total_set w here b
  rw [same] at traded
  exact add_right_cancel traded

lemma le_total (w : α → Nat) (here : l[i]? = some a) : w a ≤ total w l :=
  single_le_sum (fun _ _ => Nat.zero_le _) _ (List.mem_map_of_mem (mem_of_getElem? here))

lemma add_le_total {j} (w : α → Nat) (here : l[i]? = some a) (there : l[j]? = some b)
    (apart : i ≠ j) :
    w a + w b ≤ total w l := by
  induction l generalizing i j with
  | nil => simp at here
  | cons c l ih =>
    have whole : total w (c :: l) = w c + total w l := by simp [total]
    rw [whole]
    cases i with
    | zero =>
      cases j with
      | zero => exact absurd rfl apart
      | succ j =>
        cases here
        exact Nat.add_le_add_left (le_total w (i := j) there) _
    | succ i =>
      cases j with
      | zero =>
        cases there
        have rest := le_total w (i := i) here
        omega
      | succ j =>
        have rest := ih (i := i) (j := j) here there (by omega)
        omega

lemma total_le_total {w v : α → Nat} (lighter : ∀ a, w a ≤ v a) (l : List α) :
    total w l ≤ total v l := sum_le_sum fun a _ => lighter a

lemma total_of_light {w : α → M} (light : ∀ a ∈ l, w a = 0) : total w l = 0 := by
  apply sum_eq_zero
  intro value member
  obtain ⟨a, inside, rfl⟩ := List.mem_map.mp member
  exact light a inside

lemma total_eq_zero {w : α → Nat} {v : α → M} (none : total w l = 0)
    (weightless : ∀ a, w a = 0 → v a = 0) : total v l = 0 := by
  apply total_of_light
  intro a inside
  have light : w a ≤ total w l :=
    single_le_sum (fun _ _ => Nat.zero_le _) _ (List.mem_map_of_mem inside)
  exact weightless a (by omega)

lemma total_eq_length_filter {w : α → Int} {p : α → Bool}
    (indicates : ∀ a ∈ l, w a = if p a then 1 else 0) : total w l = (l.filter p).length := by
  induction l with
  | nil => rfl
  | cons a l ih =>
    have rest := ih fun b inside => indicates b (mem_cons_of_mem a inside)
    rw [total] at rest
    rw [total, map_cons, sum_cons, rest, indicates a mem_cons_self, filter_cons]
    split_ifs
    · rw [length_cons]
      omega
    · rw [zero_add]

lemma mem_total {β : Type v} {w : α → Multiset β} {b : β} : b ∈ total w l ↔ ∃ a ∈ l, b ∈ w a := by
  induction l with
  | nil => simp
  | cons c l ih =>
    rw [total, map_cons, sum_cons, Multiset.mem_add]
    simp only [mem_cons, exists_eq_or_imp]
    exact or_congr_right ih
end Pool
namespace Runs
variable {σ : Type u} {ℓ : Type v}

/-- Execute a finite schedule. A label that is not enabled stops the run. -/
def run (step : σ → ℓ → Option σ) : σ → List ℓ → Option σ
  | s, [] => some s
  | s, l :: ls => (step s l).bind (fun t => run step t ls)

/-- Every label of the schedule is taken in a state in which `ok` admits it. -/
def Meets (step : σ → ℓ → Option σ) (ok : σ → ℓ → Prop) : σ → List ℓ → Prop
  | _, [] => True
  | s, l :: ls => ok s l ∧ ∀ t, step s l = some t → Meets step ok t ls

instance decidableMeets {step : σ → ℓ → Option σ} {ok : σ → ℓ → Prop}
    [decidable : ∀ s l, Decidable (ok s l)] : ∀ s ls, Decidable (Meets step ok s ls)
  | _, [] => isTrue trivial
  | s, l :: ls =>
    match moved : step s l with
    | none => decidable_of_iff (ok s l) ⟨fun h => ⟨h, by simp [moved]⟩, And.left⟩
    | some t =>
      have : Decidable (Meets step ok t ls) := decidableMeets t ls
      decidable_of_iff (ok s l ∧ Meets step ok t ls)
        ⟨fun h => ⟨h.1, by simpa [moved] using h.2⟩, fun h => ⟨h.1, h.2 t moved⟩⟩

/-- What is claimed of the result of a concrete computation can be evaluated, also when the
computation goes on from there to a second result. -/
instance decidableExistsSome {P : σ → Prop} [DecidablePred P] :
    ∀ x : Option σ, Decidable (∃ a, x = some a ∧ P a)
  | none => isFalse (by simp)
  | some a => decidable_of_iff (P a) (by simp)

instance decidableExistsTwo {τ : Type v} {Q : σ → τ → Prop} [∀ a, Decidable (∃ b, Q a b)] :
    ∀ x : Option σ, Decidable (∃ a b, x = some a ∧ Q a b)
  | none => isFalse (by simp)
  | some a => decidable_of_iff (∃ b, Q a b) (by simp)

instance decidableExistsLater {p : Prop} {P : σ → Prop} [Decidable p] [Decidable (∃ a, P a)] :
    Decidable (∃ a, p ∧ P a) :=
  decidable_of_iff (p ∧ ∃ a, P a) exists_and_left.symm

lemma exists_some_of {x : Option σ} {P Q : σ → Prop} (evaluated : ∃ a, x = some a ∧ P a)
    (follows : ∀ a, x = some a → P a → Q a) : ∃ a, x = some a ∧ Q a := by
  obtain ⟨a, found, holds⟩ := evaluated
  exact ⟨a, found, follows a found holds⟩

lemma exists_some_and {x : Option σ} {P Q : σ → Prop} (evaluated : ∃ a, x = some a ∧ P a)
    (follows : ∀ a, x = some a → P a → Q a) : ∃ a, x = some a ∧ P a ∧ Q a :=
  exists_some_of evaluated fun a found holds => ⟨holds, follows a found holds⟩

lemma exists_two_of {τ : Type v} {x : Option σ} {y : σ → Option τ} {P Q : σ → τ → Prop}
    (evaluated : ∃ a b, x = some a ∧ y a = some b ∧ P a b)
    (follows : ∀ a b, x = some a → y a = some b → P a b → Q a b) :
    ∃ a b, x = some a ∧ y a = some b ∧ Q a b := by
  obtain ⟨a, b, first, second, holds⟩ := evaluated
  exact ⟨a, b, first, second, follows a b first second holds⟩

@[simp] lemma run_nil (step : σ → ℓ → Option σ) (s : σ) : run step s [] = some s := rfl

lemma run_cons (step : σ → ℓ → Option σ) (s : σ) (l : ℓ) (ls : List ℓ) :
    run step s (l :: ls) = (step s l).bind (fun t => run step t ls) := rfl

variable {step : σ → ℓ → Option σ} {ok fine : σ → ℓ → Prop} {Inv small : σ → Prop}
  {ls : List ℓ} {s t : σ}

lemma run_cons_some {l} (h : run step s (l :: ls) = some t) :
    ∃ m, step s l = some m ∧ run step m ls = some t := by
  rw [run_cons, bind_eq_some_iff] at h
  exact h

lemma meets_append {xs ys} (whole : Meets step ok s (xs ++ ys)) :
    Meets step ok s xs ∧ ∀ t, run step s xs = some t → Meets step ok t ys := by
  induction xs generalizing s with
  | nil =>
    refine ⟨trivial, ?_⟩
    intro t arrive
    rw [run_nil, some.injEq] at arrive
    exact arrive ▸ whole
  | cons l ls ih =>
    refine ⟨⟨whole.1, fun m first => (ih (whole.2 m first)).1⟩, ?_⟩
    intro t arrive
    obtain ⟨m, first, rest⟩ := run_cons_some arrive
    exact (ih (whole.2 m first)).2 t rest

lemma meets_and (first : Meets step ok s ls) (second : Meets step fine s ls) :
    Meets step (fun s l => ok s l ∧ fine s l) s ls := by
  induction ls generalizing s with
  | nil => trivial
  | cons l ls ih =>
    exact ⟨⟨first.1, second.1⟩, fun m moved => ih (first.2 m moved) (second.2 m moved)⟩

lemma holds_before_run (back : ∀ s l t, step s l = some t → small t → small s)
    (arrive : run step s ls = some t) (last : small t) : small s := by
  induction ls generalizing s with
  | nil =>
    rw [run_nil, some.injEq] at arrive
    exact arrive ▸ last
  | cons l ls ih =>
    obtain ⟨m, first, rest⟩ := run_cons_some arrive
    exact back s l m first (ih rest)

/-- For steps that need the state they lead to to be `small`: a state is small if a later one
is. -/
lemma invariant_of_small (back : ∀ s l t, step s l = some t → small t → small s)
    (preserve : ∀ s l t, Inv s → ok s l → step s l = some t → small t → Inv t) {s t : σ}
    (start : Inv s) (admitted : Meets step ok s ls) (arrive : run step s ls = some t)
    (last : small t) : Inv t := by
  induction ls generalizing s with
  | nil =>
    rw [run_nil, some.injEq] at arrive
    exact arrive ▸ start
  | cons l ls ih =>
    obtain ⟨m, first, rest⟩ := run_cons_some arrive
    have between : small m := holds_before_run back rest last
    exact ih (preserve s l m start admitted.1 first between) (admitted.2 m first) rest

lemma invariant_of_meets (preserve : ∀ {s l t}, Inv s → ok s l → step s l = some t → Inv t)
    {s t : σ} (start : Inv s) (admitted : Meets step ok s ls) (arrive : run step s ls = some t) :
    Inv t :=
  invariant_of_small (fun _ _ _ _ _ => trivial) (fun _ _ _ inv okay moved _ =>
    preserve inv okay moved) start admitted arrive trivial

lemma meets_of_invariant (preserve : ∀ s l t, Inv s → ok s l → step s l = some t → Inv t)
    (implies : ∀ s l, Inv s → ok s l → fine s l) (start : Inv s) (admitted : Meets step ok s ls) :
    Meets step fine s ls := by
  induction ls generalizing s with
  | nil => trivial
  | cons l ls ih =>
    refine ⟨implies s l start admitted.1, ?_⟩
    intro m first
    exact ih (preserve s l m start admitted.1 first) (admitted.2 m first)

lemma meets_of_forall (all : ∀ s l, ok s l) (s : σ) (ls : List ℓ) : Meets step ok s ls := by
  induction ls generalizing s with
  | nil => trivial
  | cons l ls ih => exact ⟨all s l, fun t _ => ih t⟩

lemma run_invariant (preserve : ∀ {s l t}, Inv s → step s l = some t → Inv t) {s t : σ}
    (start : Inv s) (arrive : run step s ls = some t) : Inv t :=
  invariant_of_meets (fun inv _ => preserve inv) start
    (meets_of_forall (fun _ _ => trivial) s ls) arrive

lemma exists_run {allowed : ℓ → Prop}
    (progress : ∀ s l, Inv s → allowed l → ∃ t, step s l = some t ∧ Inv t)
    (start : Inv s) (all : ∀ l ∈ ls, allowed l) : ∃ t, run step s ls = some t ∧ Inv t := by
  induction ls generalizing s with
  | nil => exact ⟨s, rfl, start⟩
  | cons l ls ih =>
    obtain ⟨m, first, between⟩ := progress s l start (all l mem_cons_self)
    obtain ⟨t, rest, reached⟩ :=
      ih between (fun later member => all later (mem_cons_of_mem l member))
    refine ⟨t, ?_, reached⟩
    rw [run_cons, first]
    exact rest

lemma length_add_le (weight : σ → Nat)
    (descend : ∀ s l t, Inv s → step s l = some t → Inv t ∧ weight t < weight s)
    (start : Inv s) (arrive : run step s ls = some t) :
    ls.length + weight t ≤ weight s := by
  induction ls generalizing s with
  | nil =>
    cases arrive
    exact Nat.le_of_eq (Nat.zero_add _)
  | cons l ls ih =>
    obtain ⟨m, first, rest⟩ := run_cons_some arrive
    obtain ⟨kept, lighter⟩ := descend s l m start first
    have shorter := ih kept rest
    rw [length_cons]
    omega
end Runs
end Tamizdat.Machine
