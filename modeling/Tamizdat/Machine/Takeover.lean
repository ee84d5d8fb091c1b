/- layer: library
   digest: Exclusive resources of groups: books of claims, and the moves that keep them sound. -/

import Tamizdat.Machine.Maps

set_option autoImplicit false
universe u v w

open Option
namespace Tamizdat.Machine.Takeover
open Machine.Maps

inductive Phase where
  | idle | claimed | owning | cleared | engaged | leaving | lost | committed | gone
  deriving DecidableEq

namespace Phase
def claiming : Phase → Bool
  | .claimed | .owning | .cleared | .engaged | .leaving => true
  | _ => false

def exclusive : Phase → Bool
  | .owning | .cleared | .engaged => true
  | _ => false

def swept : Phase → Bool
  | .cleared | .engaged => true
  | _ => false

def holding : Phase → Bool
  | .engaged | .lost => true
  | _ => false

lemma claiming_of_exclusive {p : Phase} (h : p.exclusive = true) : p.claiming = true := by
  cases p <;> simp_all [exclusive, claiming]

lemma not_idle_of_claiming {p : Phase} (h : p.claiming = true) : p ≠ .idle := by
  cases p <;> simp_all [claiming]

lemma exclusive_of_swept {p : Phase} (h : p.swept = true) : p.exclusive = true := by
  cases p <;> simp_all [exclusive, swept]
end Phase

structure Owner (κ : Type u) where
  key : κ
  phase : Phase
  retirees : List Nat
  isOpen : Bool
  shut : Bool

structure Book (κ : Type u) (τ : Type v) where
  closed : Bool
  cleared : Bool
  committed : GoMap κ Nat
  claims : GoMap κ τ
  owner : Nat → Owner κ
  lists : List (List Nat)

variable {κ : Type u} {τ : Type v} {δ : Type w}
namespace Book
variable (b : Book κ τ)
def put (i : Nat) (o : Owner κ) : Book κ τ := { b with owner := Function.update b.owner i o }
def advance (i : Nat) (p : Phase) : Book κ τ := b.put i { b.owner i with phase := p }

lemma owner_put (i j : Nat) (o : Owner κ) :
    (b.put i o).owner j = if j = i then o else b.owner j := by
  simp [put, Function.update_apply]

@[simp] lemma owner_put_self (i : Nat) (o : Owner κ) : (b.put i o).owner i = o := by
  simp [owner_put]

lemma owner_put_of_ne {j i} (o : Owner κ) (other : j ≠ i) : (b.put i o).owner j = b.owner j := by
  simp [owner_put, other]

variable [DecidableEq κ]
def unclaim (k : κ) : Book κ τ := { b with claims := b.claims.erase k }

def rivals [DecidableEq δ] (group : κ → δ) (b : Book κ τ) (k : κ) : List κ :=
  b.committed.keys.filter fun other => decide (group other = group k ∧ other ≠ k)

lemma mem_rivals [DecidableEq δ] {group : κ → δ} {b : Book κ τ} {k other : κ} :
    other ∈ b.rivals group k ↔
      (∃ x, b.committed.lookup other = some x) ∧ group other = group k ∧ other ≠ k := by
  simp [rivals, List.mem_filter, mem_keys_iff]

/-- The rivals of contender `i` leave the book and become its retirees. -/
def sweep [DecidableEq δ] (group : κ → δ) (b : Book κ τ) (i : Nat) : Book κ τ :=
  { b.put i { b.owner i with
      phase := .cleared,
      retirees := valuesAt b.committed (b.rivals group (b.owner i).key) } with
    committed := eraseAll b.committed (b.rivals group (b.owner i).key) }

def settle (i : Nat) : Book κ τ :=
  { b.advance i .committed with committed := b.committed.insert (b.owner i).key i }

def wipe (lists : List (List Nat)) : Book κ τ :=
  { b with cleared := true, committed := ∅, claims := ∅, lists := lists }

def Listed (lists : List (List Nat)) (x : Nat) : Prop := ∃ l ∈ lists, x ∈ l

def Holds (x : Nat) : Prop :=
  (∃ k, b.committed.lookup k = some x) ∨ (∃ i, x ∈ (b.owner i).retirees) ∨
    Listed b.lists x ∨ (b.owner x).phase.holding = true
end Book
variable [DecidableEq κ] {group : κ → δ} {b : Book κ τ} {i x : Nat}
lemma Book.Holds.put {b : Book κ τ} {i x : Nat} {o : Owner κ}
    (keeps : ∀ y ∈ (b.owner i).retirees, y ∈ o.retirees)
    (holding : x = i → (b.owner i).phase.holding = true → o.phase.holding = true)
    (h : b.Holds x) : (b.put i o).Holds x := by
  rcases h with found | ⟨j, inside⟩ | listed | held
  · exact .inl found
  · refine .inr (.inl ⟨j, ?_⟩)
    by_cases same : j = i
    · subst same
      simpa using keeps x inside
    · rwa [b.owner_put_of_ne o same]
  · exact .inr (.inr (.inl listed))
  · refine .inr (.inr (.inr ?_))
    by_cases same : x = i
    · subst same
      simpa using holding rfl held
    · rwa [b.owner_put_of_ne o same]

lemma Book.holds_others {b : Book κ τ} {i : Nat} {o : Owner κ}
    (keeps : ∀ y ∈ (b.owner i).retirees, y ∈ o.retirees) (x : Nat) (other : x ≠ i)
    (_ : (b.owner x).isOpen = true) (holds : b.Holds x) : (b.put i o).Holds x :=
  holds.put keeps fun same => absurd same other

inductive Move [DecidableEq δ] (group : κ → δ) (cap : Nat) : Book κ τ → Book κ τ → Prop where
  | claim {b : Book κ τ} (i : Nat) (k : κ) (t : τ)
      (idle : (b.owner i).phase = .idle) (absent : b.committed.lookup k = none)
      (alone : ∀ other, (b.claims.lookup other).isSome → group other ≠ group k)
      (room : size b.committed + size b.claims < cap) :
      Move group cap b
        { b.put i ⟨k, .claimed, [], false, false⟩ with claims := b.claims.insert k t }
  | quit {b : Book κ τ} (i : Nat) (k : κ) (idle : (b.owner i).phase = .idle) :
      Move group cap b (b.put i ⟨k, .gone, [], false, false⟩)
  | pass {b : Book κ τ} (i : Nat) (claimed : (b.owner i).phase = .claimed)
      (working : b.closed = false) : Move group cap b (b.advance i .owning)
  | retire {b : Book κ τ} (i : Nat) (owning : (b.owner i).phase = .owning) :
      Move group cap b (b.sweep group i)
  | drop {b : Book κ τ} (i : Nat) (rest : List Nat) (cleared : (b.owner i).phase = .cleared)
      (fewer : ∀ x ∈ rest, x ∈ (b.owner i).retirees)
      (dropped : ∀ x ∈ (b.owner i).retirees, x ∉ rest → (b.owner x).shut = true) :
      Move group cap b (b.put i { b.owner i with retirees := rest })
  | ready {b : Book κ τ} (i : Nat) (cleared : (b.owner i).phase = .cleared)
      (working : b.closed = false) (finished : (b.owner i).retirees = []) :
      Move group cap b (b.advance i .engaged)
  | grasp {b : Book κ τ} (i : Nat) (engaged : (b.owner i).phase = .engaged)
      (unshut : (b.owner i).shut = false) :
      Move group cap b (b.put i { b.owner i with isOpen := true })
  | shutter {b : Book κ τ} (i : Nat) :
      Move group cap b (b.put i { b.owner i with isOpen := false, shut := true })
  | yield {b : Book κ τ} (i : Nat) (claiming : (b.owner i).phase.claiming = true)
      (finished : (b.owner i).retirees = []) :
      Move group cap b (b.put i { b.owner i with phase := .leaving, isOpen := false })
  | release {b : Book κ τ} (i : Nat) (leaving : (b.owner i).phase = .leaving) :
      Move group cap b ((b.advance i .gone).unclaim (b.owner i).key)
  | commit {b : Book κ τ} (i : Nat) (engaged : (b.owner i).phase = .engaged)
      (working : b.closed = false) (absent : b.committed.lookup (b.owner i).key = none) :
      Move group cap b ((b.settle i).unclaim (b.owner i).key)
  | lose {b : Book κ τ} (i : Nat) (engaged : (b.owner i).phase = .engaged)
      (late : b.closed = true ∨ b.committed.lookup (b.owner i).key ≠ none) :
      Move group cap b ((b.advance i .lost).unclaim (b.owner i).key)
  | abandon {b : Book κ τ} (i : Nat) (lost : (b.owner i).phase = .lost)
      (shut : (b.owner i).shut = true) : Move group cap b (b.advance i .gone)
  | remove {b : Book κ τ} (k : κ) (x : Nat) (present : b.committed.lookup k = some x)
      (shut : (b.owner x).shut = true) :
      Move group cap b { b with committed := b.committed.erase k }
  | stop {b : Book κ τ} : Move group cap b { b with closed := true }
  | clear {b : Book κ τ} (closed : b.closed = true) (lists : List (List Nat))
      (moved : ∀ x, Book.Listed lists x ↔
        Book.Listed b.lists x ∨ ∃ k, b.committed.lookup k = some x) :
      Move group cap b (b.wipe lists)
  | forget {b : Book κ τ} (lists : List (List Nat))
      (fewer : ∀ x, Book.Listed lists x → Book.Listed b.lists x)
      (dropped : ∀ x, Book.Listed b.lists x → ¬ Book.Listed lists x → (b.owner x).shut = true) :
      Move group cap b { b with lists := lists }

/-- What every reachable book satisfies. The fields below `holders` say why it holds. -/
structure Sound (group : κ → δ) (b : Book κ τ) : Prop where
  holders : ∀ x y, b.Holds x → b.Holds y → group (b.owner x).key = group (b.owner y).key → x = y
  opened : ∀ x, (b.owner x).isOpen = true → b.Holds x ∧ (b.owner x).shut = false
  claims : ∀ k k', (b.claims.lookup k).isSome → (b.claims.lookup k').isSome →
    group k = group k' → k = k'
  claimant : b.closed = false → ∀ i, (b.owner i).phase.claiming = true →
    (b.claims.lookup (b.owner i).key).isSome
  claimants : b.closed = false → ∀ i j, (b.owner i).phase.claiming = true →
    (b.owner j).phase.claiming = true → group (b.owner i).key = group (b.owner j).key → i = j
  exclusive : ∀ i j, (b.owner i).phase.exclusive = true → (b.owner j).phase.exclusive = true →
    group (b.owner i).key = group (b.owner j).key → i = j
  swept : ∀ i, (b.owner i).phase.swept = true → ∀ k x, b.committed.lookup k = some x →
    group k ≠ group (b.owner i).key
  absent : ∀ i, (b.owner i).phase.claiming = true → b.committed.lookup (b.owner i).key = none
  committed : ∀ k x, b.committed.lookup k = some x →
    (b.owner x).key = k ∧ (b.owner x).phase = .committed
  retirees : ∀ i, ∀ x ∈ (b.owner i).retirees, (b.owner i).phase = .cleared ∧
    group (b.owner x).key = group (b.owner i).key ∧ (b.owner x).phase = .committed
  listed : ∀ x, Book.Listed b.lists x → b.closed = true ∧ (b.owner x).phase = .committed
  lost : ∀ x, (b.owner x).phase = .lost → b.closed = true
  emptied : b.cleared = true → b.closed = true ∧ ∀ k, b.committed.lookup k = none

open Phase (holding)
namespace Sound
variable (h : Sound group b)
include h
lemma not_idle_of_holds (holds : b.Holds x) : (b.owner x).phase ≠ .idle := by
  rcases holds with ⟨k, found⟩ | ⟨i, inside⟩ | listed | holding
  · simp [(h.committed k x found).2]
  · simp [(h.retirees i x inside).2.2]
  · simp [(h.listed x listed).2]
  · intro idle
    simp [idle, Phase.holding] at holding

lemma shut_of_engaged {i} (engaged : (b.owner i).phase = .engaged) (other : x ≠ i)
    (same : group (b.owner x).key = group (b.owner i).key) : (b.owner x).isOpen = false := by
  by_contra open_
  have holds := (h.opened x (by simpa using open_)).1
  have held : b.Holds i := .inr (.inr (.inr (by simp [engaged, holding])))
  exact other (h.holders x i holds held same)

lemma open_unique {y} (left : (b.owner x).isOpen = true)
    (right : (b.owner y).isOpen = true) (same : group (b.owner x).key = group (b.owner y).key) :
    x = y :=
  h.holders x y (h.opened x left).1 (h.opened y right).1 same

lemma committed_unique {k k' y} (left : b.committed.lookup k = some x)
    (right : b.committed.lookup k' = some y) (same : group k = group k') : k = k' := by
  have keyLeft := (h.committed k x left).1
  have keyRight := (h.committed k' y right).1
  have equal : x = y :=
    h.holders x y (.inl ⟨k, left⟩) (.inl ⟨k', right⟩) (by rw [keyLeft, keyRight, same])
  rw [← keyLeft, ← keyRight, equal]
end Sound

/-- The record of a contender whose claim has just been entered for a free group. -/
structure Enters (group : κ → δ) (b : Book κ τ) (i : Nat) (o : Owner κ) : Prop where
  idle : (b.owner i).phase = .idle
  phase : o.phase = .claimed
  absent : b.committed.lookup o.key = none
  claimed : (b.claims.lookup o.key).isSome
  alone : b.closed = false → ∀ j, (b.owner j).phase.claiming = true →
    group (b.owner j).key ≠ group o.key

/-- A record that may stand in for the one of contender `i`: whatever it may do beyond the old
one has its reason in the book. -/
structure Replaces (group : κ → δ) (b : Book κ τ) (i : Nat) (o : Owner κ) : Prop where
  key : (b.owner i).phase ≠ .idle → o.key = (b.owner i).key
  claiming : o.phase.claiming = true → (b.owner i).phase.claiming = true ∨ Enters group b i o
  exclusive : o.phase.exclusive = true → (b.owner i).phase.exclusive = true ∨
    (b.closed = false ∧ (b.owner i).phase.claiming = true)
  swept : o.phase.swept = true → (b.owner i).phase.swept = true
  stays : (b.owner i).phase = .committed → o.phase = .committed
  lost : o.phase = .lost → b.closed = true
  retirees : ∀ x ∈ o.retirees, x ∈ (b.owner i).retirees ∧ o.phase = .cleared
  holding : o.phase.holding = true → (b.owner i).phase.holding = true ∨
    ((b.owner i).phase ≠ .idle ∧ ∀ y, b.Holds y →
      group (b.owner y).key = group (b.owner i).key → y = i)
  opened : o.isOpen = true → (b.put i o).Holds i ∧ o.shut = false
  keeps : ∀ x, x ≠ i → (b.owner x).isOpen = true → b.Holds x → (b.put i o).Holds x

namespace Replaces
variable {o : Owner κ} {j : Nat}
section
variable (r : Replaces group b i o)
include r
lemma key_of (busy : (b.owner j).phase ≠ .idle) : ((b.put i o).owner j).key = (b.owner j).key := by
  by_cases same : j = i
  · subst same
    simpa using r.key busy
  · rw [b.owner_put_of_ne o same]

lemma claiming_of (claims : ((b.put i o).owner j).phase.claiming = true) :
    ((b.owner j).phase.claiming = true ∧ ((b.put i o).owner j).key = (b.owner j).key) ∨
      (j = i ∧ Enters group b i o) := by
  by_cases same : j = i
  · subst same
    rcases r.claiming (by simpa using claims) with before | enters
    · exact .inl ⟨before, r.key_of (Phase.not_idle_of_claiming before)⟩
    · exact .inr ⟨rfl, enters⟩
  · rw [b.owner_put_of_ne o same] at claims ⊢
    exact .inl ⟨claims, rfl⟩

lemma exclusive_of (rules : ((b.put i o).owner j).phase.exclusive = true) :
    (b.owner j).phase.claiming = true ∧ ((b.put i o).owner j).key = (b.owner j).key ∧
      ((b.owner j).phase.exclusive = true ∨ b.closed = false) := by
  have claims : (b.owner j).phase.claiming = true ∧
      ((b.owner j).phase.exclusive = true ∨ b.closed = false) := by
    by_cases same : j = i
    · subst same
      rcases r.exclusive (by simpa using rules) with already | fresh
      · exact ⟨Phase.claiming_of_exclusive already, .inl already⟩
      · exact ⟨fresh.2, .inr fresh.1⟩
    · rw [b.owner_put_of_ne o same] at rules
      exact ⟨Phase.claiming_of_exclusive rules, .inl rules⟩
  exact ⟨claims.1, r.key_of (Phase.not_idle_of_claiming claims.1), claims.2⟩

lemma swept_of (past : ((b.put i o).owner j).phase.swept = true) :
    (b.owner j).phase.swept = true := by
  by_cases same : j = i
  · subst same
    exact r.swept (by simpa using past)
  · rwa [b.owner_put_of_ne o same] at past

lemma committed_of (settled : (b.owner j).phase = .committed) :
    ((b.put i o).owner j).phase = .committed := by
  by_cases same : j = i
  · subst same
    simpa using r.stays settled
  · rwa [b.owner_put_of_ne o same]
end
variable (r : Replaces group b i o) (h : Sound group b)
include r h
lemma retirees_of (inside : x ∈ ((b.put i o).owner j).retirees) :
    x ∈ (b.owner j).retirees ∧ ((b.put i o).owner j).phase = .cleared := by
  by_cases same : j = i
  · subst same
    simpa using r.retirees x (by simpa using inside)
  · rw [b.owner_put_of_ne o same] at inside ⊢
    exact ⟨inside, (h.retirees j x inside).1⟩

lemma holds_of (holds : (b.put i o).Holds x) : b.Holds x ∨ (x = i ∧ (b.owner i).phase ≠ .idle ∧
      ∀ y, b.Holds y → group (b.owner y).key = group (b.owner i).key → y = i) := by
  rcases holds with found | ⟨j, inside⟩ | listed | held
  · exact .inl (.inl found)
  · exact .inl (.inr (.inl ⟨j, (r.retirees_of h inside).1⟩))
  · exact .inl (.inr (.inr (.inl listed)))
  · by_cases same : x = i
    · subst same
      rcases r.holding (by simpa using held) with already | fresh
      · exact .inl (.inr (.inr (.inr already)))
      · exact .inr ⟨rfl, fresh⟩
    · rw [b.owner_put_of_ne o same] at held
      exact .inl (.inr (.inr (.inr held)))

lemma holders_of {y} (left : (b.put i o).Holds x) (right : (b.put i o).Holds y)
    (same : group ((b.put i o).owner x).key = group ((b.put i o).owner y).key) : x = y := by
  have busy : ∀ z, (b.put i o).Holds z → (b.owner z).phase ≠ .idle := by
    intro z holds
    rcases r.holds_of h holds with before | ⟨rfl, busy, -⟩
    · exact h.not_idle_of_holds before
    · exact busy
  rw [r.key_of (busy x left), r.key_of (busy y right)] at same
  rcases r.holds_of h left with before | ⟨rfl, -, fresh⟩
  · rcases r.holds_of h right with before' | ⟨rfl, -, fresh⟩
    · exact h.holders x y before before' same
    · exact fresh x before same
  · rcases r.holds_of h right with before' | ⟨rfl, -, -⟩
    · exact (fresh y before' same.symm).symm
    · rfl

lemma opened_of (isOpen : ((b.put i o).owner x).isOpen = true) :
    (b.put i o).Holds x ∧ ((b.put i o).owner x).shut = false := by
  by_cases same : x = i
  · subst same
    rw [b.owner_put_self] at isOpen ⊢
    exact r.opened isOpen
  · rw [b.owner_put_of_ne o same] at isOpen ⊢
    exact ⟨r.keeps x same isOpen (h.opened x isOpen).1, (h.opened x isOpen).2⟩
end Replaces
namespace Sound
variable (h : Sound group b)
include h
lemma replace {o} (r : Replaces group b i o) : Sound group (b.put i o) := by
  refine ⟨fun x y => r.holders_of h, fun x => r.opened_of h, h.claims, ?_, ?_, ?_, ?_, ?_, ?_, ?_,
    ?_, ?_, h.emptied⟩
  · intro working j claims
    rcases r.claiming_of claims with ⟨before, key⟩ | ⟨rfl, enters⟩
    · rw [key]
      exact h.claimant working j before
    · rw [b.owner_put_self]
      exact enters.claimed
  · intro working j j' left right same
    rcases r.claiming_of left with ⟨before, key⟩ | ⟨rfl, enters⟩
    · rcases r.claiming_of right with ⟨before', key'⟩ | ⟨rfl, enters⟩
      · rw [key, key'] at same
        exact h.claimants working j j' before before' same
      · rw [key, b.owner_put_self] at same
        exact absurd same (enters.alone working j before)
    · rcases r.claiming_of right with ⟨before', key'⟩ | ⟨rfl, -⟩
      · rw [key', b.owner_put_self] at same
        exact absurd same.symm (enters.alone working j' before')
      · rfl
  · intro j j' left right same
    obtain ⟨claims, key, since⟩ := r.exclusive_of left
    obtain ⟨claims', key', since'⟩ := r.exclusive_of right
    rw [key, key'] at same
    -- while the book works, one claim per group is all there is
    have working : b.closed = false → j = j' := fun working =>
      h.claimants working j j' claims claims' same
    rcases since with before | fresh
    · rcases since' with before' | fresh
      · exact h.exclusive j j' before before' same
      · exact working fresh
    · exact working fresh
  · intro j past k x found
    rw [(r.exclusive_of (Phase.exclusive_of_swept past)).2.1]
    exact h.swept j (r.swept_of past) k x found
  · intro j claims
    rcases r.claiming_of claims with ⟨before, key⟩ | ⟨rfl, enters⟩
    · rw [key]
      exact h.absent j before
    · rw [b.owner_put_self]
      exact enters.absent
  · intro k x found
    obtain ⟨key, settled⟩ := h.committed k x found
    exact ⟨(r.key_of (by simp [settled])).trans key, r.committed_of settled⟩
  · intro j x inside
    obtain ⟨before, clearing⟩ := r.retirees_of h inside
    obtain ⟨cleared, same, settled⟩ := h.retirees j x before
    refine ⟨clearing, ?_, r.committed_of settled⟩
    rw [r.key_of (by simp [settled]), r.key_of (by simp [cleared])]
    exact same
  · intro x listed
    exact ⟨(h.listed x listed).1, r.committed_of (h.listed x listed).2⟩
  · intro x gone
    by_cases same : x = i
    · subst same
      exact r.lost (by simpa using gone)
    · rw [b.owner_put_of_ne o same] at gone
      exact h.lost x gone

lemma advance {i : Nat} {p : Phase} (busy : (b.owner i).phase ≠ .committed)
    (claiming : p.claiming = true → (b.owner i).phase.claiming = true)
    (exclusive : p.exclusive = true → (b.owner i).phase.exclusive = true ∨
      (b.closed = false ∧ (b.owner i).phase.claiming = true))
    (swept : p.swept = true → (b.owner i).phase.swept = true)
    (lost : p = .lost → b.closed = true)
    (finished : (b.owner i).retirees = [])
    (holding : p.holding = true → (b.owner i).phase.holding = true ∨
      ((b.owner i).phase ≠ .idle ∧ ∀ y, b.Holds y →
        group (b.owner y).key = group (b.owner i).key → y = i))
    (shut : (b.owner i).isOpen = true → (b.owner i).phase.holding = true → p.holding = true) :
    Sound group (b.advance i p) := by
  refine h.replace ⟨fun _ => rfl, fun c => .inl (claiming c), exclusive, swept,
    fun c => absurd c busy, lost, ?_, holding, ?_, Book.holds_others fun _ => id⟩
  · intro x inside
    simp [finished] at inside
  · intro isOpen
    have isOpen : (b.owner i).isOpen = true := isOpen
    obtain ⟨holds, unshut⟩ := h.opened i isOpen
    exact ⟨holds.put (fun _ => id) fun _ => shut isOpen, unshut⟩

lemma retirees_nil (busy : (b.owner i).phase ≠ .cleared) : (b.owner i).retirees = [] := by
  rw [List.eq_nil_iff_forall_not_mem]
  intro x inside
  exact busy (h.retirees i x inside).1

lemma alone {y} (cleared : (b.owner i).phase = .cleared)
    (working : b.closed = false) (finished : (b.owner i).retirees = []) (holds : b.Holds y)
    (same : group (b.owner y).key = group (b.owner i).key) : y = i := by
  have rules : (b.owner i).phase.exclusive = true := by simp [cleared, Phase.exclusive]
  have past : (b.owner i).phase.swept = true := by simp [cleared, Phase.swept]
  rcases holds with ⟨k, found⟩ | ⟨j, inside⟩ | listed | held
  · have away := h.swept i past k y found
    rw [← (h.committed k y found).1] at away
    exact absurd same away
  · obtain ⟨clearing, group', -⟩ := h.retirees j y inside
    have both : j = i :=
      h.exclusive j i (by simp [clearing, Phase.exclusive]) rules (group'.symm.trans same)
    subst both
    simp [finished] at inside
  · simp [(h.listed y listed).1] at working
  · by_cases late : (b.owner y).phase = .lost
    · simp [h.lost y late] at working
    · have engaged : (b.owner y).phase.exclusive = true := by
        cases phase : (b.owner y).phase <;> simp_all [holding, Phase.exclusive]
      exact h.exclusive y i engaged rules same
end Sound
open Book (wipe)
open Phase (claiming)
namespace Sound
section
variable (h : Sound group b)
include h
lemma pass (claimed : (b.owner i).phase = .claimed) (working : b.closed = false) :
    Sound group (b.advance i .owning) := by
  apply h.advance <;> simp [claimed, working, claiming, Phase.exclusive, Phase.swept,
    holding, h.retirees_nil (i := i) (by simp [claimed])]

lemma ready (cleared : (b.owner i).phase = .cleared) (working : b.closed = false)
    (finished : (b.owner i).retirees = []) : Sound group (b.advance i .engaged) := by
  apply h.advance <;> simp [cleared, finished, claiming, Phase.exclusive, Phase.swept, holding]
  intro y holds same
  exact h.alone cleared working finished holds same

lemma abandon (lost : (b.owner i).phase = .lost) (shut : (b.owner i).shut = true) :
    Sound group (b.advance i .gone) := by
  apply h.advance <;> simp [lost, claiming, Phase.exclusive, Phase.swept, holding,
    h.retirees_nil (i := i) (by simp [lost])]
  by_contra isOpen
  simp [(h.opened i (by simpa using isOpen)).2] at shut

lemma quit (k : κ) (idle : (b.owner i).phase = .idle) :
    Sound group (b.put i ⟨k, .gone, [], false, false⟩) := by
  have finished := h.retirees_nil (i := i) (by simp [idle])
  refine h.replace ⟨?_, ?_, ?_, ?_, ?_, ?_, ?_, ?_, ?_, ?_⟩ <;>
    simp [idle, claiming, Phase.exclusive, Phase.swept, holding]
  exact Book.holds_others (by simp [finished])

lemma drop {rest} (cleared : (b.owner i).phase = .cleared)
    (fewer : ∀ x ∈ rest, x ∈ (b.owner i).retirees)
    (dropped : ∀ x ∈ (b.owner i).retirees, x ∉ rest → (b.owner x).shut = true) :
    Sound group (b.put i { b.owner i with retirees := rest }) := by
  have stays : ∀ x, (b.owner x).isOpen = true → b.Holds x →
      (b.put i { b.owner i with retirees := rest }).Holds x := by
    rintro x isOpen (found | ⟨j, inside⟩ | listed | held)
    · exact .inl found
    · refine .inr (.inl ⟨j, ?_⟩)
      by_cases same : j = i
      · subst same
        rw [b.owner_put_self]
        by_contra missing
        simpa [dropped x inside missing] using (h.opened x isOpen).2
      · rwa [b.owner_put_of_ne _ same]
    · exact .inr (.inr (.inl listed))
    · refine .inr (.inr (.inr ?_))
      by_cases same : x = i
      · subst same
        simpa using held
      · rwa [b.owner_put_of_ne _ same]
  exact h.replace ⟨fun _ => rfl, .inl, .inl, id, id, h.lost i, fun x inside =>
    ⟨fewer x inside, cleared⟩, .inl, fun isOpen =>
    ⟨stays i isOpen (h.opened i isOpen).1, (h.opened i isOpen).2⟩, fun x _ => stays x⟩

lemma grasp (engaged : (b.owner i).phase = .engaged) (unshut : (b.owner i).shut = false) :
    Sound group (b.put i { b.owner i with isOpen := true }) := by
  refine h.replace ⟨fun _ => rfl, .inl, .inl, id, id, h.lost i, fun x inside =>
    ⟨inside, (h.retirees i x inside).1⟩, .inl, fun _ => ⟨?_, unshut⟩,
    Book.holds_others fun _ => id⟩
  exact .inr (.inr (.inr (by simp [engaged, holding])))

lemma shutter (i : Nat) :
    Sound group (b.put i { b.owner i with isOpen := false, shut := true }) := by
  exact h.replace ⟨fun _ => rfl, .inl, .inl, id, id, h.lost i, fun x inside =>
    ⟨inside, (h.retirees i x inside).1⟩, .inl, by simp, Book.holds_others fun _ => id⟩

lemma yield (claiming : (b.owner i).phase.claiming = true) (finished : (b.owner i).retirees = []) :
    Sound group (b.put i { b.owner i with phase := .leaving, isOpen := false }) := by
  refine h.replace ⟨fun _ => rfl, fun _ => .inl claiming, ?_, ?_, ?_, ?_, ?_, ?_, by simp,
    Book.holds_others fun _ => id⟩
  · simp [Phase.exclusive]
  · simp [Phase.swept]
  · intro committed
    simp [committed, Phase.claiming] at claiming
  · simp
  · simp [finished]
  · simp [holding]
end
section
variable {k : κ} (h : Sound group b)
include h
lemma unclaim
    (free : b.closed = false → ∀ j, (b.owner j).phase.claiming = true → (b.owner j).key ≠ k) :
    Sound group (b.unclaim k) := by
  have stillClaimed : ∀ k', (((b.unclaim k).claims).lookup k').isSome →
      (b.claims.lookup k').isSome := by
    intro k' present
    simp only [Book.unclaim, lookup_erase] at present
    split_ifs at present
    · simp at present
    · exact present
  refine { h with claims := ?_, claimant := ?_ }
  · intro k' k'' left right same
    exact h.claims k' k'' (stillClaimed k' left) (stillClaimed k'' right) same
  · intro working j claiming
    simp only [Book.unclaim, lookup_erase]
    rw [if_neg (free working j claiming)]
    exact h.claimant working j claiming

lemma unclaim_advance {p} (claiming : (b.owner i).phase.claiming = true)
    (ended : p.claiming = false)
    (next : Sound group (b.advance i p)) :
    Sound group ((b.advance i p).unclaim (b.owner i).key) := by
  refine next.unclaim ?_
  intro working j claims sameKey
  by_cases same : j = i
  · subst same
    simp [Book.advance, ended] at claims
  · rw [Book.advance, b.owner_put_of_ne _ same] at claims sameKey
    exact same (h.claimants working j i claims claiming (by rw [sameKey]))

lemma release (leaving : (b.owner i).phase = .leaving) :
    Sound group ((b.advance i .gone).unclaim (b.owner i).key) := by
  refine h.unclaim_advance (by simp [leaving, claiming]) rfl ?_
  apply h.advance <;> simp [leaving, claiming, Phase.exclusive, Phase.swept, holding,
    h.retirees_nil (i := i) (by simp [leaving])]

lemma lose (engaged : (b.owner i).phase = .engaged)
    (late : b.closed = true ∨ b.committed.lookup (b.owner i).key ≠ none) :
    Sound group ((b.advance i .lost).unclaim (b.owner i).key) := by
  have claiming : (b.owner i).phase.claiming = true := by simp [engaged, Phase.claiming]
  have closed : b.closed = true := by
    rcases late with closed | present
    · exact closed
    · exact absurd (h.absent i claiming) present
  refine h.unclaim_advance claiming rfl ?_
  apply h.advance <;> simp [engaged, closed, Phase.claiming, Phase.exclusive, Phase.swept,
    holding, h.retirees_nil (i := i) (by simp [engaged])]

lemma enterClaim {t} (alone : ∀ other, (b.claims.lookup other).isSome → group other ≠ group k) :
    Sound group { b with claims := b.claims.insert k t } := by
  have claimed : ∀ k', ((b.claims.insert k t).lookup k').isSome →
      k' = k ∨ (b.claims.lookup k').isSome := by
    intro k' present
    rw [lookup_insert] at present
    split_ifs at present with same
    · exact .inl same
    · exact .inr present
  refine { h with claims := ?_, claimant := ?_ }
  · intro k' k'' left right same
    rcases claimed k' left with rfl | before
    · rcases claimed k'' right with rfl | before'
      · rfl
      · exact absurd same.symm (alone k'' before')
    · rcases claimed k'' right with rfl | before'
      · exact absurd same (alone k' before)
      · exact h.claims k' k'' before before' same
  · intro working j claiming
    rw [lookup_insert]
    split_ifs
    · rfl
    · exact h.claimant working j claiming

lemma claim {t} (idle : (b.owner i).phase = .idle) (absent : b.committed.lookup k = none)
    (alone : ∀ other, (b.claims.lookup other).isSome → group other ≠ group k) :
    Sound group
      { b.put i ⟨k, .claimed, [], false, false⟩ with claims := b.claims.insert k t } := by
  have entered := h.enterClaim (t := t) alone
  have finished := h.retirees_nil (i := i) (by simp [idle])
  refine entered.replace (o := ⟨k, .claimed, [], false, false⟩)
    ⟨fun busy => absurd idle busy, fun _ => .inr ⟨idle, rfl, absent, ?_, ?_⟩, ?_, ?_, ?_, ?_, ?_,
      ?_, ?_, Book.holds_others (by simp [finished])⟩
  · rw [lookup_insert, if_pos rfl]
    rfl
  · intro working j claiming
    exact alone _ (h.claimant working j claiming)
  · simp [Phase.exclusive]
  · simp [Phase.swept]
  · simp [idle]
  · simp
  · simp
  · simp [holding]
  · simp

lemma stop : Sound group { b with closed := true } :=
  ⟨h.holders, h.opened, h.claims, by simp, by simp, h.exclusive, h.swept, h.absent, h.committed,
    h.retirees, fun x listed => ⟨rfl, (h.listed x listed).2⟩, fun _ _ => rfl,
    fun cleared => ⟨rfl, (h.emptied cleared).2⟩⟩

lemma forget {lists} (fewer : ∀ x, Book.Listed lists x → Book.Listed b.lists x)
    (dropped : ∀ x, Book.Listed b.lists x → ¬ Book.Listed lists x → (b.owner x).shut = true) :
    Sound group { b with lists := lists } := by
  have held : ∀ x, Book.Holds { b with lists := lists } x → b.Holds x := by
    rintro x (found | inside | listed | holding)
    · exact .inl found
    · exact .inr (.inl inside)
    · exact .inr (.inr (.inl (fewer x listed)))
    · exact .inr (.inr (.inr holding))
  refine ⟨fun x y left right => h.holders x y (held x left) (held y right), ?_, h.claims,
    h.claimant, h.claimants, h.exclusive, h.swept, h.absent, h.committed, h.retirees,
    fun x listed => h.listed x (fewer x listed), h.lost, h.emptied⟩
  intro x isOpen
  obtain ⟨holds, unshut⟩ := h.opened x isOpen
  refine ⟨?_, unshut⟩
  rcases holds with found | inside | listed | holding
  · exact .inl found
  · exact .inr (.inl inside)
  · refine .inr (.inr (.inl ?_))
    by_contra missing
    simp [dropped x listed missing] at unshut
  · exact .inr (.inr (.inr holding))

lemma clear {lists} (closed : b.closed = true) (moved : ∀ x, Book.Listed lists x ↔
      Book.Listed b.lists x ∨ ∃ k, b.committed.lookup k = some x) : Sound group (b.wipe lists) := by
  have held : ∀ x, (b.wipe lists).Holds x ↔ b.Holds x := by
    simp only [Book.Holds, wipe, moved, AList.lookup_empty, reduceCtorEq, exists_false, false_or]
    tauto
  refine ⟨?_, ?_, ?_, ?_, ?_, h.exclusive, ?_, ?_, ?_, h.retirees, ?_, h.lost, ?_⟩
  · intro x y left right
    exact h.holders x y ((held x).mp left) ((held y).mp right)
  · intro x isOpen
    exact ⟨(held x).mpr (h.opened x isOpen).1, (h.opened x isOpen).2⟩
  · simp [wipe]
  · simp [wipe, closed]
  · simp [wipe, closed]
  · simp [wipe]
  · simp [wipe]
  · simp [wipe]
  · intro x listed
    rcases (moved x).mp listed with before | ⟨k, found⟩
    · exact h.listed x before
    · exact ⟨closed, (h.committed k x found).2⟩
  · simp [wipe, closed]

lemma remove {x} (present : b.committed.lookup k = some x) (shut : (b.owner x).shut = true) :
    Sound group { b with committed := b.committed.erase k } := by
  have held : ∀ y, Book.Holds { b with committed := b.committed.erase k } y → b.Holds y := by
    rintro y (⟨k', inside⟩ | rest)
    · exact .inl ⟨k', lookup_of_erase inside⟩
    · exact .inr rest
  refine ⟨fun y z left right => h.holders y z (held y left) (held z right), ?_, h.claims,
    h.claimant, h.claimants, h.exclusive, ?_, ?_, ?_, h.retirees, h.listed, h.lost, ?_⟩
  · intro y isOpen
    obtain ⟨holds, unshut⟩ := h.opened y isOpen
    refine ⟨?_, unshut⟩
    rcases holds with ⟨k', inside⟩ | rest
    · refine .inl ⟨k', ?_⟩
      have other : k' ≠ k := by
        rintro rfl
        rw [present] at inside
        cases inside
        simp [unshut] at shut
      rw [lookup_erase, if_neg other]
      exact inside
    · exact .inr rest
  · intro i past k' y inside
    exact h.swept i past k' y (lookup_of_erase inside)
  · intro i claiming
    rw [lookup_erase]
    split_ifs
    · rfl
    · exact h.absent i claiming
  · intro k' y inside
    exact h.committed k' y (lookup_of_erase inside)
  · intro cleared
    refine ⟨(h.emptied cleared).1, fun k' => ?_⟩
    rw [lookup_erase]
    split_ifs
    · rfl
    · exact (h.emptied cleared).2 k'
end

lemma settle_owner (j : Nat) : (b.settle i).owner j =
    if j = i then { b.owner i with phase := .committed } else b.owner j := b.owner_put i j _

lemma settle_lookup (k : κ) : (b.settle i).committed.lookup k =
    if k = (b.owner i).key then some i else b.committed.lookup k :=
  lookup_insert b.committed _ k i

section
variable (h : Sound group b)
include h
/-- What a new phase and new retirees of an uncommitted contender leave as it was. -/
lemma regroup {c : Book κ τ} {p : Phase} {l : List Nat} (record : ∀ j, c.owner j =
      if j = i then { b.owner i with phase := p, retirees := l } else b.owner j)
    (busy : (b.owner i).phase ≠ .committed) (held : ∀ x, c.Holds x ↔ b.Holds x) :
    (∀ x, (c.owner x).key = (b.owner x).key) ∧
      (∀ x, (b.owner x).phase = .committed → c.owner x = b.owner x) ∧
      (∀ x y, c.Holds x → c.Holds y → group (c.owner x).key = group (c.owner y).key → x = y) ∧
      ∀ x, (c.owner x).isOpen = true → c.Holds x ∧ (c.owner x).shut = false := by
  have same : ∀ x, (c.owner x).key = (b.owner x).key ∧
      (c.owner x).isOpen = (b.owner x).isOpen ∧ (c.owner x).shut = (b.owner x).shut := by
    intro x
    rw [record]
    split_ifs with same <;> simp [same]
  refine ⟨fun x => (same x).1, ?_, ?_, ?_⟩
  · intro x settled
    rw [record, if_neg]
    rintro rfl
    exact busy settled
  · intro x y left right
    rw [(same x).1, (same y).1]
    exact h.holders x y ((held x).mp left) ((held y).mp right)
  · intro x
    rw [(same x).2.1, held x, (same x).2.2]
    exact h.opened x

lemma settle_holds (engaged : (b.owner i).phase = .engaged) (x : Nat) :
    (b.settle i).Holds x ↔ b.Holds x := by
  have free := h.absent i (by simp [engaged, claiming])
  have ours : b.Holds i := .inr (.inr (.inr (by simp [engaged, holding])))
  have retired : ∀ j, ((b.settle i).owner j).retirees = (b.owner j).retirees := by
    intro j
    rw [settle_owner]
    split_ifs with same
    · rw [same]
    · rfl
  constructor
  · rintro (⟨k, found⟩ | ⟨j, inside⟩ | listed | held)
    · rw [settle_lookup] at found
      split_ifs at found
      · cases found
        exact ours
      · exact .inl ⟨k, found⟩
    · rw [retired] at inside
      exact .inr (.inl ⟨j, inside⟩)
    · exact .inr (.inr (.inl listed))
    · rw [settle_owner] at held
      split_ifs at held with same
      · simp [holding] at held
      · exact .inr (.inr (.inr held))
  · rintro (⟨k, found⟩ | ⟨j, inside⟩ | listed | held)
    · refine .inl ⟨k, ?_⟩
      rw [settle_lookup, if_neg]
      · exact found
      · rintro rfl
        simp [free] at found
    · exact .inr (.inl ⟨j, by rwa [retired]⟩)
    · exact .inr (.inr (.inl listed))
    · by_cases same : x = i
      · exact .inl ⟨(b.owner i).key, by rw [settle_lookup, if_pos rfl, same]⟩
      · exact .inr (.inr (.inr (by rwa [settle_owner, if_neg same])))

lemma settle (engaged : (b.owner i).phase = .engaged) (working : b.closed = false) :
    Sound group (b.settle i) := by
  have claiming : (b.owner i).phase.claiming = true := by simp [engaged, Phase.claiming]
  have rules : (b.owner i).phase.exclusive = true := by simp [engaged, Phase.exclusive]
  -- any phase but `committed` is seen of other contenders only
  have other : ∀ {j : Nat}, ((b.settle i).owner j).phase ≠ .committed →
      j ≠ i ∧ (b.settle i).owner j = b.owner j := by
    intro j unsettled
    have apart : j ≠ i := by
      rintro rfl
      simp [settle_owner] at unsettled
    exact ⟨apart, by rw [settle_owner, if_neg apart]⟩
  obtain ⟨-, unchanged, holders, opened⟩ :=
    h.regroup settle_owner (by simp [engaged]) (settle_holds h engaged)
  refine ⟨holders, opened, h.claims, ?_, ?_, ?_, ?_, ?_, ?_, ?_, ?_, ?_, ?_⟩
  · intro _ j claims
    obtain ⟨-, record⟩ := other (j := j) (by intro c; simp [c, Phase.claiming] at claims)
    rw [record] at claims ⊢
    exact h.claimant working j claims
  · intro _ j j' left right same
    obtain ⟨-, record⟩ := other (j := j) (by intro c; simp [c, Phase.claiming] at left)
    obtain ⟨-, record'⟩ := other (j := j') (by intro c; simp [c, Phase.claiming] at right)
    rw [record] at left same
    rw [record'] at right same
    exact h.claimants working j j' left right same
  · intro j j' left right same
    obtain ⟨-, record⟩ := other (j := j) (by intro c; simp [c, Phase.exclusive] at left)
    obtain ⟨-, record'⟩ := other (j := j') (by intro c; simp [c, Phase.exclusive] at right)
    rw [record] at left same
    rw [record'] at right same
    exact h.exclusive j j' left right same
  · intro j past k x found
    obtain ⟨apart, record⟩ := other (j := j) (by intro c; simp [c, Phase.swept] at past)
    rw [record] at past ⊢
    rw [settle_lookup] at found
    split_ifs at found with same
    · rw [same]
      intro shared
      exact apart (h.exclusive j i (Phase.exclusive_of_swept past) rules shared.symm)
    · exact h.swept j past k x found
  · intro j claims
    obtain ⟨apart, record⟩ := other (j := j) (by intro c; simp [c, Phase.claiming] at claims)
    rw [record] at claims ⊢
    rw [settle_lookup, if_neg]
    · exact h.absent j claims
    · intro shared
      exact apart (h.claimants working j i claims claiming (by rw [shared]))
  · intro k x found
    rw [settle_lookup] at found
    split_ifs at found with same
    · cases found
      rw [settle_owner, if_pos rfl]
      exact ⟨same.symm, rfl⟩
    · obtain ⟨keyed, settled⟩ := h.committed k x found
      rw [unchanged _ settled]
      exact ⟨keyed, settled⟩
  · intro j x inside
    by_cases same : j = i
    · rw [settle_owner, if_pos same, h.retirees_nil (i := i) (by simp [engaged])] at inside
      simp at inside
    · rw [settle_owner, if_neg same] at inside ⊢
      obtain ⟨cleared, shared, settled⟩ := h.retirees j x inside
      rw [unchanged _ settled]
      exact ⟨cleared, shared, settled⟩
  · intro x listed
    simp [(h.listed x listed).1] at working
  · intro x gone
    obtain ⟨-, record⟩ := other (j := x) (by simp [gone])
    rw [record] at gone
    exact h.lost x gone
  · intro cleared
    simp [(h.emptied cleared).1] at working

lemma commit (engaged : (b.owner i).phase = .engaged) (working : b.closed = false) :
    Sound group ((b.settle i).unclaim (b.owner i).key) := by
  refine (h.settle engaged working).unclaim ?_
  intro _ j claims shared
  rw [settle_owner] at claims shared
  split_ifs at claims shared with same
  · simp [claiming] at claims
  · exact same (h.claimants working j i claims (by simp [engaged, claiming]) (by rw [shared]))
end
section
variable [DecidableEq δ]
lemma sweep_owner (j : Nat) : (b.sweep group i).owner j =
    if j = i then { b.owner i with
      phase := .cleared,
      retirees := valuesAt b.committed (b.rivals group (b.owner i).key) } else b.owner j :=
  b.owner_put i j _

lemma sweep_lookup {k x} :
    (b.sweep group i).committed.lookup k = some x ↔
      b.committed.lookup k = some x ∧ k ∉ b.rivals group (b.owner i).key := by
  rw [show (b.sweep group i).committed.lookup k = _ from lookup_eraseAll b.committed _ k]
  split_ifs with inside <;> simp [inside]

lemma sweep_holds (h : Sound group b) (owning : (b.owner i).phase = .owning) (x : Nat) :
    (b.sweep group i).Holds x ↔ b.Holds x := by
  have held : ((b.sweep group i).owner x).phase.holding = (b.owner x).phase.holding := by
    rw [sweep_owner]
    split_ifs with same
    · simp [same, owning, Phase.holding]
    · rfl
  constructor
  · rintro (⟨k, found⟩ | ⟨j, inside⟩ | listed | holding)
    · exact .inl ⟨k, (sweep_lookup.mp found).1⟩
    · rw [sweep_owner] at inside
      split_ifs at inside with same
      · obtain ⟨k, -, found⟩ := mem_valuesAt.mp inside
        exact .inl ⟨k, found⟩
      · exact .inr (.inl ⟨j, inside⟩)
    · exact .inr (.inr (.inl listed))
    · exact .inr (.inr (.inr (by rwa [held] at holding)))
  · rintro (⟨k, found⟩ | ⟨j, inside⟩ | listed | holding)
    · by_cases rival : k ∈ b.rivals group (b.owner i).key
      · refine .inr (.inl ⟨i, ?_⟩)
        rw [sweep_owner, if_pos rfl]
        exact mem_valuesAt.mpr ⟨k, rival, found⟩
      · exact .inl ⟨k, sweep_lookup.mpr ⟨found, rival⟩⟩
    · refine .inr (.inl ⟨j, ?_⟩)
      rw [sweep_owner, if_neg]
      · exact inside
      · rintro rfl
        simp [(h.retirees j x inside).1] at owning
    · exact .inr (.inr (.inl listed))
    · exact .inr (.inr (.inr (by rwa [held])))

lemma sweep (h : Sound group b) (owning : (b.owner i).phase = .owning) :
    Sound group (b.sweep group i) := by
  have claiming : ∀ j, ((b.sweep group i).owner j).phase.claiming = (b.owner j).phase.claiming := by
    intro j
    rw [sweep_owner]
    split_ifs with same
    · simp [same, owning, Phase.claiming]
    · rfl
  have exclusive : ∀ j, ((b.sweep group i).owner j).phase.exclusive =
      (b.owner j).phase.exclusive := by
    intro j
    rw [sweep_owner]
    split_ifs with same
    · simp [same, owning, Phase.exclusive]
    · rfl
  obtain ⟨key, unchanged, holders, opened⟩ :=
    h.regroup sweep_owner (by simp [owning]) (sweep_holds h owning)
  refine ⟨holders, opened, h.claims, ?_, ?_, ?_, ?_, ?_, ?_, ?_, ?_, ?_, ?_⟩
  · intro working j claims
    rw [claiming] at claims
    rw [key]
    exact h.claimant working j claims
  · intro working j j' left right same
    rw [claiming] at left right
    rw [key, key] at same
    exact h.claimants working j j' left right same
  · intro j j' left right same
    rw [exclusive] at left right
    rw [key, key] at same
    exact h.exclusive j j' left right same
  · intro j past k x found
    obtain ⟨before, spared⟩ := sweep_lookup.mp found
    rw [key]
    by_cases same : j = i
    · subst same
      -- whoever shares the group was a rival, or stood under the key of the claim itself
      intro shared
      have ours : k ≠ (b.owner j).key := by
        rintro rfl
        simp [h.absent j (by simp [owning, Phase.claiming])] at before
      exact spared (Book.mem_rivals.mpr ⟨⟨x, before⟩, shared, ours⟩)
    · rw [sweep_owner, if_neg same] at past
      exact h.swept j past k x before
  · intro j claims
    rw [claiming] at claims
    rw [key, eq_none_iff_forall_not_mem]
    intro x found
    have before := (sweep_lookup.mp found).1
    simp [h.absent j claims] at before
  · intro k x found
    obtain ⟨keyed, settled⟩ := h.committed k x (sweep_lookup.mp found).1
    rw [unchanged _ settled]
    exact ⟨keyed, settled⟩
  · intro j x inside
    rw [sweep_owner] at inside
    split_ifs at inside with same
    · obtain ⟨k, rival, found⟩ := mem_valuesAt.mp inside
      obtain ⟨keyed, settled⟩ := h.committed k x found
      refine ⟨by rw [sweep_owner, if_pos same], ?_, by rw [unchanged _ settled, settled]⟩
      rw [key, key, keyed, same]
      exact (Book.mem_rivals.mp rival).2.1
    · obtain ⟨cleared, shared, settled⟩ := h.retirees j x inside
      rw [key, key, unchanged _ settled, sweep_owner, if_neg same]
      exact ⟨cleared, shared, settled⟩
  · intro x listed
    obtain ⟨closed, settled⟩ := h.listed x listed
    rw [unchanged _ settled]
    exact ⟨closed, settled⟩
  · intro x gone
    rw [sweep_owner] at gone
    split_ifs at gone
    exact h.lost x gone
  · intro cleared
    obtain ⟨closed, empty⟩ := h.emptied cleared
    refine ⟨closed, fun k => ?_⟩
    rw [eq_none_iff_forall_not_mem]
    intro x found
    have before := (sweep_lookup.mp found).1
    simp [empty k] at before
end

lemma move {cap c} [DecidableEq δ] (h : Sound group b) (moved : Move group cap b c) :
    Sound group c := by
  cases moved with
  | claim i k t idle absent alone room => exact h.claim idle absent alone
  | quit i k idle => exact h.quit k idle
  | pass i claimed working => exact h.pass claimed working
  | retire i owning => exact h.sweep owning
  | drop i rest cleared fewer dropped => exact h.drop cleared fewer dropped
  | ready i cleared working finished => exact h.ready cleared working finished
  | grasp i engaged unshut => exact h.grasp engaged unshut
  | shutter i => exact h.shutter i
  | yield i claiming finished => exact h.yield claiming finished
  | release i leaving => exact h.release leaving
  | commit i engaged working absent => exact h.commit engaged working
  | lose i engaged late => exact h.lose engaged late
  | abandon i lost shut => exact h.abandon lost shut
  | remove k x present shut => exact h.remove present shut
  | stop => exact h.stop
  | clear closed lists moved => exact h.clear closed moved
  | forget lists fewer dropped => exact h.forget fewer dropped
end Sound

def Book.blank (k : κ) : Book κ τ := ⟨false, false, ∅, ∅, fun _ => ⟨k, .idle, [], false, false⟩, []⟩

lemma Sound.blank (group : κ → δ) (k : κ) : Sound group (Book.blank k : Book κ τ) := by
  have unheld : ∀ x, ¬ (Book.blank k : Book κ τ).Holds x := by
    rintro x (⟨k', found⟩ | ⟨i, inside⟩ | ⟨l, inside, -⟩ | held)
    · simp [Book.blank] at found
    · simp [Book.blank] at inside
    · simp [Book.blank] at inside
    · simp [Book.blank, holding] at held
  refine ⟨fun x _ holds => absurd holds (unheld x), ?_, ?_, ?_, ?_, ?_, ?_, ?_, ?_, ?_, ?_, ?_, ?_⟩
    <;> simp [Book.blank, Book.Listed, claiming, Phase.exclusive, Phase.swept]

lemma size_le_of_move [DecidableEq δ] {group : κ → δ} {cap : Nat} {b c : Book κ τ}
    (h : Sound group b) (bounded : size b.committed + size b.claims ≤ cap)
    (moved : Move group cap b c) : size c.committed + size c.claims ≤ cap := by
  cases moved with
  | claim i k t idle absent alone room =>
    have fresh : b.claims.lookup k = none := by
      rw [eq_none_iff_forall_not_mem]
      intro other found
      exact alone k (by simp [mem_def.mp found]) rfl
    show size b.committed + size (b.claims.insert k t) ≤ cap
    rw [size_insert_of_lookup t fresh]
    omega
  | retire i owning =>
    have fewer := size_eraseAll_le b.committed (b.rivals group (b.owner i).key)
    show size (eraseAll b.committed _) + size b.claims ≤ cap
    omega
  | release i leaving | lose i engaged late =>
    have fewer := size_erase_le b.claims (b.owner i).key
    show size b.committed + size (b.claims.erase _) ≤ cap
    omega
  | commit i engaged working absent =>
    obtain ⟨t, present⟩ := isSome_iff_exists.mp (h.claimant working i (by simp [engaged, claiming]))
    have fewer := size_erase_of_lookup present
    show size (b.committed.insert _ i) + size (b.claims.erase _) ≤ cap
    rw [size_insert_of_lookup i absent]
    omega
  | remove k x present shut =>
    have fewer := size_erase_le b.committed k
    show size (b.committed.erase k) + size b.claims ≤ cap
    omega
  | clear closed lists moved => exact Nat.zero_le cap
  | _ => exact bounded
end Tamizdat.Machine.Takeover
