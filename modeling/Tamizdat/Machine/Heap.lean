/- layer: library
   digest: The binary heap of Go's container/heap over an array, ordered by a key. -/

import Mathlib.Tactic

set_option autoImplicit false
universe u v

open List Option
namespace Tamizdat.Machine.Heap
variable {α : Type u} {β : Type v} [LinearOrder β] (key : α → β)
def parent (j : Nat) : Nat := (j - 1) / 2

def lessAt (a : Array α) (i j : Nat) : Bool :=
  match a[i]?, a[j]? with
  | some x, some y => decide (key x < key y)
  | _, _ => false

def up (a : Array α) (j : Nat) : Array α :=
  if parent j = j ∨ lessAt key a j (parent j) = false then a
  else up (a.swapIfInBounds (parent j) j) (parent j)
termination_by j
decreasing_by
  rename_i goes
  have moves : parent j ≠ j := fun stays => goes (.inl stays)
  unfold parent at moves ⊢
  omega

def smallerChild (a : Array α) (i n : Nat) : Nat :=
  if 2 * i + 2 < n ∧ lessAt key a (2 * i + 2) (2 * i + 1) = true then 2 * i + 2 else 2 * i + 1

def down (a : Array α) (i n : Nat) : Array α :=
  if n ≤ 2 * i + 1 ∨ lessAt key a (smallerChild key a i n) i = false then a
  else down (a.swapIfInBounds i (smallerChild key a i n)) (smallerChild key a i n) n
termination_by n - i
decreasing_by
  rename_i goes
  rw [not_or] at goes
  unfold smallerChild
  split_ifs <;> omega

def push (a : Array α) (x : α) : Array α := up key (a.push x) a.size

def pop (a : Array α) : Option (α × Array α) :=
  let b := down key (a.swapIfInBounds 0 (a.size - 1)) 0 (a.size - 1)
  b.back?.map fun x => (x, b.pop)

/-! ### The order of two positions -/

variable {key} {j : Nat}
lemma parent_lt (positive : 0 < j) : parent j < j := by
  unfold parent
  omega

/-- The element at `i` is at most the one at `j`. Nothing is said of a position outside. -/
def LeAt (key : α → β) (a : Array α) (i j : Nat) : Prop :=
  ∀ x y, a[i]? = some x → a[j]? = some y → key x ≤ key y

lemma LeAt.refl (a : Array α) (i : Nat) : LeAt key a i i := by
  intro x y hereX hereY
  rw [hereX, some.injEq] at hereY
  rw [hereY]

variable {a : Array α} {i : Nat}
lemma LeAt.trans {k} (inside : j < a.size) (left : LeAt key a i j) (right : LeAt key a j k) :
    LeAt key a i k := by
  intro x z hereX hereZ
  have hereY := Array.getElem?_eq_getElem inside
  exact (left x _ hereX hereY).trans (right _ z hereY hereZ)

lemma leAt_of_lessAt (less : lessAt key a i j = true) : LeAt key a i j := by
  intro x y hereX hereY
  simp only [lessAt, hereX, hereY, decide_eq_true_eq] at less
  exact less.le

lemma leAt_of_not_lessAt (less : lessAt key a i j = false) : LeAt key a j i := by
  intro x y hereX hereY
  simp only [lessAt, hereX, hereY, decide_eq_false_iff_not, not_lt] at less
  exact less

lemma getElem?_swap (hi : i < a.size) (hj : j < a.size) (k : Nat) :
    (a.swapIfInBounds i j)[k]? = a[Equiv.swap i j k]? := by
  rw [Array.swapIfInBounds_def, dif_pos hi, dif_pos hj, Array.getElem?_swap, Equiv.swap_apply_def]
  by_cases atI : k = i
  · subst atI
    by_cases atJ : j = k
    · subst atJ
      simp [hj]
    · simp [atJ, hj]
  · by_cases atJ : k = j
    · subst atJ
      simp [atI, hi]
    · simp [atI, atJ, Ne.symm atI, Ne.symm atJ]

lemma leAt_swap (hi : i < a.size) (hj : j < a.size) (p q : Nat) :
    LeAt key (a.swapIfInBounds i j) p q ↔ LeAt key a (Equiv.swap i j p) (Equiv.swap i j q) := by
  simp only [LeAt, getElem?_swap hi hj]

lemma perm_swap (a : Array α) (i j : Nat) : (a.swapIfInBounds i j).toList.Perm a.toList := by
  rw [Array.swapIfInBounds_def]
  split_ifs with hi hj
  · exact (Array.swap_perm hi hj).toList
  · exact List.Perm.refl _
  · exact List.Perm.refl _

def IsHeap (key : α → β) (a : Array α) (n : Nat) : Prop :=
  ∀ k, 0 < k → k < n → LeAt key a (parent k) k

variable {n : Nat}
lemma IsHeap.root_le (heap : IsHeap key a n) (fits : n ≤ a.size) (k : Nat) (inside : k < n) :
    LeAt key a 0 k := by
  induction k using Nat.strong_induction_on with
  | _ k ih =>
    rcases Nat.eq_zero_or_pos k with zero | positive
    · rw [zero]
      exact LeAt.refl a 0
    · have closer := parent_lt positive
      exact (ih (parent k) closer (closer.trans inside)).trans (by omega) (heap k positive inside)

/-! ### `up` -/

structure UpHeap (key : α → β) (a : Array α) (j : Nat) : Prop where
  order : ∀ k, 0 < k → k < a.size → k ≠ j → LeAt key a (parent k) k
  around : ∀ k, 0 < j → 0 < k → k < a.size → parent k = j → LeAt key a (parent j) k

open Equiv (swap_apply_of_ne_of_ne)
lemma UpHeap.swap (heap : UpHeap key a j) (inside : j < a.size) (moves : parent j ≠ j)
    (less : lessAt key a j (parent j) = true) :
    UpHeap key (a.swapIfInBounds (parent j) j) (parent j) := by
  have positive : 0 < j := by
    rcases Nat.eq_zero_or_pos j with zero | positive
    · exact absurd (by rw [zero]; rfl) moves
    · exact positive
  have above := parent_lt positive
  have up := leAt_of_lessAt less
  constructor
  · intro k posK inK apart
    rw [Array.size_swapIfInBounds] at inK
    rw [leAt_swap (by omega) inside]
    by_cases isJ : k = j
    · rw [isJ, Equiv.swap_apply_left, Equiv.swap_apply_right]
      exact up
    · rw [swap_apply_of_ne_of_ne apart isJ]
      by_cases atParent : parent k = parent j
      · rw [atParent, Equiv.swap_apply_left]
        exact up.trans (by omega) (atParent ▸ heap.order k posK inK isJ)
      · by_cases below : parent k = j
        · rw [below, Equiv.swap_apply_right]
          exact heap.around k positive posK inK below
        · rw [swap_apply_of_ne_of_ne atParent below]
          exact heap.order k posK inK isJ
  · intro k posP posK inK child
    rw [Array.size_swapIfInBounds] at inK
    have higher := parent_lt posP
    rw [leAt_swap (by omega) inside,
      swap_apply_of_ne_of_ne (by omega : parent (parent j) ≠ parent j) (by omega)]
    have grand := heap.order (parent j) posP (by omega) (by omega)
    by_cases isJ : k = j
    · rw [isJ, Equiv.swap_apply_right]
      exact grand
    · have lower : k ≠ parent j := by
        rintro rfl
        omega
      rw [swap_apply_of_ne_of_ne lower isJ]
      exact grand.trans (by omega) (child ▸ heap.order k posK inK isJ)

lemma UpHeap.stop (heap : UpHeap key a j)
    (done : parent j = j ∨ lessAt key a j (parent j) = false) : IsHeap key a a.size := by
  intro k posK inK
  by_cases isJ : k = j
  · subst isJ
    rcases done with root | notLess
    · have := parent_lt posK
      omega
    · exact leAt_of_not_lessAt notLess
  · exact heap.order k posK inK isJ

lemma up_spec (inside : j < a.size) (heap : UpHeap key a j) :
    IsHeap key (up key a j) (up key a j).size ∧ (up key a j).toList.Perm a.toList := by
  induction a, j using up.induct key with
  | case1 a j done =>
    rw [up, if_pos done]
    exact ⟨heap.stop done, List.Perm.refl _⟩
  | case2 a j goes ih =>
    rw [up, if_neg goes]
    rw [not_or, Bool.not_eq_false] at goes
    have closer : parent j < a.size := by
      unfold parent
      omega
    obtain ⟨ordered, same⟩ := ih (by simpa using closer) (heap.swap inside goes.1 goes.2)
    exact ⟨ordered, same.trans (perm_swap a _ _)⟩

lemma isHeap_push (x : α) (heap : IsHeap key a a.size) :
    IsHeap key (push key a x) (push key a x).size ∧ (push key a x).toList.Perm (x :: a.toList) := by
  have start : UpHeap key (a.push x) a.size := by
    constructor
    · intro k posK inK apart y z hereY hereZ
      rw [Array.size_push] at inK
      have closer := parent_lt posK
      rw [Array.getElem?_push, if_neg (by omega)] at hereY
      rw [Array.getElem?_push, if_neg apart] at hereZ
      exact heap k posK (by omega) y z hereY hereZ
    · intro k _ posK inK child
      have closer := parent_lt posK
      rw [Array.size_push] at inK
      omega
  obtain ⟨ordered, same⟩ := up_spec (by simp) start
  refine ⟨ordered, same.trans ?_⟩
  rw [Array.toList_push]
  exact perm_append_singleton x a.toList

/-! ### `down` -/

/-- The heap order among the first `n`, except between `i` and its children. -/
structure DownHeap (key : α → β) (a : Array α) (i n : Nat) : Prop where
  order : ∀ k, 0 < k → k < n → parent k ≠ i → LeAt key a (parent k) k
  around : ∀ k, 0 < i → 0 < k → k < n → parent k = i → LeAt key a (parent i) k

lemma child_cases {k} (positive : 0 < k) (child : parent k = i) :
    k = 2 * i + 1 ∨ k = 2 * i + 2 := by
  unfold parent at child
  omega

lemma smallerChild_spec (key : α → β) (inside : 2 * i + 1 < n) :
    smallerChild key a i n < n ∧ parent (smallerChild key a i n) = i ∧ i < smallerChild key a i n ∧
      ∀ k, 0 < k → k < n → parent k = i → LeAt key a (smallerChild key a i n) k := by
  unfold smallerChild
  split_ifs with right
  · refine ⟨right.1, by unfold parent; omega, by omega, ?_⟩
    intro k posK inK child
    rcases child_cases posK child with rfl | rfl
    · exact leAt_of_lessAt right.2
    · exact LeAt.refl a _
  · refine ⟨inside, by unfold parent; omega, by omega, ?_⟩
    intro k posK inK child
    rcases child_cases posK child with rfl | rfl
    · exact LeAt.refl a _
    · refine leAt_of_not_lessAt ?_
      simpa [inK] using right

lemma DownHeap.swap {c} (heap : DownHeap key a i n) (fits : n ≤ a.size) (inside : c < n)
    (child : parent c = i) (below : i < c)
    (least : ∀ k, 0 < k → k < n → parent k = i → LeAt key a c k) (less : lessAt key a c i = true) :
    DownHeap key (a.swapIfInBounds i c) c n := by
  have down := leAt_of_lessAt less
  constructor
  · intro k posK inK apart
    have closer := parent_lt posK
    rw [leAt_swap (by omega) (by omega)]
    by_cases isC : k = c
    · rw [isC, child, Equiv.swap_apply_left, Equiv.swap_apply_right]
      exact down
    · by_cases isI : k = i
      · subst isI
        rw [Equiv.swap_apply_left, swap_apply_of_ne_of_ne (by omega) (by omega)]
        exact heap.around c posK (by omega) inside child
      · rw [swap_apply_of_ne_of_ne isI isC]
        by_cases atI : parent k = i
        · rw [atI, Equiv.swap_apply_left]
          exact least k posK inK atI
        · rw [swap_apply_of_ne_of_ne atI apart]
          exact heap.order k posK inK atI
  · intro k posC posK inK under
    have closer := parent_lt posK
    rw [leAt_swap (by omega) (by omega), child, Equiv.swap_apply_left,
      swap_apply_of_ne_of_ne (by omega) (by omega)]
    have next := heap.order k posK inK (by omega)
    rwa [under] at next

lemma DownHeap.stop (heap : DownHeap key a i n) (fits : n ≤ a.size)
    (done : n ≤ 2 * i + 1 ∨ lessAt key a (smallerChild key a i n) i = false) :
    IsHeap key a n := by
  intro k posK inK
  by_cases child : parent k = i
  · rcases done with leaf | notLess
    · rcases child_cases posK child with rfl | rfl <;> omega
    · have inside : 2 * i + 1 < n := by
        rcases child_cases posK child with rfl | rfl <;> omega
      obtain ⟨inC, -, -, least⟩ := smallerChild_spec key inside
      rw [child]
      exact (leAt_of_not_lessAt notLess).trans (by omega) (least k posK inK child)
  · exact heap.order k posK inK child

lemma down_spec (fits : n ≤ a.size) (heap : DownHeap key a i n) :
    IsHeap key (down key a i n) n ∧ (down key a i n).toList.Perm a.toList ∧
      ∀ k, n ≤ k → (down key a i n)[k]? = a[k]? := by
  induction a, i using down.induct key n with
  | case1 a i done =>
    rw [down, if_pos done]
    exact ⟨heap.stop fits done, List.Perm.refl _, fun _ _ => rfl⟩
  | case2 a i goes ih =>
    rw [down, if_neg goes]
    rw [not_or, Bool.not_eq_false, not_le] at goes
    obtain ⟨inside, child, below, least⟩ := smallerChild_spec key goes.1
    obtain ⟨ordered, same, beyond⟩ := ih (by simpa using fits)
      (heap.swap fits inside child below least goes.2)
    refine ⟨ordered, same.trans (perm_swap a _ _), ?_⟩
    intro k past
    rw [beyond k past, getElem?_swap (by omega) (by omega),
      swap_apply_of_ne_of_ne (by omega) (by omega)]

lemma downHeap_swap_root (heap : IsHeap key a a.size) (last : n + 1 = a.size) :
    DownHeap key (a.swapIfInBounds 0 n) 0 n where
  order k posK inK apart := by
    have closer := parent_lt posK
    rw [leAt_swap (by omega) (by omega), swap_apply_of_ne_of_ne (by omega) (by omega),
      swap_apply_of_ne_of_ne (by omega) (by omega)]
    exact heap k posK (by omega)
  around k impossible := absurd impossible (lt_irrefl 0)

lemma toList_of_back? {b : Array α} {x : α} (back : b.back? = some x) :
    b.toList = b.pop.toList ++ [x] := by
  rw [Array.toList_pop]
  have last : b.toList.getLast? = some x := by rw [← back, Array.getLast?_toList]
  obtain ⟨front, split⟩ := getLast?_eq_some_iff.mp last
  rw [split, dropLast_concat]

lemma isHeap_pop {b} (heap : IsHeap key b n) (last : n + 1 = b.size) :
    IsHeap key b.pop b.pop.size := by
  intro k posK inK y z hereY hereZ
  have closer := parent_lt posK
  rw [Array.size_pop] at inK
  rw [Array.getElem?_pop, if_pos (by omega)] at hereY hereZ
  exact heap k posK (by omega) y z hereY hereZ

lemma pop_spec (heap : IsHeap key a a.size) (some_ : 0 < a.size) :
    ∃ x rest, pop key a = some (x, rest) ∧ a[0]? = some x ∧ a.toList.Perm (x :: rest.toList) ∧
      IsHeap key rest rest.size ∧ ∀ y ∈ a, key x ≤ key y := by
  obtain ⟨n, last⟩ : ∃ n, n + 1 = a.size := ⟨a.size - 1, by omega⟩
  have index : a.size - 1 = n := by omega
  obtain ⟨ordered, same, beyond⟩ := down_spec (by simp; omega) (downHeap_swap_root heap last)
  generalize result : down key (a.swapIfInBounds 0 n) 0 n = b at ordered same beyond
  have whole : b.toList.Perm a.toList := same.trans (perm_swap a 0 n)
  have size : n + 1 = b.size := by
    rw [last, ← Array.length_toList, ← Array.length_toList, whole.length_eq]
  have root := Array.getElem?_eq_getElem some_
  have back : b.back? = some a[0] := by
    rw [Array.back?_eq_getElem?, ← size, Nat.add_sub_cancel, beyond n le_rfl,
      getElem?_swap (by omega) (by omega), Equiv.swap_apply_right, root]
  refine ⟨a[0], b.pop, ?_, root, ?_, isHeap_pop ordered size, ?_⟩
  · simp only [pop, index, result, back, map_some]
  · refine whole.symm.trans ?_
    rw [toList_of_back? back]
    exact perm_append_singleton _ _
  · intro y member
    obtain ⟨k, inK, rfl⟩ := Array.mem_iff_getElem.mp member
    exact heap.root_le le_rfl k inK _ _ root (Array.getElem?_eq_getElem inK)

/-! ### Heaps as values -/

structure MinHeap (key : α → β) where
  entries : Array α
  ordered : IsHeap key entries entries.size

namespace MinHeap
def empty : MinHeap key where
  entries := #[]
  ordered _ _ inside := absurd inside (Nat.not_lt_zero _)

instance : Membership α (MinHeap key) := ⟨fun h x => x ∈ h.entries⟩

def push (h : MinHeap key) (x : α) : MinHeap key where
  entries := Heap.push key h.entries x
  ordered := (isHeap_push x h.ordered).1

variable {h : MinHeap key} {x : α}
lemma pop_ordered {rest} (popped : Heap.pop key h.entries = some (x, rest)) :
    IsHeap key rest rest.size ∧ h.entries.toList.Perm (x :: rest.toList) ∧
      ∀ y ∈ h.entries, key x ≤ key y := by
  have some_ : 0 < h.entries.size := by
    by_contra empty_
    have none_ : h.entries = #[] := Array.eq_empty_of_size_eq_zero (by omega)
    rw [none_] at popped
    simp [Heap.pop, down, Array.swapIfInBounds] at popped
  obtain ⟨y, others, found, -, same, ordered, least⟩ := pop_spec h.ordered some_
  obtain ⟨rfl, rfl⟩ := Prod.mk.inj (some.inj (found.symm.trans popped))
  exact ⟨ordered, same, least⟩

def pop (h : MinHeap key) : Option (α × MinHeap key) :=
  match popped : Heap.pop key h.entries with
  | none => none
  | some (x, rest) => some (x, ⟨rest, (pop_ordered popped).1⟩)

def front? (h : MinHeap key) : Option α := h.entries[0]?

@[simp] lemma not_mem_empty (x : α) : x ∉ (empty : MinHeap key) := Array.not_mem_empty x

lemma mem_push {y} : y ∈ h.push x ↔ y = x ∨ y ∈ h := by
  have same := (isHeap_push x h.ordered).2.mem_iff (a := y)
  rw [mem_cons, Array.mem_toList_iff, Array.mem_toList_iff] at same
  exact same

lemma pop_some {rest} (popped : h.pop = some (x, rest)) :
    (∀ y, y ∈ h ↔ y = x ∨ y ∈ rest) ∧ (∀ y, y ∈ h → key x ≤ key y) ∧
      rest.entries.size + 1 = h.entries.size := by
  unfold pop at popped
  split at popped
  · cases popped
  · rename_i z others found
    obtain ⟨rfl, rfl⟩ := Prod.mk.inj (some.inj popped)
    obtain ⟨-, same, least⟩ := pop_ordered found
    refine ⟨?_, least, ?_⟩
    · intro y
      have members := same.mem_iff (a := y)
      rw [mem_cons, Array.mem_toList_iff, Array.mem_toList_iff] at members
      exact members
    · simpa using same.length_eq.symm

lemma front?_of_pop {rest} (popped : h.pop = some (x, rest)) : h.front? = some x := by
  unfold pop at popped
  split at popped
  · cases popped
  · rename_i z others found
    obtain ⟨rfl, -⟩ := Prod.mk.inj (some.inj popped)
    have some_ : 0 < h.entries.size := by
      have length := (pop_ordered found).2.1.length_eq
      simp at length
      omega
    obtain ⟨y, others', found', root, -⟩ := pop_spec h.ordered some_
    obtain ⟨rfl, -⟩ := Prod.mk.inj (some.inj (found'.symm.trans found))
    exact root

lemma pop_none (empty_ : h.pop = none) (x : α) : x ∉ h := by
  unfold pop at empty_
  split at empty_
  · rename_i nothing
    intro member
    have some_ : 0 < h.entries.size := by
      obtain ⟨i, inside, -⟩ := Array.mem_iff_getElem.mp member
      omega
    obtain ⟨y, rest, found, -⟩ := pop_spec h.ordered some_
    rw [nothing] at found
    cases found
  · cases empty_

def popWhile (stale : α → Bool) (h : MinHeap key) : MinHeap key :=
  match h.front? with
  | none => h
  | some front =>
    if stale front then
      match _ : h.pop with
      | none => h
      | some (_, rest) => popWhile stale rest
    else h
termination_by h.entries.size
decreasing_by
  have smaller := (pop_some ‹h.pop = _›).2.2
  omega

lemma mem_popWhile {stale} (older : ∀ x y, key x ≤ key y → stale y = true → stale x = true)
    (h : MinHeap key) (y : α) : y ∈ h.popWhile stale ↔ y ∈ h ∧ stale y = false := by
  induction size : h.entries.size using Nat.strong_induction_on generalizing h with
  | _ n ih =>
    rw [popWhile]
    cases popped : h.pop with
    | none =>
      have nobody := pop_none popped y
      split
      · exact iff_of_false nobody fun member => nobody member.1
      · split_ifs
        · split
          · exact iff_of_false nobody fun member => nobody member.1
          · rename_i impossible
            cases impossible
        · exact iff_of_false nobody fun member => nobody member.1
    | some pair =>
      obtain ⟨x, rest⟩ := pair
      obtain ⟨members, least, smaller⟩ := pop_some popped
      rw [front?_of_pop popped]
      dsimp only
      split_ifs with isStale
      · rw [ih rest.entries.size (by omega) rest rfl, members y]
        constructor
        · exact fun member => ⟨.inr member.1, member.2⟩
        · rintro ⟨rfl | member, fresh⟩
          · rw [isStale] at fresh
            cases fresh
          · exact ⟨member, fresh⟩
      · refine ⟨fun member => ⟨member, ?_⟩, And.left⟩
        by_contra old
        exact isStale (older x y (least y member) (by simpa using old))
end MinHeap
end Tamizdat.Machine.Heap
