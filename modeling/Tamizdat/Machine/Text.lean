/- layer: library
   digest: Texts as lists of characters, and Internet addresses with their prefixes. -/

import Mathlib.Tactic

set_option autoImplicit false

open List
namespace Tamizdat.Machine
namespace Text

/-- `unicode.IsSpace`. -/
def isSpace (c : Char) : Bool :=
  c.toNat ∈ [0x09, 0x0a, 0x0b, 0x0c, 0x0d, 0x20, 0x85, 0xa0, 0x1680, 0x2028, 0x2029, 0x202f,
    0x205f, 0x3000] || (0x2000 ≤ c.toNat && c.toNat ≤ 0x200a)

variable {α : Type*} (blank : α → Bool)
def trimLeft (s : List α) : List α := s.dropWhile blank

def trimRight (s : List α) : List α :=
  s.foldr (fun c rest => if rest.isEmpty && blank c then [] else c :: rest) []

def trim (s : List α) : List α := trimRight blank (trimLeft blank s)

def cut [DecidableEq α] (sep : α) : List α → Option (List α × List α)
  | [] => none
  | c :: s => if c = sep then some ([], s) else (cut sep s).map fun parts => (c :: parts.1, parts.2)

def trimSuffix [DecidableEq α] (ending s : List α) : List α :=
  if ending <:+ s then s.take (s.length - ending.length) else s

variable {blank}
lemma trimRight_cons (c : α) (s : List α) : trimRight blank (c :: s) =
      if (trimRight blank s).isEmpty && blank c then [] else c :: trimRight blank s := rfl

lemma trim_solid {s : List α} (solid : s.any blank = false) : trim blank s = s := by
  have left : trimLeft blank s = s := by
    cases s <;> simp_all [trimLeft]
  rw [trim, left]
  clear left
  induction s with
  | nil => rfl
  | cons c s ih =>
    rw [any_cons, Bool.or_eq_false_iff] at solid
    rw [trimRight_cons, ih solid.2, solid.1, Bool.and_false, if_neg Bool.false_ne_true]

lemma trimLeft_trimRight (s : List α) :
    trimLeft blank (trimRight blank s) = trimRight blank (trimLeft blank s) := by
  induction s with
  | nil => rfl
  | cons c s ih =>
    rw [trimLeft] at ih ⊢
    cases space : blank c with
    | false =>
      rw [trimRight_cons, space, Bool.and_false, if_neg Bool.false_ne_true, trimLeft,
        dropWhile_cons_of_neg (by simp [space]),
        dropWhile_cons_of_neg (by simp [space]), trimRight_cons, space, Bool.and_false,
        if_neg Bool.false_ne_true]
    | true =>
      have left : trimLeft blank (c :: s) = trimLeft blank s := dropWhile_cons_of_pos space
      rw [left, ← ih, trimRight_cons, space, Bool.and_true]
      split_ifs with empty
      · rw [List.isEmpty_iff.mp empty]
      · exact dropWhile_cons_of_pos space

variable [DecidableEq α] {sep : α}
lemma splitOn_cons (c : α) (s : List α) :
    (c :: s).splitOn sep =
      if c = sep then [] :: s.splitOn sep else (s.splitOn sep).modifyHead (List.cons c) := by
  rw [List.splitOn, splitOnP_cons_eq_if_modifyHead, List.splitOn]
  simp only [beq_iff_eq]

lemma splitOn_eq_cons (sep : α) (s : List α) : ∃ first rest, s.splitOn sep = first :: rest :=
  exists_cons_of_ne_nil (splitOnP_ne_nil _ s)

lemma map_trimLeft_splitOn (solid : blank sep = false) (s : List α) :
    ((trimLeft blank s).splitOn sep).map (trimLeft blank) =
      (s.splitOn sep).map (trimLeft blank) := by
  induction s with
  | nil => rfl
  | cons c s ih =>
    cases space : blank c with
    | false => rw [trimLeft, dropWhile_cons_of_neg (by simp [space])]
    | true =>
      have other : c ≠ sep := by
        rintro rfl
        exact absurd (space.symm.trans solid) (by decide)
      have left : trimLeft blank (c :: s) = trimLeft blank s := dropWhile_cons_of_pos space
      obtain ⟨first, rest, parts⟩ := splitOn_eq_cons sep s
      rw [left, ih, splitOn_cons, if_neg other, parts, modifyHead_cons, map_cons,
        map_cons, trimLeft, trimLeft, dropWhile_cons_of_pos space]

lemma map_trimRight_splitOn (solid : blank sep = false) (s : List α) :
    ((trimRight blank s).splitOn sep).map (trimRight blank) =
      (s.splitOn sep).map (trimRight blank) := by
  induction s with
  | nil => rfl
  | cons c s ih =>
    obtain ⟨first, rest, parts⟩ := splitOn_eq_cons sep s
    obtain ⟨first', rest', parts'⟩ := splitOn_eq_cons sep (trimRight blank s)
    rw [parts, parts', map_cons, map_cons, List.cons.injEq] at ih
    by_cases same : c = sep
    · have kept : trimRight blank (c :: s) = c :: trimRight blank s := by
        rw [trimRight_cons, same, solid, Bool.and_false, if_neg Bool.false_ne_true]
      rw [kept, splitOn_cons, if_pos same, splitOn_cons, if_pos same, parts, parts',
        map_cons, map_cons, map_cons, map_cons, ih.1, ih.2]
    · rw [splitOn_cons c s, if_neg same, parts, modifyHead_cons, map_cons,
        trimRight_cons, trimRight_cons]
      by_cases gone : ((trimRight blank s).isEmpty && blank c) = true
      · -- Nothing of the text is left, so it was one part of blanks.
        have empty : trimRight blank s = [] := by simp_all
        rw [empty, splitOn_nil, List.cons.injEq] at parts'
        obtain ⟨rfl, rfl⟩ := parts'
        have none : rest = [] := by simpa using ih.2.symm
        have blankFirst : trimRight blank first = [] := ih.1.symm
        rw [if_pos gone, none, blankFirst]
        simp_all [trimRight]
      · rw [if_neg gone, splitOn_cons, if_neg same, parts', modifyHead_cons,
          map_cons, trimRight_cons, ih.1, ih.2]

lemma map_trim_splitOn (solid : blank sep = false) (s : List α) :
    ((trim blank s).splitOn sep).map (trim blank) = (s.splitOn sep).map (trim blank) := by
  calc ((trim blank s).splitOn sep).map (trim blank)
      = (((trimRight blank (trimLeft blank s)).splitOn sep).map (trimRight blank)).map
          (trimLeft blank) := by
        rw [map_map]
        apply map_congr_left
        intro part _
        exact (trimLeft_trimRight part).symm
    _ = (((trimLeft blank s).splitOn sep).map (trimLeft blank)).map (trimRight blank) := by
        rw [map_trimRight_splitOn solid, map_map, map_map]
        apply map_congr_left
        intro part _
        exact trimLeft_trimRight part
    _ = (s.splitOn sep).map (trim blank) := by
        rw [map_trimLeft_splitOn solid, map_map]
        rfl
end Text
namespace Prefixes

inductive Addr
  | v4 (bits : BitVec 32)
  | v6 (bits : BitVec 128)
deriving DecidableEq

namespace Addr
def is4 : Addr → Bool
  | .v4 _ => true
  | .v6 _ => false

def bitLen : Addr → Nat
  | .v4 _ => 32
  | .v6 _ => 128

def value : Addr → Nat
  | .v4 bits => bits.toNat
  | .v6 bits => bits.toNat

def is4In6 : Addr → Bool
  | .v4 _ => false
  | .v6 bits => bits >>> 32 == 0xffff

/-- The IPv4 address that an IPv6 address carries, or the address itself. -/
def unmap : Addr → Addr
  | .v4 bits => .v4 bits
  | .v6 bits => if bits >>> 32 == 0xffff then .v4 (bits.setWidth 32) else .v6 bits
end Addr

structure Prefix where
  addr : Addr
  bits : Nat
deriving DecidableEq

namespace Prefix
def contains (p : Prefix) (a : Addr) : Bool :=
  match p.addr, a with
  | .v4 x, .v4 y => (x ^^^ y) >>> (32 - p.bits) == 0
  | .v6 x, .v6 y => (x ^^^ y) >>> (128 - p.bits) == 0
  | _, _ => false

def masked (p : Prefix) : Prefix :=
  { p with
    addr := match p.addr with
      | .v4 x => .v4 (x >>> (32 - p.bits) <<< (32 - p.bits))
      | .v6 x => .v6 (x >>> (128 - p.bits) <<< (128 - p.bits)) }

variable (p : Prefix)
def free : Nat := p.addr.bitLen - p.bits

lemma xor_shift_eq_zero {w : Nat} {x y : BitVec w} {k : Nat} :
    (x ^^^ y) >>> k = 0#w ↔ x.toNat >>> k = y.toNat >>> k := by
  rw [BitVec.ushiftRight_xor_distrib, BitVec.xor_eq_zero_iff, ← BitVec.toNat_inj,
    BitVec.toNat_ushiftRight, BitVec.toNat_ushiftRight]

lemma contains_iff {p : Prefix} {a : Addr} : p.contains a = true ↔
    p.addr.bitLen = a.bitLen ∧ p.addr.value >>> p.free = a.value >>> p.free := by
  obtain ⟨addr, bits⟩ := p
  cases addr <;> cases a <;> simp [contains, free, Addr.bitLen, Addr.value, xor_shift_eq_zero]

@[simp] lemma is4_masked : p.masked.addr.is4 = p.addr.is4 := by
  cases origin : p.addr <;> simp [masked, origin, Addr.is4]

@[simp] lemma bitLen_masked : p.masked.addr.bitLen = p.addr.bitLen := by
  cases origin : p.addr <;> simp [masked, origin, Addr.bitLen]

lemma value_masked : p.masked.addr.value = p.addr.value >>> p.free <<< p.free := by
  have fits : ∀ (w k : Nat) (x : BitVec w), (x >>> k <<< k).toNat = x.toNat >>> k <<< k := by
    intro w k x
    rw [BitVec.toNat_shiftLeft, BitVec.toNat_ushiftRight]
    apply Nat.mod_eq_of_lt
    rw [Nat.shiftLeft_eq, Nat.shiftRight_eq_div_pow]
    exact lt_of_le_of_lt (Nat.div_mul_le_self _ _) x.isLt
  obtain ⟨addr, bits⟩ := p
  cases addr <;> exact fits _ _ _

@[simp] lemma contains_masked (a : Addr) : p.masked.contains a = p.contains a := by
  have free : p.masked.free = p.free := congrArg (· - p.bits) p.bitLen_masked
  rw [Bool.eq_iff_iff, contains_iff, contains_iff, free, value_masked, bitLen_masked,
    Nat.shiftLeft_shiftRight]

lemma is4_of_contains {p : Prefix} {a : Addr} (inside : p.contains a = true) :
    a.is4 = p.addr.is4 := by
  unfold contains at inside
  split at inside <;> simp_all [Addr.is4]

lemma shift_further {x y j k : Nat} (wider : j ≤ k) (same : x >>> j = y >>> j) :
    x >>> k = y >>> k := by
  obtain ⟨d, rfl⟩ := Nat.exists_eq_add_of_le wider
  rw [Nat.shiftRight_add, Nat.shiftRight_add, same]

variable {p q : Prefix} {a : Addr}
lemma contains_of_covers (shorter : p.bits ≤ q.bits) (covers : p.contains q.addr = true)
    (inside : q.contains a = true) : p.contains a = true := by
  rw [contains_iff] at covers inside ⊢
  have fewer : q.free ≤ p.free := by
    unfold free
    omega
  exact ⟨covers.1.trans inside.1, covers.2.trans (shift_further fewer inside.2)⟩

lemma contains_of_overlap (shorter : p.bits ≤ q.bits) (first : p.contains a = true)
    (second : q.contains a = true) : p.contains q.addr = true := by
  rw [contains_iff] at first second ⊢
  have fewer : q.free ≤ p.free := by
    unfold free
    omega
  exact ⟨first.1.trans second.1.symm, first.2.trans (shift_further fewer second.2).symm⟩

lemma value_le_of_contains (inside : p.contains a = true) : p.masked.addr.value ≤ a.value := by
  rw [value_masked, (contains_iff.mp inside).2, Nat.shiftLeft_eq, Nat.shiftRight_eq_div_pow]
  exact Nat.div_mul_le_self _ _
end Prefix
variable {α β : Type}
variable (covers : α → α → Bool)

def dropCovered (l : List α) : List α :=
  l.foldl (fun kept a => if kept.any (covers · a) then kept else kept ++ [a]) []

variable {covers} {has : α → β → Bool}
lemma any_foldl_dropCovered {b : β}
    (sound : ∀ p q, covers p q = true → has q b = true → has p b = true) (l kept : List α) :
    (l.foldl (fun kept a => if kept.any (covers · a) then kept else kept ++ [a]) kept).any
        (has · b) = (kept.any (has · b) || l.any (has · b)) := by
  induction l generalizing kept with
  | nil => simp
  | cons a l ih =>
    rw [foldl_cons, ih]
    split_ifs with covered
    · rw [any_cons, ← Bool.or_assoc]
      congr 1
      cases inside : has a b with
      | false => rw [Bool.or_false]
      | true =>
        obtain ⟨p, member, above⟩ := any_eq_true.mp covered
        rw [Bool.or_true]
        exact any_eq_true.mpr ⟨p, member, sound p a above inside⟩
    · simp [Bool.or_assoc]

lemma any_dropCovered {b : β} (sound : ∀ p q, covers p q = true → has q b = true → has p b = true)
    (l : List α) :
    (dropCovered covers l).any (has · b) = l.any (has · b) :=
  (any_foldl_dropCovered sound l []).trans (Bool.false_or _)

lemma foldl_dropCovered (l : List α) {kept : List α}
    (apart : kept.Pairwise fun p q => covers p q = false) :
    let left := l.foldl (fun kept a => if kept.any (covers · a) then kept else kept ++ [a]) kept
    left.Sublist (kept ++ l) ∧ left.Pairwise fun p q => covers p q = false := by
  induction l generalizing kept with
  | nil => exact ⟨by simp, apart⟩
  | cons a l ih =>
    rw [foldl_cons]
    split_ifs with covered
    · exact ⟨(ih apart).1.trans ((sublist_cons_self a l).append_left kept), (ih apart).2⟩
    · have further : (kept ++ [a]).Pairwise fun p q => covers p q = false := by
        refine pairwise_append.mpr ⟨apart, pairwise_singleton _ a, ?_⟩
        intro p member q new
        rw [mem_singleton.mp new]
        simp only [any_eq_true, not_exists, not_and, Bool.not_eq_true] at covered
        exact covered p member
      exact ⟨(ih further).1.trans (by simp), (ih further).2⟩

variable (covers)
lemma dropCovered_sublist (l : List α) : (dropCovered covers l).Sublist l :=
  (foldl_dropCovered l List.Pairwise.nil).1

lemma pairwise_dropCovered (l : List α) :
    (dropCovered covers l).Pairwise fun p q => covers p q = false :=
  (foldl_dropCovered l List.Pairwise.nil).2
end Prefixes
end Tamizdat.Machine
