/- source: internal/wgturnclient/split_tunnel.go
   digest: The blocks of addresses that the split tunnel leaves out. -/

import Tamizdat.Machine.Bytes

set_option autoImplicit false

open List Option
namespace Tamizdat.WgturnClient.SplitTunnel
open BitVec

/-- A pair `[ip, bits]`. -/
structure Block where
  ip : BitVec 32
  bits : Nat
  inRange : bits ≤ 32

def mask (bits : Nat) : BitVec 32 := if 0 < bits then 0xFFFFFFFF#32 <<< (32 - bits) else 0

def containsFn (container target : Block) : Bool :=
  container.bits ≤ target.bits ∧
    container.ip &&& mask container.bits = target.ip &&& mask container.bits

def overlapsFn (a b : Block) : Bool :=
  let minBits := min a.bits b.bits
  a.ip &&& mask minBits = b.ip &&& mask minBits

variable (excludes : List Block)
def splitRec (block : Block) : List Block :=
  if excludes.any (containsFn · block) then []
  else if !excludes.any (overlapsFn block) then [block]
  else if full : 32 ≤ block.bits then []
  else
    let next := block.bits + 1
    splitRec ⟨block.ip, next, not_le.mp full⟩ ++
      splitRec ⟨block.ip ||| 1#32 <<< (32 - next), next, not_le.mp full⟩
termination_by 32 - block.bits

def result : List Block := splitRec excludes ⟨0, 0, Nat.zero_le _⟩

def calcAllowedIPs : String :=
  ", ".intercalate ((result excludes).map fun r =>
    ".".intercalate ((Machine.Bytes.putBE 4 r.ip.toNat).map (toString ·.toNat)) ++
      "/" ++ toString r.bits)

def Block.Has (b : Block) (x : BitVec 32) : Prop := ∀ i < b.bits, b.ip.getMsbD i = x.getMsbD i

def Block.Aligned (b : Block) : Prop := ∀ i, b.bits ≤ i → b.ip.getMsbD i = false

lemma and_mask_eq_iff {x y : BitVec 32} {n : Nat} (short : n ≤ 32) :
    x &&& mask n = y &&& mask n ↔ ∀ i < n, x.getMsbD i = y.getMsbD i := by
  have all : ∀ i, (0xFFFFFFFF#32).getMsbD i = decide (i < 32) := fun i => getMsbD_allOnes
  have ones : ∀ i, (mask n).getMsbD i = decide (i < n) := by
    intro i
    rw [mask]
    split_ifs <;> grind [getMsbD_shiftLeft]
  constructor
  · intro same i inside
    simpa [ones, inside] using congrArg (getMsbD · i) same
  · intro agree
    apply eq_of_getMsbD_eq
    intro i _
    rw [getMsbD_and, getMsbD_and, ones]
    grind

variable {p q : Block}
lemma contains_iff : containsFn p q = true ↔ p.bits ≤ q.bits ∧ p.Has q.ip := by
  simp [containsFn, and_mask_eq_iff p.inRange, Block.Has]

lemma overlaps_iff : overlapsFn p q = true ↔
    ∀ i, i < p.bits → i < q.bits → p.ip.getMsbD i = q.ip.getMsbD i := by
  simp [overlapsFn, and_mask_eq_iff (min_le_of_left_le p.inRange)]

lemma splitRec_spec {block : Block} (aligned : block.Aligned) :
    (∀ b ∈ splitRec excludes block, b.Aligned) ∧
    (splitRec excludes block).Pairwise (fun b c => ∀ x, b.Has x → ¬ c.Has x) ∧
    ∀ x, (∃ b ∈ splitRec excludes block, b.Has x) ↔ block.Has x ∧ ∀ ex ∈ excludes, ¬ ex.Has x := by
  fun_induction splitRec excludes block with
  | case1 block inside =>
    obtain ⟨ex, listed, covers⟩ := List.any_eq_true.mp inside
    grind [contains_iff, Block.Has]
  | case2 block _ apart => grind [overlaps_iff, Block.Has]
  | case3 block apart overlap full =>
    -- With 32 bits, what overlaps the block contains it.
    obtain ⟨ex, listed, overlaps⟩ : ∃ ex ∈ excludes, overlapsFn block ex = true := by grind
    have shorter := ex.inRange
    grind [contains_iff, overlaps_iff, Block.Has]
  | case4 block apart overlap longer next first second =>
    have free := aligned block.bits le_rfl
    have bit : ∀ i, (block.ip ||| 1#32 <<< (32 - next)).getMsbD i =
        (block.ip.getMsbD i || decide (i = block.bits)) := by
      intro i
      rw [getMsbD_or, getMsbD_shiftLeft, getMsbD_one]
      grind
    generalize block.ip ||| 1#32 <<< (32 - next) = ip at bit second ⊢
    have low : ∀ x, Block.Has ⟨block.ip, next, not_le.mp longer⟩ x ↔
        block.Has x ∧ x.getMsbD block.bits = false := by
      simp only [Block.Has, next, Nat.forall_lt_succ_right]
      grind
    have high : ∀ x, Block.Has ⟨ip, next, not_le.mp longer⟩ x ↔
        block.Has x ∧ x.getMsbD block.bits = true := by
      simp only [Block.Has, bit, next, Nat.forall_lt_succ_right]
      grind
    obtain ⟨left, leftApart, leftHas⟩ := first (by grind [Block.Aligned])
    obtain ⟨right, rightApart, rightHas⟩ := second (by grind [Block.Aligned])
    simp only [low, high] at leftHas rightHas
    refine ⟨by grind, pairwise_append.mpr ⟨leftApart, rightApart, ?_⟩, fun x => ?_⟩
    · intro b inLeft c inRight x has has'
      have zero := (leftHas x).mp ⟨b, inLeft, has⟩
      have one := (rightHas x).mp ⟨c, inRight, has'⟩
      grind
    · simp only [mem_append, or_and_right, exists_or, leftHas, rightHas]
      cases x.getMsbD block.bits <;> simp

end Tamizdat.WgturnClient.SplitTunnel
