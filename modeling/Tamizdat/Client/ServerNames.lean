/- source: pkg/tamizdat/sni_pool.go, pkg/tamizdat/client.go
   digest: The choice of a server name from the pool that a bundle brings. -/

import Mathlib.Order.Interval.Finset.Nat
import Tamizdat.CoverConfig.Bundle

set_option autoImplicit false

open List
namespace Tamizdat.Client.ServerNames
open CoverConfig
open Routing (Text)
def add (a b : Int) : Int := (a + b).bmod (2 ^ 64)

def total (entries : List SNIEntry) : Int :=
  entries.foldl (fun total e => if e.weight < 0 then total else add total e.weight) 0

def stop (r : Int) : Int → List SNIEntry → Nat
  | _, [] => 0
  | cum, e :: rest => if r < add cum e.weight then 0 else stop r (add cum e.weight) rest + 1

def chosen (entries : List SNIEntry) (r : Int) : Nat :=
  if total entries = 0 then 0 else min (stop r 0 entries) (entries.length - 1)

def pickWeightedSNI (entries : List SNIEntry) (r : Int) : Text :=
  (entries[chosen entries r]?.map (·.sni)).getD []

/-- What a client chooses its server names from. No pushed pool and an empty one are alike. -/
structure Names where
  pushed : List SNIEntry := []
  primarySNI : Text := []
  serverName : Text := []
  serverNames : List Text := []

def Names.primary (c : Names) : Text := if c.primarySNI = [] then c.serverName else c.primarySNI

def raise (e first : SNIEntry) : SNIEntry :=
  if first.weight < e.weight then { first with weight := e.weight } else first

def merge (primary : Text) (entries : List SNIEntry) (e : SNIEntry) : List SNIEntry :=
  if e.sni = [] then entries
  else if e.sni = primary then entries.modifyHead (raise e)
  else entries ++ [e]

def uniform (pool : List Text) (i : Nat) : Text := pool[i % pool.length]?.getD []

def pickServerName (c : Names) (r : Int) (i : Nat) : Text :=
  let picked := if c.pushed = [] then []
    else pickWeightedSNI (c.pushed.foldl (merge c.primary) [⟨c.primary, 100⟩]) r
  if picked ≠ [] then picked
  else if c.serverNames = [] then c.primary
  else uniform c.serverNames i

def excludeSet (exclude : List Text) : List Text := exclude.filter (· ≠ [])

def mergeExcluding (excluded : List Text) (primary : Text) (entries : List SNIEntry)
    (e : SNIEntry) : List SNIEntry :=
  if e.sni = [] ∨ e.sni ∈ excluded then entries
  else if entries.head?.map (·.sni) = some primary ∧ e.sni = primary then
    entries.modifyHead (raise e)
  else entries ++ [e]

/-- The draws are those of the function itself, then those of `pickServerName`. -/
def pickServerNameExcluding (c : Names) (exclude : List Text) (r : Int) (i : Nat) (r' : Int)
    (i' : Nat) : Text :=
  if exclude = [] then pickServerName c r' i'
  else
    let excluded := excludeSet exclude
    let entries := c.pushed.foldl (mergeExcluding excluded c.primary)
      (if c.primary ∈ excluded then [] else [⟨c.primary, 100⟩])
    let picked := if c.pushed = [] then [] else pickWeightedSNI entries r
    let filtered := c.serverNames.filter (· ∉ excluded)
    if picked ≠ [] then picked
    else if filtered = [] then pickServerName c r' i'
    else uniform filtered i

def sum (entries : List SNIEntry) : Int := (entries.map (·.weight)).sum

/-- What the positive weights (sign 1) or the negative ones (sign -1) amount to. -/
def share (sign : Int) (entries : List SNIEntry) : Int :=
  (entries.map fun e => max (sign * e.weight) 0).sum

/-- The highest sum of the loop of `pickWeightedSNI` after `i` entries. -/
def reach (entries : List SNIEntry) : Nat → Int
  | 0 => 0
  | i + 1 => max (reach entries i) (sum (entries.take (i + 1)))

section
variable {entries : List SNIEntry} {e : SNIEntry} {i : Nat} {c r : Int}
lemma sum_cons (e : SNIEntry) (entries : List SNIEntry) :
    sum (e :: entries) = e.weight + sum entries := List.sum_cons

lemma share_cons (sign : Int) (e : SNIEntry) (entries : List SNIEntry) :
    share sign (e :: entries) = max (sign * e.weight) 0 + share sign entries := List.sum_cons

lemma share_nonneg (sign : Int) (entries : List SNIEntry) : 0 ≤ share sign entries := by
  refine List.sum_nonneg fun w member => ?_
  obtain ⟨e, -, rfl⟩ := mem_map.mp member
  exact le_max_right _ _

lemma sum_eq (entries : List SNIEntry) : sum entries = share 1 entries - share (-1) entries := by
  induction entries with
  | nil => rfl
  | cons e rest ih =>
    rw [sum_cons, share_cons, share_cons]
    omega

lemma share_take_le (sign : Int) (entries : List SNIEntry) (i : Nat) :
    share sign (entries.take i) ≤ share sign entries := by
  refine ((take_sublist i entries).map _).sum_le_sum fun w member => ?_
  obtain ⟨e, -, rfl⟩ := mem_map.mp member
  exact le_max_right _ _

lemma share_take_succ (here : entries[i]? = some e) :
    share 1 (entries.take (i + 1)) = share 1 (entries.take i) + max e.weight 0 := by
  simp [share, take_add_one, here]

lemma total_eq (bounded : share 1 entries < 2 ^ 63) : total entries = share 1 entries := by
  suffices general : ∀ acc : Int, 0 ≤ acc → acc + share 1 entries < 2 ^ 63 →
      entries.foldl (fun total e => if e.weight < 0 then total else add total e.weight) acc =
        acc + share 1 entries by
    exact (general 0 le_rfl (by omega)).trans (Int.zero_add _)
  clear bounded
  induction entries with
  | nil => exact fun acc _ _ => (Int.add_zero acc).symm
  | cons e rest ih =>
    intro acc low high
    have later := share_nonneg 1 rest
    rw [share_cons] at high ⊢
    rw [foldl_cons]
    split_ifs with negative
    · rw [ih acc low (by omega)]
      omega
    · have fits : add acc e.weight = acc + e.weight :=
        Int.bmod_eq_of_le_mul_two (by omega) (by omega)
      rw [fits, ih _ (by omega) (by omega)]
      omega

lemma le_stop_iff
    (fits : ∀ j, -2 ^ 63 ≤ c + sum (entries.take j) ∧ c + sum (entries.take j) < 2 ^ 63)
    (inside : i ≤ entries.length) :
    i ≤ stop r c entries ↔ ∀ j < i, c + sum (entries.take (j + 1)) ≤ r := by
  induction entries generalizing c i with
  | nil => simp_all
  | cons e rest ih =>
    have later (j : Nat) : c + sum ((e :: rest).take (j + 1)) =
        c + e.weight + sum (rest.take j) := by
      rw [take_succ_cons, sum_cons, add_assoc]
    have none : sum (rest.take 0) = 0 := rfl
    have first : add c e.weight = c + e.weight := by
      have bounds := fits 1
      rw [later, none] at bounds
      exact Int.bmod_eq_of_le_mul_two (by omega) (by omega)
    cases i with
    | zero => simp
    | succ i =>
      have onward := ih (c := c + e.weight) (i := i) (fun j => later j ▸ fits (j + 1))
        (Nat.le_of_succ_le_succ inside)
      simp only [stop, first, Nat.forall_lt_succ_left, later, ← onward]
      split_ifs with before <;> omega

lemma reach_le_iff : reach entries i ≤ r ↔ 0 ≤ r ∧ ∀ j < i, sum (entries.take (j + 1)) ≤ r := by
  induction i with
  | zero => simp [reach]
  | succ i ih => rw [reach, max_le_iff, ih, Nat.forall_lt_succ_right, and_assoc]

/-- The positive weights add up to a total below 2^63, and no sum of the loop wraps around. -/
structure Bounded (entries : List SNIEntry) : Prop where
  positive : 0 < share 1 entries
  total : share 1 entries < 2 ^ 63
  negative : share (-1) entries ≤ 2 ^ 63

lemma reach_le (entries : List SNIEntry) (i : Nat) :
    reach entries i ≤ share 1 (entries.take i) := by
  refine reach_le_iff.mpr ⟨share_nonneg 1 _, fun j before => ?_⟩
  have lost := share_nonneg (-1) (entries.take (j + 1))
  have shorter := share_take_le 1 (entries.take i) (j + 1)
  rw [take_take, Nat.min_eq_left (by omega)] at shorter
  rw [sum_eq]
  omega

/-- Each entry but the last is chosen for the draws by which it raises the highest sum, and the
last one for all that are left. -/
lemma chosen_eq_iff (bounded : Bounded entries) (inside : i < entries.length) (r : Nat) :
    chosen entries r = i ↔
      reach entries i ≤ r ∧ (i + 1 < entries.length → r < reach entries (i + 1)) := by
  have fits (j : Nat) : -2 ^ 63 ≤ 0 + sum (entries.take j) ∧
      0 + sum (entries.take j) < 2 ^ 63 := by
    have gained := share_take_le 1 entries j
    have lost := share_take_le (-1) entries j
    have low := share_nonneg 1 (entries.take j)
    have high := share_nonneg (-1) (entries.take j)
    have := bounded.total
    have := bounded.negative
    rw [sum_eq]
    omega
  have passed {k : Nat} (le : k ≤ entries.length) :
      k ≤ stop r 0 entries ↔ reach entries k ≤ r := by
    rw [le_stop_iff fits le, reach_le_iff]
    simp
  have here := passed inside.le
  have next := passed (k := i + 1) inside
  rw [chosen, total_eq bounded.total, if_neg bounded.positive.ne']
  omega

def Exact (entries : List SNIEntry) : Prop :=
  ∀ i e, entries[i]? = some e →
    ((Finset.range (total entries).toNat).filter fun r : Nat => chosen entries r = i).card =
      e.weight.toNat

lemma card_chosen (bounded : Bounded entries) (inside : i < entries.length) :
    (((Finset.range (total entries).toNat).filter fun r : Nat => chosen entries r = i).card : Int) =
      (if i + 1 < entries.length then reach entries (i + 1) else share 1 entries) -
        reach entries i := by
  have low : 0 ≤ reach entries i := (reach_le_iff.mp le_rfl).1
  have up : reach entries i ≤ reach entries (i + 1) := le_max_left _ _
  have here := (reach_le entries i).trans (share_take_le 1 entries i)
  have next := (reach_le entries (i + 1)).trans (share_take_le 1 entries (i + 1))
  have draws : ((Finset.range (total entries).toNat).filter fun r : Nat => chosen entries r = i) =
      Finset.Ico (reach entries i).toNat
        (if i + 1 < entries.length then reach entries (i + 1) else share 1 entries).toNat := by
    ext r
    rw [Finset.mem_filter, Finset.mem_range, Finset.mem_Ico, chosen_eq_iff bounded inside,
      total_eq bounded.total]
    split_ifs <;> omega
  rw [draws, Nat.card_Ico]
  split_ifs <;> omega

lemma exact_iff_reach (bounded : Bounded entries) :
    Exact entries ↔ ∀ i < entries.length, reach entries i = share 1 (entries.take i) := by
  constructor
  · intro exact i inside
    induction i with
    | zero => rfl
    | succ i ih =>
      have before : i < entries.length := Nat.lt_of_succ_lt inside
      have here := getElem?_eq_getElem before
      have count := card_chosen bounded before
      rw [exact i _ here, if_pos inside, ih before] at count
      rw [share_take_succ here]
      omega
  · intro reaches i e here
    obtain ⟨inside, -⟩ := List.getElem?_eq_some_iff.mp here
    have count := card_chosen bounded inside
    have next := share_take_succ here
    rw [reaches i inside] at count
    split_ifs at count with more
    · rw [reaches (i + 1) more] at count
      omega
    · rw [take_of_length_le (by omega)] at next
      omega

lemma le_share (sign : Int) (member : e ∈ entries) :
    max (sign * e.weight) 0 ≤ share sign entries := by
  refine single_le_sum (fun w member => ?_) _ (mem_map_of_mem member)
  obtain ⟨e, -, rfl⟩ := mem_map.mp member
  exact le_max_right _ _

lemma share_eq_zero (weighed : ∀ e ∈ entries, 0 ≤ e.weight) : share (-1) entries = 0 := by
  refine List.sum_eq_zero fun w member => ?_
  obtain ⟨e, inside, rfl⟩ := mem_map.mp member
  have := weighed e inside
  omega

lemma reach_iff_pairwise :
    (∀ i < entries.length, reach entries i = share 1 (entries.take i)) ↔
      entries.dropLast.Pairwise fun a b => a.weight < 0 → b.weight ≤ 0 := by
  rw [pairwise_iff_getElem]
  simp only [length_dropLast, getElem_dropLast]
  constructor
  · intro reaches i j first second before negative
    by_contra positive
    have inside : j < entries.length := by omega
    have next := share_take_succ (getElem?_eq_getElem inside)
    have high := reaches (j + 1) (by omega)
    have low := reach_le entries j
    have lost := le_share (-1) (mem_take_iff_getElem.mpr
      ⟨i, by omega, rfl⟩ : entries[i] ∈ entries.take (j + 1))
    rw [reach, sum_eq] at high
    omega
  · intro ordered i inside
    induction i with
    | zero => rfl
    | succ i ih =>
      have before : i < entries.length := Nat.lt_of_succ_lt inside
      have next := share_take_succ (getElem?_eq_getElem before)
      have lost := share_nonneg (-1) (entries.take (i + 1))
      rw [reach, sum_eq, ih before]
      by_cases positive : 0 < entries[i].weight
      · -- nothing has been taken away yet
        have none : share (-1) (entries.take (i + 1)) = 0 := by
          refine share_eq_zero fun e member => ?_
          obtain ⟨k, bound, rfl⟩ := mem_take_iff_getElem.mp member
          by_contra negative
          rcases Nat.lt_or_ge k i with earlier | same
          · have := ordered k i (by omega) (by omega) earlier (by omega)
            omega
          · obtain rfl : k = i := by omega
            omega
        omega
      · omega

end

section
variable {entries : List SNIEntry} {e : SNIEntry} {excluded exclude pool : List Text}
  {primary : Text} {c : Names}

lemma pickWeightedSNI_mem (any : entries ≠ []) (r : Int) :
    pickWeightedSNI entries r ∈ entries.map (·.sni) := by
  have positive := length_pos_iff.mpr any
  have inside : chosen entries r < entries.length := by
    unfold chosen
    split_ifs <;> omega
  rw [pickWeightedSNI, getElem?_eq_getElem inside]
  exact mem_map_of_mem (getElem_mem inside)

def Allowed (excluded : List Text) (e : SNIEntry) : Prop := e.sni ≠ [] ∧ e.sni ∉ excluded

lemma allowed_merge (all : ∀ x ∈ entries, Allowed excluded x) :
    ∀ x ∈ mergeExcluding excluded primary entries e, Allowed excluded x := by
  unfold mergeExcluding
  split_ifs with skipped same
  · exact all
  · cases entries with
    | nil => exact all
    | cons first rest =>
      obtain ⟨head, others⟩ := forall_mem_cons.mp all
      refine forall_mem_cons.mpr ⟨?_, others⟩
      unfold raise
      split_ifs <;> exact head
  · obtain ⟨named, free⟩ := not_or.mp skipped
    exact forall_mem_append.mpr ⟨all, forall_mem_singleton.mpr ⟨named, free⟩⟩

lemma mergeExcluding_ne_nil (any : entries ≠ [] ∨ Allowed excluded e) :
    mergeExcluding excluded primary entries e ≠ [] := by
  unfold mergeExcluding
  split_ifs with skipped same
  · exact any.resolve_right fun allowed => skipped.elim allowed.1 allowed.2
  · cases entries with
    | nil => simp at same
    | cons first rest => exact cons_ne_nil _ _
  · simp

lemma foldl_merge (pushed : List SNIEntry) (primary : Text)
    (all : ∀ x ∈ entries, Allowed excluded x) :
    (∀ x ∈ pushed.foldl (mergeExcluding excluded primary) entries, Allowed excluded x) ∧
      ((entries ≠ [] ∨ ∃ e ∈ pushed, Allowed excluded e) →
        pushed.foldl (mergeExcluding excluded primary) entries ≠ []) := by
  induction pushed generalizing entries with
  | nil => exact ⟨all, fun any => by simpa using any⟩
  | cons e rest ih =>
    obtain ⟨kept, onward⟩ := ih (allowed_merge all)
    refine ⟨kept, fun any => onward ?_⟩
    rcases any with any | ⟨x, member, allowed⟩
    · exact .inl (mergeExcluding_ne_nil (.inl any))
    · rcases mem_cons.mp member with rfl | later
      · exact .inl (mergeExcluding_ne_nil (.inr allowed))
      · exact .inr ⟨x, later, allowed⟩

lemma uniform_mem (any : pool ≠ []) (i : Nat) : uniform pool i ∈ pool := by
  have inside := Nat.mod_lt i (length_pos_iff.mpr any)
  rw [uniform, getElem?_eq_getElem inside]
  exact getElem_mem inside

def Names.Leaves (c : Names) (excluded : List Text) : Prop :=
  (c.pushed ≠ [] ∧ ∃ name ∈ c.primary :: c.pushed.map (·.sni), name ≠ [] ∧ name ∉ excluded) ∨
    ∃ name ∈ c.serverNames, name ∉ excluded

lemma pickServerNameExcluding_avoids (named : c.primary ≠ [])
    (leaves : c.Leaves (excludeSet exclude)) (r : Int) (i : Nat) (r' : Int) (i' : Nat) :
    pickServerNameExcluding c exclude r i r' i' ∉ excludeSet exclude := by
  unfold pickServerNameExcluding
  by_cases nothing : exclude = []
  · simp [excludeSet, nothing]
  · rw [if_neg nothing]
    generalize excludeSet exclude = excluded at leaves ⊢
    have first : ∀ x ∈ if c.primary ∈ excluded then [] else [SNIEntry.mk c.primary 100],
        Allowed excluded x := by
      split_ifs with gone
      · simp
      · simpa [Allowed] using ⟨named, gone⟩
    have merged := foldl_merge c.pushed c.primary first
    dsimp only
    generalize c.pushed.foldl (mergeExcluding excluded c.primary) _ = entries at merged ⊢
    have allowed : entries ≠ [] →
        pickWeightedSNI entries r ≠ [] ∧ pickWeightedSNI entries r ∉ excluded := by
      intro any
      obtain ⟨e, member, same⟩ := mem_map.mp (pickWeightedSNI_mem any r)
      exact same ▸ merged.1 e member
    by_cases any : c.pushed ≠ [] ∧ entries ≠ []
    · rw [if_neg any.1, if_pos (allowed any.2).1]
      exact (allowed any.2).2
    · have unpicked : (if c.pushed = [] then [] else pickWeightedSNI entries r) = [] := by
        split_ifs with empty
        · rfl
        · rw [not_not.mp fun ne => any ⟨empty, ne⟩]
          rfl
      have kept : c.serverNames.filter (· ∉ excluded) ≠ [] := by
        rcases leaves with ⟨pool, name, member, named, free⟩ | ⟨name, member, free⟩
        · refine absurd ⟨pool, merged.2 ?_⟩ any
          rcases mem_cons.mp member with rfl | later
          · exact .inl (by simp [free])
          · obtain ⟨e, pushed, rfl⟩ := mem_map.mp later
            exact .inr ⟨e, pushed, named, free⟩
        · exact ne_nil_of_mem (mem_filter.mpr ⟨member, decide_eq_true free⟩)
      rw [if_neg (not_not.mpr unpicked), if_neg kept]
      simpa using (mem_filter.mp (uniform_mem kept i)).2

end

/-- Each entry is picked for as many draws as it weighs if and only if no entry but the last has a
positive weight and comes after a negative one. Whatever the weights, an excluded name is not
picked while another is left. -/
theorem weighted_pick_exact_iff {entries : List SNIEntry} (bounded : Bounded entries) :
    (Exact entries ↔ entries.dropLast.Pairwise fun a b => a.weight < 0 → b.weight ≤ 0) ∧
      ∀ (c : Names) (exclude : List Text), c.primary ≠ [] → c.Leaves (excludeSet exclude) →
        ∀ r i r' i', pickServerNameExcluding c exclude r i r' i' ∉ excludeSet exclude :=
  ⟨(exact_iff_reach bounded).trans reach_iff_pairwise,
    fun _ _ named leaves => pickServerNameExcluding_avoids named leaves⟩

theorem weighted_pick_exact_iff_last :
    Exact [⟨['a'], 10⟩, ⟨['b'], -3⟩, ⟨['c'], 0⟩, ⟨['d'], 5⟩] ∧
      ¬Exact [⟨['a'], -1⟩, ⟨['b'], 5⟩, ⟨['c'], -1⟩] :=
  ⟨(weighted_pick_exact_iff ⟨by decide, by decide, by decide⟩).1.mpr (by decide),
    (weighted_pick_exact_iff ⟨by decide, by decide, by decide⟩).1.not.mpr (by decide)⟩

/-- Weights of an accepted bundle: the entry of weight 5 is picked for four of the five draws, and
one of weight -1 for the fifth. -/
theorem negative_weight_picked :
    (∀ (ω δ : Type) (codec : Codec ω δ),
      ({ version := 1, sniPool := [⟨['a'], -1⟩, ⟨['b'], 5⟩, ⟨['c'], -1⟩] } :
        CoverConfigBundle).valid codec = true) ∧
      total [⟨['a'], -1⟩, ⟨['b'], 5⟩, ⟨['c'], -1⟩] = 5 ∧
      ((Finset.range 5).filter fun r : Nat =>
        chosen [⟨['a'], -1⟩, ⟨['b'], 5⟩, ⟨['c'], -1⟩] r = 1).card = 4 ∧
      pickWeightedSNI [⟨['a'], -1⟩, ⟨['b'], 5⟩, ⟨['c'], -1⟩] 4 = ['c'] := by
  refine ⟨fun _ _ _ => rfl, ?_⟩
  decide
end Tamizdat.Client.ServerNames
