/- layer: library
   digest: Circular arrays, rings asked in turn, and lists served by scans that delete from them. -/

import Mathlib.Data.List.DropRight
import Mathlib.Data.List.Rotate
import Mathlib.Order.Basic
import Tamizdat.Machine.Bytes

set_option autoImplicit false
universe u

open List
namespace Tamizdat.Machine
namespace Circular
variable {α : Type u} {n : Nat} [NeZero n]

structure Ring (α : Type u) (n : Nat) where
  head : Nat
  len : Nat
  cells : Fin n → α
  len_le : len ≤ n

def cell (i : Nat) : Fin n := ⟨i % n, Nat.mod_lt _ (NeZero.pos n)⟩

def Ring.empty [Inhabited α] : Ring α n where
  head := 0
  len := 0
  cells := fun _ => default
  len_le := Nat.zero_le n

variable (r : Ring α n)
def Ring.entries : List α := (List.range r.len).map (fun i => r.cells (cell (r.head + i)))

/-- Write behind the newest entry; a full ring gives up its oldest one. -/
def Ring.push (a : α) : Ring α n where
  head := if r.len = n then (r.head + 1) % n else r.head
  len := if r.len = n then r.len else r.len + 1
  cells := fun c => if c = cell (r.head + r.len) then a else r.cells c
  len_le := by
    have := r.len_le
    split_ifs <;> omega

lemma cell_add_ne {i j a} (less : i < j) (near : j < i + n) : (cell (a + i) : Fin n) ≠ cell
    (a + j) := by
  intro same
  have mods : a + i ≡ a + j [MOD n] := congrArg Fin.val same
  have steps : i ≡ j [MOD n] := Nat.ModEq.add_left_cancel' a mods
  have divides := (Nat.modEq_iff_dvd' less.le).mp steps
  have := Nat.le_of_dvd (by omega) divides
  omega

lemma cell_mod_add (a i : Nat) : (cell (a % n + i) : Fin n) = cell (a + i) :=
  Fin.ext (Nat.mod_add_mod a n i)

@[simp] lemma length_entries : r.entries.length = r.len := by
  simp [Ring.entries]

variable {r}
lemma entries_push_of_lt (room : r.len < n) (a : α) : (r.push a).entries = r.entries ++ [a] := by
  have len : (r.push a).len = r.len + 1 := if_neg (by omega)
  have head : (r.push a).head = r.head := if_neg (by omega)
  rw [Ring.entries, Ring.entries, len, head, range_succ, map_append]
  congr 1
  · apply map_congr_left
    intro i member
    have inside := mem_range.mp member
    exact if_neg (cell_add_ne inside (by omega))
  · exact congrArg (fun b => [b]) (if_pos rfl)

lemma entries_push_of_full (full : r.len = n) (a : α) :
    (r.push a).entries = r.entries.tail ++ [a] := by
  have positive : 0 < n := NeZero.pos n
  have len : (r.push a).len = (n - 1) + 1 := by
    rw [Ring.push]
    dsimp only
    rw [if_pos full]
    omega
  have old : r.len = (n - 1) + 1 := by omega
  have head : (r.push a).head = (r.head + 1) % n := if_pos full
  have tail : r.entries.tail =
      (List.range (n - 1)).map (fun i => r.cells (cell (r.head + 1 + i))) := by
    rw [Ring.entries, old, range_succ_eq_map, map_cons, tail_cons, map_map]
    apply map_congr_left
    intro i _
    simp only [Function.comp_apply, Nat.succ_eq_add_one]
    congr 2
    omega
  rw [tail, Ring.entries, len, head, range_succ, map_append]
  congr 1
  · apply map_congr_left
    intro i member
    have inside := mem_range.mp member
    rw [cell_mod_add]
    refine if_neg ?_
    have shifted : r.head + 1 + i = r.head + (1 + i) := by omega
    rw [shifted, full]
    exact cell_add_ne (by omega) (by omega)
  · refine congrArg (fun b => [b]) ?_
    dsimp only
    rw [cell_mod_add]
    refine if_pos ?_
    congr 1
    omega

lemma mem_entries_push {a b : α} (member : b ∈ (r.push a).entries) : b ∈ r.entries ∨ b = a := by
  rcases Nat.lt_or_ge r.len n with room | full
  · rw [entries_push_of_lt room] at member
    simpa using member
  · rw [entries_push_of_full (le_antisymm r.len_le full)] at member
    rcases mem_append.mp member with old | new
    · exact .inl (mem_of_mem_tail old)
    · exact .inr (mem_singleton.mp new)

lemma mem_push_self (a : α) : a ∈ (r.push a).entries := by
  rcases Nat.lt_or_ge r.len n with room | full
  · rw [entries_push_of_lt room]
    exact mem_append_right _ mem_cons_self
  · rw [entries_push_of_full (le_antisymm r.len_le full)]
    exact mem_append_right _ mem_cons_self

lemma mem_push_of_mem {a b : α} (member : b ∈ r.entries)
    (newer : r.len = n → ∀ rest, r.entries ≠ b :: rest) : b ∈ (r.push a).entries := by
  rcases Nat.lt_or_ge r.len n with room | full
  · rw [entries_push_of_lt room]
    exact mem_append_left _ member
  · have full := le_antisymm r.len_le full
    rw [entries_push_of_full full]
    apply mem_append_left
    cases entries : r.entries with
    | nil => rw [entries] at member; cases member
    | cons c rest =>
      rw [entries] at member
      rcases mem_cons.mp member with same | later
      · exact absurd (same ▸ entries) (newer full rest)
      · exact later
end Circular
open Option
namespace Recent
variable {α : Type u}
lemma rtake_of_length_le {l : List α} {n : Nat} (short : l.length ≤ n) : l.rtake n = l := by
  rw [List.rtake, Nat.sub_eq_zero_of_le short, drop_zero]

lemma length_rtake (l : List α) (n : Nat) : (l.rtake n).length = min n l.length := by
  rw [List.rtake, length_drop]
  omega

lemma rtake_rtake {m n} (fewer : m ≤ n) (l : List α) : (l.rtake n).rtake m = l.rtake m := by
  rw [List.rtake, length_rtake, List.rtake, drop_drop, List.rtake]
  congr 1
  omega

lemma rtake_cons (a : α) (l : List α) (n : Nat) :
    (a :: l).rtake n = if l.length < n then a :: l else l.rtake n := by
  split_ifs with short
  · exact rtake_of_length_le short
  · rw [List.rtake, length_cons, Nat.succ_sub (Nat.le_of_not_lt short), drop_succ_cons, List.rtake]

variable {τ : Type u} [LinearOrder τ]
variable (cutoff : τ)
def since (log : List τ) : List τ := log.dropWhile (· < cutoff)

lemma since_cons (cutoff a : τ) (log : List τ) :
    since cutoff (a :: log) = if a < cutoff then since cutoff log else a :: log := by
  simp only [since, dropWhile_cons, decide_eq_true_eq]

lemma length_since_le (log : List τ) : (since cutoff log).length ≤ log.length :=
  (dropWhile_sublist _).length_le

lemma since_of_forall {cutoff : τ} {log : List τ} (late : ∀ t ∈ log, cutoff ≤ t) :
    since cutoff log = log := by
  cases log with
  | nil => rfl
  | cons a rest => rw [since_cons, if_neg (not_lt.mpr (late a mem_cons_self))]

lemma mem_of_getLast? {cutoff newest : τ} {log : List τ} (last : log.getLast? = some newest)
    (some : since cutoff log ≠ []) : newest ∈ since cutoff log := by
  obtain ⟨front, whole⟩ := dropWhile_suffix (l := log) (· < cutoff)
  have left := getLast?_eq_some_getLast some
  rw [← whole, getLast?_append, ← since, left, some_or] at last
  exact Option.some.inj last ▸ List.getLast_mem some

lemma since_since {a b} (later : a ≤ b) (log : List τ) : since b (since a log) = since b log := by
  induction log with
  | nil => rfl
  | cons t rest ih =>
    rw [since_cons a]
    split_ifs with before
    · rw [ih, since_cons, if_pos (lt_of_lt_of_le before later)]
    · rfl

lemma since_snoc {cutoff t : τ} (late : cutoff ≤ t) (log : List τ) :
    since cutoff (log ++ [t]) = since cutoff log ++ [t] := by
  induction log with
  | nil => exact since_of_forall (by simpa using late)
  | cons a rest ih =>
    rw [cons_append, since_cons, since_cons, ih]
    split_ifs <;> rfl

variable {log : List τ}
variable (order : log.Pairwise (· ≤ ·))
include order
lemma since_eq_filter : since cutoff log = log.filter (cutoff ≤ ·) := by
  induction log with
  | nil => rfl
  | cons a rest ih =>
    obtain ⟨first, later⟩ := pairwise_cons.mp order
    rw [since_cons]
    split_ifs with before
    · rw [ih later, filter_cons_of_neg (by simpa using before)]
    · symm
      apply filter_eq_self.mpr
      have late := not_lt.mp before
      intro t member
      rcases mem_cons.mp member with rfl | old
      · exact decide_eq_true late
      · exact decide_eq_true (late.trans (first t old))

lemma pairwise_since : (since cutoff log).Pairwise (· ≤ ·) := order.sublist (dropWhile_sublist _)

lemma since_rtake (n : Nat) : since cutoff (log.rtake n) = (since cutoff log).rtake n := by
  induction log with
  | nil => simp [since]
  | cons a rest ih =>
    obtain ⟨first, later⟩ := pairwise_cons.mp order
    rw [rtake_cons, since_cons]
    split_ifs with short before before
    · have fits := (length_since_le cutoff rest).trans short.le
      rw [since_cons, if_pos before, rtake_of_length_le fits]
    · rw [since_cons, if_neg before, rtake_of_length_le short]
    · exact ih later
    · have late : ∀ t ∈ rest, cutoff ≤ t := fun t member =>
        (not_lt.mp before).trans (first t member)
      rw [rtake_cons, if_neg short]
      exact since_of_forall fun t member => late t (mem_of_mem_drop member)
end Recent
namespace RoundRobin
variable {α : Type u}

/-- The indices `start, start + 1, …` of a ring of `n` places, once around. -/
def cycle (n start : Nat) : List Nat := (List.range n).map fun offset => (start + offset) % n

lemma mem_cycle {n start i} (member : i ∈ cycle n start) : i < n := by
  obtain ⟨offset, inside, rfl⟩ := mem_map.mp member
  have := mem_range.mp inside
  exact Nat.mod_lt _ (by omega)

lemma map_cycle (xs : List α) (start : Nat) :
    (cycle xs.length start).map (xs[·]?) = (xs.rotate start).map some := by
  apply ext_getElem
  · simp [cycle]
  · intro i below _
    have inside : i < xs.length := by simpa [cycle] using below
    have wrapped : (start + i) % xs.length < xs.length := Nat.mod_lt _ (by omega)
    simp only [cycle, List.map_map, getElem_map, getElem_range, Function.comp_apply, getElem_rotate]
    rw [Nat.add_comm start i, getElem?_eq_getElem (by rwa [Nat.add_comm i start])]

lemma mem_cycle_of_lt {i n} (start : Nat) (inside : i < n) : i ∈ cycle n start := by
  have rotated : cycle n start = (List.range n).rotate start := by
    have read := map_cycle (List.range n) start
    rw [length_range] at read
    have plain : (cycle n start).map ((List.range n)[·]?) = (cycle n start).map some := by
      apply map_congr_left
      intro j member
      rw [getElem?_range (mem_cycle member)]
    exact map_injective_iff.mpr (Option.some_injective Nat) (plain.symm.trans read)
  rw [rotated, mem_rotate, mem_range]
  exact inside

lemma rotate_split {xs : List α} {start i : Nat} {before after : List Nat} {a : α}
    (whole : cycle xs.length start = before ++ i :: after) (found : xs[i]? = some a) :
    ∃ former latter, xs.rotate start = former ++ a :: latter ∧
      ∀ c ∈ former, ∃ j ∈ before, xs[j]? = some c := by
  have read := map_cycle xs start
  rw [whole, map_append, map_cons, found] at read
  obtain ⟨former, rest, rotated, formerRead, restRead⟩ := map_eq_append_iff.mp read.symm
  obtain ⟨head, latter, rfl, same, -⟩ := map_eq_cons_iff.mp restRead
  cases same
  refine ⟨former, latter, rotated, ?_⟩
  intro c member
  have seen : some c ∈ before.map (xs[·]?) := formerRead ▸ mem_map_of_mem member
  obtain ⟨j, earlier, here⟩ := mem_map.mp seen
  exact ⟨j, earlier, here⟩

variable {σ ι ε : Type}

/-- Offer to one place after the other until one accepts. An attempt may fail as a whole. -/
def seek (attempt : σ → ι → Except ε (σ × Bool)) : σ → List ι → Except ε (σ × Bool)
  | s, [] => .ok (s, false)
  | s, i :: rest => do
    let (t, accepted) ← attempt s i
    if accepted then .ok (t, true) else seek attempt t rest

/-- What is known of every attempt gives what is known of the whole round: the first place that
accepts takes it, and all places before it refuse. -/
lemma seek_spec {attempt : σ → ι → Except ε (σ × Bool)} {Before : σ → Prop}
    {Accepts : ι → Prop} {After : ι → σ → Prop} {is : List ι}
    (accept : ∀ s, Before s → ∀ i ∈ is, Accepts i → ∃ t, attempt s i = .ok (t, true) ∧ After i t)
    (refuse : ∀ s, Before s → ∀ i ∈ is, ¬ Accepts i → ∃ t, attempt s i = .ok (t, false) ∧ Before t)
    {s : σ} (start : Before s) :
    (∃ t, seek attempt s is = .ok (t, false) ∧ Before t ∧ ∀ i ∈ is, ¬ Accepts i) ∨
      ∃ before i after t, is = before ++ i :: after ∧ (∀ j ∈ before, ¬ Accepts j) ∧ Accepts i ∧
        seek attempt s is = .ok (t, true) ∧ After i t := by
  induction is generalizing s with
  | nil => exact .inl ⟨s, rfl, start, by simp⟩
  | cons i rest ih =>
    by_cases accepts : Accepts i
    · obtain ⟨t, tried, after⟩ := accept s start i mem_cons_self accepts
      refine .inr ⟨[], i, rest, t, rfl, by simp, accepts, ?_, after⟩
      rw [seek, tried]
      rfl
    · obtain ⟨t, tried, kept⟩ := refuse s start i mem_cons_self accepts
      have goes : seek attempt s (i :: rest) = seek attempt t rest := by
        rw [seek, tried]
        rfl
      rw [goes]
      rcases ih (fun s h j member => accept s h j (mem_cons_of_mem i member))
        (fun s h j member => refuse s h j (mem_cons_of_mem i member)) kept with
        ⟨u, ended, last, none⟩ | ⟨before, j, after, u, split, refused, taken, ended, last⟩
      · exact .inl ⟨u, ended, last, forall_mem_cons.mpr ⟨accepts, none⟩⟩
      · refine .inr ⟨i :: before, j, after, u, ?_, ?_, taken, ended, last⟩
        · rw [split, cons_append]
        · exact forall_mem_cons.mpr ⟨accepts, refused⟩
end RoundRobin
namespace CyclicScan
open Machine.Checked
variable {α : Type u}

structure Rota (α : Type u) where
  items : List α := []
  next : Nat := 0
  valid : next < items.length ∨ next = 0 := by decide

namespace Rota
variable (r : Rota α)
def view : List α := r.items.rotate r.next

def push (a : α) : Rota α where
  items := r.items ++ [a]
  next := r.next
  valid := by
    rw [length_append, length_singleton]
    rcases r.valid with inside | zero
    · exact .inl (by omega)
    · exact .inr zero

/-- Delete the item at an index. The cursor stays on its item, or goes to the front if it was at
the end. -/
def removeAt (i : Nat) : Rota α :=
  if i < r.items.length then
    let items := r.items.eraseIdx i
    let next := if i < r.next then r.next - 1 else r.next
    if inside : next < items.length then ⟨items, next, .inl inside⟩ else ⟨items, 0, .inr rfl⟩
  else r

def turnTo (i : Nat) (inside : i < r.items.length) : Rota α where
  items := r.items
  next := (i + 1) % r.items.length
  valid := .inl (Nat.mod_lt _ (by omega))

@[simp] lemma length_view : r.view.length = r.items.length := length_rotate _ _

variable {r : Rota α}
lemma le_length (r : Rota α) : r.next ≤ r.items.length := by
  rcases r.valid with inside | zero
  · exact inside.le
  · exact zero ▸ Nat.zero_le _

lemma view_eq (r : Rota α) : r.view = r.items.drop r.next ++ r.items.take r.next :=
  rotate_eq_drop_append_take r.le_length

lemma getElem?_place {k} (r : Rota α) (inside : k < r.items.length) :
    r.items[(r.next + k) % r.items.length]? = r.view[k]? := by
  rw [view, getElem?_rotate inside, Nat.add_comm]

variable {i : Nat}
lemma items_removeAt (inside : i < r.items.length) : (r.removeAt i).items = r.items.eraseIdx i := by
  rw [removeAt, if_pos inside]
  dsimp only
  split_ifs <;> rfl

lemma next_removeAt_before (before : i < r.next) : (r.removeAt i).next = r.next - 1 := by
  have start : r.next < r.items.length := by
    rcases r.valid with below | zero
    · exact below
    · exact absurd (zero ▸ before) (Nat.not_lt_zero i)
  have inside : r.next - 1 < (r.items.eraseIdx i).length := by
    rw [length_eraseIdx_of_lt (before.trans start)]
    omega
  rw [removeAt, if_pos (before.trans start)]
  simp only [if_pos before, dif_pos inside]

lemma next_removeAt_behind (behind : r.next ≤ i) (inside : i < r.items.length) :
    (r.removeAt i).next = if r.next < (r.items.eraseIdx i).length then r.next else 0 := by
  rw [removeAt, if_pos inside]
  simp only [if_neg (not_lt.mpr behind)]
  split_ifs <;> rfl

lemma view_removeAt {k} (r : Rota α) (inside : k < r.items.length) :
    (r.removeAt ((r.next + k) % r.items.length)).view = r.view.eraseIdx k := by
  have start : r.next < r.items.length := by
    rcases r.valid with below | zero
    · exact below
    · exact zero ▸ Nat.lt_of_le_of_lt (Nat.zero_le k) inside
  have place : (r.next + k) % r.items.length < r.items.length := Nat.mod_lt _ (by omega)
  have front : (r.items.take r.next).length = r.next := length_take_of_le start.le
  have back : (r.items.drop r.next).length = r.items.length - r.next := length_drop
  have whole : r.items.take r.next ++ r.items.drop r.next = r.items :=
    take_append_drop r.next r.items
  rw [view_eq, view_eq, items_removeAt place]
  by_cases wraps : r.next + k < r.items.length
  · -- the place is at or behind the cursor
    rw [Nat.mod_eq_of_lt wraps] at place ⊢
    have split : r.items.eraseIdx (r.next + k) =
        r.items.take r.next ++ (r.items.drop r.next).eraseIdx k := by
      have cut := eraseIdx_append_of_length_le (l := r.items.take r.next) (k := r.next + k)
        (by omega) (r.items.drop r.next)
      rwa [whole, front, Nat.add_sub_cancel_left] at cut
    rw [next_removeAt_behind (Nat.le_add_right _ _) place,
      eraseIdx_append_of_lt_length (by omega), split]
    split_ifs with shorter
    · rw [drop_left' front, take_left' front]
    · -- the cursor was on the last item, which is the one that goes
      have last : (r.items.drop r.next).eraseIdx k = [] := by
        rw [length_append, front] at shorter
        exact length_eq_zero_iff.mp (by omega)
      rw [last, drop_zero, take_zero, append_nil, append_nil, nil_append]
  · -- the place is before the cursor
    have wrapped : (r.next + k) % r.items.length = r.next + k - r.items.length := by
      rw [Nat.mod_eq_sub_mod (by omega), Nat.mod_eq_of_lt (by omega)]
    have before : r.next + k - r.items.length < r.next := by omega
    rw [wrapped, next_removeAt_before before]
    have split : r.items.eraseIdx (r.next + k - r.items.length) =
        (r.items.take r.next).eraseIdx (r.next + k - r.items.length) ++ r.items.drop r.next := by
      have cut := eraseIdx_append_of_lt_length (l := r.items.take r.next)
        (k := r.next + k - r.items.length) (by omega) (r.items.drop r.next)
      rwa [whole] at cut
    have shorter : ((r.items.take r.next).eraseIdx (r.next + k - r.items.length)).length =
        r.next - 1 := by
      rw [length_eraseIdx_of_lt (by omega), front]
    rw [split, drop_left' shorter, take_left' shorter,
      eraseIdx_append_of_length_le (by omega), back]
    congr 2
    omega

lemma view_turnTo (r : Rota α) (k : Nat) (inside : (r.next + k) % r.items.length < r.items.length) :
    (r.turnTo ((r.next + k) % r.items.length) inside).view = r.view.rotate (k + 1) := by
  rw [view, view, turnTo, rotate_mod, rotate_rotate, ← rotate_mod r.items (_ + 1),
    Nat.mod_add_mod, rotate_mod, Nat.add_assoc]
end Rota

inductive Verdict where
  | dead | pass | take
  deriving DecidableEq

variable {σ : Type u}

/-- How a scan ended: with which entry, what is left, and which entries it examined and found
alive. -/
structure Scanned (σ α : Type u) where
  found : Option α
  rota : Rota α
  state : σ
  seen : List α

/-- Scan from the cursor. `scanned` entries have been gone past, `left` more are to be looked at;
a deleted entry counts as looked at, and the next one moves up to its place. -/
def scan (visit : σ → α → Verdict × σ) : Nat → Nat → Rota α → σ → Except Panic (Scanned σ α)
  | 0, _, r, s => .ok ⟨none, r, s, []⟩
  | left + 1, scanned, r, s =>
    if r.items.length = 0 then .ok ⟨none, r, s, []⟩
    else
      let idx := (r.next + scanned) % r.items.length
      if inside : idx < r.items.length then
        let entry := r.items.get ⟨idx, inside⟩
        match visit s entry with
        | (.dead, t) => scan visit left scanned (r.removeAt idx) t
        | (.pass, t) => do
          let rest ← scan visit left (scanned + 1) r t
          return { rest with seen := entry :: rest.seen }
        | (.take, t) => .ok ⟨some entry, r.turnTo idx inside, t, [entry]⟩
      else .error .indexOutOfRange

/-- The same over a plain list: which entry ends the scan, which ones were gone past, and what
was not looked at. -/
structure Swept (σ α : Type u) where
  found : Option α
  kept : List α
  rest : List α
  state : σ

def sweep (visit : σ → α → Verdict × σ) : List α → σ → Swept σ α
  | [], s => ⟨none, [], [], s⟩
  | a :: more, s =>
    match visit s a with
    | (.dead, t) => sweep visit more t
    | (.pass, t) => { sweep visit more t with kept := a :: (sweep visit more t).kept }
    | (.take, t) => ⟨some a, [], more, t⟩

/-- The scan goes once through the order of service: what it ends with, what it examined, and
what is left to serve. It never leaves the list. -/
lemma scan_eq_sweep (visit : σ → α → Verdict × σ) (todo passed : List α) (r : Rota α) (s : σ)
    (order : r.view = passed ++ todo) :
    ∃ after, scan visit todo.length passed.length r s =
        .ok ⟨(sweep visit todo s).found, after, (sweep visit todo s).state,
          (sweep visit todo s).kept ++ (sweep visit todo s).found.toList⟩ ∧
      after.view = (sweep visit todo s).rest ++ passed ++ (sweep visit todo s).kept ++
        (sweep visit todo s).found.toList := by
  induction todo generalizing passed r s with
  | nil =>
    refine ⟨r, rfl, ?_⟩
    rw [order]
    simp [sweep]
  | cons a more ih =>
    have size : r.items.length = passed.length + (more.length + 1) := by
      rw [← r.length_view, order, length_append, length_cons]
    have inside : (r.next + passed.length) % r.items.length < r.items.length :=
      Nat.mod_lt _ (by omega)
    have here : r.items.get ⟨(r.next + passed.length) % r.items.length, inside⟩ = a := by
      have looked := r.getElem?_place (k := passed.length) (by omega)
      rw [order, getElem?_append_right (Nat.le_refl _), Nat.sub_self, getElem?_cons_zero] at looked
      exact (List.getElem?_eq_some_iff.mp looked).2
    have opens : scan visit (a :: more).length passed.length r s =
        match visit s a with
        | (.dead, t) => scan visit more.length passed.length
            (r.removeAt ((r.next + passed.length) % r.items.length)) t
        | (.pass, t) => do
          let rest ← scan visit more.length (passed.length + 1) r t
          return { rest with seen := a :: rest.seen }
        | (.take, t) => .ok ⟨some a,
            r.turnTo ((r.next + passed.length) % r.items.length) inside, t, [a]⟩ := by
      rw [length_cons, scan, if_neg (by omega)]
      dsimp only
      rw [dif_pos inside, here]
    rw [opens, sweep]
    rcases judged : visit s a with ⟨verdict, t⟩
    cases verdict with
    | dead =>
      have removed : (r.removeAt ((r.next + passed.length) % r.items.length)).view =
          passed ++ more := by
        rw [r.view_removeAt (by omega), order, eraseIdx_append_of_length_le
          (Nat.le_refl _), Nat.sub_self, eraseIdx_cons_zero]
      exact ih passed _ t removed
    | pass =>
      obtain ⟨after, ended, left⟩ := ih (passed ++ [a]) r t (by rw [order]; simp)
      rw [length_append, length_singleton] at ended
      refine ⟨after, ?_, ?_⟩
      · dsimp only
        rw [ended]
        rfl
      · rw [left]
        simp
    | take =>
      refine ⟨_, rfl, ?_⟩
      rw [Rota.view_turnTo, order]
      have cut : passed ++ a :: more = (passed ++ [a]) ++ more := by simp
      rw [cut, show passed.length + 1 = (passed ++ [a]).length by simp, rotate_append_length_eq]
      simp

/-- A sweep whose verdicts do not depend on what it has done so far ends with the first entry
that is to be taken and keeps the living ones before it. -/
lemma sweep_spec {visit : σ → α → Verdict × σ} {verdict : α → Verdict} {Inv : σ → Prop}
    (judge : ∀ s a, Inv s → (visit s a).1 = verdict a)
    (preserve : ∀ s a, Inv s → verdict a ≠ .take → Inv (visit s a).2) (todo : List α) {s : σ}
    (start : Inv s) :
    ((∀ a ∈ todo, verdict a ≠ .take) ∧ Inv (sweep visit todo s).state ∧
      sweep visit todo s = ⟨none, todo.filter (verdict · = .pass), [],
        (sweep visit todo s).state⟩) ∨
    ∃ before a after t, todo = before ++ a :: after ∧ (∀ b ∈ before, verdict b ≠ .take) ∧
      verdict a = .take ∧ Inv t ∧
      sweep visit todo s = ⟨some a, before.filter (verdict · = .pass), after, (visit t a).2⟩ := by
  induction todo generalizing s with
  | nil => exact .inl ⟨by simp, start, rfl⟩
  | cons a more ih =>
    have judged := judge s a start
    have onward := preserve s a start
    rw [sweep]
    rcases visited : visit s a with ⟨seen, t⟩
    rw [visited] at judged onward
    dsimp only at judged onward
    subst judged
    cases verdictA : verdict a with
    | dead | pass =>
      rw [verdictA] at onward
      rcases ih (onward (by decide)) with ⟨none, last, whole⟩ |
        ⟨before, b, after, u, split, earlier, taken, reached, whole⟩
      · refine .inl ⟨forall_mem_cons.mpr ⟨by simp [verdictA], none⟩, last, ?_⟩
        dsimp only
        rw [filter_cons, whole]
        simp [verdictA]
      · refine .inr ⟨a :: before, b, after, u, by rw [split, cons_append],
          forall_mem_cons.mpr ⟨by simp [verdictA], earlier⟩, taken, reached, ?_⟩
        dsimp only
        rw [filter_cons, whole]
        simp [verdictA]
    | take =>
      refine .inr ⟨[], a, more, s, rfl, by simp, verdictA, start, ?_⟩
      rw [visited]
      rfl
end CyclicScan
end Tamizdat.Machine
