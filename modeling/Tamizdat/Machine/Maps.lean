/- layer: library
   digest: Finite maps, the orders of a loop over them, sorted slices of keys, and files. -/

import Mathlib.Data.List.AList
import Mathlib.Data.List.Sort
import Mathlib.Tactic

set_option autoImplicit false
universe u v w

open List Option
namespace Tamizdat.Machine
namespace Maps
variable {κ : Type u} {ν : Type v}

/-- A map of the source language. Its iteration order carries no meaning. -/
abbrev GoMap (κ : Type u) (ν : Type v) := AList (fun _ : κ => ν)

variable (m : GoMap κ ν)
def size : Nat := m.entries.length

@[simp] lemma size_empty : size (∅ : GoMap κ ν) = 0 := rfl

lemma size_eq_keys : size m = m.keys.length := by
  simp [size, AList.keys, List.keys]

variable [DecidableEq κ]
lemma lookup_insert (k k' : κ) (v : ν) :
    (m.insert k v).lookup k' = if k' = k then some v else m.lookup k' := by
  split_ifs with same
  · subst same
    exact AList.lookup_insert m
  · exact AList.lookup_insert_ne same

lemma lookup_erase (k k' : κ) : (m.erase k).lookup k' = if k' = k then none else m.lookup k' := by
  split_ifs with same
  · subst same
    exact AList.lookup_erase _ m
  · exact AList.lookup_erase_ne same

variable {m : GoMap κ ν} {k : κ}
variable {v : ν}
lemma lookup_of_erase {k' : κ} (found : (m.erase k).lookup k' = some v) : m.lookup k' = some v := by
  rw [lookup_erase] at found
  split_ifs at found
  exact found

lemma size_erase_of_lookup (present : m.lookup k = some v) : size (m.erase k) + 1 = size m := by
  have member : k ∈ m.keys := by
    rw [AList.mem_keys.symm, ← AList.lookup_isSome, present]
    rfl
  have positive := length_pos_of_mem member
  rw [size_eq_keys, size_eq_keys, AList.keys_erase, length_erase_of_mem member]
  omega

lemma size_insert_of_lookup (v : ν) (absent : m.lookup k = none) :
    size (m.insert k v) = size m + 1 := by
  have missing : k ∉ m.keys := by
    rw [← AList.mem_keys, ← AList.lookup_eq_none]
    exact absent
  rw [size_eq_keys, size_eq_keys, AList.keys_insert, erase_of_not_mem missing, length_cons]

lemma size_insert_present {old} (v : ν) (present : m.lookup k = some old) :
    size (m.insert k v) = size m := by
  have fewer := size_erase_of_lookup present
  rw [size_eq_keys, AList.keys_insert, length_cons, ← AList.keys_erase, ← size_eq_keys]
  exact fewer

lemma mem_keys_iff : k ∈ m.keys ↔ ∃ v, m.lookup k = some v := by
  rw [← AList.mem_keys, ← AList.lookup_isSome, isSome_iff_exists]

lemma lookup_eq_none_of_size (empty : size m = 0) (k : κ) : m.lookup k = none := by
  have noKeys : m.keys = [] := by
    rw [size_eq_keys] at empty
    exact length_eq_zero_iff.mp empty
  rw [AList.lookup_eq_none, AList.mem_keys, noKeys]
  exact not_mem_nil

lemma size_erase_le (m : GoMap κ ν) (k : κ) : size (m.erase k) ≤ size m := by
  rw [size_eq_keys, size_eq_keys, AList.keys_erase]
  exact length_erase_le

def valuesAt (m : GoMap κ ν) (ks : List κ) : List ν := ks.filterMap m.lookup
def eraseAll (m : GoMap κ ν) (ks : List κ) : GoMap κ ν := ks.foldl (fun rest k => rest.erase k) m

lemma mem_valuesAt {ks} : v ∈ valuesAt m ks ↔ ∃ k ∈ ks, m.lookup k = some v := mem_filterMap

lemma lookup_eraseAll (m : GoMap κ ν) (ks : List κ) (k : κ) :
    (eraseAll m ks).lookup k = if k ∈ ks then none else m.lookup k := by
  induction ks generalizing m with
  | nil => rfl
  | cons head rest ih =>
    rw [show eraseAll m (head :: rest) = eraseAll (m.erase head) rest from rfl, ih, lookup_erase]
    by_cases later : k ∈ rest
    · simp [later]
    · by_cases same : k = head
      · simp [same]
      · simp [later, same]

lemma size_eraseAll_le (m : GoMap κ ν) (ks : List κ) : size (eraseAll m ks) ≤ size m := by
  induction ks generalizing m with
  | nil => exact le_rfl
  | cons head rest ih => exact (ih (m.erase head)).trans (size_erase_le m head)

variable (weight : ν → Nat)
variable (m : GoMap κ ν)
def total : Nat := (m.entries.map fun entry => weight entry.2).sum

lemma sum_kerase (l : List (Sigma fun _ : κ => ν)) (k : κ) :
    ((l.kerase k).map fun entry => weight entry.2).sum + ((l.dlookup k).map weight).getD 0 =
      (l.map fun entry => weight entry.2).sum := by
  induction l with
  | nil => rfl
  | cons entry rest ih =>
    obtain ⟨key, value⟩ := entry
    by_cases same : k = key
    · subst same
      simp only [kerase_cons_eq, dlookup_cons_eq, map_some, getD_some, map_cons, sum_cons]
      omega
    · rw [kerase_cons_ne same, dlookup_cons_ne _ _ same]
      simp only [map_cons, sum_cons]
      omega

lemma total_insert (k : κ) (v : ν) :
    total weight (m.insert k v) + ((m.lookup k).map weight).getD 0 = total weight m + weight v := by
  have erased := sum_kerase weight m.entries k
  have inserted : total weight (m.insert k v) =
      weight v + ((m.entries.kerase k).map fun entry => weight entry.2).sum := by
    rw [total, show (m.insert k v).entries = ⟨k, v⟩ :: m.entries.kerase k from rfl, map_cons,
      sum_cons]
  rw [inserted]
  simp only [total, AList.lookup] at erased ⊢
  omega

lemma weight_le_total (found : m.lookup k = some v) : weight v ≤ total weight m := by
  have erased := sum_kerase weight m.entries k
  have present : m.entries.dlookup k = some v := found
  rw [present] at erased
  simp only [map_some, getD_some] at erased
  rw [total]
  omega
end Maps
namespace MapOrder
open Machine.Maps
variable {κ : Type u} {ν : Type v} {γ : Type w} [DecidableEq κ]
def Visits (m : GoMap κ ν) (order : List κ) : Prop := order.Perm m.keys

def firstMatch (m : GoMap κ ν) (f : κ → ν → Option γ) (order : List κ) : Option γ :=
  order.findSome? fun k => (m.lookup k).bind (f k)

variable {m : GoMap κ ν} {k : κ} {v : ν} {f : κ → ν → Option γ} {x : γ}
lemma visits_cons (found : m.lookup k = some v) : Visits m (k :: m.keys.erase k) :=
  (perm_cons_erase (mem_keys_iff.mpr ⟨v, found⟩)).symm

lemma firstMatch_cons (found : m.lookup k = some v) (result : f k v = some x) (rest : List κ) :
    firstMatch m f (k :: rest) = some x := by
  rw [firstMatch, findSome?_cons, found, bind_some, result]

lemma exists_of_firstMatch {order} (found : firstMatch m f order = some x) :
    ∃ k ∈ order, ∃ v, m.lookup k = some v ∧ f k v = some x := by
  obtain ⟨k, member, result⟩ := exists_of_findSome?_eq_some found
  obtain ⟨v, present, value⟩ := bind_eq_some_iff.mp result
  exact ⟨k, member, v, present, value⟩

lemma firstMatch_order_free_iff (m : GoMap κ ν) (f : κ → ν → Option γ) :
    (∀ order order', Visits m order → Visits m order' →
      firstMatch m f order = firstMatch m f order') ↔
    ∀ k k' v v' x x', m.lookup k = some v → m.lookup k' = some v' → f k v = some x →
      f k' v' = some x' → x = x' := by
  constructor
  · intro free k k' v v' x x' found found' result result'
    have same := free _ _ (visits_cons found) (visits_cons found')
    rw [firstMatch_cons found result, firstMatch_cons found' result'] at same
    exact some.inj same
  · intro agree order order' visits visits'
    have transfer : ∀ a b, Visits m a → Visits m b → ∀ x, firstMatch m f a = some x →
        firstMatch m f b = some x := by
      intro a b visitsA visitsB x found
      obtain ⟨k, member, v, present, result⟩ := exists_of_firstMatch found
      cases other : firstMatch m f b with
      | none =>
        have nothing := findSome?_eq_none_iff.mp other k
          (visitsB.mem_iff.mpr (visitsA.mem_iff.mp member))
        rw [present, bind_some, result] at nothing
        cases nothing
      | some y =>
        obtain ⟨k', -, v', present', result'⟩ := exists_of_firstMatch other
        rw [agree k k' v v' x y present present' result result']
    cases first : firstMatch m f order with
    | some x => exact (transfer order order' visits visits' x first).symm
    | none =>
      cases second : firstMatch m f order' with
      | none => rfl
      | some y => rw [transfer order' order visits' visits y second] at first; cases first
end MapOrder
namespace SortedKeys
open Machine.Maps
variable {κ : Type u} {ν : Type v} [LinearOrder κ]

/-- The slice is strictly increasing and lists exactly the keys of the map. -/
structure Lists (order : List κ) (m : GoMap κ ν) : Prop where
  increasing : order.Pairwise (· < ·)
  mem_iff : ∀ k, k ∈ order ↔ (m.lookup k).isSome = true

namespace Lists
variable {order : List κ} {m : GoMap κ ν} {k : κ}
lemma empty : Lists [] (∅ : GoMap κ ν) := by
  refine ⟨List.Pairwise.nil, ?_⟩
  intro k
  simp

variable (h : Lists order m)
include h
lemma nodup : order.Nodup := h.increasing.imp (fun less => less.ne)

lemma length_eq : order.length = size m := by
  have same : order.Perm m.keys := by
    rw [perm_ext_iff_of_nodup h.nodup m.keys_nodup]
    intro k
    rw [h.mem_iff, AList.lookup_isSome, AList.mem_keys]
  rw [size_eq_keys, same.length_eq]

lemma insert_new (absent : m.lookup k = none) (v : ν) :
    Lists ((order ++ [k]).insertionSort (· ≤ ·)) (m.insert k v) := by
  have same := perm_insertionSort (· ≤ ·) (order ++ [k])
  have fresh : k ∉ order := by
    rw [h.mem_iff, absent]
    simp
  have distinct : (order ++ [k]).Nodup :=
    h.nodup.append (nodup_singleton k) (disjoint_singleton.mpr fresh)
  constructor
  · have sorted := pairwise_insertionSort (· ≤ ·) (order ++ [k])
    have different : ((order ++ [k]).insertionSort (· ≤ ·)).Pairwise (· ≠ ·) :=
      same.nodup_iff.mpr distinct
    exact (sorted.and different).imp (fun both => lt_of_le_of_ne both.1 both.2)
  · intro k'
    rw [same.mem_iff, mem_append, mem_singleton, h.mem_iff, lookup_insert]
    split_ifs with new <;> simp [new]

lemma insert_present (present : (m.lookup k).isSome = true) (v : ν) :
    Lists order (m.insert k v) := by
  refine ⟨h.increasing, ?_⟩
  intro k'
  rw [h.mem_iff, lookup_insert]
  split_ifs with same
  · rw [same, present]
    rfl
  · rfl

lemma erase (k : κ) : Lists (order.erase k) (m.erase k) := by
  refine ⟨h.increasing.sublist erase_sublist, ?_⟩
  intro k'
  rw [h.nodup.mem_erase_iff, h.mem_iff, lookup_erase]
  split_ifs with same <;> simp [same]
end Lists
end SortedKeys
namespace Files
variable {ν : Type u} {β : Type v}

structure FileSystem (ν : Type u) (β : Type v) where
  entry : ν → Option Nat
  data : Nat → List β
  fresh : Nat
  bound : ∀ name inode, entry name = some inode → inode < fresh

/-- The contents after a write at an offset; a gap before the offset is filled with `hole`. -/
def overwrite (hole : β) (old : List β) (offset : Nat) (bytes : List β) : List β :=
  (old ++ List.replicate (offset - old.length) hole).take offset ++ bytes ++
    old.drop (offset + bytes.length)

open Function (update)
namespace FileSystem
variable (fs : FileSystem ν β)
variable (name : ν)
def read : Option (List β) := (fs.entry name).map fs.data
def Apart (a b : ν) : Prop := ∀ inode, fs.entry a = some inode → fs.entry b ≠ some inode

lemma read_of_other_inode {fs : FileSystem ν β} {b : ν} {inode : Nat} {bytes : List β}
    (elsewhere : fs.entry b ≠ some inode) :
    (fs.entry b).map (update fs.data inode bytes) = fs.read b := by
  unfold read
  cases named : fs.entry b with
  | none => rfl
  | some other =>
    have ne : other ≠ inode := by
      rintro rfl
      exact elsewhere named
    rw [map_some, map_some, Function.update_of_ne ne]

def writeAt (hole : β) (fs : FileSystem ν β) (inode offset : Nat) (bytes : List β) :
    FileSystem ν β :=
  { fs with data := update fs.data inode (overwrite hole (fs.data inode) offset bytes) }

lemma read_writeAt (hole : β) {fs : FileSystem ν β} {b : ν} {inode : Nat} (offset : Nat)
    (bytes : List β) (elsewhere : fs.entry b ≠ some inode) :
    (fs.writeAt hole inode offset bytes).read b = fs.read b :=
  read_of_other_inode elsewhere

variable [DecidableEq ν]
def remove : FileSystem ν β where
  entry := update fs.entry name none
  data := fs.data
  fresh := fs.fresh
  bound := by
    intro other inode named
    by_cases same : other = name
    · rw [same, Function.update_self] at named
      cases named
    · rw [Function.update_of_ne same] at named
      exact fs.bound other inode named

def allocate : FileSystem ν β where
  entry := update fs.entry name (some fs.fresh)
  data := update fs.data fs.fresh []
  fresh := fs.fresh + 1
  bound := by
    intro other inode named
    by_cases same : other = name
    · rw [same, Function.update_self, some.injEq] at named
      omega
    · rw [Function.update_of_ne same] at named
      exact Nat.lt_succ_of_lt (fs.bound other inode named)

/-- An existing file is truncated and keeps its inode. The handle is the inode. -/
def create : FileSystem ν β × Nat :=
  match fs.entry name with
  | some inode => ({ fs with data := update fs.data inode [] }, inode)
  | none => (fs.allocate name, fs.fresh)

def relink (source target : ν) (inode : Nat)
    (named : fs.entry source = some inode) : FileSystem ν β where
  entry := update (update fs.entry target (some inode)) source none
  data := fs.data
  fresh := fs.fresh
  bound := by
    intro other found listed
    by_cases old : other = source
    · rw [old, Function.update_self] at listed
      cases listed
    rw [Function.update_of_ne old] at listed
    by_cases new : other = target
    · rw [new, Function.update_self, some.injEq] at listed
      exact listed ▸ fs.bound source inode named
    · rw [Function.update_of_ne new] at listed
      exact fs.bound other found listed

def rename (source target : ν) : Option (FileSystem ν β) :=
  match named : fs.entry source with
  | none => none
  | some inode => some (fs.relink source target inode named)

variable {fs moved : FileSystem ν β} {a b : ν}
section
variable (fs : FileSystem ν β)

lemma entry_remove_of_ne (ne : b ≠ a) : (fs.remove a).entry b = fs.entry b := by
  simp [remove, ne]

lemma read_remove_of_ne (ne : b ≠ a) : (fs.remove a).read b = fs.read b := by
  rw [read, entry_remove_of_ne fs ne]
  rfl

lemma Apart.remove (a b : ν) : (fs.remove a).Apart a b := by
  intro inode named
  simp [FileSystem.remove] at named
end

lemma create_spec (apart : fs.Apart a b) (ne : b ≠ a) :
    (fs.create a).1.entry b = fs.entry b ∧ (fs.create a).1.read b = fs.read b ∧
      (fs.create a).1.entry b ≠ some (fs.create a).2 ∧ (fs.create a).1.Apart a b := by
  unfold create
  split
  case h_1 inode named =>
      have elsewhere := apart inode named
      exact ⟨rfl, read_of_other_inode elsewhere, elsewhere, apart⟩
  case h_2 unnamed =>
      have kept : (fs.allocate a).entry b = fs.entry b := by
        simp [allocate, ne]
      have elsewhere : fs.entry b ≠ some fs.fresh := by
        intro named
        exact absurd (fs.bound b fs.fresh named) (Nat.lt_irrefl _)
      refine ⟨kept, ?_, by rw [kept]; exact elsewhere, ?_⟩
      · rw [read, kept]
        exact read_of_other_inode elsewhere
      · intro inode named
        have fresh : fs.fresh = inode := by simpa [allocate] using named
        rw [kept, ← fresh]
        exact elsewhere

lemma rename_spec (renamed : fs.rename a b = some moved) (ne : b ≠ a) :
    moved.read b = fs.read a ∧ (fs.read a).isSome ∧ moved.Apart a b := by
  unfold rename at renamed
  split at renamed
  case h_1 => cases renamed
  case h_2 inode named =>
      cases renamed
      refine ⟨?_, ?_, ?_⟩
      · simp [read, relink, ne, named]
      · simp [read, named]
      · intro other listed
        simp [relink] at listed
end FileSystem
end Files
end Tamizdat.Machine
