/- source: internal/rulesdb/rulesdb.go, internal/localtun/policy.go
   digest: How the rules of a user are loaded, in the order of their priorities. -/

import Mathlib.Data.Prod.Lex
import Tamizdat.Localtun.Policy

set_option autoImplicit false

open List Option
namespace Tamizdat.Rulesdb
open Machine Routing Localtun

structure RuleRow where
  id : Int
  priority : Int
  outboundTag : Text
  matchJSON : Text
  enabled : Bool
  folderID : Option Int

structure FolderRow where
  priority : Int
  enabled : Bool

structure Tables where
  rules : List RuleRow
  folders : Int → Option FolderRow
  ids : rules.Pairwise fun a b => a.id ≠ b.id

structure Row where
  rule : RuleRow
  gp : Int
  ip : Int

variable (db : Tables)
def Tables.row (r : RuleRow) : Option Row :=
  if r.enabled = false then none
  else
    match r.folderID with
    | none => some ⟨r, r.priority, 0⟩
    | some folder => (db.folders folder).bind fun f =>
      if f.enabled then some ⟨r, f.priority, r.priority⟩ else none

def Row.key (row : Row) : Int ×ₗ Int ×ₗ Int := toLex (row.gp, toLex (row.ip, row.rule.id))
def Tables.rows : List Row := (db.rules.filterMap db.row).insertionSort fun a b => a.key ≤ b.key
def Tables.kept : List Row := db.rows.filter fun row => trimSpace row.rule.outboundTag ≠ []

def Row.load (unmarshal : Text → Option Match) (row : Row) : Except Int Loaded :=
  if trimSpace row.rule.matchJSON = [] then .ok ⟨row.gp, trimSpace row.rule.outboundTag, {}⟩
  else
    match unmarshal row.rule.matchJSON with
    | some m => .ok ⟨row.gp, trimSpace row.rule.outboundTag, m⟩
    | none => .error row.rule.id

def load (unmarshal : Text → Option Match) (db : Tables) : Except Int (List Loaded) :=
  db.kept.mapM (Row.load unmarshal)

/-- No rule of another folder and no ungrouped one stands between two rules of the folder. -/
def Together (folder : Int) (rows : List Row) : Prop :=
  ∀ a b c, [a, b, c].Sublist rows → a.rule.folderID = some folder → c.rule.folderID = some folder →
    b.rule.folderID = some folder

lemma row_spec {db : Tables} {r : RuleRow} {a : Row} (found : db.row r = some a) :
    a.rule = r ∧ ∀ folder, r.folderID = some folder →
      ∃ f, db.folders folder = some f ∧ a.gp = f.priority ∧ a.ip = r.priority := by
  obtain ⟨-, found⟩ := ite_none_left_eq_some.mp found
  split at found
  · next ungrouped =>
    cases found
    exact ⟨rfl, by simp [ungrouped]⟩
  · next folder inside =>
    obtain ⟨f, held, found⟩ := bind_eq_some_iff.mp found
    obtain ⟨-, ⟨⟩⟩ := ite_none_right_eq_some.mp found
    refine ⟨rfl, fun other same => ⟨f, ?_, rfl, rfl⟩⟩
    rw [some.inj (same.symm.trans inside), held]

lemma rows_increasing : db.rows.Pairwise fun a b => a.key < b.key := by
  have sorted : db.rows.Pairwise fun a b => a.key ≤ b.key := pairwise_insertionSort _ _
  have distinct : db.rows.Pairwise fun a b => a.rule.id ≠ b.rule.id := by
    refine ((perm_insertionSort _ _).pairwise_iff Ne.symm).mpr ?_
    refine List.Pairwise.filterMap _ ?_ db.ids
    intro r s different a first b second
    rw [(row_spec first).1, (row_spec second).1]
    exact different
  refine (sorted.and distinct).imp fun {a b} both => lt_of_le_of_ne both.1 fun same => both.2 ?_
  exact congrArg (fun key => (ofLex (ofLex key).2).2) same

lemma key_of_folder {db : Tables} {a : Row} (member : a ∈ db.kept) {folder : Int}
    (inside : a.rule.folderID = some folder) :
    ∃ f, db.folders folder = some f ∧ a.gp = f.priority ∧ a.ip = a.rule.priority := by
  have listed := (perm_insertionSort _ _).mem_iff.mp (mem_filter.mp member).1
  obtain ⟨r, -, found⟩ := mem_filterMap.mp listed
  obtain ⟨rfl, foldered⟩ := row_spec found
  exact foldered folder inside

lemma sublist_of_increasing {rows : List Row} {a b c : Row}
    (order : rows.Pairwise fun a b => a.key < b.key)
    (first : a ∈ rows) (second : b ∈ rows) (third : c ∈ rows) (ab : a.key < b.key)
    (bc : b.key < c.key) : [a, b, c].Sublist rows := by
  have increasing : [a, b, c].Pairwise fun a b => a.key < b.key := by simp [ab, bc, ab.trans bc]
  refine sublist_of_subperm_of_pairwise (subperm_of_subset ?_ ?_) increasing order
  · exact increasing.imp fun less same => less.ne (congrArg Row.key same)
  · simp [first, second, third]

open Prod.Lex (toLex_lt_toLex)

/-- The rows are loaded one by one; those of a folder come in the order of their priorities; and
they stay together if and only if no other row with the folder's own priority falls between two of
them by its priority and id. -/
theorem folder_together_iff (unmarshal : Text → Option Match) (db : Tables) (folder : Int) :
    (Together folder db.kept ↔ ∀ a ∈ db.kept, ∀ b ∈ db.kept, ∀ c ∈ db.kept,
        a.rule.folderID = some folder → c.rule.folderID = some folder → b.gp = a.gp →
        toLex (a.ip, a.rule.id) < toLex (b.ip, b.rule.id) →
        toLex (b.ip, b.rule.id) < toLex (c.ip, c.rule.id) → b.rule.folderID = some folder) ∧
      (db.kept.Pairwise fun a b => a.rule.folderID = some folder →
        b.rule.folderID = some folder → a.rule.priority ≤ b.rule.priority) ∧
      ∀ out, load unmarshal db = .ok out →
        List.Forall₂ (fun row loaded => row.load unmarshal = .ok loaded) db.kept out := by
  have order : db.kept.Pairwise fun a b => a.key < b.key := (rows_increasing db).filter _
  have level : ∀ a ∈ db.kept, ∀ b ∈ db.kept, a.rule.folderID = some folder →
      b.rule.folderID = some folder → a.gp = b.gp ∧ a.ip = a.rule.priority := by
    intro a first b second inA inB
    obtain ⟨f, held, gp, ip⟩ := key_of_folder first inA
    obtain ⟨g, also, gp', -⟩ := key_of_folder second inB
    obtain rfl := some.inj (held.symm.trans also)
    exact ⟨gp.trans gp'.symm, ip⟩
  refine ⟨⟨?_, ?_⟩, ?_, ?_⟩
  · intro together a first b second c third inA inC tied ab bc
    have top := (level a first c third inA inC).1
    refine together a b c (sublist_of_increasing order first second third ?_ ?_) inA inC
    · exact toLex_lt_toLex.mpr (.inr ⟨tied.symm, ab⟩)
    · exact toLex_lt_toLex.mpr (.inr ⟨tied.trans top, bc⟩)
  · intro apart a b c between inA inC
    obtain ⟨first, second, third⟩ : a ∈ db.kept ∧ b ∈ db.kept ∧ c ∈ db.kept :=
      ⟨between.subset (by simp), between.subset (by simp), between.subset (by simp)⟩
    obtain ⟨⟨ab, -⟩, bc, -⟩ : (a.key < b.key ∧ a.key < c.key) ∧ b.key < c.key ∧ True := by
      simpa using order.sublist between
    have top := (level a first c third inA inC).1
    rcases toLex_lt_toLex.mp ab with less | ⟨tied, low⟩
    · rcases toLex_lt_toLex.mp bc with more | ⟨tied, -⟩ <;> dsimp only at * <;> omega
    · rcases toLex_lt_toLex.mp bc with more | ⟨-, high⟩
      · omega
      · exact apart a first b second c third inA inC tied.symm low high
  · refine List.Pairwise.imp_of_mem ?_ order
    intro a b first second less inA inB
    obtain ⟨top, own⟩ := level a first b second inA inB
    have own' := (level b second a first inB inA).2
    rcases toLex_lt_toLex.mp less with less | ⟨-, low⟩
    · omega
    · rcases toLex_lt_toLex.mp low with low | ⟨low, -⟩ <;> dsimp only at low <;> omega
  · intro out done
    rw [load] at done
    generalize db.kept = rows at done ⊢
    induction rows generalizing out with
    | nil =>
      cases done
      exact .nil
    | cons row rows ih =>
      obtain ⟨loaded, rest, first, later, rfl⟩ := Folds.mapM_cons_ok.mp done
      exact .cons first (ih rest later)

def tied : Tables where
  rules := [⟨1, 1, ['x'], [], true, some 1⟩, ⟨2, 2, ['y'], [], true, some 2⟩,
    ⟨3, 3, ['z'], [], true, some 1⟩]
  folders := fun _ => some ⟨10, true⟩
  ids := by decide

theorem tied_folders_interleave :
    tied.kept.map (·.rule.folderID) = [some 1, some 2, some 1] ∧ ¬ Together 1 tied.kept := by
  refine ⟨by decide +kernel, fun together => ?_⟩
  cases together _ _ _ (List.Sublist.refl _) rfl rfl
end Tamizdat.Rulesdb
