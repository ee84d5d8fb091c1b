/- source: internal/userdb/accounting.go; pkg/tamizdat/server.go
   digest: What a step of any call does to the bytes and to the budget of one user. -/

import Tamizdat.Userdb.Accounting

set_option autoImplicit false

open List Option
namespace Tamizdat.Userdb.BudgetSteps
open Machine Pool Userdb.Accounting Userdb.Conservation
open Userdb.Quota (UserRow)
abbrev mine (user : Text) : Slot := slotOf (.user user)
def bytes (amount : Amount) : Int := amount.1 + amount.2

@[simp] lemma bytes_zero : bytes 0 = 0 := rfl

@[simp] lemma bytes_add (a b : Amount) : bytes (a + b) = bytes a + bytes b := by
  simp only [bytes, Prod.fst_add, Prod.snd_add]
  ring

def publishOf : Call → Option Publish
  | .flush (.refresh publish _ _) => some publish
  | .reloadUsers publish _ => publish
  | _ => none

def owner : Publish → Text
  | .query user => user
  | .load user _ => user
  | .publish user _ _ => user
  | .store user _ _ => user
  | .reset user => user

def Reading (user : Text) (publish : Publish) : Prop := owner publish = user ∧ publish ≠ .query user
deriving Decidable

lemma not_reading_query (user other : Text) : ¬ Reading user (.query other) := by
  rintro ⟨rfl, later⟩
  exact later rfl

section
variable (user : Text)
def underway : Call → Nat
  | .add other _ _ _ stage => if other = user ∧ stage ≠ .lock then 1 else 0
  | _ => 0

/-- Calls of `Add` that are about to invoke `onOverrun`, or to find that it was invoked. -/
def awaiting : Call → Nat
  | .add other _ _ _ stage => if other = user ∧ (stage = .fire ∨ stage = .invoke) then 1 else 0
  | _ => 0

def invoking : Call → Nat
  | .add other _ _ _ stage => if other = user ∧ stage = .invoke then 1 else 0
  | _ => 0

def finished : Call → Nat
  | .add other _ _ _ stage => if other = user ∧ stage = .checked then 1 else 0
  | _ => 0

/-- The bytes that an `Add` has counted and not yet taken off the budget. -/
def outstanding (up down : Int) : AddStage → Int
  | .count todo => up + down - bytes (weigh (mine user) todo)
  | .load => up + down
  | .peek _ => up + down
  | .deduct _ => up + down
  | _ => 0

def owed : Call → Int
  | .add other _ up down stage => if other = user then outstanding user up down stage else 0
  | _ => 0

def publishing (call : Call) : Nat :=
  match publishOf call with
  | some publish => if Reading user publish then 1 else 0
  | none => 0

def resetting (call : Call) : Nat := if publishOf call = some (.reset user) then 1 else 0

variable {user}
lemma invoking_le_awaiting (call : Call) : invoking user call ≤ awaiting user call := by
  unfold invoking awaiting
  split
  · split_ifs <;> simp_all
  · exact le_rfl

lemma resetting_le_publishing (call : Call) : resetting user call ≤ publishing user call := by
  unfold resetting publishing
  split_ifs with reset
  · simp [reset, Reading, owner]
  · exact Nat.zero_le _

lemma idle_of_not_underway {call} (idle : underway user call = 0) :
    owed user call = 0 ∧ awaiting user call = 0 ∧ invoking user call = 0 ∧
      finished user call = 0 := by
  cases call with
  | add other session up down stage =>
    simp only [underway, ite_eq_right_iff, one_ne_zero, imp_false, not_and, not_not] at idle
    by_cases own : other = user
    · simp [idle own, owed, outstanding, awaiting, invoking, finished]
    · simp [own, owed, awaiting, invoking, finished]
  | _ => exact ⟨rfl, rfl, rfl, rfl⟩

lemma census_set {i} {calls : List Call} {call next : Call} (here : calls[i]? = some call)
    (idle : underway user call = 0) (idle' : underway user next = 0) :
    total (underway user) (calls.set i next) = total (underway user) calls ∧
      total (owed user) (calls.set i next) = total (owed user) calls ∧
      total (awaiting user) (calls.set i next) = total (awaiting user) calls ∧
      total (invoking user) (calls.set i next) = total (invoking user) calls ∧
      total (finished user) (calls.set i next) = total (finished user) calls := by
  have before := idle_of_not_underway idle
  have later := idle_of_not_underway idle'
  refine ⟨?_, ?_, ?_, ?_, ?_⟩ <;> apply total_set_eq _ here
  · rw [idle, idle']
  · rw [before.1, later.1]
  · rw [before.2.1, later.2.1]
  · rw [before.2.2.1, later.2.2.1]
  · rw [before.2.2.2, later.2.2.2]
end

def flushHand : Call → List Item
  | .flush stage => inHand (.flush stage)
  | _ => []

def Clear (user : Text) (call : Call) : Prop :=
  ∀ item ∈ flushHand call, item.slot = mine user → item.amount = 0
deriving Decidable

lemma clear_of_empty {call user} (empty : flushHand call = []) : Clear user call := by
  intro item member
  rw [empty] at member
  exact absurd member not_mem_nil

lemma weigh_of_zero {items slot} (zero : ∀ item ∈ items, item.slot = slot → item.amount = 0) :
    weigh slot items = 0 := by
  apply total_of_light
  intro item inside
  simpa only [ite_eq_right_iff] using zero item inside

/-- Every cell that an `Add` has loaded is the one that is published. -/
def AddStage.At (k : Nat) : AddStage → Prop
  | .peek cell => cell = k
  | .deduct cell => cell = k
  | _ => True

/-- A refresh stores into the cell that is published, and makes no new one. -/
def Publish.At (user : Text) (k : Nat) : Publish → Prop
  | .publish other _ _ => other ≠ user
  | .store other _ cell => other = user → cell = k
  | _ => True

def Foreign (user : Text) (call : Call) : Prop := ∀ item ∈ inHand call, item.slot ≠ mine user

/-- What is known of a running call when the budget of the user lives in cell `k`. -/
def Fits (user : Text) (k : Nat) : Call → Prop
  | .add other session up down stage =>
    if other = user then 0 < up + down ∧ AddStage.At k stage
    else Foreign user (.add other session up down stage)
  | .addOutbound tag up down stage => Foreign user (.addOutbound tag up down stage)
  | .flush stage => ∀ publish, publishOf (.flush stage) = some publish → Publish.At user k publish
  | .reloadUsers publish _ => ∀ p, publish = some p → Publish.At user k p
  | .returned => True

/-- A step that leaves the budget of the user alone: it moves bytes of the user between the
database, the counter and a flush, or it is about somebody else. -/
structure Elsewhere (user : Text) (k : Nat) (m : Shared) (call : Call)
    (after : Shared × Call) : Prop where
  budget : after.1.budgets user = m.budgets user
  quota : after.1.quota = m.quota
  present : (after.1.rows.lookup (.user user)).isSome = (m.rows.lookup (.user user)).isSome
  worth : (m.rows.lookup (.user user)).isSome →
    worth after.1 (.user user) + weigh (mine user) (flushHand after.2) =
      worth m (.user user) + weigh (mine user) (flushHand call)
  clear : m.counter (mine user) = 0 → Clear user call →
    after.1.counter (mine user) = 0 ∧ Clear user after.2
  idle : underway user call = 0 ∧ publishing user call = 0
  idle' : underway user after.2 = 0 ∧ publishing user after.2 = 0
  fits : Fits user k after.2

variable {user : Text} {k : Nat} {m : Shared} {call : Call} {after : Shared × Call}
lemma elsewhere_of_keep (fits : Fits user k after.2)
    (idle : underway user call = 0 ∧ publishing user call = 0 := by exact ⟨rfl, rfl⟩)
    (idle' : underway user after.2 = 0 ∧ publishing user after.2 = 0 := by exact ⟨rfl, rfl⟩)
    (counter : after.1.counter (mine user) = m.counter (mine user) := by rfl)
    (rows : after.1.rows = m.rows := by rfl)
    (budget : after.1.budgets user = m.budgets user := by rfl)
    (quota : after.1.quota = m.quota := by rfl) (hand : flushHand call = [] := by rfl)
    (hand' : flushHand after.2 = [] := by rfl) : Elsewhere user k m call after where
  budget := budget
  quota := quota
  present := by rw [rows]
  worth := by
    intro _
    rw [hand, hand', Conservation.worth, Conservation.worth, rows, counter]
  clear := by
    intro zero _
    exact ⟨counter.trans zero, clear_of_empty hand'⟩
  idle := idle
  idle' := idle'
  fits := fits

variable {other : Text}
lemma budget_setBudget_ne (apart : other ≠ user) (budget : Budget) :
    (m.setBudget other budget).budgets user = m.budgets user :=
  Function.update_of_ne (Ne.symm apart) _ _

variable {up down : Int} {m' : Shared}
lemma elsewhere_add {session stage' stage} (apart : other ≠ user)
    (foreign : Foreign user (.add other session up down stage'))
    (budget : m'.budgets user = m.budgets user := by rfl) (quota : m'.quota = m.quota := by rfl)
    (rows : m'.rows = m.rows := by rfl)
    (counter : m'.counter (mine user) = m.counter (mine user) := by rfl) :
    Elsewhere user k m (.add other session up down stage)
      (m', .add other session up down stage') := by
  refine elsewhere_of_keep ?_ ?_ ?_ counter rows budget quota
  · simpa [Fits, apart] using foreign
  · exact ⟨by simp [underway, apart], rfl⟩
  · exact ⟨by simp [underway, apart], rfl⟩

lemma foreign_of_empty (empty : inHand call = []) : Foreign user call := by
  intro item member
  rw [empty] at member
  exact absurd member not_mem_nil

lemma counter_deposit_ne {item} (other : item.slot ≠ mine user) :
    (m.deposit item).counter (mine user) = m.counter (mine user) := by
  rw [counter_deposit, weigh_singleton, if_neg other, add_zero]

lemma advanceAdd_elsewhere {session stage} (apart : other ≠ user)
    (foreign : Foreign user (.add other session up down stage))
    (moved : advanceAdd m other session up down stage = some after) :
    Elsewhere user k m (.add other session up down stage) after := by
  cases stage with
  | lock =>
    simp only [advanceAdd, ite_none_left_eq_some, some.injEq] at moved
    obtain ⟨-, rfl⟩ := moved
    obtain ⟨counter, rows, budgets, quota⟩ := createAll m (addSlots other session) (mine user)
    exact elsewhere_add apart foreign (by rw [budgets]) quota rows counter
  | count todo =>
    cases todo with
    | nil =>
      cases moved
      exact elsewhere_add apart (foreign_of_empty rfl)
    | cons item todo =>
      cases moved
      have ours : item.slot ≠ mine user := foreign item mem_cons_self
      exact elsewhere_add apart
        (fun later member => foreign later (mem_cons_of_mem item member)) rfl rfl rfl
        (counter_deposit_ne ours)
  | load =>
    simp only [advanceAdd] at moved
    split at moved <;> obtain rfl := some.inj moved <;>
      exact elsewhere_add apart (foreign_of_empty rfl)
  | peek cell =>
    obtain ⟨cur, -, rfl⟩ := map_eq_some_iff.mp moved
    refine elsewhere_add apart (foreign_of_empty ?_)
    split_ifs <;> rfl
  | deduct cell =>
    obtain ⟨cur, -, rfl⟩ := map_eq_some_iff.mp moved
    refine elsewhere_add apart (foreign_of_empty ?_) (budget_setBudget_ne apart _)
    split_ifs <;> rfl
  | fire =>
    simp only [advanceAdd] at moved
    split_ifs at moved <;> cases moved
    · exact elsewhere_add apart (foreign_of_empty rfl)
    · exact elsewhere_add apart (foreign_of_empty rfl) (budget_setBudget_ne apart _)
  | invoke =>
    cases moved
    exact elsewhere_add apart (foreign_of_empty rfl) (budget_setBudget_ne apart _)
  | checked =>
    cases moved
    exact elsewhere_of_keep trivial ⟨by simp [underway, apart], rfl⟩

lemma advanceOutbound_elsewhere {tag stage}
    (foreign : Foreign user (.addOutbound tag up down stage))
    (moved : advanceOutbound m tag up down stage = some after) :
    Elsewhere user k m (.addOutbound tag up down stage) after := by
  cases stage with
  | lock =>
    simp only [advanceOutbound, ite_none_left_eq_some, some.injEq] at moved
    obtain ⟨-, rfl⟩ := moved
    obtain ⟨counter, rows, budgets, quota⟩ := createAll m (outboundSlots tag) (mine user)
    exact elsewhere_of_keep foreign ⟨rfl, rfl⟩ ⟨rfl, rfl⟩ counter rows (by rw [budgets]) quota
  | count todo =>
    cases todo with
    | nil =>
      cases moved
      exact elsewhere_of_keep trivial
    | cons item todo =>
      cases moved
      have ours : item.slot ≠ mine user := foreign item mem_cons_self
      exact elsewhere_of_keep (fun later member => foreign later (mem_cons_of_mem item member))
        ⟨rfl, rfl⟩ ⟨rfl, rfl⟩ (counter_deposit_ne ours)

lemma idle_of_outset (outset : Outset call) :
    underway user call = 0 ∧ publishing user call = 0 := by
  cases call with
  | flush stage =>
    cases stage with
    | refresh publish name users =>
      obtain rfl : publish = .query name := outset
      exact ⟨rfl, by simp [publishing, publishOf, not_reading_query]⟩
    | _ => exact ⟨rfl, rfl⟩
  | returned => exact ⟨rfl, rfl⟩
  | _ => exact outset.elim

lemma fits_of_outset (outset : Outset call) : Fits user k call := by
  cases call with
  | flush stage =>
    intro publish found
    cases stage with
    | refresh publish' name users =>
      obtain rfl : publish' = .query name := outset
      cases found
      trivial
    | _ => cases found
  | returned => trivial
  | _ => exact outset.elim

lemma flushHand_of_outset (outset : Outset call) : flushHand call = inHand call := by
  cases call with
  | flush stage => rfl
  | returned => rfl
  | _ => exact outset.elim

variable {choice : Choice} {stage : FlushStage}
section
variable (moved : advanceFlush m choice stage = some after)
include moved
lemma advanceFlush_clear (zero : m.counter (mine user) = 0) (clear : Clear user (.flush stage)) :
    after.1.counter (mine user) = 0 ∧ Clear user after.2 := by
  cases advanceFlush_flushes moved with
  | keeps hand rows counters budgets quota outset =>
    refine ⟨by simpa only [Shared.counter, counters] using zero, ?_⟩
    rw [Clear, flushHand_of_outset outset, hand]
    exact clear
  | swapsUp slot todo rest items =>
    by_cases same : mine user = slot
    · have empty : m.counter slot = 0 := same ▸ zero
      refine ⟨by rw [counter_setCounter, if_pos same, empty]; rfl, ?_⟩
      refine forall_snoc clear fun _ => ?_
      rw [empty]
      rfl
    · refine ⟨by rw [counter_setCounter, if_neg same, zero], ?_⟩
      exact forall_snoc clear fun here => absurd here.symm same
  | swapsDown slot up todo items =>
    have kept : Clear user (.flush (.swapUp todo items)) :=
      fun item member => clear item (mem_append_left _ member)
    by_cases same : mine user = slot
    · have empty : m.counter slot = 0 := same ▸ zero
      have nought : up = 0 := by
        have last := clear ⟨slot, (up, 0)⟩ (mem_append_right _ mem_cons_self) same.symm
        exact (Prod.mk.inj last).1
      refine ⟨by rw [counter_setCounter, if_pos same, empty]; rfl, ?_⟩
      simpa [nought, empty] using kept
    · refine ⟨by rw [counter_setCounter, if_neg same, zero], ?_⟩
      split_ifs
      · exact forall_snoc kept fun here => absurd here.symm same
      · exact kept
  | commits items =>
    refine ⟨?_, clear_of_empty rfl⟩
    simpa only [Shared.counter, (updates_frame m items).1] using zero
  | restores items =>
    refine ⟨zero, ?_⟩
    intro item member here
    obtain ⟨original, inside, half⟩ := mem_flatMap.mp member
    rcases mem_pair.mp half with rfl | rfl <;> simp [clear original inside here]
  | deposits item todo =>
    refine ⟨?_, fun later member => clear later (mem_cons_of_mem item member)⟩
    rw [counter_deposit, weigh_singleton, zero, zero_add, ite_eq_right_iff]
    exact clear item mem_cons_self
  | refreshes publish name users reached published =>
    obtain ⟨m', next⟩ := reached
    obtain ⟨-, counters, -⟩ := advancePublish_frame published
    refine ⟨by simpa only [Shared.counter, counters] using zero, clear_of_empty ?_⟩
    cases next <;> rfl

lemma advanceFlush_outset (calm : publishOf (.flush stage) = none) :
    after.1.budgets = m.budgets ∧ after.1.quota = m.quota ∧ Outset after.2 := by
  cases advanceFlush_flushes moved with
  | keeps hand rows counters budgets quota outset => exact ⟨budgets, quota, outset⟩
  | commits items =>
    obtain ⟨-, budgets, quota⟩ := updates_frame m items
    exact ⟨budgets, quota, trivial⟩
  | refreshes publish name users reached published => cases calm
  | swapsUp | swapsDown | restores | deposits => exact ⟨rfl, rfl, trivial⟩

lemma advanceFlush_elsewhere (calm : publishOf (.flush stage) = none) :
    Elsewhere user k m (.flush stage) after := by
  obtain ⟨budgets, quota, outset⟩ := advanceFlush_outset moved calm
  have flushed : advance m choice (.flush stage) = some after := moved
  have conserves : Conserves (.user user) m (.flush stage) after :=
    advance_conserves trivial flushed
  refine ⟨by rw [budgets], quota, conserves.present, ?_, advanceFlush_clear moved,
    ⟨rfl, by simp [publishing, calm]⟩, idle_of_outset outset, fits_of_outset outset⟩
  rw [flushHand_of_outset outset]
  exact conserves.balance
end
variable {publish : Publish}
lemma advancePublish_owner {budget : UserRow Int → Int} {next : Publish}
    (moved : advancePublish budget m choice publish = some (m', some next)) :
    owner next = owner publish := by
  unfold advancePublish at moved
  split at moved <;> (try split at moved) <;>
    simp only [some.injEq, Prod.mk.injEq, reduceCtorEq, and_false, ite_none_left_eq_some] at moved
  · obtain ⟨-, -, rfl⟩ := moved
    rfl
  all_goals
    obtain ⟨-, rfl⟩ := moved
    rfl

lemma advancePublish_budget {budget : UserRow Int → Int} {next : Option Publish}
    (apart : owner publish ≠ user)
    (moved : advancePublish budget m choice publish = some (m', next)) :
    m'.budgets user = m.budgets user := by
  unfold advancePublish at moved
  split at moved <;> (try split at moved) <;>
    obtain ⟨rfl, -⟩ := moved <;>
    first
    | rfl
    | exact budget_setBudget_ne apart _

lemma at_of_owner_ne (apart : owner publish ≠ user) : Publish.At user k publish := by
  cases publish with
  | publish other remaining cell => exact apart
  | store other remaining cell => exact fun same => absurd same apart
  | _ => trivial

structure Publishes (user : Text) (k : Nat) (m : Shared) (choice : Choice) (call : Call)
    (after : Shared × Call) (publish : Publish) (next : Option Publish) : Prop where
  here : publishOf call = some publish
  moved : advancePublish UserRow.remaining m choice publish = some (after.1, next)
  there : publishOf after.2 = next
  hand : flushHand call = []
  hand' : flushHand after.2 = []
  idle : underway user call = 0
  idle' : underway user after.2 = 0
  fits : (∀ p, next = some p → Publish.At user k p) → Fits user k after.2

lemma Publishes.elsewhere {next : Option Publish}
    (publishes : Publishes user k m choice call after publish next)
    (apart : owner publish ≠ user) : Elsewhere user k m call after := by
  obtain ⟨here, moved, there, hand, hand', idle, idle', fits⟩ := publishes
  obtain ⟨rows, counters, -, quota⟩ := advancePublish_frame moved
  have kept : ∀ p, next = some p → owner p ≠ user := by
    rintro p rfl
    rw [advancePublish_owner moved]
    exact apart
  refine elsewhere_of_keep (fits fun p found => at_of_owner_ne (kept p found)) ⟨idle, ?_⟩
    ⟨idle', ?_⟩ (by simp only [Shared.counter, counters]) rows (advancePublish_budget apart moved)
    quota hand hand'
  · have notOurs : ¬ Reading user publish := fun reading => apart reading.1
    simp [publishing, here, notOurs]
  · cases next with
    | none => simp [publishing, there]
    | some p =>
      have notOurs : ¬ Reading user p := fun reading => kept p rfl reading.1
      simp [publishing, there, notOurs]

variable {users : List Text}
lemma publishes_of_refresh {name}
    (moved : advanceFlush m choice (.refresh publish name users) = some after) :
    ∃ next,
      Publishes user k m choice (.flush (.refresh publish name users)) after publish next := by
  obtain ⟨⟨m', next⟩, published, rfl⟩ := map_eq_some_iff.mp moved
  cases next with
  | none =>
    exact ⟨none, rfl, published, rfl, rfl, rfl, rfl, rfl,
      fun _ p found => absurd found (by simp [publishOf])⟩
  | some p =>
    exact ⟨some p, rfl, published, rfl, rfl, rfl, rfl, rfl, fun fits q found => fits q found⟩

lemma publishes_of_reload (moved : advanceReload m choice (some publish) users = some after) :
    ∃ next, Publishes user k m choice (.reloadUsers (some publish) users) after publish next := by
  obtain ⟨⟨m', next⟩, published, rfl⟩ := map_eq_some_iff.mp moved
  exact ⟨next, rfl, published, rfl, rfl, rfl, rfl, rfl, fun fits => fits⟩

lemma advanceReload_elsewhere (moved : advanceReload m choice none users = some after) :
    Elsewhere user k m (.reloadUsers none users) after := by
  cases users with
  | nil =>
    cases moved
    exact elsewhere_of_keep trivial
  | cons name users =>
    cases moved
    refine elsewhere_of_keep ?_ ⟨rfl, rfl⟩ ⟨rfl, ?_⟩
    · intro p found
      cases found
      trivial
    · simp [publishing, publishOf, not_reading_query]

lemma advance_view (fits : Fits user k call) (moved : advance m choice call = some after) :
    (∃ session up down stage, call = .add user session up down stage ∧
        advanceAdd m user session up down stage = some after) ∨
      (∃ publish next, owner publish = user ∧ Publishes user k m choice call after publish next) ∨
      Elsewhere user k m call after := by
  have split {publish : Publish} {next : Option Publish}
      (publishes : Publishes user k m choice call after publish next) :
      (∃ publish next, owner publish = user ∧
        Publishes user k m choice call after publish next) ∨ Elsewhere user k m call after := by
    by_cases own : owner publish = user
    · exact .inl ⟨publish, next, own, publishes⟩
    · exact .inr (publishes.elsewhere own)
  cases call with
  | add other session up down stage =>
    by_cases own : other = user
    · subst own
      exact .inl ⟨session, up, down, stage, rfl, moved⟩
    · simp only [Fits, own, if_false] at fits
      exact .inr (.inr (advanceAdd_elsewhere own fits moved))
  | addOutbound tag up down stage => exact .inr (.inr (advanceOutbound_elsewhere fits moved))
  | flush stage =>
    have flushed : advanceFlush m choice stage = some after := moved
    cases stage with
    | refresh publish name users =>
      obtain ⟨next, publishes⟩ : ∃ next, Publishes user k m choice _ after publish next :=
        publishes_of_refresh flushed
      exact .inr (split publishes)
    | _ => exact .inr (.inr (advanceFlush_elsewhere flushed rfl))
  | reloadUsers publish users =>
    cases publish with
    | none => exact .inr (.inr (advanceReload_elsewhere moved))
    | some publish =>
      obtain ⟨next, publishes⟩ : ∃ next, Publishes user k m choice _ after publish next :=
        publishes_of_reload moved
      exact .inr (split publishes)
  | returned => exact absurd moved (by simp [advance])
end Tamizdat.Userdb.BudgetSteps
