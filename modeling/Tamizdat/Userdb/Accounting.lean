/- source: internal/userdb/accounting.go, registry.go; pkg/tamizdat/server.go
   digest: Traffic from the connections to the rows of the users: what is counted is conserved. -/

import Tamizdat.Machine.Maps
import Tamizdat.Machine.Runs
import Tamizdat.Machine.Text

set_option autoImplicit false

open List Option
namespace Tamizdat.Userdb
namespace Quota
section
variable {α : Type} [Add α] [Sub α] [Neg α] [OfNat α 0] [OfNat α 1]
  [LT α] [DecidableLT α] [LE α] [DecidableLE α]

/-- The columns of a row of `users` that decide about its quota, over the integers that the
reader computes with. -/
structure UserRow (α : Type) where
  bytesUp : α
  bytesDown : α
  quotaBaseline : Option α
  bandwidthCap : Option α
  bytesResetAt : Option α

def coalesce (column : Option α) : α := column.getD 0
def clamp (x : α) : α := if x < 0 then 0 else x

variable (row : UserRow α)
def UserRow.cap : α := coalesce row.bandwidthCap

/-- The bytes that count against the cap: those since the last "Reset Quota". -/
def UserRow.used : α := clamp (row.bytesUp + row.bytesDown - coalesce row.quotaBaseline)

/-- What a reader of the row publishes as the bytes left: -1 stands for no cap. -/
def UserRow.remaining : α :=
  if row.cap ≤ 0 then -1 else clamp (row.cap - row.used)

def refreshRemaining : α := row.remaining
def reloadUsers : α := row.remaining

def flushHookKills : Bool :=
  if row.cap ≤ 0 then false else if row.used < row.cap then false else true
end

def quotaWindow : Int64 := 30 * 24 * 60 * 60

def UserRow.WindowElapsed (row : UserRow Int64) (now : Int64) : Prop :=
  0 < coalesce row.bytesResetAt ∧ quotaWindow < now - coalesce row.bytesResetAt
deriving Decidable

def isOverQuota (row : UserRow Int64) (now : Int64) : Bool :=
  if row.cap ≤ 0 then false
  else if row.WindowElapsed now then false
  else decide (row.cap ≤ row.used)

variable (row : UserRow Int64) (now : Int64)
lemma clamp_nonneg (x : Int64) : 0 ≤ clamp x := by
  unfold clamp
  split_ifs with negative
  · exact Int64.le_refl 0
  · exact Int64.not_lt.mp negative

lemma toInt_sub_of_nonneg {a b : Int64} (ha : 0 ≤ a) (hb : 0 ≤ b) :
    (a - b).toInt = a.toInt - b.toInt := by
  rw [Int64.le_iff_toInt_le, Int64.toInt_zero] at ha hb
  have small := Int64.toInt_lt a
  have small' := Int64.toInt_lt b
  rw [Int64.toInt_sub]
  apply Int.bmod_eq_of_le
  · norm_num
    omega
  · norm_num
    omega

lemma clamp_sub_eq_zero {a b : Int64} (ha : 0 ≤ a) (hb : 0 ≤ b) : clamp (a - b) = 0 ↔ a ≤ b := by
  have difference := toInt_sub_of_nonneg ha hb
  rw [Int64.le_iff_toInt_le]
  unfold clamp
  split_ifs with negative <;> rw [Int64.lt_iff_toInt_lt, difference, Int64.toInt_zero] at negative
  · exact iff_of_true rfl (by omega)
  · rw [← Int64.toInt_inj, difference, Int64.toInt_zero]
    omega

lemma remaining_eq_zero_iff (capped : ¬ row.cap ≤ 0) : row.remaining = 0 ↔ row.cap ≤ row.used := by
  rw [UserRow.remaining, if_neg capped]
  exact clamp_sub_eq_zero (Int64.le_of_lt (Int64.not_le.mp capped)) (clamp_nonneg _)

lemma remaining_of_unlimited (unlimited : row.cap ≤ 0) : row.remaining = -1 := if_pos unlimited

lemma flushHookKills_iff (capped : ¬ row.cap ≤ 0) :
    flushHookKills row = true ↔ row.cap ≤ row.used := by
  rw [flushHookKills, if_neg capped, ← Int64.not_lt]
  split_ifs with below <;> simp [below]

lemma isOverQuota_iff (capped : ¬ row.cap ≤ 0) :
    isOverQuota row now = true ↔ ¬ row.WindowElapsed now ∧ row.cap ≤ row.used := by
  rw [isOverQuota, if_neg capped]
  split_ifs with elapsed <;> simp [elapsed]

/-- The admission check says what the hook after a flush does and what both publishers of the
budget say. -/
def DecidersAgree : Prop :=
  (isOverQuota row now = true ↔ flushHookKills row = true) ∧
    (isOverQuota row now = true ↔ refreshRemaining row = 0) ∧
      (isOverQuota row now = true ↔ reloadUsers row = 0)
deriving Decidable

/-- Only the admission check knows the rolling window: the deciders part on the rows whose cap is
used up and whose window has elapsed, and on no others. -/
theorem deciders_agree_iff :
    DecidersAgree row now ↔ ¬ (0 < row.cap ∧ row.WindowElapsed now ∧ row.cap ≤ row.used) := by
  unfold DecidersAgree refreshRemaining reloadUsers
  by_cases unlimited : row.cap ≤ 0
  · have admits : isOverQuota row now = false := if_pos unlimited
    have spares : flushHookKills row = false := if_pos unlimited
    rw [remaining_of_unlimited row unlimited, admits, spares]
    simp [Int64.not_lt.mpr unlimited]
  · rw [isOverQuota_iff row now unlimited, flushHookKills_iff row unlimited,
      remaining_eq_zero_iff row unlimited, and_self, and_self]
    have positive : 0 < row.cap := Int64.not_le.mp unlimited
    by_cases elapsed : row.WindowElapsed now
    · simp [positive, elapsed]
    · simp [elapsed]

def staleRow : UserRow Int64 where
  bytesUp := 100
  bytesDown := 50
  quotaBaseline := none
  bandwidthCap := some 100
  bytesResetAt := some (9 * 24 * 60 * 60)

/-- Admitted at the handshake, killed by the next flush, with no byte left to send. -/
theorem stale_row_admitted_then_killed :
    isOverQuota staleRow (40 * 24 * 60 * 60 + 1) = false ∧ flushHookKills staleRow = true ∧
      refreshRemaining staleRow = 0 ∧ reloadUsers staleRow = 0 ∧
        ¬ DecidersAgree staleRow (40 * 24 * 60 * 60 + 1) := by
  decide +kernel
end Quota
namespace Accounting
open Machine.Maps Userdb.Quota
abbrev Text := List Char
def accSep : Char := '\x00'

def isBlank (s : Text) : Bool := s.all Machine.Text.isSpace
abbrev Amount := Int × Int

inductive Kind
  | users | sessions | outbounds
deriving DecidableEq

/-- A `*byteCounter`: a counter is never removed from its map, so its key names it for good. -/
structure Slot where
  kind : Kind
  key : Text
deriving DecidableEq

structure Item where
  slot : Slot
  amount : Amount
deriving DecidableEq

inductive RowKey
  | user (id : Text)
  | session (user session : Text)
  | outbound (tag : Text)
deriving DecidableEq

def splitKey (key : Text) : Option (Text × Text) :=
  if accSep ∈ key then
    some (key.takeWhile (· ≠ accSep), (key.dropWhile (· ≠ accSep)).tail)
  else none

def rowOf (slot : Slot) : Option RowKey :=
  match slot.kind with
  | .users => some (.user slot.key)
  | .sessions => (splitKey slot.key).map fun parts => .session parts.1 parts.2
  | .outbounds => some (.outbound slot.key)

structure Budget where
  /-- Every cell that `SetUserRemaining` has allocated for the user. -/
  cells : List Int := []
  /-- The cell that `a.remaining` holds. -/
  current : Option Nat := none
  fired : Bool := false
  /-- `onOverrun` has been invoked since the last store of a budget. -/
  invoked : Bool := false

structure Shared where
  counters : GoMap Slot Amount
  locked : Bool
  rows : GoMap RowKey Amount
  /-- The other columns of a row of `users`; nothing here writes them. -/
  quota : Text → UserRow Int
  budgets : Text → Budget
  /-- The users whose connections the hook after a flush has killed. -/
  killed : List Text

namespace Shared
variable (m : Shared)
def counter (slot : Slot) : Amount := (m.counters.lookup slot).getD 0

def setCounter (slot : Slot) (amount : Amount) : Shared :=
  { m with counters := m.counters.insert slot amount }

def create (slot : Slot) : Shared :=
  match m.counters.lookup slot with
  | some _ => m
  | none => m.setCounter slot 0

def deposit (item : Item) : Shared := m.setCounter item.slot (m.counter item.slot + item.amount)

def slots : List Slot :=
  [Kind.users, Kind.sessions, Kind.outbounds].flatMap fun kind =>
    m.counters.keys.filter (·.kind = kind)

/-- One statement of the transaction: a row that is not there stays away. -/
def update (item : Item) : Shared :=
  match rowOf item.slot with
  | none => m
  | some row =>
    match m.rows.lookup row with
    | none => m
    | some bytes => { m with rows := m.rows.insert row (bytes + item.amount) }

def userRow (user : Text) : Option (UserRow Int) :=
  (m.rows.lookup (.user user)).map fun bytes =>
    { m.quota user with bytesUp := bytes.1, bytesDown := bytes.2 }

def setBudget (user : Text) (budget : Budget) : Shared :=
  { m with budgets := Function.update m.budgets user budget }
end Shared

/-- The next step of a refresh of one user's budget: the query, and the steps of
`SetUserRemaining`. -/
inductive Publish
  | query (user : Text)
  | load (user : Text) (remaining : Int)
  | publish (user : Text) (remaining : Int) (cell : Nat)
  | store (user : Text) (remaining : Int) (cell : Nat)
  | reset (user : Text)
deriving DecidableEq

inductive AddStage
  | lock
  | count (todo : List Item)
  | load
  | peek (cell : Nat)
  | deduct (cell : Nat)
  | fire | invoke | checked
deriving DecidableEq

inductive OutboundStage
  | lock
  | count (todo : List Item)
deriving DecidableEq

inductive FlushStage
  | lock
  | swapUp (todo : List Slot) (items : List Item)
  | swapDown (slot : Slot) (up : Int) (todo : List Slot) (items : List Item)
  | beginTx (items : List Item)
  | exec (todo items : List Item)
  | commit (items : List Item)
  | restoreLock (items : List Item)
  | restore (todo : List Item)
  | hooks (users : List Text)
  | refresh (publish : Publish) (user : Text) (users : List Text)
  | recheck (user : Text) (users : List Text)
deriving DecidableEq

inductive Call
  | add (user session : Text) (up down : Int) (stage : AddStage)
  | addOutbound (tag : Text) (up down : Int) (stage : OutboundStage)
  | flush (stage : FlushStage)
  | reloadUsers (publish : Option Publish) (users : List Text)
  | returned
deriving DecidableEq

structure State where
  shared : Shared
  calls : List Call

inductive Choice
  | plain | fails
  | pick (index : Nat)

def addSlots (user session : Text) : List Slot :=
  ⟨.users, user⟩ :: if session = [] then [] else [⟨.sessions, user ++ accSep :: session⟩]

def outboundSlots (tag : Text) : List Slot := [⟨.outbounds, tag⟩]

def additions (slots : List Slot) (up down : Int) : List Item :=
  (if up = 0 then [] else slots.map fun slot => ⟨slot, (up, 0)⟩) ++
    if down = 0 then [] else slots.map fun slot => ⟨slot, (0, down)⟩

variable (m : Shared)
def advanceAdd (user session : Text) (up down : Int) : AddStage → Option (Shared × Call)
  | .lock =>
    if m.locked then none
    else some ((addSlots user session).foldl Shared.create m,
      .add user session up down (.count (additions (addSlots user session) up down)))
  | .count (item :: todo) => some (m.deposit item, .add user session up down (.count todo))
  | .count [] => some (m, .add user session up down .load)
  | .load =>
    match (m.budgets user).current with
    | none => some (m, .add user session up down .checked)
    | some cell => some (m, .add user session up down (.peek cell))
  | .peek cell =>
    (m.budgets user).cells[cell]?.map fun cur =>
      (m, .add user session up down (if cur = -1 then .checked else .deduct cell))
  | .deduct cell =>
    -- The source tells a crossing from a budget spent before; it fires in both cases.
    (m.budgets user).cells[cell]?.map fun cur =>
      (m.setBudget user
          { m.budgets user with cells := (m.budgets user).cells.set cell (cur - (up + down)) },
        .add user session up down (if cur - (up + down) ≤ 0 then .fire else .checked))
  | .fire =>
    if (m.budgets user).fired then some (m, .add user session up down .checked)
    else some (m.setBudget user { m.budgets user with fired := true },
      .add user session up down .invoke)
  | .invoke =>
    some (m.setBudget user { m.budgets user with invoked := true },
      .add user session up down .checked)
  | .checked => some (m, .returned)

def advanceOutbound (tag : Text) (up down : Int) : OutboundStage → Option (Shared × Call)
  | .lock =>
    if m.locked then none
    else some ((outboundSlots tag).foldl Shared.create m,
      .addOutbound tag up down (.count (additions (outboundSlots tag) up down)))
  | .count (item :: todo) => some (m.deposit item, .addOutbound tag up down (.count todo))
  | .count [] => some (m, .returned)

/-- One step of a refresh; `none` ends it. The flag is looked up and cleared in one step: a flag
that is not there yet is one that is not set. -/
def advancePublish (budget : UserRow Int → Int) (m : Shared) (choice : Choice) :
    Publish → Option (Shared × Option Publish)
  | .query user =>
    match choice, m.userRow user with
    | .plain, some row => some (m, if user = [] then none else some (.load user (budget row)))
    | .plain, none => some (m, none)
    | .fails, _ => some (m, none)
    | .pick _, _ => none
  | .load user remaining =>
    match (m.budgets user).current with
    | some cell => some (m, some (.store user remaining cell))
    | none =>
      some (m.setBudget user
          { m.budgets user with cells := (m.budgets user).cells ++ [0] },
        some (.publish user remaining (m.budgets user).cells.length))
  | .publish user remaining cell =>
    some (m.setBudget user { m.budgets user with current := some cell },
      some (.store user remaining cell))
  | .store user remaining cell =>
    some (m.setBudget user
        { m.budgets user with
          cells := (m.budgets user).cells.set cell remaining, invoked := false },
      some (.reset user))
  | .reset user => some (m.setBudget user { m.budgets user with fired := false }, none)

/-- The map iteration of `Flush` meets the keys of one map in any order, and the maps in turn. -/
def pickSlot (todo : List Slot) (index : Nat) : Option (Slot × List Slot) :=
  match todo[index]?, todo.head? with
  | some slot, some first =>
    if slot.kind = first.kind then some (slot, todo.eraseIdx index) else none
  | _, _ => none

def redeposits (items : List Item) : List Item :=
  items.flatMap fun item => [⟨item.slot, (item.amount.1, 0)⟩, ⟨item.slot, (0, item.amount.2)⟩]

def flushedUsers (items : List Item) : List Text :=
  (items.filter (·.slot.kind = .users)).map (·.slot.key)

def advanceFlush (choice : Choice) : FlushStage → Option (Shared × Call)
  | .lock =>
    if m.locked then none
    else some ({ m with locked := true }, .flush (.swapUp m.slots []))
  | .swapUp [] items =>
    some ({ m with locked := false },
      if items = [] then .returned else .flush (.beginTx items))
  | .swapUp (first :: rest) items =>
    match choice with
    | .pick index =>
      (pickSlot (first :: rest) index).map fun picked =>
        (m.setCounter picked.1 (0, (m.counter picked.1).2),
          .flush (.swapDown picked.1 (m.counter picked.1).1 picked.2 items))
    | _ => none
  | .swapDown slot up todo items =>
    some (m.setCounter slot ((m.counter slot).1, 0), .flush (.swapUp todo
        (if up ≠ 0 ∨ (m.counter slot).2 ≠ 0 then items ++ [⟨slot, (up, (m.counter slot).2)⟩]
          else items)))
  | .beginTx items =>
    match choice with
    | .plain => some (m, .flush (.exec items items))
    | .fails => some (m, .flush (.restoreLock items))
    | .pick _ => none
  | .exec [] items => some (m, .flush (.commit items))
  | .exec (item :: todo) items =>
    -- A session key without its separator is skipped, not executed.
    match choice, rowOf item.slot with
    | .plain, _ => some (m, .flush (.exec todo items))
    | .fails, some _ => some (m, .flush (.restoreLock items))
    | _, _ => none
  | .commit items =>
    match choice with
    | .plain => some (items.foldl Shared.update m, .flush (.hooks (flushedUsers items)))
    | .fails => some (m, .flush (.restoreLock items))
    | .pick _ => none
  | .restoreLock items =>
    if m.locked then none
    else some ({ m with locked := true }, .flush (.restore (redeposits items)))
  | .restore (item :: todo) => some (m.deposit item, .flush (.restore todo))
  | .restore [] => some ({ m with locked := false }, .returned)
  | .hooks [] => some (m, .returned)
  | .hooks (user :: users) =>
    some (m, .flush (if user = [] then .hooks users else .refresh (.query user) user users))
  | .refresh publish user users =>
    (advancePublish refreshRemaining m choice publish).map fun after =>
      (after.1, .flush (match after.2 with
        | some next => .refresh next user users
        | none => .recheck user users))
  | .recheck user users =>
    match choice, m.userRow user with
    | .plain, some row =>
      some (if flushHookKills row then { m with killed := m.killed ++ [user] } else m,
        .flush (.hooks users))
    | .plain, none => some (m, .flush (.hooks users))
    | .fails, _ => some (m, .flush (.hooks users))
    | .pick _, _ => none

def advanceReload (choice : Choice) : Option Publish → List Text → Option (Shared × Call)
  | none, [] => some (m, .returned)
  | none, user :: users => some (m, .reloadUsers (some (.query user)) users)
  | some publish, users =>
    (advancePublish reloadUsers m choice publish).map fun after =>
      (after.1, .reloadUsers after.2 users)

def advance (choice : Choice) : Call → Option (Shared × Call)
  | .add user session up down stage => advanceAdd m user session up down stage
  | .addOutbound tag up down stage => advanceOutbound m tag up down stage
  | .flush stage => advanceFlush m choice stage
  | .reloadUsers publish users => advanceReload m choice publish users
  | .returned => none

/-- Calls begin, and the calls that are running take their steps. The seeding loop of `NewServer`
is one more `reloadUsers`. -/
inductive Label
  | add (user session : Text) (up down : Int)
  | addOutbound (tag : Text) (up down : Int)
  | flush
  | reloadUsers (users : List Text)
  | move (call : Nat) (choice : Choice)

def Ignored (name : Text) (up down : Int) : Prop := isBlank name = true ∨ (up = 0 ∧ down = 0)
deriving Decidable

def started : Label → Option Call
  | .add user session up down =>
    some (if Ignored user up down then .returned else .add user session up down .lock)
  | .addOutbound tag up down =>
    some (if Ignored tag up down then .returned else .addOutbound tag up down .lock)
  | .flush => some (.flush .lock)
  | .reloadUsers users => some (.reloadUsers none users)
  | .move _ _ => none

def step (s : State) : Label → Option State
  | .move i choice =>
    s.calls[i]?.bind fun call =>
      (advance s.shared choice call).map fun after => ⟨after.1, s.calls.set i after.2⟩
  | label => (started label).map fun call => { s with calls := s.calls ++ [call] }

def State.Quiet (s : State) : Prop := ∀ call ∈ s.calls, call = .returned
deriving Decidable
end Accounting
namespace Conservation
open Machine Pool Machine.Runs Userdb.Accounting
open Maps hiding total
open Shared (counter create deposit setCounter update)
def slotOf : RowKey → Slot
  | .user id => ⟨.users, id⟩
  | .session user session => ⟨.sessions, user ++ accSep :: session⟩
  | .outbound tag => ⟨.outbounds, tag⟩

def Splits : RowKey → Prop
  | .session user _ => accSep ∉ user
  | _ => True

lemma join_of_mem {key} (member : accSep ∈ key) :
    key.takeWhile (· ≠ accSep) ++ accSep :: (key.dropWhile (· ≠ accSep)).tail = key := by
  induction key with
  | nil => exact absurd member not_mem_nil
  | cons c key ih =>
    by_cases here : c = accSep
    · simp [here]
    · have later : accSep ∈ key := (mem_cons.mp member).resolve_left (Ne.symm here)
      simpa [here] using ih later

variable {user : Text}
lemma join_of_splitKey {key session} (parts : splitKey key = some (user, session)) :
    user ++ accSep :: session = key := by
  rw [splitKey, ite_some_none_eq_some, Prod.mk.injEq] at parts
  obtain ⟨member, rfl, rfl⟩ := parts
  exact join_of_mem member

lemma splitKey_join (plain : accSep ∉ user) (session : Text) :
    splitKey (user ++ accSep :: session) = some (user, session) := by
  have passes : ∀ c ∈ user, decide (c ≠ accSep) = true := by
    intro c member
    exact decide_eq_true fun same => plain (same ▸ member)
  rw [splitKey, if_pos (by simp), takeWhile_append_of_pos passes, dropWhile_append_of_pos passes]
  simp

variable {row : RowKey} {slot : Slot}
lemma rowOf_eq_some_iff (splits : Splits row) : rowOf slot = some row ↔ slot = slotOf row := by
  obtain ⟨kind, key⟩ := slot
  cases row with
  | user id | outbound tag => cases kind <;> simp [rowOf, slotOf]
  | session user session =>
    cases kind with
    | users | outbounds => simp [rowOf, slotOf]
    | sessions =>
      simp only [rowOf, slotOf, map_eq_some_iff, RowKey.session.injEq, Slot.mk.injEq, true_and]
      constructor
      · rintro ⟨⟨first, second⟩, parts, rfl, rfl⟩
        exact (join_of_splitKey parts).symm
      · rintro rfl
        exact ⟨(user, session), splitKey_join splits session, rfl, rfl⟩

def weigh (slot : Slot) (items : List Item) : Amount :=
  total (fun item => if item.slot = slot then item.amount else 0) items

@[simp] lemma weigh_nil (slot : Slot) : weigh slot [] = 0 := rfl

@[simp] lemma weigh_append (slot : Slot) (items more : List Item) :
    weigh slot (items ++ more) = weigh slot items + weigh slot more := total_append _ _ _

lemma weigh_cons (slot : Slot) (item : Item) (items : List Item) : weigh slot (item :: items) =
      (if item.slot = slot then item.amount else 0) + weigh slot items := by
  simp [weigh, total]

lemma weigh_singleton (slot : Slot) (item : Item) :
    weigh slot [item] = if item.slot = slot then item.amount else 0 := total_singleton _ _

lemma weigh_redeposits (slot : Slot) (items : List Item) :
    weigh slot (redeposits items) = weigh slot items := by
  induction items with
  | nil => rfl
  | cons item items ih =>
    rw [show redeposits (item :: items) =
      [⟨item.slot, (item.amount.1, 0)⟩, ⟨item.slot, (0, item.amount.2)⟩] ++ redeposits items
        from rfl, weigh_append, ih, weigh_cons, weigh_cons, weigh_cons]
    split_ifs with here <;> simp

lemma counter_setCounter (m : Shared) (slot other : Slot) (amount : Amount) :
    (m.setCounter slot amount).counter other =
      if other = slot then amount else m.counter other := by
  simp only [counter, setCounter, lookup_insert]
  split_ifs <;> rfl

lemma counter_create (m : Shared) (slot other : Slot) :
    (m.create slot).counter other = m.counter other := by
  unfold create
  split
  · rfl
  · rename_i absent
    rw [counter_setCounter]
    split_ifs with same
    · rw [same, counter, absent]
      rfl
    · rfl

lemma create_frame (m : Shared) (slot : Slot) :
    (m.create slot).rows = m.rows ∧ (m.create slot).budgets = m.budgets ∧
      (m.create slot).quota = m.quota := by
  unfold create
  split <;> exact ⟨rfl, rfl, rfl⟩

lemma createAll (m : Shared) (slots : List Slot) (other : Slot) :
    (slots.foldl create m).counter other = m.counter other ∧
      (slots.foldl create m).rows = m.rows ∧
        (slots.foldl create m).budgets = m.budgets ∧ (slots.foldl create m).quota = m.quota := by
  induction slots generalizing m with
  | nil => exact ⟨rfl, rfl, rfl, rfl⟩
  | cons slot slots ih =>
    obtain ⟨counters, rows, budgets, quota⟩ := ih (m.create slot)
    obtain ⟨rows', budgets', quota'⟩ := create_frame m slot
    exact ⟨counters.trans (counter_create m slot other), rows.trans rows',
      budgets.trans budgets', quota.trans quota'⟩

lemma counter_deposit (m : Shared) (item : Item) (slot : Slot) :
    (m.deposit item).counter slot = m.counter slot + weigh slot [item] := by
  rw [deposit, counter_setCounter, weigh_singleton]
  by_cases same : slot = item.slot
  · simp [same]
  · simp [same, Ne.symm same]

def worth (m : Shared) (row : RowKey) : Amount :=
  (m.rows.lookup row).getD 0 + m.counter (slotOf row)

/-- What a call has taken and not yet put down: the deltas of an adder that are still to be added,
the amounts a flush has swapped out and neither committed nor given back. -/
def inHand : Call → List Item
  | .add user session up down .lock => additions (addSlots user session) up down
  | .add _ _ _ _ (.count todo) => todo
  | .addOutbound tag up down .lock => additions (outboundSlots tag) up down
  | .addOutbound _ _ _ (.count todo) => todo
  | .flush (.swapUp _ items) => items
  | .flush (.swapDown slot up _ items) => items ++ [⟨slot, (up, 0)⟩]
  | .flush (.beginTx items) => items
  | .flush (.exec _ items) => items
  | .flush (.commit items) => items
  | .flush (.restoreLock items) => items
  | .flush (.restore todo) => todo
  | _ => []

def Outset : Call → Prop
  | .flush (.refresh publish user _) => publish = .query user
  | .flush _ => True
  | .returned => True
  | _ => False

/-- What one step of a flush can do with the items it holds and with one counter. -/
inductive Flushes (m : Shared) (choice : Choice) : FlushStage → Shared × Call → Prop
  | keeps {stage : FlushStage} {after : Shared × Call}
      (hand : inHand after.2 = inHand (.flush stage) := by rfl)
      (rows : after.1.rows = m.rows := by rfl) (counters : after.1.counters = m.counters := by rfl)
      (budgets : after.1.budgets = m.budgets := by rfl) (quota : after.1.quota = m.quota := by rfl)
      (outset : Outset after.2 := by trivial) : Flushes m choice stage after
  | swapsUp (slot : Slot) (todo rest : List Slot) (items : List Item) :
      Flushes m choice (.swapUp todo items)
        (m.setCounter slot (0, (m.counter slot).2),
          .flush (.swapDown slot (m.counter slot).1 rest items))
  | swapsDown (slot : Slot) (up : Int) (todo : List Slot) (items : List Item) :
      Flushes m choice (.swapDown slot up todo items)
        (m.setCounter slot ((m.counter slot).1, 0), .flush (.swapUp todo
            (if up ≠ 0 ∨ (m.counter slot).2 ≠ 0 then items ++ [⟨slot, (up, (m.counter slot).2)⟩]
              else items)))
  | commits (items : List Item) : Flushes m choice (.commit items)
        (items.foldl update m, .flush (.hooks (flushedUsers items)))
  | restores (items : List Item) : Flushes m choice (.restoreLock items)
        ({ m with locked := true }, .flush (.restore (redeposits items)))
  | deposits (item : Item) (todo : List Item) :
      Flushes m choice (.restore (item :: todo)) (m.deposit item, .flush (.restore todo))
  | refreshes (publish : Publish) (user : Text) (users : List Text)
      (reached : Shared × Option Publish)
      (published : advancePublish Quota.refreshRemaining m choice publish = some reached) :
      Flushes m choice (.refresh publish user users)
        (reached.1, .flush (match reached.2 with
          | some next => .refresh next user users
          | none => .recheck user users))

lemma advanceFlush_flushes {m} {choice : Choice} {stage : FlushStage} {after : Shared × Call}
    (moved : advanceFlush m choice stage = some after) : Flushes m choice stage after := by
  cases stage with
  | lock =>
    simp only [advanceFlush, ite_none_left_eq_some, some.injEq] at moved
    obtain ⟨-, rfl⟩ := moved
    exact .keeps
  | swapUp todo items =>
    cases todo with
    | nil =>
      cases moved
      by_cases none : items = []
      · rw [if_pos none]
        exact .keeps none.symm
      · rw [if_neg none]
        exact .keeps
    | cons first rest =>
      cases choice with
      | pick index =>
        obtain ⟨picked, -, rfl⟩ := map_eq_some_iff.mp moved
        exact .swapsUp picked.1 _ picked.2 items
      | plain | fails => exact absurd moved (by simp [advanceFlush])
  | swapDown slot up todo items =>
    cases moved
    exact .swapsDown slot up todo items
  | beginTx items =>
    cases choice with
    | pick index => exact absurd moved (by simp [advanceFlush])
    | _ =>
      cases moved
      exact .keeps
  | exec todo items =>
    cases todo with
    | nil =>
      cases moved
      exact .keeps
    | cons item todo =>
      simp only [advanceFlush] at moved
      split at moved
      · cases moved
        exact .keeps
      · cases moved
        exact .keeps
      · exact absurd moved (by simp)
  | commit items =>
    cases choice with
    | plain =>
      cases moved
      exact .commits items
    | fails =>
      cases moved
      exact .keeps
    | pick index => exact absurd moved (by simp [advanceFlush])
  | restoreLock items =>
    simp only [advanceFlush, ite_none_left_eq_some, some.injEq] at moved
    obtain ⟨-, rfl⟩ := moved
    exact .restores items
  | restore todo =>
    cases todo with
    | nil =>
      cases moved
      exact .keeps
    | cons item todo =>
      cases moved
      exact .deposits item todo
  | hooks users =>
    cases users with
    | nil =>
      cases moved
      exact .keeps
    | cons user users =>
      cases moved
      by_cases none : user = []
      · rw [if_pos none]
        exact .keeps
      · rw [if_neg none]
        exact .keeps
  | refresh publish user users =>
    obtain ⟨reached, published, rfl⟩ := map_eq_some_iff.mp moved
    exact .refreshes publish user users reached published
  | recheck user users =>
    simp only [advanceFlush] at moved
    split at moved
    · cases moved
      split_ifs <;> exact .keeps
    · cases moved
      exact .keeps
    · cases moved
      exact .keeps
    · exact absurd moved (by simp)

/-- A step of a call moves bytes of a row between the database, the counter and its own hands, and
neither makes nor loses any. -/
structure Conserves (row : RowKey) (m : Shared) (call : Call) (after : Shared × Call) : Prop where
  present : (after.1.rows.lookup row).isSome = (m.rows.lookup row).isSome
  balance : (m.rows.lookup row).isSome → worth after.1 row + weigh (slotOf row) (inHand after.2) =
    worth m row + weigh (slotOf row) (inHand call)

section
variable {row : RowKey} {m : Shared} {call : Call} {after : Shared × Call}
lemma conserves_of_keep (rows : after.1.rows = m.rows := by rfl)
    (counters : after.1.counter (slotOf row) = m.counter (slotOf row) := by rfl)
    (hands : weigh (slotOf row) (inHand after.2) = weigh (slotOf row) (inHand call) := by rfl) :
    Conserves row m call after := by
  refine ⟨by rw [rows], fun _ => ?_⟩
  rw [worth, worth, rows, counters, hands]

lemma conserves_deposit (item : Item) (next : Call)
    (hands : inHand call = item :: inHand next) : Conserves row m call (m.deposit item, next) := by
  refine ⟨rfl, fun _ => ?_⟩
  have counted := counter_deposit m item (slotOf row)
  rw [hands, weigh_cons, worth, worth, counted, weigh_singleton]
  simp only [deposit, setCounter]
  abel

variable {choice : Choice}
lemma advancePublish_frame {publish m'} {budget : Quota.UserRow Int → Int} {next : Option Publish}
    (moved : advancePublish budget m choice publish = some (m', next)) :
    m'.rows = m.rows ∧ m'.counters = m.counters ∧ m'.locked = m.locked ∧ m'.quota = m.quota := by
  unfold advancePublish at moved
  split at moved <;> (try split at moved) <;>
    obtain ⟨rfl, -⟩ := moved <;> exact ⟨rfl, rfl, rfl, rfl⟩

variable {up : Int}
lemma advanceAdd_conserves {session down stage}
    (moved : advanceAdd m user session up down stage = some after) :
    Conserves row m (.add user session up down stage) after := by
  cases stage with
  | lock =>
    simp only [advanceAdd, ite_none_left_eq_some, some.injEq] at moved
    obtain ⟨-, rfl⟩ := moved
    obtain ⟨counters, rows, -⟩ := createAll m (addSlots user session) (slotOf row)
    exact conserves_of_keep rows counters rfl
  | count todo =>
    cases todo with
    | nil =>
      cases moved
      exact conserves_of_keep
    | cons item todo =>
      cases moved
      exact conserves_deposit item _ rfl
  | load =>
    simp only [advanceAdd] at moved
    split at moved <;> obtain rfl := some.inj moved <;>
      exact conserves_of_keep
  | peek cell | deduct cell =>
    obtain ⟨cur, -, rfl⟩ := map_eq_some_iff.mp moved
    refine conserves_of_keep rfl rfl ?_
    split_ifs <;> rfl
  | fire =>
    simp only [advanceAdd] at moved
    split_ifs at moved <;> obtain rfl := some.inj moved <;>
      exact conserves_of_keep
  | invoke | checked =>
    cases moved
    exact conserves_of_keep

lemma advanceOutbound_conserves {tag down stage}
    (moved : advanceOutbound m tag up down stage = some after) :
    Conserves row m (.addOutbound tag up down stage) after := by
  cases stage with
  | lock =>
    simp only [advanceOutbound, ite_none_left_eq_some, some.injEq] at moved
    obtain ⟨-, rfl⟩ := moved
    obtain ⟨counters, rows, -⟩ := createAll m (outboundSlots tag) (slotOf row)
    exact conserves_of_keep rows counters rfl
  | count todo =>
    cases todo with
    | nil =>
      cases moved
      exact conserves_of_keep
    | cons item todo =>
      cases moved
      exact conserves_deposit item _ rfl

lemma updates_frame (m : Shared) (items : List Item) :
    (items.foldl update m).counters = m.counters ∧
      (items.foldl update m).budgets = m.budgets ∧ (items.foldl update m).quota = m.quota := by
  induction items generalizing m with
  | nil => exact ⟨rfl, rfl, rfl⟩
  | cons item items ih =>
    have one : (m.update item).counters = m.counters ∧ (m.update item).budgets = m.budgets ∧
        (m.update item).quota = m.quota := by
      unfold update
      split
      · exact ⟨rfl, rfl, rfl⟩
      · split <;> exact ⟨rfl, rfl, rfl⟩
    obtain ⟨counters, budgets, quota⟩ := ih (m.update item)
    exact ⟨counters.trans one.1, budgets.trans one.2.1, quota.trans one.2.2⟩

lemma swapUp_conserves {todo items rest} : Conserves row m (.flush (.swapUp todo items))
      (m.setCounter slot (0, (m.counter slot).2),
        .flush (.swapDown slot (m.counter slot).1 rest items)) := by
  refine ⟨rfl, fun _ => ?_⟩
  simp only [inHand, weigh_append, weigh_singleton, worth, counter_setCounter]
  by_cases same : slotOf row = slot
  · subst same
    ext <;> simp [setCounter]
    abel
  · rw [if_neg same, if_neg (Ne.symm same)]
    simp [setCounter]

lemma swapDown_conserves {todo items} : Conserves row m (.flush (.swapDown slot up todo items))
      (m.setCounter slot ((m.counter slot).1, 0), .flush (.swapUp todo
          (if up ≠ 0 ∨ (m.counter slot).2 ≠ 0 then items ++ [⟨slot, (up, (m.counter slot).2)⟩]
            else items))) := by
  -- An item that is dropped because both halves are zero weighs nothing.
  have kept : weigh (slotOf row) (if up ≠ 0 ∨ (m.counter slot).2 ≠ 0
      then items ++ [⟨slot, (up, (m.counter slot).2)⟩] else items) = weigh (slotOf row) items +
          if slot = slotOf row then (up, (m.counter slot).2) else 0 := by
    split_ifs with moved same same
    · simp [weigh_singleton, same]
    · simp [weigh_singleton, same]
    · push Not at moved
      simp [moved]
    · simp
  refine ⟨rfl, fun _ => ?_⟩
  simp only [inHand, kept, weigh_append, weigh_singleton, worth, counter_setCounter]
  by_cases same : slotOf row = slot
  · subst same
    ext
    · simp [setCounter]
    · simp [setCounter]
      abel
  · rw [if_neg same, if_neg (Ne.symm same), if_neg (Ne.symm same)]
    simp [setCounter]

lemma advanceReload_conserves {publish : Option Publish} {users : List Text}
    (moved : advanceReload m choice publish users = some after) :
    Conserves row m (.reloadUsers publish users) after := by
  cases publish with
  | none =>
    cases users with
    | nil | cons user users =>
      cases moved
      exact conserves_of_keep
  | some publish =>
    obtain ⟨⟨m', next⟩, published, rfl⟩ := map_eq_some_iff.mp moved
    obtain ⟨rows, counters, -⟩ := advancePublish_frame published
    exact conserves_of_keep rows (by simp only [counter, counters]) rfl

variable (splits : Splits row)
include splits
lemma lookup_update (item : Item) :
    (m.update item).rows.lookup row = (m.rows.lookup row).map (· + weigh (slotOf row) [item]) := by
  have ours : rowOf item.slot = some row ↔ item.slot = slotOf row := rowOf_eq_some_iff splits
  rw [weigh_singleton]
  unfold update
  split
  · rename_i nowhere
    have other : item.slot ≠ slotOf row := fun same => by simp [ours.mpr same] at nowhere
    simp [other]
  · rename_i named found
    by_cases same : named = row
    · subst same
      rw [if_pos (ours.mp found)]
      split
      · rename_i absent
        simp [absent]
      · rename_i bytes present
        simp [present]
    · have other : item.slot ≠ slotOf row := fun here =>
        same (some.inj (found.symm.trans (ours.mpr here)))
      rw [if_neg other]
      split
      · simp
      · simp [Ne.symm same]

lemma lookup_updates (items : List Item) :
    (items.foldl update m).rows.lookup row =
      (m.rows.lookup row).map (· + weigh (slotOf row) items) := by
  induction items generalizing m with
  | nil => simp
  | cons item items ih =>
    rw [foldl_cons, ih, lookup_update splits, Option.map_map, weigh_singleton, weigh_cons]
    congr 1
    funext bytes
    simp only [Function.comp_apply]
    abel

lemma commit_conserves (items : List Item) : Conserves row m (.flush (.commit items))
      (items.foldl update m, .flush (.hooks (flushedUsers items))) := by
  have rows := lookup_updates (m := m) splits items
  have counters := (updates_frame m items).1
  refine ⟨by rw [rows, isSome_map], fun present => ?_⟩
  obtain ⟨bytes, here⟩ := isSome_iff_exists.mp present
  simp only [worth, rows, here, map_some, getD_some, counter, counters, inHand, weigh_nil]
  abel

lemma advanceFlush_conserves {stage : FlushStage}
    (moved : advanceFlush m choice stage = some after) :
    Conserves row m (.flush stage) after := by
  cases advanceFlush_flushes moved with
  | keeps hand rows counters budgets quota outset =>
    exact conserves_of_keep rows (by simp only [counter, counters]) (by rw [hand])
  | swapsUp slot todo rest items => exact swapUp_conserves
  | swapsDown slot up todo items => exact swapDown_conserves
  | commits items => exact commit_conserves splits items
  | restores items => exact conserves_of_keep rfl rfl (weigh_redeposits _ items)
  | deposits item todo => exact conserves_deposit item _ rfl
  | refreshes publish user users reached published =>
    obtain ⟨m', next⟩ := reached
    obtain ⟨rows, counters, -⟩ := advancePublish_frame published
    refine conserves_of_keep rows (by simp only [counter, counters]) ?_
    cases next <;> rfl

lemma advance_conserves (moved : advance m choice call = some after) :
    Conserves row m call after := by
  cases call with
  | add user session up down stage => exact advanceAdd_conserves moved
  | addOutbound tag up down stage => exact advanceOutbound_conserves moved
  | flush stage => exact advanceFlush_conserves splits moved
  | reloadUsers publish users => exact advanceReload_conserves moved
  | returned => exact absurd moved (by simp [advance])
end

def tally (row : RowKey) (s : State) : Amount :=
  worth s.shared row + total (fun call => weigh (slotOf row) (inHand call)) s.calls

def brought (row : RowKey) (label : Label) : Amount :=
  ((started label).map fun call => weigh (slotOf row) (inHand call)).getD 0

variable {s : State} {label : Label}
lemma step_of_started {call} (starts : started label = some call) :
    step s label = some { s with calls := s.calls ++ [call] } := by
  cases label with
  | move i choice => exact absurd starts (by simp [started])
  | _ => simp only [step, starts, map_some]

lemma step_tally {t} (splits : Splits row) (present : (s.shared.rows.lookup row).isSome)
    (moved : step s label = some t) :
    (t.shared.rows.lookup row).isSome ∧ tally row t = tally row s + brought row label := by
  cases starts : started label with
  | some call =>
    rw [step_of_started starts] at moved
    cases moved
    refine ⟨present, ?_⟩
    simp only [tally, brought, starts, map_some, getD_some, total_append, total_singleton]
    abel
  | none =>
    cases label with
    | move i choice =>
      obtain ⟨call, after, here, advanced, rfl⟩ := moved_eq_some moved
      have conserved := advance_conserves splits advanced
      refine ⟨conserved.present.trans present, ?_⟩
      have traded := total_set (fun call => weigh (slotOf row) (inHand call)) here after.2
      have kept := conserved.balance present
      simp only [tally, brought, starts, map_none, getD_none]
      linear_combination traded + kept
    | _ => exact absurd starts (by simp [started])

lemma run_tally {labels t} (splits : Splits row) (present : (s.shared.rows.lookup row).isSome)
    (arrive : run step s labels = some t) :
    (t.shared.rows.lookup row).isSome ∧ tally row t = tally row s + total (brought row) labels := by
  induction labels generalizing s with
  | nil =>
    cases arrive
    exact ⟨present, by simp⟩
  | cons label labels ih =>
    obtain ⟨middle, first, rest⟩ := run_cons_some arrive
    obtain ⟨present', one⟩ := step_tally splits present first
    obtain ⟨present'', more⟩ := ih present' rest
    refine ⟨present'', ?_⟩
    rw [more, one]
    simp only [total, map_cons, sum_cons]
    abel

lemma tally_of_quiet (quiet : s.Quiet) : tally row s = worth s.shared row := by
  have idle : total (fun call => weigh (slotOf row) (inHand call)) s.calls = 0 := by
    apply total_of_light
    intro call running
    rw [quiet call running]
    rfl
  rw [tally, idle, add_zero]

def passedIn : RowKey → Label → Amount
  | .user id, .add user _ up down => if user = id then (up, down) else 0
  | .session id name, .add user session up down =>
    if user = id ∧ session = name then (up, down) else 0
  | .outbound name, .addOutbound tag up down => if tag = name then (up, down) else 0
  | _, _ => 0

/-- The rows that the guards of `Add` and `AddOutbound` let through, and whose key `Flush` can take
apart again. -/
def Accounted : RowKey → Prop
  | .user id => isBlank id = false
  | .session user session => isBlank user = false ∧ accSep ∉ user ∧ session ≠ []
  | .outbound tag => isBlank tag = false

instance (row : RowKey) : Decidable (Accounted row) := by
  cases row <;> unfold Accounted <;> infer_instance

/-- An `Add` for another pair does not share the joined key of this one. -/
def OwnKey : RowKey → Label → Prop
  | .session id name, .add user session _ _ =>
    user ++ accSep :: session = id ++ accSep :: name → user = id ∧ session = name
  | _, _ => True

instance (row : RowKey) (label : Label) : Decidable (OwnKey row label) := by
  cases row <;> cases label <;> unfold OwnKey <;> infer_instance

lemma splits_of_accounted (accounted : Accounted row) : Splits row := by
  cases row with
  | session user session => exact accounted.2.1
  | _ => trivial

lemma weigh_additions (slot : Slot) (slots : List Slot) (up down : Int) :
    weigh slot (additions slots up down) =
      total (fun other => if other = slot then ((up, down) : Amount) else 0) slots := by
  have half (amount : Amount) : weigh slot (slots.map fun other => ⟨other, amount⟩) =
      total (fun other => if other = slot then amount else 0) slots := by
    simp [weigh, total, Function.comp_def]
  have zero : total (fun other => if other = slot then (0 : Amount) else 0) slots = 0 := by
    simp [total]
  have both : weigh slot (additions slots up down) =
      total (fun other => if other = slot then ((up, 0) : Amount) else 0) slots +
        total (fun other => if other = slot then ((0, down) : Amount) else 0) slots := by
    rw [additions, weigh_append]
    congr 1
    · split_ifs with none
      · rw [none]
        exact zero.symm
      · exact half (up, 0)
    · split_ifs with none
      · rw [none]
        exact zero.symm
      · exact half (0, down)
  rw [both, total, total, total, ← sum_map_add]
  congr 2
  funext other
  split_ifs <;> simp

lemma brought_add (row : RowKey) (user session : Text) (up down : Int) :
    brought row (.add user session up down) = if Ignored user up down then 0 else
      total (fun other => if other = slotOf row then ((up, down) : Amount) else 0)
        (addSlots user session) := by
  simp only [brought, started, map_some, getD_some]
  split_ifs
  · rfl
  · exact weigh_additions _ _ _ _

lemma brought_outbound (row : RowKey) (tag : Text) (up down : Int) :
    brought row (.addOutbound tag up down) = if Ignored tag up down then 0 else
      total (fun other => if other = slotOf row then ((up, down) : Amount) else 0)
        (outboundSlots tag) := by
  simp only [brought, started, map_some, getD_some]
  split_ifs
  · rfl
  · exact weigh_additions _ _ _ _

lemma zero_of_ignored {name up down} (named : isBlank name = false)
    (ignored : Ignored name up down) :
    ((up, down) : Amount) = 0 := by
  rcases ignored with blank | ⟨rfl, rfl⟩
  · exact absurd blank (by simp [named])
  · rfl

lemma brought_eq_passedIn (accounted : Accounted row) (own : OwnKey row label) :
    brought row label = passedIn row label := by
  cases label with
  | move i choice | flush | reloadUsers users => cases row <;> rfl
  | addOutbound tag up down =>
    rw [brought_outbound]
    cases row with
    | user id | session id name => simp [passedIn, outboundSlots, total, slotOf]
    | outbound name =>
      by_cases same : tag = name
      · subst same
        by_cases ignored : Ignored tag up down
        · simp [passedIn, ignored, zero_of_ignored accounted ignored]
        · simp [passedIn, outboundSlots, total, slotOf, ignored]
      · simp [passedIn, outboundSlots, total, slotOf, same]
  | add user session up down =>
    rw [brought_add]
    cases row with
    | outbound name => by_cases none : session = [] <;>
        simp [passedIn, addSlots, total, slotOf, none]
    | user id =>
      by_cases same : user = id
      · subst same
        by_cases ignored : Ignored user up down
        · simp [passedIn, ignored, zero_of_ignored accounted ignored]
        · by_cases none : session = [] <;>
            simp [passedIn, addSlots, total, slotOf, ignored, none]
      · by_cases none : session = [] <;>
          simp [passedIn, addSlots, total, slotOf, same, none]
    | session id name =>
      obtain ⟨named, -, nonempty⟩ := accounted
      by_cases same : user = id ∧ session = name
      · obtain ⟨rfl, rfl⟩ := same
        by_cases ignored : Ignored user up down
        · simp [passedIn, ignored, zero_of_ignored named ignored]
        · simp [passedIn, addSlots, total, slotOf, ignored, nonempty]
      · have apart : ¬ user ++ accSep :: session = id ++ accSep :: name :=
          fun joined => same (own joined)
        rw [passedIn, if_neg same]
        by_cases none : session = [] <;>
          simp [addSlots, total, slotOf, apart, none]

/-- Between two moments at which no call is running, the persisted plus the pending bytes of every
accounted row grow by exactly the deltas passed in for it, whatever the calls, their interleaving
and the failures of the database in between. -/
theorem bytes_conserved {s t : State} {labels : List Label} (row : RowKey)
    (accounted : Accounted row) (present : (s.shared.rows.lookup row).isSome)
    (own : ∀ label ∈ labels, OwnKey row label) (start : s.Quiet)
    (arrive : run step s labels = some t) (finish : t.Quiet) :
    (t.shared.rows.lookup row).isSome ∧
      worth t.shared row = worth s.shared row + total (passedIn row) labels := by
  obtain ⟨present', grown⟩ := run_tally (splits_of_accounted accounted) present arrive
  have passed : labels.map (brought row) = labels.map (passedIn row) :=
    map_congr_left fun label member => brought_eq_passedIn accounted (own label member)
  rw [tally_of_quiet start, tally_of_quiet finish, total, passed] at grown
  exact ⟨present', grown⟩

def fresh (row : RowKey) : State where
  shared :=
    { counters := ∅, locked := false, rows := (∅ : GoMap RowKey Amount).insert row 0,
      quota := fun _ => ⟨0, 0, none, none, none⟩, budgets := fun _ => {}, killed := [] }
  calls := []

def failedThenFlushed : List Label :=
  [Label.add ['a'] ['s'] 2 3] ++ List.replicate 8 (Label.move 0 .plain) ++
    [Label.flush, .move 1 .plain, .move 1 (.pick 0), .move 1 .plain, .move 1 (.pick 0)] ++
    List.replicate 6 (Label.move 1 .plain) ++ [Label.move 1 .fails] ++
    List.replicate 6 (Label.move 1 .plain) ++
    [Label.flush, .move 2 .plain, .move 2 (.pick 0), .move 2 .plain, .move 2 (.pick 0)] ++
    List.replicate 11 (Label.move 2 .plain)

theorem bytes_conserved_through_a_failed_flush :
    ∃ t, run step (fresh (.session ['a'] ['s'])) failedThenFlushed = some t ∧ t.Quiet ∧
      (t.shared.rows.lookup (.session ['a'] ['s'])).isSome ∧ worth t.shared (.session ['a'] ['s']) =
          worth (fresh (.session ['a'] ['s'])).shared (.session ['a'] ['s']) +
            total (passedIn (.session ['a'] ['s'])) failedThenFlushed := by
  refine exists_some_and (by decide +kernel) fun t arrive finish => ?_
  exact bytes_conserved _ (by decide) (by decide +kernel) (by decide) (by decide) arrive finish

/-- A run over a database of one row ends between calls with other bytes than were passed in. -/
def Miscounts (row : RowKey) (labels : List Label) : Prop :=
  ∃ t, run step (fresh row) labels = some t ∧ t.Quiet ∧
    worth t.shared row ≠ worth (fresh row).shared row + total (passedIn row) labels

lemma miscounts_of_eval {labels}
    (evaluated : ((run step (fresh row) labels).map fun t => decide (t.Quiet ∧
      worth t.shared row ≠ worth (fresh row).shared row + total (passedIn row) labels)) =
        some true) : Miscounts row labels := by
  obtain ⟨t, arrive, ends⟩ := map_eq_some_iff.mp evaluated
  exact ⟨t, arrive, of_decide_eq_true ends⟩

/-- The delta of a blank user is dropped, a session without a name has no counter, and a user id
with the separator in it shares the key of another pair. -/
theorem dropped_and_merged_deltas : Miscounts (.user [' ']) [.add [' '] [] 5 0] ∧
      Miscounts (.session ['a'] []) (.add ['a'] [] 5 0 :: List.replicate 5 (.move 0 .plain)) ∧
        Miscounts (.session ['a'] ['b', accSep, 'c'])
          (.add ['a', accSep, 'b'] ['c'] 5 0 :: List.replicate 6 (.move 0 .plain)) :=
  ⟨miscounts_of_eval (by decide +kernel), miscounts_of_eval (by decide +kernel),
    miscounts_of_eval (by decide +kernel)⟩
end Conservation
end Tamizdat.Userdb
