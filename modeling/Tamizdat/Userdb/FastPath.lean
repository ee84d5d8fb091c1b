/- source: internal/userdb/accounting.go; pkg/tamizdat/server.go
   digest: When the budget that Add spends stays below what the cap leaves. -/

import Tamizdat.Userdb.BudgetSteps

set_option autoImplicit false

open List
namespace Tamizdat.Userdb.FastPath
open Machine Pool
open Maps hiding total
open Machine.Runs Userdb.Accounting Userdb.BudgetSteps Userdb.Conservation
open Userdb.Quota (UserRow coalesce clamp)

/-- Persisted plus pending bytes of a user, less the baseline. What a flush has swapped out is
pending until it is committed. -/
def used (s : State) (user : Text) : Int :=
  bytes (worth s.shared (.user user)) +
    total (fun call => bytes (weigh (mine user) (flushHand call))) s.calls -
      coalesce (s.shared.quota user).quotaBaseline

def cap (s : State) (user : Text) : Int := (s.shared.quota user).cap
def due (m : Shared) (user : Text) : Option Int := (m.userRow user).map UserRow.remaining

/-- All bytes of the user are persisted, and no `Add` is about to count more. -/
def Persisted (user : Text) (s : State) : Prop :=
  total (underway user) s.calls = 0 ∧ s.shared.counter (mine user) = 0 ∧
    ∀ call ∈ s.calls, Clear user call
deriving Decidable

/-- An `Add` of the user enters when no refresh of the budget is on its way and returns when all
that was counted is off the budget and nobody is about to invoke the hook; a refresh reads the row
when all bytes are persisted. -/
def Admits (user : Text) (s : State) : Call → Prop
  | .add other _ _ _ .lock => other = user → total (publishing user) s.calls = 0
  | .add other _ _ _ .checked =>
    other = user → total (owed user) s.calls = 0 ∧ total (awaiting user) s.calls = 0
  | call => publishOf call = some (.query user) → Persisted user s

instance (user : Text) (s : State) (call : Call) : Decidable (Admits user s call) := by
  unfold Admits
  split <;> infer_instance

/-- The condition on a step: a call of `Add` for the user counts some bytes, and the calls about
the user take turns as `Admits` says. -/
def Orderly (user : Text) (s : State) : Label → Prop
  | .add other _ up down => other = user → ¬ Ignored other up down ∧ 0 < up + down
  | .move i _ =>
    match s.calls[i]? with
    | some call => Admits user s call
    | none => True
  | _ => True

instance (user : Text) (s : State) (label : Label) : Decidable (Orderly user s label) := by
  rcases label with ⟨⟩ <;> dsimp only [Orderly]
  case move i _ => rcases s.calls[i]? with ⟨⟩ <;> infer_instance
  all_goals infer_instance

def Quotes (user : Text) (m : Shared) : Publish → Prop
  | .load other remaining => other = user → due m user = some remaining
  | .store other remaining _ => other = user → due m user = some remaining
  | _ => True

def room (s : State) (user : Text) : Int := cap s user - used s user + total (owed user) s.calls

/-- The budget is no more than there is room for, or the hook has been or is being invoked. A budget
that was published as zero stays until the first `Add` after it. -/
def Margin (invoked : Bool) (awaiting finished : Nat) (room budget : Int) : Prop :=
  invoked = true ∨ 0 < awaiting ∨ (0 < budget ∧ budget ≤ room) ∨
    (0 ≤ budget ∧ (budget = 0 ∨ budget ≤ room) ∧ finished = 0)

structure Guarded (user : Text) (k : Nat) (s : State) : Prop where
  present : (s.shared.rows.lookup (.user user)).isSome
  capped : 0 < cap s user
  current : (s.shared.budgets user).current = some k
  margin : ∃ budget, (s.shared.budgets user).cells[k]? = some budget ∧
    Margin (s.shared.budgets user).invoked (total (awaiting user) s.calls)
      (total (finished user) s.calls) (room s user) budget
  debounce : (s.shared.budgets user).fired = true →
    (s.shared.budgets user).invoked = true ∨ 0 < total (invoking user) s.calls ∨
      0 < total (resetting user) s.calls
  apart : 0 < total (publishing user) s.calls → Persisted user s ∧
    ∀ call ∈ s.calls, ∀ publish, publishOf call = some publish → Quotes user s.shared publish
  fits : ∀ call ∈ s.calls, Fits user k call

section
variable {user : Text} {k i : Nat} {s : State} {call : Call} {after : Shared × Call}
lemma used_set (user : Text) (here : s.calls[i]? = some call)
    (quota : after.1.quota = s.shared.quota) :
    used ⟨after.1, s.calls.set i after.2⟩ user + bytes (worth s.shared (.user user)) +
        bytes (weigh (mine user) (flushHand call)) =
      used s user + bytes (worth after.1 (.user user)) +
        bytes (weigh (mine user) (flushHand after.2)) := by
  have traded := total_set (fun call => bytes (weigh (mine user) (flushHand call))) here after.2
  simp only [used, quota]
  linarith

lemma cap_set (quota : after.1.quota = s.shared.quota) :
    cap ⟨after.1, s.calls.set i after.2⟩ user = cap s user := by
  simp only [cap, quota]

variable {publish : Publish}
variable {m : Shared}
lemma quotes_of_not_reading (other : ¬ Reading user publish) : Quotes user m publish := by
  cases publish with
  | load name remaining | store name remaining cell =>
    exact fun same => absurd ⟨same, by simp⟩ other
  | _ => trivial

lemma quotes_congr {m'} (same : due m' user = due m user) (quoted : Quotes user m publish) :
    Quotes user m' publish := by
  cases publish with
  | load name remaining | store name remaining cell => exact fun own => same.trans (quoted own)
  | _ => trivial

lemma lookup_of_elsewhere (elsewhere : Elsewhere user k s.shared call after)
    (present : (s.shared.rows.lookup (.user user)).isSome)
    (zero : s.shared.counter (mine user) = 0) (clear : Clear user call) :
    after.1.rows.lookup (.user user) = s.shared.rows.lookup (.user user) := by
  obtain ⟨zero', clear'⟩ := elsewhere.clear zero clear
  have kept := elsewhere.worth present
  rw [weigh_of_zero clear, weigh_of_zero clear', worth, worth, zero, zero', add_zero, add_zero,
    add_zero, add_zero] at kept
  obtain ⟨bytes, found⟩ := Option.isSome_iff_exists.mp present
  obtain ⟨bytes', found'⟩ := Option.isSome_iff_exists.mp (elsewhere.present.trans present)
  rw [found, found'] at kept ⊢
  exact congrArg some kept

lemma guarded_elsewhere (guarded : Guarded user k s) (here : s.calls[i]? = some call)
    (elsewhere : Elsewhere user k s.shared call after) :
    Guarded user k ⟨after.1, s.calls.set i after.2⟩ := by
  obtain ⟨present, capped, current, ⟨budget, cell, margin⟩, debounce, apart, fits⟩ := guarded
  obtain ⟨idle, calm⟩ := elsewhere.idle
  obtain ⟨idle', calm'⟩ := elsewhere.idle'
  have sameUsed : used ⟨after.1, s.calls.set i after.2⟩ user = used s user := by
    have moved := used_set user here elsewhere.quota
    have kept := congrArg bytes (elsewhere.worth present)
    rw [bytes_add, bytes_add] at kept
    linarith
  obtain ⟨sameUnderway, sameOwed, sameAwaiting, sameInvoking, sameFinished⟩ :=
    census_set here idle idle'
  have samePublishing := total_set_eq (publishing user) here (calm'.trans calm.symm)
  have unset {c : Call} (quiet : publishing user c = 0) : resetting user c = 0 :=
    Nat.eq_zero_of_le_zero ((resetting_le_publishing c).trans quiet.le)
  have sameResetting := total_set_eq (resetting user) here ((unset calm').trans (unset calm).symm)
  refine ⟨elsewhere.present.trans present, ?_, ?_, ?_, ?_, ?_, forall_set fits elsewhere.fits⟩
  · rw [cap_set elsewhere.quota]
    exact capped
  · rw [elsewhere.budget]
    exact current
  · refine ⟨budget, by rw [elsewhere.budget]; exact cell, ?_⟩
    rw [room, cap_set elsewhere.quota, sameUsed, sameOwed, sameAwaiting, sameFinished,
      elsewhere.budget]
    exact margin
  · rw [sameInvoking, sameResetting, elsewhere.budget]
    exact debounce
  · rw [samePublishing]
    intro some
    obtain ⟨⟨none, zero, clear⟩, quotes⟩ := apart some
    have ours := clear call (mem_of_getElem? here)
    obtain ⟨zero', clear'⟩ := elsewhere.clear zero ours
    have row := lookup_of_elsewhere elsewhere present zero ours
    have sameDue : due after.1 user = due s.shared user := by
      simp only [due, Shared.userRow, row, elsewhere.quota]
    refine ⟨⟨sameUnderway.trans none, zero', forall_set clear clear'⟩, ?_⟩
    apply forall_set
    · intro other member publish found
      exact quotes_congr sameDue (quotes other member publish found)
    · intro publish found
      apply quotes_of_not_reading
      intro reading
      simp [publishing, found, reading] at calm'

lemma Guarded.quotes (guarded : Guarded user k s) (member : call ∈ s.calls)
    (found : publishOf call = some publish) : Quotes user s.shared publish := by
  by_cases some : 0 < total (publishing user) s.calls
  · exact (guarded.apart some).2 call member publish found
  · apply quotes_of_not_reading
    intro reading
    obtain ⟨j, inside, rfl⟩ := getElem_of_mem member
    have one := Pool.le_total (publishing user) (getElem?_eq_getElem inside)
    rw [publishing, found] at one
    simp only [reading, if_true] at one
    omega

lemma persisted_of_query (admits : Admits user s call)
    (reads : publishOf call = some (.query user)) : Persisted user s := by
  cases call with
  | add other session up down stage => exact absurd reads (by simp [publishOf])
  | _ => exact admits reads

section
variable (persisted : Persisted user s)
include persisted
lemma used_of_persisted :
    used s user = bytes ((s.shared.rows.lookup (.user user)).getD 0) -
      coalesce (s.shared.quota user).quotaBaseline := by
  obtain ⟨-, zero, clear⟩ := persisted
  have empty : total (fun call => bytes (weigh (mine user) (flushHand call))) s.calls = 0 := by
    apply total_of_light
    intro call inside
    rw [weigh_of_zero (clear call inside), bytes_zero]
  rw [used, empty, worth, zero, add_zero, add_zero]

lemma due_le {remaining} (capped : 0 < cap s user) (quoted : due s.shared user = some remaining) :
    0 ≤ remaining ∧ (remaining = 0 ∨ remaining ≤ cap s user - used s user) := by
  rw [used_of_persisted persisted]
  simp only [due, Shared.userRow, Option.map_map, Option.map_eq_some_iff] at quoted
  obtain ⟨amount, found, rfl⟩ := quoted
  have limited : ¬ (s.shared.quota user).cap ≤ 0 := not_le.mpr capped
  simp only [found, Option.getD_some, Function.comp_apply, UserRow.remaining, UserRow.used,
    UserRow.cap, clamp, cap, bytes] at limited ⊢
  split_ifs <;> omega

lemma owed_of_persisted :
    total (owed user) s.calls = 0 ∧ total (finished user) s.calls = 0 :=
  ⟨total_eq_zero persisted.1 fun _ idle => (idle_of_not_underway idle).1,
    total_eq_zero persisted.1 fun _ idle => (idle_of_not_underway idle).2.2.2⟩
end
variable {choice : Choice} {next : Option Publish}
lemma at_of_fits (fits : Fits user k call) (found : publishOf call = some publish) :
    Publish.At user k publish := by
  cases call with
  | add other session up down stage | addOutbound tag up down stage | returned =>
    exact absurd found (by simp [publishOf])
  | flush stage | reloadUsers other users => exact fits publish found

@[simp] lemma budgets_setBudget (m : Shared) (budget : Budget) :
    (m.setBudget user budget).budgets user = budget := Function.update_self _ _ _

section
variable (here : s.calls[i]? = some call)
include here
lemma publish_frame (publishes : Publishes user k s.shared choice call after publish next) :
    room ⟨after.1, s.calls.set i after.2⟩ user = room s user ∧
      total (awaiting user) (s.calls.set i after.2) = total (awaiting user) s.calls ∧
      total (finished user) (s.calls.set i after.2) = total (finished user) s.calls ∧
      total (invoking user) (s.calls.set i after.2) = total (invoking user) s.calls ∧
      (Persisted user s → Persisted user ⟨after.1, s.calls.set i after.2⟩) := by
  obtain ⟨-, moved, -, hand, hand', idle, idle', -⟩ := publishes
  obtain ⟨rows, counters, -, quota⟩ := advancePublish_frame moved
  obtain ⟨sameUnderway, sameOwed, sameAwaiting, sameInvoking, sameFinished⟩ :=
    census_set here idle idle'
  refine ⟨?_, sameAwaiting, sameFinished, sameInvoking, ?_⟩
  · have traded := used_set user here quota
    have same : worth after.1 (.user user) = worth s.shared (.user user) := by
      simp only [worth, rows, Shared.counter, counters]
    rw [hand, hand', same] at traded
    rw [room, room, cap_set quota, sameOwed]
    linarith
  · rintro ⟨alone, zero, clear⟩
    refine ⟨sameUnderway.trans alone, ?_, forall_set clear (clear_of_empty hand')⟩
    simpa only [Shared.counter, counters] using zero

lemma room_set (user : Text) (after : Shared × Call) (quota : after.1.quota = s.shared.quota)
    (hand : flushHand call = []) (hand' : flushHand after.2 = []) :
    room ⟨after.1, s.calls.set i after.2⟩ user + owed user call +
        bytes (worth after.1 (.user user)) =
      room s user + owed user after.2 + bytes (worth s.shared (.user user)) := by
  have tradedUsed := used_set user here quota
  have tradedOwed := total_set (owed user) here after.2
  rw [hand, hand'] at tradedUsed
  rw [room, room, cap_set quota]
  linarith

variable (guarded : Guarded user k s)
include guarded
lemma guarded_of_publishes {budget}
    (publishes : Publishes user k s.shared choice call after publish next)
    (persisted : Persisted user s)
    (carries : ∀ p, next = some p → Publish.At user k p ∧ Quotes user s.shared p)
    (current : (after.1.budgets user).current = (s.shared.budgets user).current)
    (cell : (after.1.budgets user).cells[k]? = some budget)
    (margin : Margin (after.1.budgets user).invoked (total (awaiting user) s.calls)
      (total (finished user) s.calls) (room s user) budget)
    (debounce : ∀ resets, resets + resetting user call =
        total (resetting user) s.calls + resetting user after.2 →
      (after.1.budgets user).fired = true → (after.1.budgets user).invoked = true ∨
        0 < total (invoking user) s.calls ∨ 0 < resets) :
    Guarded user k ⟨after.1, s.calls.set i after.2⟩ := by
  obtain ⟨sameRoom, sameAwaiting, sameFinished, sameInvoking, keeps⟩ := publish_frame here publishes
  obtain ⟨rows, -, -, quota⟩ := advancePublish_frame publishes.moved
  have sameDue : due after.1 user = due s.shared user := by
    simp only [due, Shared.userRow, rows, quota]
  refine ⟨by rw [rows]; exact guarded.present, ?_, current.trans guarded.current,
    ⟨budget, cell, ?_⟩, ?_, ?_, ?_⟩
  · rw [cap_set quota]
    exact guarded.capped
  · rw [sameRoom, sameAwaiting, sameFinished]
    exact margin
  · rw [sameInvoking]
    exact debounce _ (total_set _ here after.2)
  · intro some
    refine ⟨keeps persisted, ?_⟩
    apply forall_set
    · intro other member p found
      exact quotes_congr sameDue (guarded.quotes member found)
    · intro p found
      exact quotes_congr sameDue (carries p (publishes.there.symm.trans found)).2
  · exact forall_set guarded.fits (publishes.fits fun p found => (carries p found).1)

lemma persisted_of_reading (found : publishOf call = some publish)
    (reading : Reading user publish) : Persisted user s := by
  have one := Pool.le_total (publishing user) here
  simp only [publishing, found, reading, if_true] at one
  exact (guarded.apart one).1

lemma guarded_publish (admits : Admits user s call) (own : owner publish = user)
    (publishes : Publishes user k s.shared choice call after publish next) :
    Guarded user k ⟨after.1, s.calls.set i after.2⟩ := by
  have member := mem_of_getElem? here
  have found := publishes.here
  have quoted := guarded.quotes member found
  have placed := at_of_fits (guarded.fits call member) found
  have moved := publishes.moved
  obtain ⟨-, capped, current, ⟨budget, cell, margin⟩, debounce, -⟩ := id guarded
  cases publish with
  | query name =>
    obtain rfl : name = user := own
    obtain ⟨frame, carries⟩ : after.1 = s.shared ∧
        ∀ p, next = some p → Publish.At name k p ∧ Quotes name s.shared p := by
      simp only [advancePublish] at moved
      split at moved
      · rename_i row read
        obtain ⟨frame, step⟩ := Prod.mk.inj (Option.some.inj moved)
        refine ⟨frame.symm, ?_⟩
        rintro p rfl
        rw [Option.ite_none_left_eq_some, Option.some.injEq] at step
        obtain ⟨-, rfl⟩ := step
        exact ⟨trivial, fun _ => by rw [due, read]; rfl⟩
      · obtain ⟨frame, rfl⟩ := Prod.mk.inj (Option.some.inj moved)
        exact ⟨frame.symm, nofun⟩
      · obtain ⟨frame, rfl⟩ := Prod.mk.inj (Option.some.inj moved)
        exact ⟨frame.symm, nofun⟩
      · cases moved
    refine guarded_of_publishes here guarded publishes (persisted_of_query admits found) carries
      (by rw [frame]) (by rw [frame]; exact cell) (by rw [frame]; exact margin) ?_
    simp only [frame, resetting, found]
    grind
  | load name remaining =>
    obtain rfl : name = user := own
    have persisted := persisted_of_reading here guarded found ⟨rfl, by simp⟩
    simp only [advancePublish, current, Option.some.injEq, Prod.mk.injEq] at moved
    obtain ⟨frame, rfl⟩ := moved
    refine guarded_of_publishes here guarded publishes persisted ?_ (by rw [← frame])
      (by rw [← frame]; exact cell) (by rw [← frame]; exact margin) ?_
    · intro p same
      cases same
      exact ⟨fun _ => rfl, quoted⟩
    · simp only [← frame, resetting, found]
      grind
  | publish name remaining other => exact absurd own placed
  | store name remaining other =>
    obtain rfl : name = user := own
    obtain rfl : other = k := placed rfl
    have persisted := persisted_of_reading here guarded found ⟨rfl, by simp⟩
    obtain ⟨noOwed, noFinished⟩ := owed_of_persisted persisted
    obtain ⟨nonneg, small⟩ := due_le persisted capped (quoted rfl)
    simp only [advancePublish, Option.some.injEq, Prod.mk.injEq] at moved
    obtain ⟨frame, rfl⟩ := moved
    have stored : (after.1.budgets name).cells[other]? = some remaining := by
      rw [← frame, budgets_setBudget, getElem?_set_apply cell, if_pos rfl]
    refine guarded_of_publishes here guarded publishes persisted ?_
      (by simp [← frame]) stored ?_ ?_
    · intro p same
      cases same
      exact ⟨trivial, trivial⟩
    · refine .inr (.inr (.inr ⟨nonneg, ?_, noFinished⟩))
      rw [room, noOwed, add_zero]
      exact small
    · simp only [resetting, found, publishes.there]
      grind
  | reset name =>
    obtain rfl : name = user := own
    have persisted := persisted_of_reading here guarded found ⟨rfl, by simp⟩
    simp only [advancePublish, Option.some.injEq, Prod.mk.injEq] at moved
    obtain ⟨frame, rfl⟩ := moved
    exact guarded_of_publishes here guarded publishes persisted (by simp) (by simp [← frame])
      (by simpa [← frame]) (by simpa [← frame]) (by simp [← frame])

lemma publishing_of_underway (runs : underway user call = 1) :
    total (publishing user) s.calls = 0 := by
  by_contra some
  have alone := (guarded.apart (Nat.pos_of_ne_zero some)).1.1
  have one := Pool.le_total (underway user) here
  omega
end
variable {session : Text} {up down : Int} {stage : AddStage}
lemma weigh_mine (user session : Text) (up down : Int) :
    weigh (mine user) (additions (addSlots user session) up down) = (up, down) := by
  rw [weigh_additions]
  by_cases none : session = [] <;> simp [addSlots, total, slotOf, none]

lemma debounce_alone (guarded : Guarded user k s) (alone : total (publishing user) s.calls = 0)
    (fired : (s.shared.budgets user).fired = true) :
    (s.shared.budgets user).invoked = true ∨ 0 < total (invoking user) s.calls := by
  have none : total (resetting user) s.calls ≤ total (publishing user) s.calls :=
    total_le_total resetting_le_publishing s.calls
  rcases guarded.debounce fired with invoked | invoking | resetting
  · exact .inl invoked
  · exact .inr invoking
  · omega

section
variable (here : s.calls[i]? = some (.add user session up down stage))
include here
lemma guarded_of_add {next : Call} {budget : Int} (guarded : Guarded user k s)
    (alone : total (publishing user) s.calls = 0) (fits : Fits user k next)
    (current : (m.budgets user).current = (s.shared.budgets user).current)
    (cell : (m.budgets user).cells[k]? = some budget)
    (settles : ∀ (awaits finishes invokes : Nat) (free : Int), invokes ≤ awaits →
      awaits + awaiting user (.add user session up down stage) =
        total (awaiting user) s.calls + awaiting user next →
      finishes + finished user (.add user session up down stage) =
        total (finished user) s.calls + finished user next →
      invokes + invoking user (.add user session up down stage) =
        total (invoking user) s.calls + invoking user next →
      free + outstanding user up down stage + bytes (worth m (.user user)) =
        room s user + owed user next + bytes (worth s.shared (.user user)) →
      Margin (m.budgets user).invoked awaits finishes free budget ∧
        ((m.budgets user).fired = true → (m.budgets user).invoked = true ∨ 0 < invokes))
    (rows : m.rows = s.shared.rows := by rfl) (quota : m.quota = s.shared.quota := by rfl)
    (calm : publishOf next = none := by rfl) (hand : flushHand next = [] := by rfl) :
    Guarded user k ⟨m, s.calls.set i next⟩ := by
  have traded := room_set here user (m, next) quota rfl hand
  simp only [owed, if_true] at traded
  obtain ⟨margin, debounce⟩ := settles _ _ _ _
    (total_le_total invoking_le_awaiting (s.calls.set i next)) (total_set _ here next)
    (total_set _ here next) (total_set _ here next) traded
  refine ⟨by rw [rows]; exact guarded.present, ?_, current.trans guarded.current,
    ⟨budget, cell, margin⟩, ?_, ?_, forall_set guarded.fits fits⟩
  · simp only [cap, quota]
    exact guarded.capped
  · exact fun fired => (debounce fired).imp_right .inl
  · intro active
    have same := total_set_eq (publishing user) here
      (show publishing user next = publishing user (.add user session up down stage) by
        rw [publishing, calm]
        rfl)
    simp only [same, alone, lt_irrefl] at active

lemma guarded_add_keep {stage'} (guarded : Guarded user k s)
    (alone : total (publishing user) s.calls = 0)
    (placed : Fits user k (.add user session up down stage'))
    (before : ∀ late ∈ [AddStage.fire, .invoke, .checked], stage ≠ late ∧ stage' ≠ late)
    (counted : outstanding user up down stage' + bytes (worth s.shared (.user user)) =
      outstanding user up down stage + bytes (worth m (.user user)) := by rfl)
    (rows : m.rows = s.shared.rows := by rfl) (quota : m.quota = s.shared.quota := by rfl)
    (budgets : m.budgets = s.shared.budgets := by rfl) :
    Guarded user k ⟨m, s.calls.set i (.add user session up down stage')⟩ := by
  simp only [mem_cons, not_mem_nil, or_false, forall_eq_or_imp, forall_eq] at before
  obtain ⟨budget, cell, margin⟩ := guarded.margin
  refine guarded_of_add here guarded alone placed (by rw [budgets]) (by rw [budgets]; exact cell)
    ?_ rows quota
  simp only [awaiting, finished, invoking, before, or_self, and_false, if_false, add_zero, owed,
    if_true]
  rintro _ _ _ free - rfl rfl rfl traded
  obtain rfl : free = room s user := by linarith
  rw [budgets]
  exact ⟨margin, debounce_alone guarded alone⟩

lemma guarded_add (guarded : Guarded user k s)
    (admits : Admits user s (.add user session up down stage))
    (moved : advanceAdd s.shared user session up down stage = some after) :
    Guarded user k ⟨after.1, s.calls.set i after.2⟩ := by
  have alone : total (publishing user) s.calls = 0 := by
    by_cases first : stage = .lock
    · subst first
      exact admits rfl
    · exact publishing_of_underway here guarded (by simp [underway, first])
  have known := guarded.fits _ (mem_of_getElem? here)
  simp only [Fits, if_true] at known
  obtain ⟨positive, placed⟩ := known
  have fits : ∀ next, AddStage.At k next → Fits user k (.add user session up down next) := by
    intro next placed
    simp only [Fits, if_true]
    exact ⟨positive, placed⟩
  have debounce := debounce_alone guarded alone
  obtain ⟨budget, cell, margin⟩ := guarded.margin
  cases stage with
  | lock =>
    simp only [advanceAdd, Option.ite_none_left_eq_some, Option.some.injEq] at moved
    obtain ⟨-, rfl⟩ := moved
    obtain ⟨counter, rows, budgets, quota⟩ := createAll s.shared (addSlots user session) (mine user)
    refine guarded_add_keep here guarded alone (fits _ trivial) (by simp) ?_ rows quota budgets
    simp only [outstanding, weigh_mine, worth, rows, counter, bytes]
    ring
  | count todo =>
    cases todo <;> cases moved <;>
      refine guarded_add_keep here guarded alone (fits _ trivial) (by simp) ?_
    case nil.refl => simp [outstanding]
    case cons.refl item todo =>
      have counted := counter_deposit s.shared item (mine user)
      rw [outstanding, outstanding, worth, worth, counted, weigh_cons, weigh_singleton]
      simp only [bytes_add, Shared.deposit, Shared.setCounter]
      ring
  | load =>
    simp only [advanceAdd, guarded.current] at moved
    cases moved
    exact guarded_add_keep here guarded alone (fits _ rfl) (by simp)
  | peek other =>
    obtain rfl : other = k := placed
    simp only [advanceAdd, cell, Option.map_some] at moved
    cases moved
    split_ifs with unlimited
    · -- A budget can only have come to -1 by a deduction, and that one fires.
      refine guarded_of_add here guarded alone (fits _ trivial) rfl cell ?_
      simp only [awaiting, invoking]
      grind [Margin]
    · exact guarded_add_keep here guarded alone (fits _ rfl) (by simp)
  | deduct other =>
    obtain rfl : other = k := placed
    simp only [advanceAdd, cell, Option.map_some] at moved
    cases moved
    have deducted : ((s.shared.budgets user).cells.set other (budget - (up + down)))[other]? =
        some (budget - (up + down)) := by rw [getElem?_set_apply cell, if_pos rfl]
    split_ifs with spent <;>
      refine guarded_of_add here guarded alone (fits _ trivial) (by simp) (by simpa) ?_
    · simp only [awaiting, invoking, budgets_setBudget]
      grind [Margin]
    · have same : ∀ b, worth (s.shared.setBudget user b) (.user user) =
          worth s.shared (.user user) := fun _ => rfl
      simp only [awaiting, invoking, finished, owed, outstanding, budgets_setBudget, same]
      grind [Margin]
  | fire =>
    simp only [advanceAdd] at moved
    split_ifs at moved with fired <;> cases moved
    · refine guarded_of_add here guarded alone (fits _ trivial) rfl cell ?_
      simp only [awaiting, invoking]
      grind [Margin]
    · refine guarded_of_add here guarded alone (fits _ trivial) (by simp) (by simpa) ?_
      simp only [awaiting, invoking, budgets_setBudget]
      grind [Margin]
  | invoke =>
    cases moved
    refine guarded_of_add here guarded alone (fits _ trivial) (by simp) (by simpa) ?_
    simp only [budgets_setBudget]
    grind [Margin]
  | checked =>
    cases moved
    refine guarded_of_add here guarded alone trivial rfl cell ?_
    simp only [awaiting, invoking, finished, owed, outstanding]
    grind [Margin]
end
variable {label : Label}
lemma slot_of_additions {slots item} (member : item ∈ additions slots up down) :
    item.slot ∈ slots := by
  rcases mem_append.mp member with first | second
  · split_ifs at first
    · exact absurd first not_mem_nil
    · obtain ⟨slot, inside, rfl⟩ := mem_map.mp first
      exact inside
  · split_ifs at second
    · exact absurd second not_mem_nil
    · obtain ⟨slot, inside, rfl⟩ := mem_map.mp second
      exact inside

section
variable (starts : started label = some call)
include starts
lemma fresh_of_started :
    underway user call = 0 ∧ publishing user call = 0 ∧ flushHand call = [] := by
  cases label with
  | add other session up down =>
    cases starts
    split_ifs
    · exact ⟨rfl, rfl, rfl⟩
    · exact ⟨by simp [underway], rfl, rfl⟩
  | addOutbound tag up down =>
    cases starts
    split_ifs <;> exact ⟨rfl, rfl, rfl⟩
  | flush | reloadUsers users =>
    cases starts
    exact ⟨rfl, rfl, rfl⟩
  | move j choice => exact absurd starts (by simp [started])

lemma fits_of_started (orderly : Orderly user s label) : Fits user k call := by
  cases label with
  | add other session up down =>
    cases starts
    split_ifs
    · trivial
    · simp only [Fits]
      split_ifs with own
      · exact ⟨(orderly own).2, trivial⟩
      · intro item member same
        have inside : mine user ∈ addSlots other session := same ▸ slot_of_additions member
        by_cases none : session = [] <;> simp [addSlots, none, slotOf] at inside
        · exact own inside.symm
        · exact own inside.symm
  | addOutbound tag up down =>
    cases starts
    split_ifs
    · trivial
    · intro item member same
      have inside : mine user ∈ outboundSlots tag := same ▸ slot_of_additions member
      simp [outboundSlots, slotOf] at inside
  | flush =>
    cases starts
    intro p found
    exact absurd found (by simp [publishOf])
  | reloadUsers users =>
    cases starts
    intro p found
    exact absurd found (by simp)
  | move j choice => exact absurd starts (by simp [started])

lemma guarded_started (guarded : Guarded user k s) (orderly : Orderly user s label) :
    Guarded user k { s with calls := s.calls ++ [call] } := by
  obtain ⟨idle, calm, hand⟩ : underway user call = 0 ∧ publishing user call = 0 ∧
      flushHand call = [] := fresh_of_started starts
  have idles := idle_of_not_underway idle
  have sameAwaiting := total_snoc (awaiting user) s.calls idles.2.1
  have sameFinished := total_snoc (finished user) s.calls idles.2.2.2
  have sameRoom : room { s with calls := s.calls ++ [call] } user = room s user := by
    have sameOwed := total_snoc (owed user) s.calls idles.1
    have sameHands := total_snoc (fun call => bytes (weigh (mine user) (flushHand call)))
      s.calls (show bytes (weigh (mine user) (flushHand call)) = 0 by rw [hand]; rfl)
    simp only [room, used, cap, sameOwed, sameHands]
  refine ⟨guarded.present, guarded.capped, guarded.current, ?_, ?_, ?_,
    forall_snoc guarded.fits (fits_of_started starts orderly)⟩
  · rw [sameRoom, sameAwaiting, sameFinished]
    exact guarded.margin
  · intro fired
    simp only [total_append]
    rcases guarded.debounce fired with invoked | invoking | resetting
    · exact .inl invoked
    · exact .inr (.inl (by omega))
    · exact .inr (.inr (by omega))
  · simp only [total_append, total_singleton, calm, add_zero]
    intro active
    obtain ⟨⟨alone, zero, clear⟩, quotes⟩ := guarded.apart active
    refine ⟨⟨?_, zero, forall_snoc clear (clear_of_empty hand)⟩, forall_snoc quotes ?_⟩
    · rw [total_snoc _ _ idle]
      exact alone
    · intro p found
      apply quotes_of_not_reading
      intro reading
      simp [publishing, found, reading] at calm
end

lemma step_guarded {t} (guarded : Guarded user k s) (orderly : Orderly user s label)
    (moved : step s label = some t) : Guarded user k t := by
  cases starts : started label with
  | some call =>
    rw [step_of_started starts] at moved
    cases moved
    exact guarded_started starts guarded orderly
  | none =>
    cases label with
    | move i choice =>
      obtain ⟨call, after, here, advanced, rfl⟩ := moved_eq_some moved
      simp only [Orderly, here] at orderly
      have fits := guarded.fits call (mem_of_getElem? here)
      rcases advance_view fits advanced with
        ⟨session, up, down, stage, rfl, adds⟩ | ⟨publish, next, own, publishes⟩ | elsewhere
      · exact guarded_add here guarded orderly adds
      · exact guarded_publish here guarded orderly own publishes
      · exact guarded_elsewhere guarded here elsewhere
    | _ => exact absurd starts (by simp [started])
end

/-- Between calls, with nothing pending, the budget that the row gives has just been published. -/
structure Seeded (user : Text) (s : State) : Prop where
  quiet : s.Quiet
  capped : 0 < cap s user
  persisted : s.shared.counter (mine user) = 0
  published : ∃ k remaining, (s.shared.budgets user).current = some k ∧
    (s.shared.budgets user).cells[k]? = some remaining ∧ due s.shared user = some remaining
  armed : (s.shared.budgets user).fired = false

variable {user : Text}
lemma guarded_of_seeded {s} (seeded : Seeded user s) : ∃ k, Guarded user k s := by
  obtain ⟨quiet, capped, zero, ⟨k, remaining, current, cell, quoted⟩, armed⟩ := seeded
  have none {w : Call → Nat} (light : w .returned = 0) : total w s.calls = 0 := by
    apply total_of_light
    intro call inside
    rw [quiet call inside, light]
  have persisted : Persisted user s := by
    refine ⟨none rfl, zero, fun call inside => ?_⟩
    rw [quiet call inside]
    exact clear_of_empty rfl
  obtain ⟨noOwed, noFinished⟩ := owed_of_persisted persisted
  obtain ⟨nonneg, small⟩ := due_le persisted capped quoted
  refine ⟨k, ?_, capped, current,
    ⟨remaining, cell, .inr (.inr (.inr ⟨nonneg, ?_, noFinished⟩))⟩, ?_, ?_, ?_⟩
  · simp only [due, Shared.userRow, Option.map_map, Option.map_eq_some_iff] at quoted
    obtain ⟨amount, found, -⟩ := quoted
    rw [found]
    rfl
  · rw [room, noOwed, add_zero]
    exact small
  · intro fired
    exact absurd fired (by simp [armed])
  · intro active
    rw [none rfl] at active
    exact absurd active (lt_irrefl 0)
  · intro call inside
    rw [quiet call inside]
    trivial

def AddReturns (user : Text) (s : State) : Label → Prop
  | .move i _ => ∃ session up down, s.calls[i]? = some (.add user session up down .checked)
  | _ => False

def Stores (user : Text) (s : State) (remaining : Int) : Label → Prop
  | .move i _ => ∃ call cell, s.calls[i]? = some call ∧
      publishOf call = some (.store user remaining cell)
  | _ => False

lemma invoked_of_returns {k t label t'} (guarded : Guarded user k t)
    (orderly : Orderly user t label)
    (moved : step t label = some t') (returns : AddReturns user t label)
    (spent : cap t' user ≤ used t' user) : (t'.shared.budgets user).invoked = true := by
  cases label with
  | move i choice =>
    obtain ⟨session, up, down, here⟩ := returns
    simp only [Orderly, here] at orderly
    obtain ⟨noOwed, noAwaiting⟩ := orderly rfl
    simp only [step, here, Option.bind_some, advance, advanceAdd, Option.map_some,
      Option.some.injEq] at moved
    subst moved
    have one := Pool.le_total (finished user) here
    simp only [finished, and_self, if_true] at one
    have traded := room_set here user (t.shared, .returned) rfl rfl rfl
    simp only [owed, if_true, outstanding] at traded
    have settled : owed user .returned = owed user (.add user session up down .checked) := by
      simp [owed, outstanding]
    have free : room t user ≤ 0 := by
      rw [room, total_set_eq _ here settled, noOwed] at traded
      linarith
    obtain ⟨budget, -, margin⟩ := guarded.margin
    rcases margin with invoked | awaiting | ⟨positive, small⟩ | ⟨-, -, none⟩
    · exact invoked
    · omega
    · omega
    · omega
  | _ => exact absurd returns (by simp [AddReturns])

lemma small_of_stores {k t label t' remaining} (guarded : Guarded user k t)
    (moved : step t label = some t')
    (stores : Stores user t remaining label) (positive : 0 < remaining) :
    remaining ≤ cap t' user - used t' user := by
  cases label with
  | move i choice =>
    obtain ⟨call, cell, here, found⟩ := stores
    simp only [step, here, Option.bind_some] at moved
    obtain ⟨after, advanced, rfl⟩ := Option.map_eq_some_iff.mp moved
    have member := mem_of_getElem? here
    have persisted := persisted_of_reading here guarded found ⟨rfl, by simp⟩
    obtain ⟨-, small⟩ := due_le persisted guarded.capped (guarded.quotes member found rfl)
    rcases advance_view (guarded.fits call member) advanced with
      ⟨session, up, down, stage, rfl, -⟩ | ⟨publish, next, -, publishes⟩ | elsewhere
    · exact absurd found (by simp [publishOf])
    · obtain ⟨sameRoom, -, -, -, keeps⟩ := publish_frame here publishes
      have noOwed := (owed_of_persisted persisted).1
      have noOwed' := (owed_of_persisted (keeps persisted)).1
      rw [room, room, noOwed, noOwed', add_zero, add_zero] at sameRoom
      omega
    · have calm := elsewhere.idle.2
      simp [publishing, found, Reading, owner] at calm
  | _ => exact absurd stores (by simp [Stores])

/-- In a run whose calls about the user take turns, an `Add` of the user that returns with the cap
used up has had the hook invoked since the last budget was stored, and no positive budget that is
stored exceeds what the cap leaves. -/
theorem never_over_grants {s t t' : State} {labels : List Label} {label : Label} (user : Text)
    (seeded : Seeded user s) (orderly : Meets step (Orderly user) s (labels ++ [label]))
    (arrive : run step s labels = some t) (moved : step t label = some t') :
    (AddReturns user t label → cap t' user ≤ used t' user →
        (t'.shared.budgets user).invoked = true) ∧
      ∀ remaining, Stores user t remaining label → 0 < remaining →
        remaining ≤ cap t' user - used t' user := by
  obtain ⟨k, start⟩ := guarded_of_seeded seeded
  obtain ⟨before, last⟩ := meets_append orderly
  have guarded : Guarded user k t := invariant_of_meets step_guarded start before arrive
  exact ⟨invoked_of_returns guarded (last t arrive).1 moved,
    fun remaining => small_of_stores guarded moved⟩

def capped : State where
  shared :=
    { counters := ∅, locked := false, rows := (∅ : GoMap RowKey Amount).insert (.user ['a']) 0,
      quota := fun _ => ⟨0, 0, none, some 100, none⟩,
      budgets := Function.update (fun _ => {}) ['a'] { cells := [100], current := some 0 },
      killed := [] }
  calls := []

lemma capped_seeded : Seeded ['a'] capped where
  quiet := by decide
  capped := by decide
  persisted := by decide +kernel
  published := ⟨0, 100, rfl, rfl, by decide +kernel⟩
  armed := by decide +kernel

def flushedBetween : List Label :=
  [Label.add ['a'] [] 60 0] ++ List.replicate 7 (Label.move 0 .plain) ++
    [Label.flush, .move 1 .plain, .move 1 (.pick 0)] ++ List.replicate 13 (Label.move 1 .plain) ++
    [Label.add ['a'] [] 50 0] ++ List.replicate 8 (Label.move 2 .plain)

theorem crossing_after_flush_invokes :
    ∃ t t', run step capped flushedBetween = some t ∧ step t (.move 2 .plain) = some t' ∧
      AddReturns ['a'] t (.move 2 .plain) ∧ cap t' ['a'] ≤ used t' ['a'] ∧
        (t'.shared.budgets ['a']).invoked = true := by
  refine exists_two_of (P := fun t t' => t.calls[2]? = some (.add ['a'] [] 50 0 .checked) ∧
    cap t' ['a'] ≤ used t' ['a']) (by decide +kernel) ?_
  rintro t t' arrive moved ⟨here, spent⟩
  have returns : AddReturns ['a'] t (.move 2 .plain) := ⟨[], 50, 0, here⟩
  have granted := never_over_grants ['a'] capped_seeded (by decide +kernel) arrive moved
  exact ⟨returns, spent, granted.1 returns spent⟩

def reloadedBetween : List Label :=
  [Label.add ['a'] [] 60 0] ++ List.replicate 7 (Label.move 0 .plain) ++
    [Label.reloadUsers [['a']]] ++ List.replicate 6 (Label.move 1 .plain) ++
    [Label.add ['a'] [] 50 0] ++ List.replicate 6 (Label.move 2 .plain)

/-- The reload publishes the whole cap again: the second `Add` returns with 110 of 100 bytes used
and nobody has been told. -/
theorem reload_grants_pending_again :
    ∃ t t', Seeded ['a'] capped ∧ run step capped reloadedBetween = some t ∧
      step t (.move 2 .plain) = some t' ∧ AddReturns ['a'] t (.move 2 .plain) ∧
        cap t' ['a'] ≤ used t' ['a'] ∧ (t'.shared.budgets ['a']).invoked = false := by
  obtain ⟨t, t', arrive, moved, here, spent, silent⟩ : ∃ t t',
      run step capped reloadedBetween = some t ∧ step t (.move 2 .plain) = some t' ∧
        t.calls[2]? = some (.add ['a'] [] 50 0 .checked) ∧ cap t' ['a'] ≤ used t' ['a'] ∧
        (t'.shared.budgets ['a']).invoked = false := by decide +kernel
  exact ⟨t, t', capped_seeded, arrive, moved, ⟨[], 50, 0, here⟩, spent, silent⟩
end Tamizdat.Userdb.FastPath
