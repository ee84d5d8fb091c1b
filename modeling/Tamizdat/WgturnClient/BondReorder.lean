/- source: internal/wgturnclient/bondv2.go, internal/wgturnclient/dispatcher.go
   digest: The client's reorder buffer, its hold, and its two buffers, whose cursors never fall. -/

import Tamizdat.Wgturn.ReorderRuns
import Tamizdat.WgturnClient.Dispatch

set_option autoImplicit false
universe u

open List Option
namespace Tamizdat.WgturnClient.BondReorder
open Machine.Maps
open Machine.ReceiveWindow (Window Moves)
open Machine.Runs (run run_nil run_cons run_cons_some exists_run Meets meets_append)
open Machine.Scan (least least_le least_mem least_ne_zero)
open Machine.Word (addW subW addW_of_lt subW_of_le addW_lt addW_ne_self addW_addW)
variable {α : Type u}
def bondReorderWindow : Nat := 256
def bondReorderHold : Int := 30000000

abbrev Time := Int

structure Stats where
  bondReorderLate : Int
  bondReorderDuplicates : Int
  bondReorderGaps : Int

structure BondReorderBuffer (α : Type u) where
  expect : Nat
  buf : GoMap Nat α
  first : Time
  stats : Stats

def newBondReorderBuffer : BondReorderBuffer α where
  expect := 1
  buf := ∅
  first := 0
  stats := ⟨0, 0, 0⟩

namespace BondReorderBuffer
def release (r : BondReorderBuffer α) : BondReorderBuffer α :=
  { r with buf := r.buf.erase r.expect, expect := addW 64 r.expect 1 }

/-- The loop of `drainContiguous`, bounded. A released payload keeps its number here;
the source appends only the payload. -/
def drainLoop : Nat → BondReorderBuffer α → BondReorderBuffer α × List (Nat × α)
  | 0, r => (r, [])
  | fuel + 1, r =>
    match r.buf.lookup r.expect with
    | none => (r, [])
    | some p => ((drainLoop fuel r.release).1, (r.expect, p) :: (drainLoop fuel r.release).2)

section
variable (r : BondReorderBuffer α)

/-- Each round deletes an entry, so one round per entry is enough. -/
def drainContiguous : BondReorderBuffer α × List (Nat × α) := drainLoop (size r.buf) r

variable (seq : Nat)
def deliver (payload : α) : BondReorderBuffer α × List (Nat × α) :=
  let drained := { r with expect := addW 64 r.expect 1 }.drainContiguous
  (if size drained.1.buf = 0 then { drained.1 with first := 0 } else drained.1,
    (seq, payload) :: drained.2)

def late : BondReorderBuffer α :=
  { r with stats := { r.stats with bondReorderLate := r.stats.bondReorderLate + 1 } }

def duplicated : BondReorderBuffer α :=
  { r with stats := { r.stats with bondReorderDuplicates := r.stats.bondReorderDuplicates + 1 } }

def restart : BondReorderBuffer α :=
  { r with
    stats := { r.stats with bondReorderGaps := r.stats.bondReorderGaps + 1 }
    expect := seq
    buf := ∅
    first := 0 }

/-- After `restart` the source calls itself, and then finds `seq` at the cursor. -/
def push (payload : α) (now : Time) : BondReorderBuffer α × List (Nat × α) :=
  if seq = 0 then (r.late, [])
  else if seq < r.expect then (r.late, [])
  else if seq = r.expect then r.deliver seq payload
  else if (r.buf.lookup seq).isSome then (r.duplicated, [])
  else if bondReorderWindow ≤ subW 64 seq r.expect then (r.restart seq).deliver seq payload
  else
    ({ r with
        buf := r.buf.insert seq payload
        first := if r.first = 0 then now else r.first }, [])

def lowest : Nat := least r.buf.keys
end

def flushExpired [Inhabited α] (r : BondReorderBuffer α) (now : Time) :
    BondReorderBuffer α × List (Nat × α) :=
  if size r.buf = 0 ∨ r.first = 0 ∨ now - r.first < bondReorderHold then (r, [])
  else
    let lowest := r.lowest
    let skipped :=
      if r.expect < lowest then
        { r with
          stats := { r.stats with
            bondReorderGaps := r.stats.bondReorderGaps + subW 64 lowest r.expect }
          expect := lowest }
      else r
    let payload := (skipped.buf.lookup lowest).getD default
    let drained := { skipped with
      buf := skipped.buf.erase lowest, expect := addW 64 lowest 1 }.drainContiguous
    ({ drained.1 with first := if size drained.1.buf = 0 then 0 else now },
      (lowest, payload) :: drained.2)

/-- Nothing is buffered below the cursor, and no number is the last 64-bit value. -/
structure Valid (r : BondReorderBuffer α) : Prop where
  positive : 1 ≤ r.expect
  bounded : r.expect < 2 ^ 64
  ahead : ∀ {s : Nat} {a : α}, r.buf.lookup s = some a → r.expect ≤ s ∧ s < 2 ^ 64 - 1

def toWindow (r : BondReorderBuffer α) (valid : r.Valid) : Window α where
  cursor := r.expect
  held := fun s => r.buf.lookup s
  above := fun holds => (valid.ahead holds).1

structure Settled (r : BondReorderBuffer α) : Prop extends r.Valid where
  open_cursor : r.buf.lookup r.expect = none

lemma settled_new : (newBondReorderBuffer : BondReorderBuffer α).Settled where
  positive := by simp [newBondReorderBuffer]
  bounded := by simp [newBondReorderBuffer]
  ahead := by simp [newBondReorderBuffer]
  open_cursor := by simp [newBondReorderBuffer]

variable {r : BondReorderBuffer α}
lemma toWindow_congr {r' : BondReorderBuffer α} (valid : r.Valid) (valid' : r'.Valid)
    (expect : r'.expect = r.expect) (buf : r'.buf = r.buf) :
    r'.toWindow valid' = r.toWindow valid := by
  apply Window.ext
  · exact expect
  · simp only [toWindow, buf]

lemma Valid.release {p} (valid : r.Valid) (head : r.buf.lookup r.expect = some p) :
    ∃ after : r.release.Valid, r.release.toWindow after = (r.toWindow valid).emit := by
  have bound := valid.ahead head
  have next : r.release.expect = r.expect + 1 := addW_of_lt (by omega)
  have after : r.release.Valid := by
    refine ⟨by omega, by omega, ?_⟩
    intro s a holds
    have erased : (if s = r.expect then none else r.buf.lookup s) = some a := by
      rw [← lookup_erase]
      exact holds
    split_ifs at erased with same
    have range := valid.ahead erased
    omega
  refine ⟨after, Window.ext next ?_⟩
  funext s
  rw [Window.emit_held]
  exact lookup_erase r.buf r.expect s

variable (fuel : Nat)
lemma drainLoop_stop (absent : r.buf.lookup r.expect = none) :
    drainLoop (fuel + 1) r = (r, []) := by
  simp only [drainLoop, absent]

lemma drainLoop_release {p} (head : r.buf.lookup r.expect = some p) : drainLoop (fuel + 1) r =
      ((drainLoop fuel r.release).1, (r.expect, p) :: (drainLoop fuel r.release).2) := by
  simp only [drainLoop, head]

lemma Valid.drainLoop_moves (valid : r.Valid) : ∃ after : (drainLoop fuel r).1.Valid,
      Moves (r.toWindow valid) [] (drainLoop fuel r).2 ((drainLoop fuel r).1.toWindow after) := by
  induction fuel generalizing r with
  | zero => exact ⟨valid, Moves.refl _⟩
  | succ fuel ih =>
    cases head : r.buf.lookup r.expect with
    | none =>
      rw [drainLoop_stop fuel head]
      exact ⟨valid, Moves.refl _⟩
    | some p =>
      obtain ⟨released, emitted⟩ := valid.release head
      obtain ⟨after, rest⟩ := ih released
      rw [drainLoop_release fuel head]
      refine ⟨after, ?_⟩
      have first : Moves (r.toWindow valid) [] [(r.expect, p)] (r.release.toWindow released) := by
        rw [emitted]
        exact (Moves.refl _).emit p head
      exact first.trans rest

lemma drainLoop_stops (few : size r.buf ≤ fuel) :
    (drainLoop fuel r).1.buf.lookup (drainLoop fuel r).1.expect = none := by
  induction fuel generalizing r with
  | zero => exact lookup_eq_none_of_size (Nat.le_zero.mp few) _
  | succ fuel ih =>
    cases head : r.buf.lookup r.expect with
    | none =>
      rw [drainLoop_stop fuel head]
      exact head
    | some p =>
      rw [drainLoop_release fuel head]
      apply ih
      have fewer : size r.release.buf + 1 = size r.buf := size_erase_of_lookup head
      omega

lemma Valid.drainContiguous (valid : r.Valid) : ∃ after : r.drainContiguous.1.Settled,
      Moves (r.toWindow valid) [] r.drainContiguous.2
        (r.drainContiguous.1.toWindow after.toValid) := by
  obtain ⟨after, moves⟩ := valid.drainLoop_moves (size r.buf)
  exact ⟨⟨after, drainLoop_stops _ le_rfl⟩, moves⟩

variable (settled : r.Settled)
variable (payload : α)
lemma Settled.deliver (small : r.expect < 2 ^ 64 - 1) :
    ∃ after : (r.deliver r.expect payload).1.Settled,
      Moves (r.toWindow settled.toValid) [(r.expect, payload)] (r.deliver r.expect payload).2
        ((r.deliver r.expect payload).1.toWindow after.toValid) := by
  let stepped : BondReorderBuffer α := { r with expect := addW 64 r.expect 1 }
  have next : stepped.expect = r.expect + 1 := addW_of_lt (by omega)
  have stepped_valid : stepped.Valid := by
    refine ⟨by omega, by omega, ?_⟩
    intro s a holds
    have range := settled.ahead holds
    have other : s ≠ r.expect := by
      rintro rfl
      have absent := settled.open_cursor
      rw [show r.buf.lookup r.expect = some a from holds] at absent
      cases absent
    omega
  have within : (r.toWindow settled.toValid).cursor ≤ r.expect := le_rfl
  have through : stepped.toWindow stepped_valid =
      ((r.toWindow settled.toValid).store r.expect payload within).emit := by
    apply Window.ext
    · exact next
    · funext s
      rw [Window.emit_held, Window.store_held, Window.store_cursor]
      change r.buf.lookup s = if s = r.expect then none else
        if s = r.expect then some payload else r.buf.lookup s
      split_ifs with same
      · rw [same, settled.open_cursor]
      · rfl
  have moved : Moves (r.toWindow settled.toValid) [(r.expect, payload)] [(r.expect, payload)]
      (stepped.toWindow stepped_valid) := by
    rw [through]
    refine Moves.emit payload (Moves.store r.expect payload (Moves.refl _) within
      settled.open_cursor) ?_
    exact if_pos rfl
  obtain ⟨after, drained⟩ := stepped_valid.drainContiguous
  have whole := moved.trans drained
  by_cases cleared : size stepped.drainContiguous.1.buf = 0
  · have result : r.deliver r.expect payload = ({ stepped.drainContiguous.1 with first := 0 },
        (r.expect, payload) :: stepped.drainContiguous.2) := by
      simp only [BondReorderBuffer.deliver, stepped, cleared, if_true]
    rw [result]
    exact ⟨⟨⟨after.positive, after.bounded, after.ahead⟩, after.open_cursor⟩, whole⟩
  · have result : r.deliver r.expect payload = (stepped.drainContiguous.1,
        (r.expect, payload) :: stepped.drainContiguous.2) := by
      simp only [BondReorderBuffer.deliver, stepped, cleared, if_false]
    rw [result]
    exact ⟨after, whole⟩

def Accepts (r : BondReorderBuffer α) (seq : Nat) : Prop :=
  r.expect ≤ seq ∧ (r.buf.lookup seq).isNone
deriving Decidable

def Discards (r : BondReorderBuffer α) (seq : Nat) : Prop :=
  r.Accepts seq ∧ r.expect + bondReorderWindow ≤ seq ∧ size r.buf ≠ 0

variable {seq : Nat}
lemma Settled.restart (low : 1 ≤ seq) (small : seq < 2 ^ 64 - 1) : (r.restart seq).Settled where
  positive := low
  bounded := by
    change seq < 2 ^ 64
    omega
  ahead := by simp [BondReorderBuffer.restart]
  open_cursor := by simp [BondReorderBuffer.restart]

lemma restart_deliver (r : BondReorderBuffer α) (seq : Nat) (payload : α) :
    ((r.restart seq).deliver seq payload).1.buf = ∅ ∧
      ((r.restart seq).deliver seq payload).2 = [(seq, payload)] := by
  simp [deliver, BondReorderBuffer.restart, drainContiguous, drainLoop]

lemma restart_deliver_expect (r : BondReorderBuffer α) (seq : Nat) (payload : α) :
    ((r.restart seq).deliver seq payload).1.expect = addW 64 seq 1 := by
  simp [deliver, BondReorderBuffer.restart, drainContiguous, drainLoop]

lemma push_jump (now : Time) (small : seq < 2 ^ 64 - 1)
    (accepts : r.Accepts seq) (jump : r.expect + bondReorderWindow ≤ seq) :
    r.push seq payload now = (r.restart seq).deliver seq payload := by
  have window : bondReorderWindow = 256 := rfl
  have absent : (r.buf.lookup seq).isSome = false := by
    rw [isSome_eq_false_iff]
    exact accepts.2
  have distance : subW 64 seq r.expect = seq - r.expect := subW_of_le (by omega) (by omega)
  have far : bondReorderWindow ≤ subW 64 seq r.expect := by omega
  rw [BondReorderBuffer.push, if_neg (by omega), if_neg (by omega), if_neg (by omega), absent,
    if_neg Bool.false_ne_true, if_pos far]

lemma Settled.restart_moves (later : r.expect ≤ seq)
    (empty : size r.buf = 0) (restarted : (r.restart seq).Settled) :
    Moves (r.toWindow settled.toValid) [] [] ((r.restart seq).toWindow restarted.toValid) := by
  have clear : ∀ {s : Nat} {a : α}, (r.toWindow settled.toValid).held s = some a → seq ≤ s := by
    intro s a holds
    have absent := lookup_eq_none_of_size empty s
    rw [show r.buf.lookup s = some a from holds] at absent
    cases absent
  have skipped : (r.restart seq).toWindow restarted.toValid =
      (r.toWindow settled.toValid).skip seq clear := by
    apply Window.ext
    · rfl
    · funext s
      exact (lookup_eq_none_of_size empty s).symm
  rw [skipped]
  exact (Moves.refl _).skip seq later clear

lemma Settled.buffer (first : Time)
    (ahead : r.expect < seq) (small : seq < 2 ^ 64 - 1) (fresh : r.buf.lookup seq = none) :
    ∃ after : BondReorderBuffer.Settled
        { r with buf := r.buf.insert seq payload, first := first },
      Moves (r.toWindow settled.toValid) [(seq, payload)] [] (toWindow _ after.toValid) := by
  have inserted := lookup_insert r.buf seq
  have after : BondReorderBuffer.Settled
      { r with buf := r.buf.insert seq payload, first := first } := by
    refine ⟨⟨settled.positive, settled.bounded, ?_⟩, ?_⟩
    · intro s a holds
      rw [inserted] at holds
      split_ifs at holds with same
      · subst same
        exact ⟨ahead.le, small⟩
      · exact settled.ahead holds
    · rw [inserted, if_neg (Nat.ne_of_lt ahead)]
      exact settled.open_cursor
  refine ⟨after, ?_⟩
  have within : (r.toWindow settled.toValid).cursor ≤ seq := ahead.le
  have stored : toWindow _ after.toValid =
      (r.toWindow settled.toValid).store seq payload within := by
    apply Window.ext
    · rfl
    · funext s
      rw [Window.store_held]
      exact inserted s payload
  rw [stored]
  exact (Moves.refl _).store seq payload within fresh

lemma Settled.push_spec (now : Time) (small : seq < 2 ^ 64 - 1) :
    ∃ after : (r.push seq payload now).1.Settled,
      (¬ r.Accepts seq ∧ (r.push seq payload now).2 = [] ∧
        (r.push seq payload now).1.toWindow after.toValid = r.toWindow settled.toValid) ∨
      (r.Accepts seq ∧ ¬ r.Discards seq ∧
        Moves (r.toWindow settled.toValid) [(seq, payload)] (r.push seq payload now).2
          ((r.push seq payload now).1.toWindow after.toValid)) ∨
      (r.Discards seq ∧ (r.push seq payload now).1.buf = ∅ ∧
        (r.push seq payload now).2 = [(seq, payload)]) := by
  have positive := settled.positive
  rcases Nat.lt_trichotomy seq r.expect with before | rfl | ahead
  · have result : r.push seq payload now = (r.late, []) := by
      unfold push
      split_ifs <;> rfl
    rw [result]
    have after : r.late.Settled :=
      ⟨⟨settled.positive, settled.bounded, settled.ahead⟩, settled.open_cursor⟩
    exact ⟨after, .inl ⟨fun accepted => by have := accepted.1; omega, rfl,
      toWindow_congr settled.toValid after.toValid rfl rfl⟩⟩
  · have result : r.push r.expect payload now = r.deliver r.expect payload := by
      simp only [push, Nat.ne_of_gt positive, lt_irrefl, if_false, if_true]
    rw [result]
    obtain ⟨after, moves⟩ := settled.deliver payload small
    refine ⟨after, .inr (.inl ⟨⟨le_rfl, by rw [settled.open_cursor]; rfl⟩, ?_, moves⟩)⟩
    intro discarded
    have far := discarded.2.1
    simp [bondReorderWindow] at far
  · have distance : subW 64 seq r.expect = seq - r.expect := subW_of_le ahead.le (by omega)
    cases present : r.buf.lookup seq with
    | some old =>
      have result : r.push seq payload now = (r.duplicated, []) := by
        unfold push
        rw [if_neg (by omega), if_neg (by omega), if_neg (by omega), present]
        rfl
      rw [result]
      have after : r.duplicated.Settled :=
        ⟨⟨settled.positive, settled.bounded, settled.ahead⟩, settled.open_cursor⟩
      refine ⟨after, .inl ⟨?_, rfl, toWindow_congr settled.toValid after.toValid rfl rfl⟩⟩
      intro accepted
      simpa [present] using accepted.2
    | none =>
      have accepted : r.Accepts seq := ⟨ahead.le, by rw [present]; rfl⟩
      by_cases far : bondReorderWindow ≤ subW 64 seq r.expect
      · have jump : r.expect + bondReorderWindow ≤ seq := by omega
        rw [push_jump payload now small accepted jump]
        have restarted : (r.restart seq).Settled := Settled.restart (by omega) small
        obtain ⟨after, delivered⟩ := restarted.deliver payload small
        refine ⟨after, ?_⟩
        by_cases empty : size r.buf = 0
        · refine .inr (.inl ⟨accepted, fun discarded => discarded.2.2 empty, ?_⟩)
          exact (settled.restart_moves ahead.le empty restarted).trans delivered
        · obtain ⟨cleared, alone⟩ := restart_deliver r seq payload
          exact .inr (.inr ⟨⟨accepted, jump, empty⟩, cleared, alone⟩)
      · have result : r.push seq payload now =
            ({ r with buf := r.buf.insert seq payload,
                      first := if r.first = 0 then now else r.first }, []) := by
          unfold push
          rw [if_neg (by omega), if_neg (by omega), if_neg (by omega), present, if_neg far]
          rfl
        rw [result]
        obtain ⟨after, moves⟩ :=
          settled.buffer payload (if r.first = 0 then now else r.first) ahead small present
        refine ⟨after, .inr (.inl ⟨accepted, ?_, moves⟩)⟩
        intro discarded
        have := discarded.2.1
        omega

lemma Valid.keys_positive (valid : r.Valid) : ∀ n ∈ r.buf.keys, 1 ≤ n := by
  intro n member
  obtain ⟨a, holds⟩ := mem_keys_iff.mp member
  exact valid.positive.trans (valid.ahead holds).1

lemma flushExpired_eq {now} [Inhabited α]
    (expired : ¬ (size r.buf = 0 ∨ r.first = 0 ∨ now - r.first < bondReorderHold))
    (below : r.expect ≤ r.lowest) :
    ∃ (stats : Stats) (first : Time),
      r.flushExpired now =
        ({ ({ r with expect := r.lowest, stats := stats }).release.drainContiguous.1 with
            first := first },
          (r.lowest, (r.buf.lookup r.lowest).getD default) ::
            ({ r with expect := r.lowest, stats := stats }).release.drainContiguous.2) := by
  rw [BondReorderBuffer.flushExpired, if_neg expired]
  dsimp only
  by_cases gap : r.expect < r.lowest
  · rw [if_pos gap]
    exact ⟨_, _, rfl⟩
  · rw [if_neg gap]
    have same : r.lowest = r.expect := by omega
    refine ⟨r.stats, if size r.release.drainContiguous.1.buf = 0 then 0 else now, ?_⟩
    rw [same]
    rfl

lemma Settled.flushExpired [Inhabited α] (settled : r.Settled) (now : Time) :
    ∃ after : (r.flushExpired now).1.Settled,
      Moves (r.toWindow settled.toValid) [] (r.flushExpired now).2
        ((r.flushExpired now).1.toWindow after.toValid) := by
  by_cases early : size r.buf = 0 ∨ r.first = 0 ∨ now - r.first < bondReorderHold
  · rw [BondReorderBuffer.flushExpired, if_pos early]
    exact ⟨settled, Moves.refl _⟩
  · have occupied : r.buf.keys ≠ [] := by
      intro none
      exact early (.inl (by rw [size_eq_keys, none]; rfl))
    obtain ⟨k, member⟩ := exists_mem_of_ne_nil _ occupied
    have positive := settled.keys_positive
    obtain ⟨payload, present⟩ : ∃ a, r.buf.lookup r.lowest = some a :=
      mem_keys_iff.mp (least_mem positive (least_ne_zero positive member))
    have range := settled.ahead present
    have clear : ∀ {s : Nat} {a : α}, (r.toWindow settled.toValid).held s = some a → r.lowest ≤ s :=
      fun holds => least_le positive (mem_keys_iff.mpr ⟨_, holds⟩)
    obtain ⟨stats, first, result⟩ := flushExpired_eq early range.1
    let skipped : BondReorderBuffer α := { r with expect := r.lowest, stats := stats }
    have skipped_valid : skipped.Valid :=
      ⟨settled.positive.trans range.1, by change r.lowest < 2 ^ 64; omega,
        fun {s a} holds => ⟨clear holds, (settled.ahead holds).2⟩⟩
    obtain ⟨released_valid, released⟩ := skipped_valid.release present
    obtain ⟨after, drained⟩ := released_valid.drainContiguous
    have skipping : Moves (r.toWindow settled.toValid) [] [] (skipped.toWindow skipped_valid) :=
      (Moves.refl _).skip r.lowest range.1 clear
    have emitting : Moves (skipped.toWindow skipped_valid) [] [(r.lowest, payload)]
        (skipped.release.toWindow released_valid) := by
      rw [released]
      exact (Moves.refl _).emit payload present
    have final : (r.flushExpired now).1.Settled := by
      rw [result]
      exact ⟨⟨after.positive, after.bounded, after.ahead⟩, after.open_cursor⟩
    refine ⟨final, ?_⟩
    have moves := (skipping.trans emitting).trans drained
    have window : (r.flushExpired now).1.toWindow final.toValid =
        (skipped.release.drainContiguous.1).toWindow after.toValid :=
      toWindow_congr after.toValid final.toValid (by rw [result]) (by rw [result])
    rw [window, result, present]
    exact moves
end BondReorderBuffer

inductive Op (α : Type u)
  | push (seq : Nat) (payload : α) (now : Time)
  | flushExpired (now : Time)

def Op.Small : Op α → Prop
  | .push seq _ _ => seq < 2 ^ 64 - 1
  | .flushExpired _ => True

structure Ledger (α : Type u) where
  buffer : BondReorderBuffer α
  accepted : List (Nat × α)
  emitted : List (Nat × α)

def Ledger.start : Ledger α := ⟨newBondReorderBuffer, [], []⟩

def Ledger.step [Inhabited α] (l : Ledger α) : Op α → Option (Ledger α)
  | .push seq payload now =>
    some
      { buffer := (l.buffer.push seq payload now).1
        accepted :=
          if l.buffer.Accepts seq then l.accepted ++ [(seq, payload)] else l.accepted
        emitted := l.emitted ++ (l.buffer.push seq payload now).2 }
  | .flushExpired now =>
    some { l with
      buffer := (l.buffer.flushExpired now).1
      emitted := l.emitted ++ (l.buffer.flushExpired now).2 }

def Ledger.Conserved (l : Ledger α) : Prop :=
  ∀ p ∈ l.accepted, p ∈ l.emitted ∨ l.buffer.buf.lookup p.1 = some p.2

def Ledger.Keeps (l : Ledger α) : Op α → Prop
  | .push seq _ _ => ¬ l.buffer.Discards seq
  | .flushExpired _ => True

structure Ledger.Sound (l : Ledger α) : Prop where
  settled : l.buffer.Settled
  moves : Moves (Window.empty 1) l.accepted l.emitted (l.buffer.toWindow settled.toValid)

lemma Ledger.sound_start : (Ledger.start : Ledger α).Sound := by
  refine ⟨BondReorderBuffer.settled_new, ?_⟩
  exact Moves.refl _

variable {l : Ledger α}
lemma Ledger.Sound.conserved (sound : l.Sound) : l.Conserved :=
  fun _ member => sound.moves.conserve (.inr member)

variable {l' : Ledger α}
lemma Ledger.Sound.step {op} [Inhabited α] (sound : l.Sound) (small : op.Small) (keeps : l.Keeps op)
    (next : l.step op = some l') : l'.Sound := by
  cases op with
  | push seq payload now =>
    cases next
    obtain ⟨after, outcome⟩ := sound.settled.push_spec payload now small
    rcases outcome with ⟨rejected, nothing, same⟩ | ⟨accepted, -, moves⟩ | ⟨discarded, -⟩
    · rw [if_neg rejected, nothing, append_nil]
      exact ⟨after, same ▸ sound.moves⟩
    · rw [if_pos accepted]
      exact ⟨after, sound.moves.trans moves⟩
    · exact absurd discarded keeps
  | flushExpired now =>
    cases next
    obtain ⟨after, moves⟩ := sound.settled.flushExpired now
    refine ⟨after, ?_⟩
    simpa using sound.moves.trans moves

lemma Ledger.Sound.not_conserved_of_discards {seq} [Inhabited α] (sound : l.Sound) (payload : α)
    (now : Time) (small : seq < 2 ^ 64 - 1) (discards : l.buffer.Discards seq)
    (next : l.step (.push seq payload now) = some l') : ¬ l'.Conserved := by
  intro conserved
  cases next
  obtain ⟨after, outcome⟩ := sound.settled.push_spec payload now small
  have occupied : l.buffer.buf.keys ≠ [] := by
    intro none
    exact discards.2.2 (by rw [size_eq_keys, none]; rfl)
  obtain ⟨s, member⟩ := exists_mem_of_ne_nil _ occupied
  obtain ⟨a, held⟩ := mem_keys_iff.mp member
  rcases outcome with ⟨rejected, -⟩ | ⟨-, kept, -⟩ | ⟨-, cleared, alone⟩
  · exact rejected discards.1
  · exact kept discards
  · have came : (s, a) ∈ l.accepted :=
      (sound.moves.origin (.inr held)).resolve_left (by simp [Window.empty])
    rcases conserved (s, a) (by rw [if_pos discards.1]; exact mem_append_left _ came)
      with emitted | still
    · rw [alone] at emitted
      rcases mem_append.mp emitted with before | now
      · have below := (sound.moves.emitted_range before).2
        have above := (sound.settled.ahead held).1
        exact absurd (lt_of_lt_of_le below above) (lt_irrefl _)
      · obtain ⟨rfl, -⟩ := Prod.mk.inj (mem_singleton.mp now)
        have fresh := discards.1.2
        rw [held] at fresh
        cases fresh
    · rw [cleared] at still
      cases still

/-- The output of a jumping push: every buffered packet, in order, before the new one. -/
def Ledger.JumpFlushes (l : Ledger α) (seq : Nat) (payload : α) (now : Time) : Prop :=
  ∃ held rest, (l.buffer.push seq payload now).2 = held ++ (seq, payload) :: rest ∧
    (held.map Prod.fst).Pairwise (· < ·) ∧
    ∀ s a, l.buffer.buf.lookup s = some a → (s, a) ∈ held

/-- Nothing accepted is lost at any point of the run, and a push that is accepted a window or
more ahead releases the buffered packets before its own. -/
def LosesNothing [Inhabited α] (ops : List (Op α)) : Prop :=
  (∀ pre l, pre <+: ops → run Ledger.step Ledger.start pre = some l → l.Conserved) ∧
  ∀ pre seq payload now l, pre ++ [.push seq payload now] <+: ops →
    run Ledger.step Ledger.start pre = some l → l.buffer.Accepts seq →
    l.buffer.expect + bondReorderWindow ≤ seq → l.JumpFlushes seq payload now

lemma Ledger.Sound.run_of_meets {ops} [Inhabited α] (sound : l.Sound) (small : ∀ op ∈ ops, op.Small)
    (keeps : Meets Ledger.step Ledger.Keeps l ops) (arrive : run Ledger.step l ops = some l') :
    l'.Sound := by
  induction ops generalizing l with
  | nil =>
    rw [run_nil, some.injEq] at arrive
    exact arrive ▸ sound
  | cons op ops ih =>
    obtain ⟨m, first, rest⟩ := run_cons_some arrive
    exact ih (sound.step (small op mem_cons_self) keeps.1 first)
      (fun later member => small later (mem_cons_of_mem op member))
      (keeps.2 m first) rest

lemma Ledger.Sound.meets_of_conserved {ops} [Inhabited α] (sound : l.Sound)
    (small : ∀ op ∈ ops, op.Small)
    (conserved : ∀ pre l', pre <+: ops → run Ledger.step l pre = some l' → l'.Conserved) :
    Meets Ledger.step Ledger.Keeps l ops := by
  induction ops generalizing l with
  | nil => trivial
  | cons op ops ih =>
    have head := small op mem_cons_self
    have keeps : l.Keeps op := by
      cases op with
      | flushExpired now => trivial
      | push seq payload now =>
        intro discards
        refine sound.not_conserved_of_discards payload now head discards rfl ?_
        exact conserved [.push seq payload now] _ (cons_prefix_cons.mpr ⟨rfl, nil_prefix⟩) rfl
    refine ⟨keeps, ?_⟩
    intro m first
    refine ih (sound.step head keeps first)
      (fun later member => small later (mem_cons_of_mem op member)) ?_
    intro pre l' before arrive
    refine conserved (op :: pre) l' (cons_prefix_cons.mpr ⟨rfl, before⟩) ?_
    rw [run_cons, first]
    exact arrive

/-- The buffer loses nothing in exactly the runs in which no accepted push lands a window or more
ahead of the cursor while packets are buffered. -/
theorem loses_nothing_iff [Inhabited α] (ops : List (Op α)) (small : ∀ op ∈ ops, op.Small) :
    LosesNothing ops ↔ Meets Ledger.step Ledger.Keeps Ledger.start ops := by
  constructor
  · intro nothing
    exact Ledger.sound_start.meets_of_conserved small nothing.1
  · intro keeps
    constructor
    · rintro pre l ⟨post, rfl⟩ arrive
      exact (Ledger.sound_start.run_of_meets
        (fun op member => small op (mem_append_left post member))
        (meets_append keeps).1 arrive).conserved
    · rintro pre seq payload now l ⟨post, rfl⟩ arrive accepts jump
      rw [append_assoc] at keeps small
      have sound := Ledger.sound_start.run_of_meets
        (fun op member => small op (mem_append_left _ member))
        (meets_append keeps).1 arrive
      have kept : ¬ l.buffer.Discards seq := ((meets_append keeps).2 l arrive).1
      have empty : size l.buffer.buf = 0 := by
        by_contra occupied
        exact kept ⟨accepts, jump, occupied⟩
      have output : (l.buffer.push seq payload now).2 = [(seq, payload)] := by
        rw [BondReorderBuffer.push_jump payload now
          (small (.push seq payload now) (by simp)) accepts jump]
        exact (BondReorderBuffer.restart_deliver l.buffer seq payload).2
      refine ⟨[], [], output, List.Pairwise.nil, ?_⟩
      intro s a held
      rw [lookup_eq_none_of_size empty] at held
      cases held

theorem loses_nothing_iff_jump :
    LosesNothing [.push 300 "a" 1, .push 302 "c" 2, .flushExpired 40000000] ↔
      Meets Ledger.step Ledger.Keeps Ledger.start
        [.push 300 "a" 1, .push 302 "c" 2, .flushExpired 40000000] :=
  loses_nothing_iff _ (by simp [Op.Small])

/-- Packet 2 is accepted and buffered; packet 300 throws it away unreleased. -/
theorem jump_discards_buffered : ¬ LosesNothing [.push 2 "b" 1, .push 300 "z" 2] := by
  intro nothing
  have conserved := nothing.1 _ _ (prefix_refl _) rfl
  rcases conserved (2, "b") (by decide) with emitted | still
  · exact absurd emitted (by decide)
  · exact absurd still (by decide)

open Machine.GapClock (View Idle Dates Skips Watch)
namespace BondReorderBuffer
def view (r : BondReorderBuffer α) : View := ⟨r.expect, decide (size r.buf ≠ 0), r.first⟩

def Contiguous (r : BondReorderBuffer α) : Prop :=
  ∀ j < size r.buf, (r.buf.lookup (addW 64 r.expect (j + 1))).isSome

instance (r : BondReorderBuffer α) : Decidable r.Contiguous :=
  inferInstanceAs (Decidable (∀ j < size r.buf, _))

structure Open (r : BondReorderBuffer α) : Prop where
  word : r.expect < 2 ^ 64
  absent : r.buf.lookup r.expect = none

lemma open_new : (newBondReorderBuffer : BondReorderBuffer α).Open where
  word := by simp [newBondReorderBuffer]
  absent := by simp [newBondReorderBuffer]

variable {r : BondReorderBuffer α}
lemma drainLoop_keeps (fuel : Nat) (word : r.expect < 2 ^ 64) :
    (drainLoop fuel r).1.expect < 2 ^ 64 ∧ (drainLoop fuel r).1.first = r.first := by
  induction fuel generalizing r with
  | zero => exact ⟨word, rfl⟩
  | succ fuel ih =>
    cases head : r.buf.lookup r.expect with
    | none =>
      rw [drainLoop_stop fuel head]
      exact ⟨word, rfl⟩
    | some p =>
      rw [drainLoop_release fuel head]
      exact ih (addW_lt 64 r.expect 1)

lemma open_drainContiguous (word : r.expect < 2 ^ 64) : r.drainContiguous.1.Open where
  word := (drainLoop_keeps _ word).1
  absent := drainLoop_stops _ le_rfl

lemma drainLoop_unbroken (k : Nat) (few : k ≤ 2 ^ 64) (count : size r.buf = k)
    (expect : r.expect < 2 ^ 64) (unbroken : ∀ j < k, (r.buf.lookup (addW 64 r.expect j)).isSome) :
    size (drainLoop k r).1.buf = 0 := by
  induction k generalizing r with
  | zero => exact count
  | succ k ih =>
    have here : addW 64 r.expect 0 = r.expect := Nat.mod_eq_of_lt expect
    obtain ⟨p, head⟩ := isSome_iff_exists.mp (here ▸ unbroken 0 (Nat.succ_pos k))
    have fewer : size r.release.buf + 1 = size r.buf := size_erase_of_lookup head
    rw [drainLoop_release k head]
    refine ih (by omega) (by omega) (addW_lt 64 r.expect 1) ?_
    intro j inside
    have shifted : addW 64 r.release.expect j = addW 64 r.expect (j + 1) := by
      change addW 64 (addW 64 r.expect 1) j = addW 64 r.expect (j + 1)
      rw [addW_addW, Nat.add_comm 1]
    rw [shifted]
    change ((r.buf.erase r.expect).lookup _).isSome
    rw [lookup_erase, if_neg (addW_ne_self (by omega) (by omega))]
    exact unbroken (j + 1) (by omega)

lemma Open.size_lt (opened : r.Open) (contiguous : r.Contiguous) : size r.buf < 2 ^ 64 := by
  by_contra long
  have around : addW 64 r.expect (2 ^ 64 - 1 + 1) = r.expect := by
    rw [addW, Nat.sub_add_cancel Nat.one_le_two_pow, Nat.add_mod_right]
    exact Nat.mod_eq_of_lt opened.word
  have present := contiguous (2 ^ 64 - 1) (by omega)
  rw [around, opened.absent] at present
  cases present

lemma Open.deliver_empties (opened : r.Open) (contiguous : r.Contiguous) (seq : Nat)
    (payload : α) : size (r.deliver seq payload).1.buf = 0 := by
  have short := opened.size_lt contiguous
  have drained : size ({ r with expect := addW 64 r.expect 1 }).drainContiguous.1.buf = 0 := by
    refine drainLoop_unbroken (size r.buf) short.le rfl (addW_lt 64 r.expect 1) ?_
    intro j inside
    change (r.buf.lookup (addW 64 (addW 64 r.expect 1) j)).isSome
    rw [addW_addW, Nat.add_comm 1]
    exact contiguous j inside
  simp only [deliver, if_pos drained]
  exact drained

lemma deliver_open (r : BondReorderBuffer α) (seq : Nat) (payload : α) :
    (r.deliver seq payload).1.Open := by
  let stepped : BondReorderBuffer α := { r with expect := addW 64 r.expect 1 }
  have opened : stepped.drainContiguous.1.Open := open_drainContiguous (addW_lt 64 r.expect 1)
  dsimp only [deliver]
  split_ifs
  · exact ⟨opened.word, opened.absent⟩
  · exact opened

lemma deliver_first (r : BondReorderBuffer α) (seq : Nat) (payload : α)
    (empty : size (r.deliver seq payload).1.buf = 0) : (r.deliver seq payload).1.first = 0 := by
  unfold deliver at empty ⊢
  dsimp only at empty ⊢
  split_ifs at empty ⊢ with cleared
  · rfl
  · exact absurd empty cleared
end BondReorderBuffer

/-- While packets are buffered, the number at the cursor arrives only when they follow it without
a break. -/
def OneGap (r : BondReorderBuffer α) : Op α → Prop
  | .push seq _ _ => seq = r.expect → r.Contiguous
  | .flushExpired _ => True

instance (r : BondReorderBuffer α) (op : Op α) : Decidable (OneGap r op) := by
  cases op <;> unfold OneGap <;> infer_instance

def Op.call [Inhabited α] (r : BondReorderBuffer α) : Op α → Option (BondReorderBuffer α)
  | .push seq payload now => some (r.push seq payload now).1
  | .flushExpired now => some (r.flushExpired now).1

def Op.time : Op α → Time
  | .push _ _ now => now
  | .flushExpired now => now

namespace BondReorderBuffer
variable {r : BondReorderBuffer α} {seq : Nat} {now : Time}
lemma Open.buffer_honest {date} (opened : r.Open) (payload : α) (ahead : seq ≠ r.expect)
    (dated : date = now ∨ date = r.first) :
    Open { r with buf := r.buf.insert seq payload, first := date } ∧
      Idle (view { r with buf := r.buf.insert seq payload, first := date }) ∧
      Dates r.view (view { r with buf := r.buf.insert seq payload, first := date }) now := by
  have occupied : size (r.buf.insert seq payload) ≠ 0 := by
    rw [size_eq_keys, AList.keys_insert, List.length_cons]
    omega
  refine ⟨⟨opened.word, ?_⟩, ?_, ?_⟩
  · dsimp only
    rw [lookup_insert, if_neg (Ne.symm ahead)]
    exact opened.absent
  · intro quiet
    exact absurd occupied (of_decide_eq_false quiet)
  · rcases dated with set | kept
    · exact .inr (.inl set)
    · exact .inr (.inr ⟨kept, fun _ _ => rfl⟩)

lemma deliver_honest {payload} {b : BondReorderBuffer α}
    (empty : size (b.deliver seq payload).1.buf = 0)
    (v : View) (now : Time) :
    (b.deliver seq payload).1.Open ∧ Idle (b.deliver seq payload).1.view ∧
      Dates v (b.deliver seq payload).1.view now := by
  have stopped := deliver_first b seq payload empty
  exact ⟨deliver_open b seq payload, fun _ => stopped, .inl stopped⟩

lemma Open.push_honest (opened : r.Open) (idle : Idle r.view) {payload : α}
    (gap : OneGap r (.push seq payload now)) :
    (r.push seq payload now).1.Open ∧ Idle (r.push seq payload now).1.view ∧
      Dates r.view (r.push seq payload now).1.view now := by
  have ignored : ∀ stats : Stats, Open { r with stats := stats } ∧
      Idle (view { r with stats := stats }) ∧
      Dates r.view (view { r with stats := stats }) now :=
    fun _ => ⟨⟨opened.word, opened.absent⟩, idle, Dates.of_eq rfl now⟩
  unfold push
  by_cases zero : seq = 0
  · rw [if_pos zero]
    exact ignored _
  by_cases late : seq < r.expect
  · rw [if_neg zero, if_pos late]
    exact ignored _
  by_cases head : seq = r.expect
  · rw [if_neg zero, if_neg late, if_pos head]
    exact deliver_honest (opened.deliver_empties (gap head) seq payload) r.view now
  rw [if_neg zero, if_neg late, if_neg head]
  by_cases present : (r.buf.lookup seq).isSome
  · rw [if_pos present]
    exact ignored _
  by_cases far : bondReorderWindow ≤ subW 64 seq r.expect
  · -- the map was thrown away
    rw [if_neg present, if_pos far]
    refine deliver_honest ?_ r.view now
    rw [(restart_deliver r seq payload).1]
    rfl
  · rw [if_neg present, if_neg far]
    refine opened.buffer_honest payload head ?_
    by_cases unset : r.first = 0
    · exact .inl (if_pos unset)
    · exact .inr (if_neg unset)

lemma redate_honest (b : BondReorderBuffer α) (word : b.expect < 2 ^ 64) (v : View) (now : Time) :
    let date := if size b.drainContiguous.1.buf = 0 then 0 else now
    Open { b.drainContiguous.1 with first := date } ∧
      Idle (view { b.drainContiguous.1 with first := date }) ∧
      Dates v (view { b.drainContiguous.1 with first := date }) now := by
  have opened := open_drainContiguous word
  by_cases empty : size b.drainContiguous.1.buf = 0
  · simp only [if_pos empty]
    exact ⟨⟨opened.word, opened.absent⟩, fun _ => rfl, .inl rfl⟩
  · simp only [if_neg empty]
    refine ⟨⟨opened.word, opened.absent⟩, ?_, .inr (.inl rfl)⟩
    intro quiet
    exact absurd empty (of_decide_eq_false quiet)

lemma Open.flush_honest [Inhabited α] (opened : r.Open) (idle : Idle r.view) (now : Time) :
    (r.flushExpired now).1.Open ∧ Idle (r.flushExpired now).1.view ∧
      Dates r.view (r.flushExpired now).1.view now := by
  rw [flushExpired]
  by_cases early : size r.buf = 0 ∨ r.first = 0 ∨ now - r.first < bondReorderHold
  · rw [if_pos early]
    exact ⟨opened, idle, Dates.of_eq rfl now⟩
  · rw [if_neg early]
    exact redate_honest _ (addW_lt 64 r.lowest 1) r.view now

lemma Open.call_honest {op r'} [Inhabited α] (opened : r.Open) (idle : Idle r.view)
    (gap : OneGap r op)
    (called : op.call r = some r') : r'.Open ∧ Idle r'.view ∧ Dates r.view r'.view op.time := by
  cases op with
  | push seq payload now =>
    cases called
    exact opened.push_honest idle gap
  | flushExpired now =>
    cases called
    exact opened.flush_honest idle now

lemma flushExpired_moved [Inhabited α] (moved : (r.flushExpired now).1.expect ≠ r.expect) :
    size r.buf ≠ 0 ∧ r.first ≠ 0 ∧ bondReorderHold ≤ now - r.first := by
  by_cases early : size r.buf = 0 ∨ r.first = 0 ∨ now - r.first < bondReorderHold
  · rw [flushExpired, if_pos early] at moved
    exact absurd rfl moved
  · push Not at early
    exact early
end BondReorderBuffer

def Patient [Inhabited α] (w : Watch (BondReorderBuffer α)) : Op α → Prop
  | .push _ _ _ => True
  | .flushExpired now =>
    ∀ g, Skips w.buffer.expect (w.buffer.flushExpired now).1.expect
        ((w.buffer.flushExpired now).2.map Prod.fst) g →
      ∃ t, w.since = some t ∧ bondReorderHold ≤ now - t

def watched (clock : Int) : Watch (BondReorderBuffer α) := ⟨newBondReorderBuffer, none, clock⟩

def Watched.step [Inhabited α] :
    Watch (BondReorderBuffer α) → Op α → Option (Watch (BondReorderBuffer α)) :=
  Watch.step Op.call Op.time BondReorderBuffer.view

lemma patient_of_oneGap [Inhabited α] (clock : Int) (ops : List (Op α))
    (admitted : Meets Watched.step (fun w op => OneGap w.buffer op) (watched clock) ops) :
    Meets Watched.step Patient (watched clock) ops := by
  refine Watch.meets_of_honest
    (fun r op r' opened idle gap called =>
      BondReorderBuffer.Open.call_honest opened idle gap called) ?_
    BondReorderBuffer.open_new ⟨fun _ => rfl, ?_⟩ admitted
  · intro w op opened fresh
    cases op with
    | push seq payload now => trivial
    | flushExpired now =>
      intro g skips
      obtain ⟨occupied, running, due⟩ := BondReorderBuffer.flushExpired_moved skips.moved
      have waiting : w.buffer.view.waiting = true := decide_eq_true occupied
      obtain ⟨t, since, -, dated⟩ := fresh.visible waiting
      refine ⟨t, since, ?_⟩
      have recent : t ≤ w.buffer.first := dated.resolve_left running
      omega
  · intro waiting
    exact absurd waiting Bool.false_ne_true

open Wgturn
variable {β : Type u} [Inhabited β]

/-- On both ends of a bond every gap is given the full hold in every run in which, while packets
are buffered, the packet at the cursor arrives only in front of an unbroken run of them, and, on
the server, no packet lands a window or more ahead. -/
theorem gaps_given_full_hold (hold clock : Int) (ops : List (Reorder.Op α)) (ops' : List (Op β))
    (server : Meets Reorder.Watched.step (fun w op => Reorder.OneGap w.buffer op)
      (Reorder.watched hold clock) ops)
    (client : Meets Watched.step (fun w op => OneGap w.buffer op) (watched clock) ops') :
    Meets Reorder.Watched.step (Reorder.Patient hold) (Reorder.watched hold clock) ops ∧
      Meets Watched.step Patient (watched clock) ops' :=
  ⟨Reorder.patient_of_oneGap hold clock ops server, patient_of_oneGap clock ops' client⟩

theorem gaps_given_full_hold_two_gaps :
    Meets Reorder.Watched.step (Reorder.Patient 30) (Reorder.watched 30 0)
        [.push 2 "b" 1, .push 3 "c" 5, .push 1 "a" 9, .push 6 "f" 10, .flushExpired 39,
          .flushExpired 40] ∧
      Meets Watched.step Patient (watched 0)
        [.push 2 "b" 1, .push 3 "c" 5, .push 1 "a" 9, .push 6 "f" 10, .flushExpired 30000009,
          .flushExpired 30000010] :=
  gaps_given_full_hold 30 0 _ _ (by decide +kernel) (by decide +kernel)

/-- Packet 2 opens the gap at 1, and 4 the gap at 3. When 1 arrives the date of the first gap is
kept, so 3 is given up although nothing behind it was buffered for even half of the hold. -/
theorem second_gap_cut_short :
    (¬ Meets Reorder.Watched.step (Reorder.Patient 30) (Reorder.watched 30 0)
        ([.push 2 "b" 1, .push 4 "d" 20, .push 1 "a" 25] ++ [.flushExpired 31])) ∧
      ¬ Meets Watched.step Patient (watched 0)
        ([.push 2 "b" 1, .push 4 "d" 20000000, .push 1 "a" 25000000] ++
          [.flushExpired 30000001]) := by
  constructor
  · intro patient
    obtain ⟨w, arrive, since, skips⟩ : ∃ w, run Reorder.Watched.step (Reorder.watched 30 0)
          [.push 2 "b" 1, .push 4 "d" 20, .push 1 "a" 25] = some w ∧ w.since = some 25 ∧
        Skips w.buffer.next (w.buffer.flushExpired 31).1.next
          ((w.buffer.flushExpired 31).2.map Reorder.ReorderPacket.sequence) 3 := by
      decide +kernel
    obtain ⟨t, seen, held⟩ := ((meets_append patient).2 w arrive).1 3 skips
    rw [since, some.injEq] at seen
    omega
  · intro patient
    obtain ⟨w, arrive, since, skips⟩ : ∃ w, run Watched.step (watched 0)
          [.push 2 "b" 1, .push 4 "d" 20000000, .push 1 "a" 25000000] = some w ∧
        w.since = some 25000000 ∧ Skips w.buffer.expect (w.buffer.flushExpired 30000001).1.expect
          ((w.buffer.flushExpired 30000001).2.map Prod.fst) 3 := by
      decide +kernel
    obtain ⟨t, seen, held⟩ := ((meets_append patient).2 w arrive).1 3 skips
    rw [since, some.injEq] at seen
    rw [bondReorderHold] at held
    omega

open WgturnClient.Frames
open Wgturn.Reorder (toNat_lt_last Lanes LaneOp)

/-- The reorder buffers of a dispatcher. Its counters and events are left out. -/
structure Returns where
  bondBulkReorder : BondReorderBuffer (List UInt8)
  bondLatencyReorder : BondReorderBuffer (List UInt8)

def Returns.start : Returns := ⟨newBondReorderBuffer, newBondReorderBuffer⟩

namespace Returns
variable (d : Returns)
def get (latency : Bool) : BondReorderBuffer (List UInt8) :=
  if latency then d.bondLatencyReorder else d.bondBulkReorder

def set (latency : Bool) (r : BondReorderBuffer (List UInt8)) : Returns :=
  if latency then { d with bondLatencyReorder := r } else { d with bondBulkReorder := r }

lemma get_set (lane latency : Bool) (r : BondReorderBuffer (List UInt8)) :
    (d.set latency r).get lane = if lane = latency then r else d.get lane := by
  cases lane <;> cases latency <;> rfl

def handleBondReturn (pkt : List UInt8) (now : Time) : Returns × List (Nat × List UInt8) :=
  match decodeBondFrame pkt with
  | .error _ => (d, [])
  | .ok frame =>
    let (latency, valid) := bondLatencyLane frame.flags
    if frame.type = bondFrameKeepalive then (d, [])
    else if frame.type = bondFrameError then (d, [])
    else if frame.type ≠ bondFrameData then (d, [])
    else if valid = false ∨ frame.seq = 0 ∨ frame.payload.length = 0 then (d, [])
    else
      let result := (d.get latency).push frame.seq.toNat frame.payload now
      (d.set latency result.1, result.2)

def flush (now : Time) : Returns :=
  ⟨(d.bondBulkReorder.flushExpired now).1, (d.bondLatencyReorder.flushExpired now).1⟩
end Returns

inductive ReturnOp
  | packet (pkt : List UInt8) (now : Time)
  | tick (now : Time)

def Returns.step (d : Returns) : ReturnOp → Option Returns
  | .packet pkt now => some (d.handleBondReturn pkt now).1
  | .tick now => some (d.flush now)

def ReturnOp.BelowLast : ReturnOp → Prop
  | .packet pkt _ => ∀ frame, decodeBondFrame pkt = .ok frame → frame.type = bondFrameData →
      frame.seq ≠ UInt64.ofNat (2 ^ 64 - 1)
  | .tick _ => True

namespace BondReorderBuffer
variable {α : Type}
def TurnsAway (r : BondReorderBuffer α) (seq : Nat) : Prop :=
  ∀ payload now, r.push seq payload now = (r.late, [])

lemma Settled.push_forward {seq} {r : BondReorderBuffer α} (settled : r.Settled) (payload : α)
    (now : Time) (small : seq < 2 ^ 64 - 1) :
    (r.push seq payload now).1.Settled ∧ r.expect ≤ (r.push seq payload now).1.expect := by
  obtain ⟨after, outcome⟩ := settled.push_spec payload now small
  refine ⟨after, ?_⟩
  rcases outcome with ⟨-, -, same⟩ | ⟨-, -, moves⟩ | ⟨discards, -, -⟩
  · exact (congrArg Machine.ReceiveWindow.Window.cursor same).ge
  · exact moves.cursor_le
  · have next : addW 64 seq 1 = seq + 1 := addW_of_lt (by omega)
    have low := discards.1.1
    rw [push_jump payload now small discards.1 discards.2.1, restart_deliver_expect]
    omega
end BondReorderBuffer

def Returns.Forward (d d' : Returns) : Prop :=
  ∀ latency, (d.get latency).expect ≤ (d'.get latency).expect ∧
    ∀ seq < (d.get latency).expect, (d'.get latency).TurnsAway seq

lemma Returns.forward_of_le {d d' : Returns}
    (le : ∀ latency, (d.get latency).expect ≤ (d'.get latency).expect) : d.Forward d' := by
  intro latency
  refine ⟨le latency, ?_⟩
  intro seq passed payload now
  have late : seq < (d'.get latency).expect := passed.trans_le (le latency)
  by_cases zero : seq = 0
  · rw [BondReorderBuffer.push, if_pos zero]
  · rw [BondReorderBuffer.push, if_neg zero, if_pos late]

lemma Returns.handleBondReturn_cases (d : Returns) (pkt : List UInt8) (now : Time) :
    (d.handleBondReturn pkt now).1 = d ∨
      ∃ frame latency, decodeBondFrame pkt = .ok frame ∧ frame.type = bondFrameData ∧
        (d.handleBondReturn pkt now).1 =
          d.set latency ((d.get latency).push frame.seq.toNat frame.payload now).1 := by
  unfold handleBondReturn
  cases decoded : decodeBondFrame pkt with
  | error _ => exact .inl rfl
  | ok frame =>
    rcases lane : bondLatencyLane frame.flags with ⟨latency, valid⟩
    simp only [lane]
    split_ifs with keepalive failed other refused
    · exact .inl rfl
    · exact .inl rfl
    · exact .inl rfl
    · exact .inl rfl
    · exact .inr ⟨frame, latency, rfl, not_not.mp other, rfl⟩

section
variable {d : Returns} (settled : ∀ latency, (d.get latency).Settled)
include settled
lemma Returns.packet_forward {now} {pkt : List UInt8}
    (below : (ReturnOp.packet pkt now).BelowLast) :
    ∀ latency, ((d.handleBondReturn pkt now).1.get latency).Settled ∧
      (d.get latency).expect ≤ ((d.handleBondReturn pkt now).1.get latency).expect := by
  intro lane
  rcases d.handleBondReturn_cases pkt now with same | ⟨frame, latency, decoded, data, moved⟩
  · rw [same]
    exact ⟨settled lane, le_rfl⟩
  · have small := toNat_lt_last (below frame decoded data)
    obtain ⟨after, forward⟩ := (settled latency).push_forward frame.payload now small
    rw [moved, Returns.get_set]
    split_ifs with same
    · exact ⟨after, same ▸ forward⟩
    · exact ⟨settled lane, le_rfl⟩

lemma Returns.step_forward {op : ReturnOp} (below : op.BelowLast) :
    ∃ d', d.step op = some d' ∧
      ∀ latency, (d'.get latency).Settled ∧ (d.get latency).expect ≤ (d'.get latency).expect := by
  cases op with
  | packet pkt now => exact ⟨_, rfl, Returns.packet_forward settled below⟩
  | tick now =>
    refine ⟨_, rfl, fun latency => ?_⟩
    have lane : (d.flush now).get latency = ((d.get latency).flushExpired now).1 := by
      cases latency <;> rfl
    rw [lane]
    obtain ⟨after, moves⟩ := (settled latency).flushExpired now
    exact ⟨after, moves.cursor_le⟩

lemma Returns.run_forward (ops : List ReturnOp) (below : ∀ op ∈ ops, op.BelowLast) :
    ∃ d', run Returns.step d ops = some d' ∧
      ∀ latency, (d'.get latency).Settled ∧ (d.get latency).expect ≤ (d'.get latency).expect := by
  refine exists_run ?_ (fun latency => ⟨settled latency, le_rfl⟩) below
  intro m op between allowed
  obtain ⟨d', first, onward⟩ := Returns.step_forward (fun latency => (between latency).1) allowed
  exact ⟨d', first, fun latency => (onward latency).imp_right (between latency).2.trans⟩
end

/-- As long as no frame carries the last 64-bit number, every run of a bond's two ends returns, no
cursor falls, and a number that was passed is turned away later. -/
theorem cursors_only_advance (bulkHold latencyHold : Int) (pre post : List LaneOp)
    (pre' post' : List ReturnOp) (server : ∀ op ∈ pre ++ post, op.BelowLast)
    (client : ∀ op ∈ pre' ++ post', op.BelowLast) :
    (∃ b b', run Lanes.step (Lanes.start bulkHold latencyHold) pre = some b ∧
      run Lanes.step b post = some b' ∧ b.Forward b') ∧
    ∃ d d', run Returns.step Returns.start pre' = some d ∧
      run Returns.step d post' = some d' ∧ d.Forward d' := by
  constructor
  · obtain ⟨b, arrive, valid⟩ := Lanes.run_forward (Lanes.valid_start bulkHold latencyHold) pre
      (fun op member => server op (mem_append_left post member))
    obtain ⟨b', onward, after⟩ := Lanes.run_forward (fun latency => (valid latency).1) post
      (fun op member => server op (mem_append_right pre member))
    exact ⟨b, b', arrive, onward, Lanes.forward_of_le fun latency => (after latency).2⟩
  · have start : ∀ latency, (Returns.start.get latency).Settled := by
      intro latency
      cases latency <;> exact BondReorderBuffer.settled_new
    obtain ⟨d, arrive, settled⟩ := Returns.run_forward start pre'
      (fun op member => client op (mem_append_left post' member))
    obtain ⟨d', onward, after⟩ := Returns.run_forward (fun latency => (settled latency).1) post'
      (fun op member => client op (mem_append_right pre' member))
    exact ⟨d, d', arrive, onward, Returns.forward_of_le fun latency => (after latency).2⟩

theorem cursors_only_advance_gap :
    (∃ b b', run Lanes.step (Lanes.start 30 30)
        [.data ⟨0, 1, [7]⟩ 1, .data ⟨0, 3, [9]⟩ 2] = some b ∧
      run Lanes.step b [.tick 40, .data ⟨0, 2, [8]⟩ 41] = some b' ∧ b.Forward b') ∧
    ∃ d d', run Returns.step Returns.start
        [.packet (header ⟨bondFrameData, 0, 1, [7]⟩ ++ [7]) 1, .tick 2] = some d ∧
      run Returns.step d [.packet (header ⟨bondFrameData, 0, 300, [8]⟩ ++ [8]) 3] = some d' ∧
        d.Forward d' := by
  refine cursors_only_advance 30 30 [.data ⟨0, 1, [7]⟩ 1, .data ⟨0, 3, [9]⟩ 2]
    [.tick 40, .data ⟨0, 2, [8]⟩ 41]
    [.packet (header ⟨bondFrameData, 0, 1, [7]⟩ ++ [7]) 1, .tick 2]
    [.packet (header ⟨bondFrameData, 0, 300, [8]⟩ ++ [8]) 3] (by decide) ?_
  have first : decodeBondFrame (header ⟨bondFrameData, 0, 1, [7]⟩ ++ [7]) =
      .ok ⟨bondFrameData, 0, 1, [7]⟩ := by decide
  have second : decodeBondFrame (header ⟨bondFrameData, 0, 300, [8]⟩ ++ [8]) =
      .ok ⟨bondFrameData, 0, 300, [8]⟩ := by decide
  simp only [cons_append, nil_append, forall_mem_cons, ReturnOp.BelowLast, first,
    second, Except.ok.injEq]
  refine ⟨?_, trivial, ?_, by simp⟩
  · rintro frame rfl -
    decide
  · rintro frame rfl -
    decide

/-- Frame 1 is released. A frame with the last 64-bit number then takes the cursor from 2 to 0,
and frame 1 is taken in a second time; the next flush that is due releases it again. -/
theorem last_number_resets_cursors :
    (∃ b b', run Lanes.step (Lanes.start 30 30) [.data ⟨0, 1, [7]⟩ 1] = some b ∧
      run Lanes.step b [.data ⟨0, UInt64.ofNat (2 ^ 64 - 1), [8]⟩ 2, .data ⟨0, 1, [9]⟩ 3] =
        some b' ∧
      (b'.get false).next < (b.get false).next ∧
      ((b'.get false).flushExpired 40).2.map (fun p => (p.sequence, p.payload)) = [(1, [9])]) ∧
    ∃ d d', run Returns.step Returns.start
        [.packet (header ⟨bondFrameData, 0, 1, [7]⟩ ++ [7]) 1] = some d ∧
      run Returns.step d
        [.packet (header ⟨bondFrameData, 0, UInt64.ofNat (2 ^ 64 - 1), [8]⟩ ++ [8]) 2,
          .packet (header ⟨bondFrameData, 0, 1, [9]⟩ ++ [9]) 3] = some d' ∧
      (d'.get false).expect < (d.get false).expect ∧
      ((d'.get false).flushExpired 40000000).2 = [(1, [9])] := by decide +kernel
end Tamizdat.WgturnClient.BondReorder
