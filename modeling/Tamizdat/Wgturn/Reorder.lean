/- source: internal/wgturn/bond.go
   digest: The server's 256-slot reorder buffer, whose pushes and flushes move a receive window. -/

import Tamizdat.Machine.Bytes
import Mathlib.Data.Fintype.Card
import Mathlib.Data.List.FinRange
import Tamizdat.Machine.ReceiveWindow

set_option autoImplicit false
universe u

open List
namespace Tamizdat.Wgturn.Reorder
open Machine.ReceiveWindow (Window Moves)
open Machine.Scan (least least_le least_mem least_ne_zero)
open Machine.Word (addW subW addW_of_lt subW_of_le)
variable {α : Type u}
def bondReorderWindow : Nat := 256

structure ReorderPacket (α : Type u) where
  sequence : Nat
  payload : α

/-- Instants are integers; the zero instant is the one for which `IsZero` holds. -/
abbrev Time := Int

structure PacketReorder (α : Type u) where
  next : Nat
  hold : Int
  gapSince : Time
  slots : Fin bondReorderWindow → Option (ReorderPacket α)
  buffered : Int
  gaps : Nat
  late : Nat
  duplicate : Nat

def newPacketReorder (hold : Int) : PacketReorder α where
  next := 1
  hold := hold
  gapSince := 0
  slots := fun _ => none
  buffered := 0
  gaps := 0
  late := 0
  duplicate := 0

def slot (sequence : Nat) : Fin bondReorderWindow :=
  ⟨sequence % bondReorderWindow, Nat.mod_lt _ (by decide)⟩

open Function (update)
namespace PacketReorder
section
variable (r : PacketReorder α)
def advanceTo (sequence : Nat) : PacketReorder α :=
  if r.next < sequence then
    { r with gaps := addW 64 r.gaps (subW 64 sequence r.next), next := sequence }
  else r

def sequences : List Nat :=
  (List.finRange bondReorderWindow).filterMap (fun i => (r.slots i).map ReorderPacket.sequence)

def lowest : Nat × Bool := (least r.sequences, least r.sequences != 0)

def release : PacketReorder α :=
  { r with
    slots := update r.slots (slot r.next) none
    buffered := r.buffered - 1
    next := addW 64 r.next 1 }
end

/-- The loop of `drain`, bounded. A released packet keeps its sequence number here;
the source appends only its payload. -/
def drainLoop : Nat → PacketReorder α → PacketReorder α × List (ReorderPacket α)
  | 0, r => (r, [])
  | fuel + 1, r =>
    match r.slots (slot r.next) with
    | none => (r, [])
    | some p =>
      if p.sequence = r.next then
        let rest := drainLoop fuel r.release
        (rest.1, p :: rest.2)
      else (r, [])

def drain (r : PacketReorder α) : PacketReorder α × List (ReorderPacket α) :=
  drainLoop bondReorderWindow r

/-- The window-pressure loop of `push`; `none` when it is still running after `fuel` rounds. -/
def pressure : Nat → PacketReorder α → Nat → Option (PacketReorder α × List (ReorderPacket α))
  | 0, _, _ => none
  | fuel + 1, r, sequence =>
    if bondReorderWindow ≤ subW 64 sequence r.next then
      match r.lowest with
      | (_, false) =>
        some ({ r with gaps := addW 64 r.gaps (subW 64 sequence r.next), next := sequence }, [])
      | (lowest, true) =>
        let drained := (r.advanceTo lowest).drain
        (pressure fuel drained.1 sequence).map (fun rest => (rest.1, drained.2 ++ rest.2))
    else some (r, [])

variable (r : PacketReorder α)
def markGap (now : Time) : PacketReorder α :=
  let r := if 0 < r.buffered ∧ r.gapSince = 0 then { r with gapSince := now } else r
  if r.buffered = 0 then { r with gapSince := 0 } else r

variable (sequence : Nat)
def place (payload : α) (now : Time)
    (out : List (ReorderPacket α)) : PacketReorder α × List (ReorderPacket α) :=
  let stored : PacketReorder α :=
    { r with
      slots := update r.slots (slot sequence) (some ⟨sequence, payload⟩)
      buffered := r.buffered + 1 }
  (stored.drain.1.markGap now, out ++ stored.drain.2)

def accept (payload : α) (now : Time)
    (out : List (ReorderPacket α)) : PacketReorder α × List (ReorderPacket α) :=
  match r.slots (slot sequence) with
  | some old =>
    if old.sequence = sequence then
      ({ r with duplicate := addW 64 r.duplicate 1 }, [])
    else
      -- the stale slot is discarded
      place { r with buffered := r.buffered - 1 } sequence payload now out
  | none => place r sequence payload now out

def push (payload : α) (now : Time) : Option (PacketReorder α × List (ReorderPacket α)) :=
  if sequence = 0 ∨ sequence < r.next then
    some ({ r with late := addW 64 r.late 1 }, [])
  else
    (r.pressure (bondReorderWindow + 1) sequence).map
      (fun loop => accept loop.1 sequence payload now loop.2)

def flushExpired (now : Time) : PacketReorder α × List (ReorderPacket α) :=
  if r.buffered = 0 ∨ r.gapSince = 0 ∨ now - r.gapSince < r.hold then (r, [])
  else
    match r.lowest with
    | (_, false) => (r, [])
    | (lowest, true) =>
      let drained := (r.advanceTo lowest).drain
      (if 0 < drained.1.buffered then { drained.1 with gapSince := now }
        else { drained.1 with gapSince := 0 }, drained.2)
end PacketReorder

def ReorderPacket.entry (p : ReorderPacket α) : Nat × α := (p.sequence, p.payload)

open ReorderPacket (entry)
lemma entry_inj {p q : ReorderPacket α} (same : p.entry = q.entry) : p = q := by
  cases p
  cases q
  simpa [entry] using same

open Finset (univ)
namespace PacketReorder
def occupied (r : PacketReorder α) : Nat := (univ.filter (fun i => (r.slots i).isSome)).card

structure Valid (r : PacketReorder α) : Prop where
  positive : 1 ≤ r.next
  bounded : r.next < 2 ^ 64
  counted : r.buffered = r.occupied
  placed : ∀ {i : Fin bondReorderWindow} {p : ReorderPacket α},
    r.slots i = some p → slot p.sequence = i
  window : ∀ {i : Fin bondReorderWindow} {p : ReorderPacket α},
    r.slots i = some p → r.next ≤ p.sequence ∧ p.sequence < r.next + bondReorderWindow
  small : ∀ {i : Fin bondReorderWindow} {p : ReorderPacket α},
    r.slots i = some p → p.sequence < 2 ^ 64 - 1

lemma valid_new (hold : Int) : (newPacketReorder hold : PacketReorder α).Valid where
  positive := by simp [newPacketReorder]
  bounded := by simp [newPacketReorder]
  counted := by simp [newPacketReorder, occupied]
  placed := by simp [newPacketReorder]
  window := by simp [newPacketReorder]
  small := by simp [newPacketReorder]

def lookup (r : PacketReorder α) (sequence : Nat) : Option α :=
  match r.slots (slot sequence) with
  | some p => if p.sequence = sequence then some p.payload else none
  | none => none

variable {r : PacketReorder α} {s n : Nat} {p : ReorderPacket α}
lemma lookup_eq_some {a} : r.lookup s = some a ↔ r.slots (slot s) = some ⟨s, a⟩ := by
  unfold lookup
  cases h : r.slots (slot s) with
  | none => simp
  | some p =>
    obtain ⟨t, b⟩ := p
    by_cases same : t = s <;> simp [same]

variable {i : Fin bondReorderWindow}
lemma Valid.lookup_of_slot (valid : r.Valid) (full : r.slots i = some p) :
    r.lookup p.sequence = some p.payload := by
  rw [lookup_eq_some, valid.placed full]
  exact full

lemma slot_injective_of_window {t} (hs : n ≤ s ∧ s < n + bondReorderWindow)
    (ht : n ≤ t ∧ t < n + bondReorderWindow) (same : slot s = slot t) : s = t := by
  have residues : s % 256 = t % 256 := congrArg Fin.val same
  simp only [bondReorderWindow] at hs ht
  omega

section
variable (r : PacketReorder α)
variable (valid : r.Valid)
def toWindow : Window α where
  cursor := r.next
  held := r.lookup
  above := fun holds => (valid.window (lookup_eq_some.mp holds)).1

@[simp] lemma toWindow_cursor : (r.toWindow valid).cursor = r.next := rfl

@[simp] lemma toWindow_held : (r.toWindow valid).held = r.lookup := rfl
end

lemma occupied_update_none (full : r.slots i = some p) :
    (univ.filter (fun j => (update r.slots i none j).isSome)).card + 1 = r.occupied := by
  have emptied : univ.filter (fun j => (update r.slots i none j).isSome) =
      (univ.filter (fun j => (r.slots j).isSome)).erase i := by
    ext j
    by_cases same : j = i <;> simp [same]
  rw [emptied, occupied]
  exact Finset.card_erase_add_one (by simp [full])

lemma occupied_update_some (p : ReorderPacket α) (free : r.slots i = none) :
    (univ.filter (fun j => (update r.slots i (some p) j).isSome)).card = r.occupied + 1 := by
  have filled : univ.filter (fun j => (update r.slots i (some p) j).isSome) =
      insert i (univ.filter (fun j => (r.slots j).isSome)) := by
    ext j
    by_cases same : j = i <;> simp [same]
  rw [filled, occupied]
  exact Finset.card_insert_of_notMem (by simp [free])

lemma release_slots {q} (holds : r.release.slots i = some q) :
    i ≠ slot r.next ∧ r.slots i = some q := by
  by_cases same : i = slot r.next
  · simp [release, same] at holds
  · exact ⟨same, by simpa [release, same] using holds⟩

section
variable (full : r.slots (slot r.next) = some p) (head : p.sequence = r.next)
include full head
lemma Valid.release_next (valid : r.Valid) : r.release.next = r.next + 1 := by
  have := valid.small full
  exact addW_of_lt (by omega)

lemma Valid.release (valid : r.Valid) : r.release.Valid := by
  have next := valid.release_next full head
  have bound := valid.small full
  refine ⟨by omega, by omega, ?_, ?_, ?_, ?_⟩
  · have count := occupied_update_none full
    change r.buffered - 1 = (r.release.occupied : Int)
    rw [valid.counted, ← count]
    simp only [Nat.cast_add, Nat.cast_one, add_sub_cancel_right]
    rfl
  · intro i q holds
    exact valid.placed (release_slots holds).2
  · intro i q holds
    obtain ⟨other, before⟩ := release_slots holds
    have range := valid.window before
    have apart : q.sequence ≠ r.next := by
      intro same
      exact other (by rw [← valid.placed before, same])
    omega
  · intro i q holds
    exact valid.small (release_slots holds).2

lemma release_lookup (s : Nat) : r.release.lookup s = if s = r.next then none else r.lookup s := by
  by_cases shared : slot s = slot r.next
  · have emptied : r.release.lookup s = none := by
      simp [lookup, PacketReorder.release, shared]
    have previous : s ≠ r.next → r.lookup s = none := by
      intro other
      simp [lookup, shared, full, head, Ne.symm other]
    rw [emptied]
    split_ifs with same
    · rfl
    · exact (previous same).symm
  · have other : s ≠ r.next := fun same => shared (by rw [same])
    simp [lookup, PacketReorder.release, shared, other]

lemma Valid.release_emit (valid : r.Valid) :
    r.release.toWindow (valid.release full head) = (r.toWindow valid).emit := by
  apply Window.ext
  · exact valid.release_next full head
  · funext s
    rw [Window.emit_held]
    exact release_lookup full head s
end
variable (fuel : Nat)
lemma drainLoop_release (full : r.slots (slot r.next) = some p) (head : p.sequence = r.next) :
    drainLoop (fuel + 1) r = ((drainLoop fuel r.release).1, p :: (drainLoop fuel r.release).2) := by
  simp only [drainLoop, full, head, if_true]

lemma drainLoop_stop (opened : r.lookup r.next = none) :
    drainLoop (fuel + 1) r = (r, []) := by
  cases full : r.slots (slot r.next) with
  | none => simp only [drainLoop, full]
  | some p =>
    have other : p.sequence ≠ r.next := by
      intro head
      simp [lookup, full, head] at opened
    simp only [drainLoop, full, other, if_false]

lemma Valid.drainLoop_moves (valid : r.Valid) : ∃ after : (drainLoop fuel r).1.Valid,
      Moves (r.toWindow valid) [] ((drainLoop fuel r).2.map entry)
        ((drainLoop fuel r).1.toWindow after) := by
  induction fuel generalizing r with
  | zero => exact ⟨valid, Moves.refl _⟩
  | succ fuel ih =>
    cases head : r.lookup r.next with
    | none =>
      rw [drainLoop_stop fuel head]
      exact ⟨valid, Moves.refl _⟩
    | some a =>
      have full := lookup_eq_some.mp head
      obtain ⟨after, rest⟩ := ih (valid.release full rfl)
      rw [drainLoop_release fuel full rfl]
      refine ⟨after, ?_⟩
      have first : Moves (r.toWindow valid) [] [(r.next, a)]
          (r.release.toWindow (valid.release full rfl)) := by
        rw [valid.release_emit full rfl]
        exact (Moves.refl _).emit a head
      simpa [entry] using first.trans rest

lemma drainLoop_occupied (r : PacketReorder α) :
    (drainLoop fuel r).1.occupied + (drainLoop fuel r).2.length = r.occupied := by
  induction fuel generalizing r with
  | zero => rfl
  | succ fuel ih =>
    cases head : r.lookup r.next with
    | none =>
      rw [drainLoop_stop fuel head]
      rfl
    | some a =>
      have full := lookup_eq_some.mp head
      have rest := ih r.release
      have count : r.release.occupied + 1 = r.occupied := occupied_update_none full
      rw [drainLoop_release fuel full rfl]
      dsimp only [length_cons]
      omega

lemma occupied_le (r : PacketReorder α) : r.occupied ≤ bondReorderWindow :=
  (Finset.card_le_univ _).trans_eq (Fintype.card_fin _)

lemma drainLoop_returns (few : r.occupied ≤ fuel) :
    (drainLoop fuel r).1.lookup (drainLoop fuel r).1.next = none := by
  induction fuel generalizing r with
  | zero =>
    change r.lookup r.next = none
    by_contra present
    obtain ⟨a, holds⟩ := Option.ne_none_iff_exists'.mp present
    have count := occupied_update_none (lookup_eq_some.mp holds)
    omega
  | succ fuel ih =>
    cases head : r.lookup r.next with
    | none => rwa [drainLoop_stop fuel head]
    | some a =>
      have full := lookup_eq_some.mp head
      have count : r.release.occupied + 1 = r.occupied := occupied_update_none full
      rw [drainLoop_release fuel full rfl]
      exact ih (by omega)

lemma drain_returns (r : PacketReorder α) : r.drain.1.lookup r.drain.1.next = none :=
  drainLoop_returns bondReorderWindow r.occupied_le

lemma mem_sequences : n ∈ r.sequences ↔ ∃ i p, r.slots i = some p ∧ p.sequence = n := by
  simp only [sequences, mem_filterMap, mem_finRange, true_and, Option.map_eq_some_iff]

lemma Valid.sequences_positive (valid : r.Valid) : ∀ n ∈ r.sequences, 1 ≤ n := by
  intro n member
  obtain ⟨i, p, full, rfl⟩ := mem_sequences.mp member
  exact valid.positive.trans (valid.window full).1

variable {m : Nat}
lemma Valid.lowest_none (valid : r.Valid) (scan : r.lowest = (m, false))
    (i : Fin bondReorderWindow) : r.slots i = none := by
  by_contra present
  obtain ⟨p, full⟩ := Option.ne_none_iff_exists'.mp present
  have zero := (Prod.mk.inj scan).2
  rw [bne_eq_false_iff_eq] at zero
  exact least_ne_zero valid.sequences_positive (mem_sequences.mpr ⟨i, p, full, rfl⟩) zero

lemma Valid.lowest_some (valid : r.Valid) (scan : r.lowest = (m, true)) :
    (∃ a, r.lookup m = some a) ∧ ∀ {i : Fin bondReorderWindow} {p : ReorderPacket α},
        r.slots i = some p → m ≤ p.sequence := by
  obtain ⟨rfl, nonzero⟩ := Prod.mk.inj scan
  rw [bne_iff_ne] at nonzero
  refine ⟨?_, fun {i p} full =>
    least_le valid.sequences_positive (mem_sequences.mpr ⟨i, p, full, rfl⟩)⟩
  obtain ⟨i, p, full, same⟩ := mem_sequences.mp (least_mem valid.sequences_positive nonzero)
  exact ⟨p.payload, same ▸ valid.lookup_of_slot full⟩

lemma Valid.advanceTo_lowest (valid : r.Valid) (scan : r.lowest = (m, true)) :
    (r.advanceTo m).next = m := by
  obtain ⟨⟨a, holds⟩, -⟩ := valid.lowest_some scan
  have range := (valid.window (lookup_eq_some.mp holds)).1
  unfold advanceTo
  split_ifs with ahead
  · rfl
  · dsimp only at range
    omega

section
variable (r : PacketReorder α) (m : Nat)

@[simp] lemma advanceTo_slots : (r.advanceTo m).slots = r.slots := by
  unfold advanceTo
  split_ifs <;> rfl

@[simp] lemma advanceTo_buffered : (r.advanceTo m).buffered = r.buffered := by
  unfold advanceTo
  split_ifs <;> rfl

lemma advanceTo_hold : (r.advanceTo m).hold = r.hold := by
  unfold advanceTo
  split_ifs <;> rfl

@[simp] lemma advanceTo_lookup : (r.advanceTo m).lookup = r.lookup := by
  funext s
  simp only [lookup, advanceTo_slots]

@[simp] lemma advanceTo_occupied : (r.advanceTo m).occupied = r.occupied := by
  simp only [occupied, advanceTo_slots]
end

lemma Valid.advanceTo (valid : r.Valid) (scan : r.lowest = (m, true)) : (r.advanceTo m).Valid := by
  obtain ⟨⟨a, holds⟩, least⟩ := valid.lowest_some scan
  have full := lookup_eq_some.mp holds
  have next := valid.advanceTo_lowest scan
  have range := valid.window full
  have positive := valid.positive
  have small := valid.small full
  dsimp only at range small
  refine ⟨by omega, by omega, ?_, ?_, ?_, ?_⟩
  · rw [advanceTo_buffered, advanceTo_occupied]
    exact valid.counted
  · rw [advanceTo_slots]
    exact valid.placed
  · rw [advanceTo_slots, next]
    intro i p filled
    have low := least filled
    have high := (valid.window filled).2
    omega
  · rw [advanceTo_slots]
    exact valid.small

variable (valid : r.Valid)
lemma Valid.advanceTo_moves (scan : r.lowest = (m, true)) :
    Moves (r.toWindow valid) [] [] ((r.advanceTo m).toWindow (valid.advanceTo scan)) := by
  obtain ⟨⟨a, holds⟩, least⟩ := valid.lowest_some scan
  have next := valid.advanceTo_lowest scan
  have forward : r.next ≤ m := (valid.window (lookup_eq_some.mp holds)).1
  have clear : ∀ {s : Nat} {b : α}, (r.toWindow valid).held s = some b → m ≤ s :=
    fun present => least (lookup_eq_some.mp present)
  have target : (r.advanceTo m).toWindow (valid.advanceTo scan) =
      (r.toWindow valid).skip m clear := by
    apply Window.ext
    · exact next
    · exact advanceTo_lookup r m
  rw [target]
  exact (Moves.refl _).skip m forward clear

lemma Valid.skip_drain (scan : r.lowest = (m, true)) : ∃ after : (r.advanceTo m).drain.1.Valid,
      Moves (r.toWindow valid) [] ((r.advanceTo m).drain.2.map entry)
        ((r.advanceTo m).drain.1.toWindow after) ∧
      (r.advanceTo m).drain.1.occupied < r.occupied := by
  obtain ⟨after, drained⟩ := (valid.advanceTo scan).drainLoop_moves bondReorderWindow
  refine ⟨after, ?_, ?_⟩
  · exact (valid.advanceTo_moves scan).trans drained
  · obtain ⟨⟨a, holds⟩, -⟩ := valid.lowest_some scan
    have next := valid.advanceTo_lowest scan
    have head : (r.advanceTo m).slots (slot (r.advanceTo m).next) = some ⟨m, a⟩ := by
      rw [next, advanceTo_slots]
      exact lookup_eq_some.mp holds
    have count := drainLoop_occupied bondReorderWindow (r.advanceTo m)
    have released : 1 ≤ ((r.advanceTo m).drainLoop bondReorderWindow).2.length := by
      change 1 ≤ ((r.advanceTo m).drainLoop (255 + 1)).2.length
      rw [drainLoop_release 255 head next.symm, length_cons]
      omega
    rw [advanceTo_occupied] at count
    change ((r.advanceTo m).drainLoop bondReorderWindow).1.occupied < r.occupied
    omega

/-- A sequence number that lies beyond the cursor and beyond every buffered packet. -/
def Beyond (r : PacketReorder α) (sequence : Nat) : Prop :=
  r.next ≤ sequence ∧ ∀ {i : Fin bondReorderWindow} {p : ReorderPacket α},
    r.slots i = some p → p.sequence < sequence

variable {sequence : Nat}
lemma Valid.drainLoop_beyond (fuel : Nat) (valid : r.Valid) (beyond : r.Beyond sequence) :
    (drainLoop fuel r).1.Beyond sequence := by
  induction fuel generalizing r with
  | zero => exact beyond
  | succ fuel ih =>
    cases head : r.lookup r.next with
    | none => rwa [drainLoop_stop fuel head]
    | some a =>
      have full := lookup_eq_some.mp head
      rw [drainLoop_release fuel full rfl]
      apply ih (valid.release full rfl)
      have next := valid.release_next full rfl
      have ahead := beyond.2 full
      dsimp only at ahead
      refine ⟨by omega, ?_⟩
      intro i q holds
      exact beyond.2 (release_slots holds).2

lemma Beyond.lookup_none (beyond : r.Beyond sequence) : r.lookup sequence = none := by
  by_contra present
  obtain ⟨a, holds⟩ := Option.ne_none_iff_exists'.mp present
  exact lt_irrefl _ (beyond.2 (lookup_eq_some.mp holds))

lemma Valid.pressure_beyond (fuel : Nat) (valid : r.Valid) (beyond : r.Beyond sequence)
    (small : sequence < 2 ^ 64 - 1) (enough : r.occupied < fuel) :
    ∃ (r' : PacketReorder α) (out : List (ReorderPacket α)) (after : r'.Valid),
      r.pressure fuel sequence = some (r', out) ∧ r'.Beyond sequence ∧
      sequence < r'.next + bondReorderWindow ∧
      Moves (r.toWindow valid) [] (out.map entry) (r'.toWindow after) := by
  induction fuel generalizing r with
  | zero => omega
  | succ fuel ih =>
    have distance : subW 64 sequence r.next = sequence - r.next := subW_of_le beyond.1 (by omega)
    by_cases wide : bondReorderWindow ≤ subW 64 sequence r.next
    · rcases scan : r.lowest with ⟨m, found⟩
      cases found with
      | false =>
        -- nothing is buffered: the cursor jumps to the new number
        have clear := valid.lowest_none scan
        have positive := valid.positive
        have low := beyond.1
        have after : PacketReorder.Valid { r with
            gaps := addW 64 r.gaps (subW 64 sequence r.next), next := sequence } :=
          ⟨by dsimp only; omega, by dsimp only; omega, valid.counted, valid.placed,
            fun {i} {p} full => by simp [clear i] at full, valid.small⟩
        refine ⟨_, [], after, by simp only [pressure, wide, if_true, scan], ?_, ?_, ?_⟩
        · exact ⟨le_rfl, fun {i} {p} full => by simp [clear i] at full⟩
        · simp [bondReorderWindow]
        · have empty : ∀ {s : Nat} {a : α}, (r.toWindow valid).held s = some a → sequence ≤ s := by
            intro s a holds
            have full := lookup_eq_some.mp holds
            simp [clear (slot s)] at full
          exact (Moves.refl _).skip sequence beyond.1 empty
      | true =>
        obtain ⟨after, moves, fewer⟩ := valid.skip_drain scan
        have advanced : (r.advanceTo m).Beyond sequence := by
          obtain ⟨⟨a, holds⟩, -⟩ := valid.lowest_some scan
          have next := valid.advanceTo_lowest scan
          refine ⟨?_, ?_⟩
          · rw [next]
            exact (beyond.2 (lookup_eq_some.mp holds)).le
          · rw [advanceTo_slots]
            exact beyond.2
        have drained : (r.advanceTo m).drain.1.Beyond sequence :=
          (valid.advanceTo scan).drainLoop_beyond bondReorderWindow advanced
        obtain ⟨r', out, valid', loop, beyond', narrow, rest⟩ := ih after drained (by omega)
        refine ⟨r', (r.advanceTo m).drain.2 ++ out, valid', ?_, beyond', narrow, ?_⟩
        · simp only [pressure, wide, if_true, scan, loop, Option.map_some]
        · rw [map_append]
          exact moves.trans rest
    · refine ⟨r, [], valid, by simp only [pressure, wide, if_false], beyond, ?_, Moves.refl _⟩
      omega

lemma Valid.pressure_spec (ahead : r.next ≤ sequence) (small : sequence < 2 ^ 64 - 1) :
    ∃ (r' : PacketReorder α) (out : List (ReorderPacket α)) (after : r'.Valid),
      r.pressure (bondReorderWindow + 1) sequence = some (r', out) ∧
      r'.next ≤ sequence ∧ sequence < r'.next + bondReorderWindow ∧
      Moves (r.toWindow valid) [] (out.map entry) (r'.toWindow after) ∧
      ((r' = r ∧ out = []) ∨ (r.lookup sequence = none ∧ r'.lookup sequence = none)) := by
  have distance : subW 64 sequence r.next = sequence - r.next := subW_of_le ahead (by omega)
  by_cases wide : bondReorderWindow ≤ subW 64 sequence r.next
  · have beyond : r.Beyond sequence := by
      refine ⟨ahead, ?_⟩
      intro i p full
      have high := (valid.window full).2
      omega
    obtain ⟨r', out, after, loop, beyond', narrow, moves⟩ :=
      valid.pressure_beyond (bondReorderWindow + 1) beyond small (Nat.lt_succ_of_le r.occupied_le)
    exact ⟨r', out, after, loop, beyond'.1, narrow, moves,
      .inr ⟨beyond.lookup_none, beyond'.lookup_none⟩⟩
  · refine ⟨r, [], valid, by simp only [pressure, wide, if_false], ahead, by omega,
      Moves.refl _, .inl ⟨rfl, rfl⟩⟩

lemma Valid.of_same {t : PacketReorder α} (valid : r.Valid) (next : t.next = r.next)
    (slots : t.slots = r.slots) (buffered : t.buffered = r.buffered) :
    ∃ after : t.Valid, t.toWindow after = r.toWindow valid := by
  have after : t.Valid := by
    refine ⟨next ▸ valid.positive, next ▸ valid.bounded, ?_, ?_, ?_, ?_⟩
    · rw [buffered, valid.counted, occupied, occupied, slots]
    · rw [slots]
      exact valid.placed
    · rw [slots, next]
      exact valid.window
    · rw [slots]
      exact valid.small
  refine ⟨after, Window.ext next ?_⟩
  funext s
  simp only [toWindow_held, lookup, slots]

lemma markGap_same (r : PacketReorder α) (now : Time) :
    (r.markGap now).next = r.next ∧ (r.markGap now).slots = r.slots ∧
      (r.markGap now).buffered = r.buffered := by
  dsimp only [markGap]
  split_ifs <;> exact ⟨rfl, rfl, rfl⟩

lemma Valid.place_moves (payload : α) (now : Time)
    (out : List (ReorderPacket α)) (low : r.next ≤ sequence)
    (high : sequence < r.next + bondReorderWindow) (small : sequence < 2 ^ 64 - 1)
    (free : r.slots (slot sequence) = none) :
    ∃ (released : List (ReorderPacket α)) (after : (r.place sequence payload now out).1.Valid),
      (r.place sequence payload now out).2 = out ++ released ∧
      Moves (r.toWindow valid) [(sequence, payload)] (released.map entry)
        ((r.place sequence payload now out).1.toWindow after) := by
  let stored : PacketReorder α :=
    { r with
      slots := update r.slots (slot sequence) (some ⟨sequence, payload⟩)
      buffered := r.buffered + 1 }
  have kept : ∀ {i : Fin bondReorderWindow} {q : ReorderPacket α}, stored.slots i = some q →
      (i = slot sequence ∧ q = ⟨sequence, payload⟩) ∨ r.slots i = some q := by
    intro i q holds
    by_cases same : i = slot sequence
    · exact .inl ⟨same, by simpa [stored, same, eq_comm] using holds⟩
    · exact .inr (by simpa [stored, same] using holds)
  have stored_valid : stored.Valid := by
    refine ⟨valid.positive, valid.bounded, ?_, ?_, ?_, ?_⟩
    · have count := occupied_update_some ⟨sequence, payload⟩ free
      change r.buffered + 1 = ((_ : Nat) : Int)
      rw [occupied, count, valid.counted, Nat.cast_add, Nat.cast_one]
    · intro i q holds
      rcases kept holds with ⟨same, rfl⟩ | before
      · exact same.symm
      · exact valid.placed before
    · intro i q holds
      rcases kept holds with ⟨-, rfl⟩ | before
      · exact ⟨low, high⟩
      · exact valid.window before
    · intro i q holds
      rcases kept holds with ⟨-, rfl⟩ | before
      · exact small
      · exact valid.small before
  have lookup_free : r.lookup sequence = none := by simp [lookup, free]
  have within : (r.toWindow valid).cursor ≤ sequence := low
  have stored_window : stored.toWindow stored_valid =
      (r.toWindow valid).store sequence payload within := by
    apply Window.ext
    · rfl
    · funext s
      rw [Window.store_held, toWindow_held, toWindow_held]
      by_cases shared : slot s = slot sequence
      · by_cases same : s = sequence
        · simp [lookup, stored, same]
        · simp [lookup, stored, shared, same, Ne.symm same, free]
      · have other : s ≠ sequence := fun same => shared (by rw [same])
        simp [lookup, stored, shared, other]
  obtain ⟨drained_valid, drained⟩ := stored_valid.drainLoop_moves bondReorderWindow
  obtain ⟨next, slots, buffered⟩ := markGap_same stored.drain.1 now
  obtain ⟨after, same⟩ := drained_valid.of_same next slots buffered
  refine ⟨stored.drain.2, after, rfl, ?_⟩
  change Moves _ _ _ ((stored.drain.1.markGap now).toWindow after)
  rw [same]
  have storing : Moves (r.toWindow valid) [(sequence, payload)] []
      (stored.toWindow stored_valid) := by
    rw [stored_window]
    exact (Moves.refl _).store sequence payload within lookup_free
  exact storing.trans drained

/-- The pushes that the buffer takes in: at or ahead of the cursor and not yet buffered. -/
def Accepts (r : PacketReorder α) (sequence : Nat) : Prop :=
  r.next ≤ sequence ∧ (r.lookup sequence).isNone
deriving Decidable

lemma Valid.no_stale_slot {r' out old} (valid : r.Valid) (ahead : r.next ≤ sequence)
    (small : sequence < 2 ^ 64 - 1)
    (loop : r.pressure (bondReorderWindow + 1) sequence = some (r', out))
    (full : r'.slots (slot sequence) = some old) : old.sequence = sequence ∧ r' = r ∧ out = [] := by
  obtain ⟨r'', out', after, loop', low, high, -, outcome⟩ := valid.pressure_spec ahead small
  rw [loop, Option.some.injEq, Prod.mk.injEq] at loop'
  obtain ⟨rfl, rfl⟩ := loop'
  have same : old.sequence = sequence :=
    slot_injective_of_window (after.window full) ⟨low, high⟩ (after.placed full)
  refine ⟨same, ?_⟩
  rcases outcome with unchanged | ⟨-, absent⟩
  · exact unchanged
  · have present := after.lookup_of_slot full
    rw [same, absent] at present
    cases present

lemma Valid.push_spec (valid : r.Valid) (payload : α) (now : Time) (small : sequence < 2 ^ 64 - 1) :
    ∃ (r' : PacketReorder α) (out : List (ReorderPacket α)) (after : r'.Valid),
      r.push sequence payload now = some (r', out) ∧
      ((r.Accepts sequence ∧ Moves (r.toWindow valid) [(sequence, payload)]
          (out.map entry) (r'.toWindow after)) ∨
        (¬ r.Accepts sequence ∧ out = [] ∧ r'.toWindow after = r.toWindow valid)) := by
  have positive := valid.positive
  by_cases early : sequence = 0 ∨ sequence < r.next
  · obtain ⟨after, same⟩ := valid.of_same (t := { r with late := addW 64 r.late 1 }) rfl rfl rfl
    refine ⟨_, [], after, by rw [push, if_pos early], .inr ⟨?_, rfl, same⟩⟩
    intro accepted
    have := accepted.1
    omega
  · have ahead : r.next ≤ sequence := by omega
    obtain ⟨r', out, after, loop, low, high, moves, outcome⟩ := valid.pressure_spec ahead small
    have unfolded : r.push sequence payload now = some (r'.accept sequence payload now out) := by
      rw [push, if_neg early, loop, Option.map_some]
    cases full : r'.slots (slot sequence) with
    | some old =>
      obtain ⟨same, rfl, rfl⟩ := valid.no_stale_slot ahead small loop full
      obtain ⟨after', window⟩ :=
        valid.of_same (t := { r' with duplicate := addW 64 r'.duplicate 1 }) rfl rfl rfl
      refine ⟨_, [], after', ?_, .inr ⟨?_, rfl, window⟩⟩
      · rw [unfolded]
        simp only [accept, full, same, if_true]
      · intro accepted
        have present := after.lookup_of_slot full
        rw [same] at present
        simpa [present] using accepted.2
    | none =>
      obtain ⟨released, after', outEq, placed⟩ :=
        after.place_moves payload now out low high small full
      have absent : r.lookup sequence = none := by
        rcases outcome with ⟨rfl, -⟩ | ⟨absent, -⟩
        · simp [lookup, full]
        · exact absent
      refine ⟨_, (r'.place sequence payload now out).2, after', ?_,
        .inl ⟨⟨ahead, by simp [absent]⟩, ?_⟩⟩
      · rw [unfolded]
        simp only [accept, full]
      · rw [outEq, map_append]
        exact moves.trans placed

lemma Valid.flushExpired_moves (valid : r.Valid) (now : Time) :
    ∃ after : (r.flushExpired now).1.Valid,
      Moves (r.toWindow valid) [] ((r.flushExpired now).2.map entry)
        ((r.flushExpired now).1.toWindow after) := by
  unfold flushExpired
  split_ifs with early
  · exact ⟨valid, Moves.refl _⟩
  · rcases scan : r.lowest with ⟨m, found⟩
    cases found with
    | false => exact ⟨valid, Moves.refl _⟩
    | true =>
      obtain ⟨drained_valid, moves, -⟩ := valid.skip_drain scan
      dsimp only
      split_ifs with waiting
      · obtain ⟨after, same⟩ := drained_valid.of_same
          (t := { (r.advanceTo m).drain.1 with gapSince := now }) rfl rfl rfl
        exact ⟨after, same ▸ moves⟩
      · obtain ⟨after, same⟩ := drained_valid.of_same
          (t := { (r.advanceTo m).drain.1 with gapSince := 0 }) rfl rfl rfl
        exact ⟨after, same ▸ moves⟩
end PacketReorder
end Tamizdat.Wgturn.Reorder
