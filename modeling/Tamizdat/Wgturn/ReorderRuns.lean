/- source: internal/wgturn/bond.go
   digest: Runs of the reorder buffers, and when a gap date is that of the present gap. -/

import Tamizdat.Wgturn.Reorder

set_option autoImplicit false
universe u

open List
namespace Tamizdat.Wgturn.Reorder
open Machine.ReceiveWindow (Window Moves)
open Machine.Runs (run exists_run Meets)
open Machine.Word (addW subW addW_ne_self addW_addW)
open ReorderPacket (entry)
variable {α : Type u}

inductive Op (α : Type u)
  | push (sequence : Nat) (payload : α) (now : Time)
  | flushExpired (now : Time)

structure Ledger (α : Type u) where
  buffer : PacketReorder α
  pushed : List (ReorderPacket α)
  accepted : List (ReorderPacket α)
  emitted : List (ReorderPacket α)

def Ledger.start (hold : Int) : Ledger α := ⟨newPacketReorder hold, [], [], []⟩

def Ledger.step (l : Ledger α) : Op α → Option (Ledger α)
  | .push sequence payload now =>
    (l.buffer.push sequence payload now).map (fun result =>
      { buffer := result.1
        pushed := l.pushed ++ [⟨sequence, payload⟩]
        accepted :=
          if l.buffer.Accepts sequence then l.accepted ++ [⟨sequence, payload⟩] else l.accepted
        emitted := l.emitted ++ result.2 })
  | .flushExpired now =>
    some { l with
      buffer := (l.buffer.flushExpired now).1
      emitted := l.emitted ++ (l.buffer.flushExpired now).2 }

def Op.Small : Op α → Prop
  | .push sequence _ _ => sequence < 2 ^ 64 - 1
  | .flushExpired _ => True

def Ledger.firstPushed (l : Ledger α) (sequence : Nat) : Option (ReorderPacket α) :=
  l.pushed.find? (fun q => q.sequence == sequence)

/-- What every run maintains. The window has made exactly the accepted and emitted moves, and
the packets it knows are the first ones pushed under their numbers. -/
structure Ledger.Sound (l : Ledger α) : Prop where
  valid : l.buffer.Valid
  moves : Moves (Window.empty 1) (l.accepted.map entry)
    (l.emitted.map entry) (l.buffer.toWindow valid)
  first : ∀ {p : ReorderPacket α},
    p ∈ l.emitted ∨ l.buffer.lookup p.sequence = some p.payload → l.firstPushed p.sequence = some p
  unseen : ∀ {s : Nat}, l.buffer.next ≤ s → l.buffer.lookup s = none → l.firstPushed s = none

open Ledger (start)
lemma Ledger.sound_start (hold : Int) : (start hold : Ledger α).Sound := by
  have valid : (start hold : Ledger α).buffer.Valid := PacketReorder.valid_new hold
  refine ⟨valid, ?_, ?_, ?_⟩
  · have initial : (start hold : Ledger α).buffer.toWindow valid = Window.empty 1 := by
      apply Window.ext
      · rfl
      · rfl
    rw [initial]
    exact Moves.refl _
  · intro p known
    rcases known with emitted | held
    · simp [start] at emitted
    · simp [start, newPacketReorder, PacketReorder.lookup] at held
  · intro s _ _
    rfl

lemma mem_map_entry {p} {ps : List (ReorderPacket α)} : p.entry ∈ ps.map entry ↔ p ∈ ps := by
  constructor
  · intro member
    obtain ⟨q, inside, same⟩ := mem_map.mp member
    exact entry_inj same ▸ inside
  · exact mem_map_of_mem

variable {l : Ledger α}
section
variable (sound : l.Sound)
include sound
lemma Ledger.Sound.fresh {s} (accepted : l.buffer.Accepts s) : l.firstPushed s = none :=
  sound.unseen accepted.1 (Option.isNone_iff_eq_none.mp accepted.2)

lemma Ledger.Sound.extend {buffer : PacketReorder α} (after : buffer.Valid)
    (new : Option (ReorderPacket α)) (out : List (ReorderPacket α))
    (moves : Moves (l.buffer.toWindow sound.valid) (new.toList.map entry)
      (out.map entry) (buffer.toWindow after))
    (fresh : ∀ p, new = some p → l.firstPushed p.sequence = none) :
    Ledger.Sound { buffer := buffer, pushed := l.pushed ++ new.toList,
                   accepted := l.accepted ++ new.toList, emitted := l.emitted ++ out } := by
  have forward : l.buffer.next ≤ buffer.next := moves.cursor_le
  have gone : ∀ {s : Nat} {a : α}, buffer.next ≤ s → buffer.lookup s = none →
      ¬ ((l.buffer.toWindow sound.valid).held s = some a ∨ (s, a) ∈ new.toList.map entry) := by
    intro s a ahead absent known
    rcases moves.conserve known with emitted | held
    · have := (moves.emitted_range emitted).2
      rw [PacketReorder.toWindow_cursor] at this
      omega
    · rw [PacketReorder.toWindow_held, absent] at held
      cases held
  refine ⟨after, ?_, ?_, ?_⟩
  · simpa only [map_append] using sound.moves.trans moves
  · intro p known
    rw [Ledger.firstPushed, find?_append]
    have old : l.firstPushed p.sequence = some p →
        ((l.pushed.find? (fun q => q.sequence == p.sequence)).or
          (new.toList.find? (fun q => q.sequence == p.sequence))) = some p := by
      intro found
      rw [Ledger.firstPushed] at found
      rw [found, Option.some_or]
    have recent : p.entry ∈ out.map entry ∨
        (buffer.toWindow after).held p.sequence = some p.payload →
        ((l.pushed.find? (fun q => q.sequence == p.sequence)).or
          (new.toList.find? (fun q => q.sequence == p.sequence))) = some p := by
      intro present
      rcases moves.origin present with held | came
      · exact old (sound.first (.inr held))
      · have here : new = some p := by simpa using mem_map_entry.mp came
        have none_before := fresh p here
        rw [Ledger.firstPushed] at none_before
        rw [none_before, here]
        simp
    rcases known with emitted | held
    · rcases mem_append.mp emitted with before | now
      · exact old (sound.first (.inl before))
      · exact recent (.inl (mem_map_entry.mpr now))
    · exact recent (.inr held)
  · intro s ahead absent
    rw [Ledger.firstPushed, find?_append, Option.or_eq_none_iff]
    constructor
    · apply sound.unseen (forward.trans ahead)
      by_contra present
      obtain ⟨a, held⟩ := Option.ne_none_iff_exists'.mp present
      exact gone ahead absent (.inl held)
    · rw [find?_eq_none]
      intro p member same
      have number : p.sequence = s := by simpa using same
      subst number
      exact gone ahead absent (.inr (mem_map_entry.mpr member))

lemma Ledger.Sound.ignore {buffer : PacketReorder α} (after : buffer.Valid)
    (same : buffer.toWindow after = l.buffer.toWindow sound.valid) (p : ReorderPacket α)
    (rejected : ¬ l.buffer.Accepts p.sequence) :
    Ledger.Sound { l with buffer := buffer, pushed := l.pushed ++ [p] } := by
  have next : buffer.next = l.buffer.next := congrArg Window.cursor same
  have lookup : buffer.lookup = l.buffer.lookup := congrArg Window.held same
  refine ⟨after, same ▸ sound.moves, ?_, ?_⟩
  · intro q known
    have found : l.firstPushed q.sequence = some q := sound.first (by rwa [← lookup])
    rw [Ledger.firstPushed] at found ⊢
    rw [find?_append, found, Option.some_or]
  · intro s ahead absent
    dsimp only at ahead absent
    rw [next] at ahead
    rw [lookup] at absent
    have before : l.firstPushed s = none := sound.unseen ahead absent
    rw [Ledger.firstPushed] at before ⊢
    rw [find?_append, before, Option.none_or, find?_singleton]
    have other : p.sequence ≠ s := by
      intro number
      exact rejected ⟨number ▸ ahead, by rw [number, absent]; rfl⟩
    simp [other]

lemma Ledger.Sound.step {op : Op α} (small : op.Small) : ∃ l', l.step op = some l' ∧ l'.Sound := by
  cases op with
  | push sequence payload now =>
    obtain ⟨r', out, after, result, outcome⟩ := sound.valid.push_spec payload now small
    refine ⟨_, by rw [Ledger.step, result, Option.map_some], ?_⟩
    rcases outcome with ⟨accepted, moves⟩ | ⟨rejected, rfl, same⟩
    · rw [if_pos accepted]
      refine sound.extend after (some ⟨sequence, payload⟩) out moves ?_
      rintro p ⟨⟩
      exact sound.fresh accepted
    · rw [if_neg rejected, append_nil]
      exact sound.ignore after same ⟨sequence, payload⟩ rejected
  | flushExpired now =>
    obtain ⟨after, moves⟩ := sound.valid.flushExpired_moves now
    refine ⟨_, rfl, ?_⟩
    have extended := sound.extend after none _ moves (by simp)
    simpa using extended

lemma run_sound (ops : List (Op α)) (small : ∀ op ∈ ops, op.Small) :
    ∃ l', run Ledger.step l ops = some l' ∧ l'.Sound :=
  exists_run (fun _ _ sound small => sound.step small) sound small
end

/-- Over any run the released sequence numbers strictly increase, none is released twice, and
each released packet is the first one pushed under its number. -/
theorem reorder_emits_in_order (hold : Int) (ops : List (Op α)) (small : ∀ op ∈ ops, op.Small) :
    ∃ l, run Ledger.step (start hold) ops = some l ∧
      (l.emitted.map ReorderPacket.sequence).Pairwise (· < ·) ∧
      (l.emitted.map ReorderPacket.sequence).Nodup ∧
      ∀ p ∈ l.emitted, p ∈ l.pushed ∧ l.firstPushed p.sequence = some p := by
  obtain ⟨l, arrive, sound⟩ := run_sound (Ledger.sound_start hold) ops small
  have increasing : (l.emitted.map ReorderPacket.sequence).Pairwise (· < ·) := by
    have entries := sound.moves.emitted_increasing
    rw [pairwise_map] at entries
    exact pairwise_map.mpr entries
  refine ⟨l, arrive, increasing, increasing.imp (fun less => Nat.ne_of_lt less), ?_⟩
  intro p member
  have found := sound.first (.inl member)
  exact ⟨mem_of_find?_eq_some found, found⟩

theorem reorder_emits_in_order_pressure :
    ∃ l, run Ledger.step (start 30) [.push 2 "2" 7, .push 300 "300" 7] = some l ∧
      (l.emitted.map ReorderPacket.sequence).Pairwise (· < ·) ∧
      (l.emitted.map ReorderPacket.sequence).Nodup ∧
      ∀ p ∈ l.emitted, p ∈ l.pushed ∧ l.firstPushed p.sequence = some p :=
  reorder_emits_in_order 30 [.push 2 "2" 7, .push 300 "300" 7] (by simp [Op.Small])

/-- Over any run the slot count is exact, every buffered packet is in its slot and in the window,
and no accepted packet is lost. A further push finds no stale slot, drops no collected output and
leaves its pressure loop. -/
theorem reorder_conserves (hold : Int) (ops : List (Op α)) (small : ∀ op ∈ ops, op.Small) :
    ∃ l, run Ledger.step (start hold) ops = some l ∧ l.buffer.buffered = l.buffer.occupied ∧
      (∀ i p, l.buffer.slots i = some p →
        i.val = p.sequence % bondReorderWindow ∧ l.buffer.next ≤ p.sequence ∧
          p.sequence < l.buffer.next + bondReorderWindow) ∧
      (∀ p ∈ l.accepted, p ∈ l.emitted ∨ l.buffer.slots (slot p.sequence) = some p) ∧
      ∀ sequence, l.buffer.next ≤ sequence → sequence < 2 ^ 64 - 1 →
        ∃ r' out, l.buffer.pressure (bondReorderWindow + 1) sequence = some (r', out) ∧
          ∀ old, r'.slots (slot sequence) = some old → old.sequence = sequence ∧ out = [] := by
  obtain ⟨l, arrive, sound⟩ := run_sound (Ledger.sound_start hold) ops small
  refine ⟨l, arrive, sound.valid.counted, ?_, ?_, ?_⟩
  · intro i p full
    refine ⟨?_, sound.valid.window full⟩
    rw [← sound.valid.placed full]
    rfl
  · intro p member
    rcases sound.moves.conserve (.inr (mem_map_entry.mpr member)) with emitted | held
    · exact .inl (mem_map_entry.mp emitted)
    · exact .inr (PacketReorder.lookup_eq_some.mp held)
  · intro sequence ahead below
    obtain ⟨r', out, -, loop, -⟩ := sound.valid.pressure_spec ahead below
    refine ⟨r', out, loop, ?_⟩
    intro old full
    obtain ⟨same, -, nothing⟩ := sound.valid.no_stale_slot ahead below loop full
    exact ⟨same, nothing⟩

theorem reorder_conserves_pressure :
    ∃ l, run Ledger.step (start 30) [.push 2 "2" 7, .push 300 "300" 7] = some l ∧
      l.buffer.buffered = l.buffer.occupied ∧
      (∀ i p, l.buffer.slots i = some p →
        i.val = p.sequence % bondReorderWindow ∧ l.buffer.next ≤ p.sequence ∧
          p.sequence < l.buffer.next + bondReorderWindow) ∧
      (∀ p ∈ l.accepted, p ∈ l.emitted ∨ l.buffer.slots (slot p.sequence) = some p) ∧
      ∀ sequence, l.buffer.next ≤ sequence → sequence < 2 ^ 64 - 1 →
        ∃ r' out, l.buffer.pressure (bondReorderWindow + 1) sequence = some (r', out) ∧
          ∀ old, r'.slots (slot sequence) = some old → old.sequence = sequence ∧ out = [] :=
  reorder_conserves 30 [.push 2 "2" 7, .push 300 "300" 7] (by simp [Op.Small])

def bondFlagLatency : UInt16 := 1

structure DataFrame where
  flags : UInt16
  sequence : UInt64
  payload : List UInt8

def bondLatencyLane (flags : UInt16) : Bool × Bool :=
  if flags &&& ~~~bondFlagLatency ≠ 0 then (false, false)
  else (flags &&& bondFlagLatency ≠ 0, true)

/-- The reorder buffers of a bond. Room metrics and the write queue behind them are left out. -/
structure Lanes where
  bulkReorder : PacketReorder (List UInt8)
  latencyReorder : PacketReorder (List UInt8)

def Lanes.start (bulkHold latencyHold : Int) : Lanes :=
  ⟨newPacketReorder bulkHold, newPacketReorder latencyHold⟩

namespace Lanes
variable (b : Lanes)
def get (latency : Bool) : PacketReorder (List UInt8) :=
  if latency then b.latencyReorder else b.bulkReorder

def set (latency : Bool) (r : PacketReorder (List UInt8)) : Lanes :=
  if latency then { b with latencyReorder := r } else { b with bulkReorder := r }

lemma get_set (lane latency : Bool) (r : PacketReorder (List UInt8)) :
    (b.set latency r).get lane = if lane = latency then r else b.get lane := by
  cases lane <;> cases latency <;> rfl

/-- `none` stands for a push that does not return; the flag says whether the frame was valid. -/
def acceptDataFrame (frame : DataFrame) (now : Time) :
    Option (Lanes × List (ReorderPacket (List UInt8)) × Bool) :=
  let (latency, valid) := bondLatencyLane frame.flags
  if valid = false ∨ frame.sequence = 0 ∨ frame.payload.length = 0 then some (b, [], false)
  else
    ((b.get latency).push frame.sequence.toNat frame.payload now).map (fun result =>
      (b.set latency result.1, result.2, true))

def flush (now : Time) : Lanes :=
  ⟨(b.bulkReorder.flushExpired now).1, (b.latencyReorder.flushExpired now).1⟩
end Lanes

inductive LaneOp
  | data (frame : DataFrame) (now : Time)
  | tick (now : Time)

def Lanes.step (b : Lanes) : LaneOp → Option Lanes
  | .data frame now => (b.acceptDataFrame frame now).map Prod.fst
  | .tick now => some (b.flush now)

def LaneOp.BelowLast : LaneOp → Prop
  | .data frame _ => frame.sequence ≠ UInt64.ofNat (2 ^ 64 - 1)
  | .tick _ => True

instance (op : LaneOp) : Decidable op.BelowLast := by
  cases op <;> unfold LaneOp.BelowLast <;> infer_instance

lemma toNat_lt_last {n} (below : n ≠ UInt64.ofNat (2 ^ 64 - 1)) : n.toNat < 2 ^ 64 - 1 := by
  have word := n.toNat_lt
  have other : n.toNat ≠ 2 ^ 64 - 1 := by
    intro last
    apply below
    rw [← last, UInt64.ofNat_toNat]
  omega

/-- A number that the cursor has passed is turned away: nothing is stored and nothing comes
out. -/
def PacketReorder.TurnsAway {α : Type} (r : PacketReorder α) (sequence : Nat) : Prop :=
  ∀ payload now, r.push sequence payload now = some ({ r with late := addW 64 r.late 1 }, [])

/-- Every buffer has moved forward only, and nothing that was passed is accepted again. -/
def Lanes.Forward (b b' : Lanes) : Prop :=
  ∀ latency, (b.get latency).next ≤ (b'.get latency).next ∧
    ∀ sequence < (b.get latency).next, (b'.get latency).TurnsAway sequence

lemma Lanes.forward_of_le {b b' : Lanes}
    (le : ∀ latency, (b.get latency).next ≤ (b'.get latency).next) : b.Forward b' := by
  intro latency
  refine ⟨le latency, ?_⟩
  intro sequence passed payload now
  exact if_pos (.inr (passed.trans_le (le latency)))

namespace PacketReorder
variable {α : Type}
lemma Valid.push_forward {r : PacketReorder α} (valid : r.Valid) {sequence : Nat}
    (payload : α) (now : Time) (small : sequence < 2 ^ 64 - 1) :
    ∃ r' out, r.push sequence payload now = some (r', out) ∧ r'.Valid ∧ r.next ≤ r'.next := by
  obtain ⟨r', out, after, pushed, outcome⟩ := valid.push_spec payload now small
  refine ⟨r', out, pushed, after, ?_⟩
  rcases outcome with ⟨-, moves⟩ | ⟨-, -, same⟩
  · exact moves.cursor_le
  · exact (congrArg Machine.ReceiveWindow.Window.cursor same).ge
end PacketReorder

lemma Lanes.step_forward {b : Lanes} (valid : ∀ latency, (b.get latency).Valid) {op : LaneOp}
    (below : op.BelowLast) :
    ∃ b', b.step op = some b' ∧
      ∀ latency, (b'.get latency).Valid ∧ (b.get latency).next ≤ (b'.get latency).next := by
  cases op with
  | data frame now =>
    rcases lane : bondLatencyLane frame.flags with ⟨latency, known⟩
    by_cases refused : known = false ∨ frame.sequence = 0 ∨ frame.payload.length = 0
    · refine ⟨b, ?_, fun other => ⟨valid other, le_rfl⟩⟩
      simp only [Lanes.step, Lanes.acceptDataFrame, lane, if_pos refused, Option.map_some]
    · obtain ⟨r', out, pushed, after, forward⟩ :=
        (valid latency).push_forward frame.payload now (toNat_lt_last below)
      refine ⟨b.set latency r', ?_, ?_⟩
      · simp only [Lanes.step, Lanes.acceptDataFrame, lane, if_neg refused, pushed, Option.map_some]
      · intro other
        rw [Lanes.get_set]
        split_ifs with same
        · exact ⟨after, same ▸ forward⟩
        · exact ⟨valid other, le_rfl⟩
  | tick now =>
    refine ⟨b.flush now, rfl, fun latency => ?_⟩
    have lane : (b.flush now).get latency = ((b.get latency).flushExpired now).1 := by
      cases latency <;> rfl
    rw [lane]
    obtain ⟨after, moves⟩ := (valid latency).flushExpired_moves now
    exact ⟨after, moves.cursor_le⟩

lemma Lanes.run_forward {b : Lanes} (valid : ∀ latency, (b.get latency).Valid)
    (ops : List LaneOp) (below : ∀ op ∈ ops, op.BelowLast) :
    ∃ b', run Lanes.step b ops = some b' ∧
      ∀ latency, (b'.get latency).Valid ∧ (b.get latency).next ≤ (b'.get latency).next := by
  refine exists_run ?_ (fun latency => ⟨valid latency, le_rfl⟩) below
  intro m op between allowed
  obtain ⟨b', first, onward⟩ := Lanes.step_forward (fun latency => (between latency).1) allowed
  exact ⟨b', first, fun latency => (onward latency).imp_right (between latency).2.trans⟩

lemma Lanes.valid_start (bulkHold latencyHold : Int) (latency : Bool) :
    ((Lanes.start bulkHold latencyHold).get latency).Valid := by
  cases latency
  · exact PacketReorder.valid_new bulkHold
  · exact PacketReorder.valid_new latencyHold

open Machine.GapClock (View Idle Dates Skips Watch)
namespace PacketReorder
def view (r : PacketReorder α) : View := ⟨r.next, decide (0 < r.buffered), r.gapSince⟩

/-- The buffered packets are the numbers right after the cursor, without a break. -/
def Contiguous (r : PacketReorder α) : Prop :=
  ∀ j < r.buffered.toNat, (r.lookup (addW 64 r.next (j + 1))).isSome

instance (r : PacketReorder α) : Decidable r.Contiguous :=
  inferInstanceAs (Decidable (∀ j < r.buffered.toNat, _))

structure Settled (hold : Int) (r : PacketReorder α) : Prop where
  counted : r.buffered = r.occupied
  open_cursor : r.lookup r.next = none
  held : r.hold = hold

lemma settled_new (hold : Int) : (newPacketReorder hold : PacketReorder α).Settled hold where
  counted := by simp [newPacketReorder, occupied]
  open_cursor := by simp [newPacketReorder, lookup]
  held := rfl

variable {r : PacketReorder α} {sequence s : Nat}
lemma slots_of_empty (empty : r.occupied = 0) (i : Fin bondReorderWindow) : r.slots i = none := by
  have none_full := Finset.filter_eq_empty_iff.mp (Finset.card_eq_zero.mp empty)
  simpa using none_full (Finset.mem_univ i)

lemma release_counted {p} (full : r.slots (slot r.next) = some p)
    (counted : r.buffered = r.occupied) :
    r.release.buffered = r.release.occupied := by
  have count : r.release.occupied + 1 = r.occupied := occupied_update_none full
  change r.buffered - 1 = _
  omega

lemma drainLoop_keeps (fuel : Nat) (counted : r.buffered = r.occupied) :
    (drainLoop fuel r).1.buffered = (drainLoop fuel r).1.occupied ∧
      (drainLoop fuel r).1.gapSince = r.gapSince ∧ (drainLoop fuel r).1.hold = r.hold := by
  induction fuel generalizing r with
  | zero => exact ⟨counted, rfl, rfl⟩
  | succ fuel ih =>
    cases head : r.lookup r.next with
    | none =>
      rw [drainLoop_stop fuel head]
      exact ⟨counted, rfl, rfl⟩
    | some a =>
      have full := lookup_eq_some.mp head
      rw [drainLoop_release fuel full rfl]
      exact ih (release_counted full counted)

lemma drainLoop_unbroken (k fuel : Nat) (enough : k < fuel) (few : k < 2 ^ 64)
    (head : (r.lookup r.next).isSome)
    (unbroken : ∀ j < k, (r.lookup (addW 64 r.next (j + 1))).isSome) :
    (drainLoop fuel r).1.occupied + (k + 1) ≤ r.occupied := by
  induction k generalizing fuel r
  all_goals
    obtain ⟨fuel, rfl⟩ := Nat.exists_eq_add_one_of_ne_zero (Nat.ne_zero_of_lt enough)
    obtain ⟨a, holds⟩ := Option.isSome_iff_exists.mp head
    have full := lookup_eq_some.mp holds
    have count : r.release.occupied + 1 = r.occupied := occupied_update_none full
    rw [drainLoop_release fuel full rfl]
    dsimp only
  case zero =>
    have less := drainLoop_occupied fuel r.release
    omega
  case succ k ih =>
    have kept : ∀ j < k + 1, (r.release.lookup (addW 64 r.next (j + 1))).isSome := by
      intro j inside
      rw [release_lookup full rfl, if_neg (addW_ne_self (by omega) (by omega))]
      exact unbroken j inside
    have rest := ih (r := r.release) fuel (by omega) (by omega) (kept 0 (by omega)) (by
      intro j inside
      have shifted : addW 64 r.release.next (j + 1) = addW 64 r.next (j + 1 + 1) := by
        change addW 64 (addW 64 r.next 1) (j + 1) = addW 64 r.next (j + 1 + 1)
        rw [addW_addW, Nat.add_comm 1]
      rw [shifted]
      exact kept (j + 1) (by omega))
    omega

def stored (r : PacketReorder α) (sequence : Nat) (payload : α) : PacketReorder α :=
  { r with
    slots := Function.update r.slots (slot sequence) (some ⟨sequence, payload⟩)
    buffered := r.buffered + 1 }

lemma place_fst (r : PacketReorder α) (sequence : Nat) (payload : α) (now : Time)
    (out : List (ReorderPacket α)) :
    (r.place sequence payload now out).1 = (r.stored sequence payload).drain.1.markGap now := rfl

lemma stored_lookup_self (r : PacketReorder α) (sequence : Nat) (payload : α) :
    (r.stored sequence payload).lookup sequence = some payload := by
  simp [lookup, stored]

lemma stored_lookup_of_slot_ne (r : PacketReorder α) (payload : α)
    (apart : slot s ≠ slot sequence) : (r.stored sequence payload).lookup s = r.lookup s := by
  simp [lookup, stored, apart]

lemma stored_lookup_none (payload : α) (other : s ≠ sequence) (absent : r.lookup s = none) :
    (r.stored sequence payload).lookup s = none := by
  by_cases shared : slot s = slot sequence
  · simp [lookup, stored, shared, other.symm]
  · rw [stored_lookup_of_slot_ne r payload shared, absent]

lemma stored_counted_of_free (payload : α) (counted : r.buffered = r.occupied)
    (free : r.slots (slot sequence) = none) :
    (r.stored sequence payload).buffered = (r.stored sequence payload).occupied := by
  have count : (r.stored sequence payload).occupied = r.occupied + 1 :=
    occupied_update_some ⟨sequence, payload⟩ free
  change r.buffered + 1 = _
  omega

lemma stored_occupied_of_full {old} (payload : α) (full : r.slots (slot sequence) = some old) :
    (r.stored sequence payload).occupied = r.occupied := by
  unfold occupied
  congr 1
  apply Finset.filter_congr
  intro i _
  by_cases same : i = slot sequence
  · simp [stored, same, full]
  · simp [stored, same]

lemma markGap_gapSince (r : PacketReorder α) (now : Time) :
    (r.markGap now).gapSince = 0 ∨ (r.markGap now).gapSince = now ∨
      ((r.markGap now).gapSince = r.gapSince ∧ r.buffered ≠ 0) := by
  dsimp only [markGap]
  split_ifs with dated none none
  · exact .inl rfl
  · exact .inr (.inl rfl)
  · exact .inl rfl
  · exact .inr (.inr ⟨rfl, none⟩)

lemma markGap_stops (empty : r.buffered = 0) (now : Time) : (r.markGap now).gapSince = 0 := by
  have quiet : ¬ (0 < r.buffered ∧ r.gapSince = 0) := by omega
  simp only [markGap, if_neg quiet, if_pos empty]

lemma markGap_hold (r : PacketReorder α) (now : Time) : (r.markGap now).hold = r.hold := by
  dsimp only [markGap]
  split_ifs <;> rfl

section
variable {payload : α} (now : Time) (out : List (ReorderPacket α)) {hold : Int}
lemma settled_place
    (counted : (r.stored sequence payload).buffered = (r.stored sequence payload).occupied)
    (held : r.hold = hold) :
    (r.place sequence payload now out).1.Settled hold ∧
      Idle (r.place sequence payload now out).1.view := by
  obtain ⟨exact_count, -, same_hold⟩ := drainLoop_keeps bondReorderWindow counted
  obtain ⟨next, slots, buffered⟩ := markGap_same (r.stored sequence payload).drain.1 now
  have returns := (r.stored sequence payload).drain_returns
  rw [place_fst]
  refine ⟨⟨?_, ?_, ?_⟩, ?_⟩
  · rw [buffered, occupied, slots]
    exact exact_count
  · rw [next, lookup, slots]
    exact returns
  · rw [markGap_hold]
    exact same_hold.trans held
  · intro quiet
    rw [view, decide_eq_false_iff_not, buffered] at quiet
    refine markGap_stops ?_ now
    have natural : (r.stored sequence payload).drain.1.buffered =
      (r.stored sequence payload).drain.1.occupied := exact_count
    omega

lemma place_dates {v}
    (counted : (r.stored sequence payload).buffered = (r.stored sequence payload).occupied)
    (timer : v.timer = r.gapSince)
    (guards : v.waiting = true → (r.stored sequence payload).drain.1.buffered ≠ 0 →
      (r.stored sequence payload).drain.1.next = v.cursor) :
    Dates v (r.place sequence payload now out).1.view now := by
  obtain ⟨-, same_date, -⟩ := drainLoop_keeps bondReorderWindow counted
  obtain ⟨next, -, -⟩ := markGap_same (r.stored sequence payload).drain.1 now
  rcases markGap_gapSince (r.stored sequence payload).drain.1 now with zero | dated | ⟨kept, left⟩
  · exact .inl zero
  · exact .inr (.inl dated)
  · refine .inr (.inr ⟨?_, ?_⟩)
    · exact (kept.trans same_date).trans timer.symm
    · intro waiting _
      exact next.trans (guards waiting left)
end

lemma drain_stored_unbroken (k : Nat) (payload : α) (few : k ≤ 255)
    (unbroken : ∀ j < k, (r.lookup (addW 64 r.next (j + 1))).isSome) :
    (r.stored r.next payload).drain.1.occupied + (k + 1) ≤ (r.stored r.next payload).occupied := by
  have window : bondReorderWindow = 256 := rfl
  refine drainLoop_unbroken k bondReorderWindow (by omega) (by omega) ?_ ?_
  · exact Option.isSome_iff_exists.mpr ⟨payload, stored_lookup_self r r.next payload⟩
  · intro j inside
    have apart : slot (addW 64 r.next (j + 1)) ≠ slot r.next := by
      intro shared
      have residues : (r.next + (j + 1)) % 2 ^ 64 % 256 = r.next % 256 := congrArg Fin.val shared
      omega
    have kept := stored_lookup_of_slot_ne r payload apart
    change ((r.stored r.next payload).lookup (addW 64 r.next (j + 1))).isSome
    rw [kept]
    exact unbroken j inside

lemma drained_of_contiguous {b : PacketReorder α} (payload : α)
    (counted : r.buffered = r.occupied) (contiguous : r.Contiguous) (next : b.next = r.next)
    (slots : b.slots = r.slots) : (b.stored r.next payload).drain.1.occupied = 0 := by
  have few : (b.stored r.next payload).occupied ≤ 256 := occupied_le _
  have lookups : b.lookup = r.lookup := by
    funext s
    simp only [lookup, slots]
  have occupancy : b.occupied = r.occupied := by
    simp only [occupied, slots]
  cases full : b.slots (slot r.next) with
  | none =>
    have count : (b.stored r.next payload).occupied = b.occupied + 1 :=
      occupied_update_some ⟨r.next, payload⟩ full
    have rest := drain_stored_unbroken r.occupied (r := b) payload (by omega) (by
      intro j inside
      rw [lookups, next]
      exact contiguous j (by omega))
    rw [next] at rest
    omega
  | some old =>
    have count := stored_occupied_of_full payload full
    have rest := drain_stored_unbroken (r.occupied - 1) (r := b) payload (by omega) (by
      intro j inside
      rw [lookups, next]
      exact contiguous j (by omega))
    rw [next] at rest
    omega
end PacketReorder

/-- While packets are buffered, a pushed number stays within the window, and the number at the
cursor arrives only when what is buffered follows it without a break. -/
def OneGap (r : PacketReorder α) : Op α → Prop
  | .push sequence _ _ => 0 < r.buffered → r.next ≤ sequence →
      subW 64 sequence r.next < bondReorderWindow ∧ (sequence = r.next → r.Contiguous)
  | .flushExpired _ => True

instance (r : PacketReorder α) (op : Op α) : Decidable (OneGap r op) := by
  cases op <;> unfold OneGap <;> infer_instance

def Op.call (r : PacketReorder α) : Op α → Option (PacketReorder α)
  | .push sequence payload now => (r.push sequence payload now).map Prod.fst
  | .flushExpired now => some (r.flushExpired now).1

def Op.time : Op α → Time
  | .push _ _ now => now
  | .flushExpired now => now

namespace PacketReorder
variable {hold : Int} {r r' : PacketReorder α} {sequence : Nat} {now : Time}
lemma pressure_of_empty (empty : r.occupied = 0)
    (far : bondReorderWindow ≤ subW 64 sequence r.next) (fuel : Nat) :
    r.pressure (fuel + 1) sequence =
      some ({ r with gaps := addW 64 r.gaps (subW 64 sequence r.next), next := sequence }, []) := by
  have clear : r.sequences = [] := by
    rw [sequences, List.filterMap_eq_nil_iff]
    intro i _
    rw [slots_of_empty empty i]
    rfl
  simp only [pressure, far, if_true, lowest, clear]
  rfl

section
variable (settled : r.Settled hold)
include settled
lemma Settled.place_honest {b : PacketReorder α} (payload : α) (now : Time)
    (out : List (ReorderPacket α))
    (counted : (b.stored sequence payload).buffered = (b.stored sequence payload).occupied)
    (next : b.next = r.next) (slots : b.slots = r.slots) (date : b.gapSince = r.gapSince)
    (held : b.hold = r.hold) (contiguous : 0 < r.buffered → sequence = r.next → r.Contiguous) :
    (b.place sequence payload now out).1.Settled hold ∧
      Idle (b.place sequence payload now out).1.view ∧
      Dates r.view (b.place sequence payload now out).1.view now := by
  obtain ⟨after, idle⟩ := settled_place now out counted (held.trans settled.held)
  refine ⟨after, idle, place_dates now out counted date.symm ?_⟩
  intro waiting left
  by_cases head : sequence = r.next
  · -- the gap is filled: nothing is left
    subst head
    have empty := drained_of_contiguous payload settled.counted
      (contiguous (of_decide_eq_true waiting) rfl) next slots
    have exact_count := (drainLoop_keeps bondReorderWindow counted).1
    exact absurd (exact_count.trans (congrArg Nat.cast empty)) left
  · -- the gap stays: nothing is drained
    have absent : (b.stored sequence payload).lookup (b.stored sequence payload).next = none := by
      change (b.stored sequence payload).lookup b.next = none
      rw [next]
      refine stored_lookup_none payload (Ne.symm head) ?_
      rw [lookup, slots]
      exact settled.open_cursor
    have stop : (b.stored sequence payload).drain = (b.stored sequence payload, []) :=
      drainLoop_stop 255 absent
    rw [stop]
    exact next

lemma Settled.push_honest {payload} (idle : Idle r.view) {out : List (ReorderPacket α)}
    (gap : OneGap r (.push sequence payload now))
    (pushed : r.push sequence payload now = some (r', out)) :
    r'.Settled hold ∧ Idle r'.view ∧ Dates r.view r'.view now := by
  unfold push at pushed
  by_cases early : sequence = 0 ∨ sequence < r.next
  · rw [if_pos early, Option.some.injEq, Prod.mk.injEq] at pushed
    obtain ⟨rfl, -⟩ := pushed
    exact ⟨⟨settled.counted, settled.open_cursor, settled.held⟩, idle, Dates.of_eq rfl now⟩
  · rw [if_neg early, Option.map_eq_some_iff] at pushed
    obtain ⟨loop, pressed, accepted⟩ := pushed
    have ahead : r.next ≤ sequence := by omega
    by_cases far : bondReorderWindow ≤ subW 64 sequence r.next
    · -- a jump: nothing was buffered
      have quiet : ¬ 0 < r.buffered := fun waiting => absurd (gap waiting ahead).1 (by omega)
      have count := settled.counted
      have empty : r.occupied = 0 := by omega
      rw [pressure_of_empty empty far] at pressed
      cases pressed
      have free : r.slots (slot sequence) = none := slots_of_empty empty _
      simp only [accept, free] at accepted
      obtain ⟨rfl, -⟩ := Prod.mk.inj accepted
      have counted := stored_counted_of_free payload settled.counted free
      obtain ⟨after, stopped⟩ := settled_place now [] (r := { r with
        gaps := addW 64 r.gaps (subW 64 sequence r.next), next := sequence }) counted settled.held
      refine ⟨after, stopped, place_dates now [] counted rfl ?_⟩
      intro waiting
      exact absurd (of_decide_eq_true waiting) quiet
    · have still : r.pressure (bondReorderWindow + 1) sequence = some (r, []) := by
        simp only [pressure, far, if_false]
      rw [still] at pressed
      cases pressed
      have contiguous : 0 < r.buffered → sequence = r.next → r.Contiguous :=
        fun waiting => (gap waiting ahead).2
      cases full : r.slots (slot sequence) with
      | none =>
        simp only [accept, full] at accepted
        obtain ⟨rfl, -⟩ := Prod.mk.inj accepted
        exact settled.place_honest payload now []
          (stored_counted_of_free payload settled.counted full) rfl rfl rfl rfl contiguous
      | some old =>
        by_cases same : old.sequence = sequence
        · simp only [accept, full, same, if_true] at accepted
          obtain ⟨rfl, -⟩ := Prod.mk.inj accepted
          exact ⟨⟨settled.counted, settled.open_cursor, settled.held⟩, idle, Dates.of_eq rfl now⟩
        · simp only [accept, full, same, if_false] at accepted
          obtain ⟨rfl, -⟩ := Prod.mk.inj accepted
          refine settled.place_honest payload now [] ?_ rfl rfl rfl rfl contiguous
          have kept := stored_occupied_of_full payload full
          have count := settled.counted
          change r.buffered - 1 + 1 = ((r.stored sequence payload).occupied : Int)
          omega

lemma Settled.flush_honest (idle : Idle r.view) (now : Time) :
    (r.flushExpired now).1.Settled hold ∧ Idle (r.flushExpired now).1.view ∧
      Dates r.view (r.flushExpired now).1.view now := by
  unfold flushExpired
  split_ifs with early
  · exact ⟨settled, idle, Dates.of_eq rfl now⟩
  · rcases scan : r.lowest with ⟨m, found⟩
    cases found with
    | false => exact ⟨settled, idle, Dates.of_eq rfl now⟩
    | true =>
      have counted : (r.advanceTo m).buffered = (r.advanceTo m).occupied := by
        rw [advanceTo_buffered, advanceTo_occupied]
        exact settled.counted
      obtain ⟨exact_count, -, same_hold⟩ := drainLoop_keeps bondReorderWindow counted
      have held : (r.advanceTo m).hold = hold := (advanceTo_hold r m).trans settled.held
      have returns := (r.advanceTo m).drain_returns
      dsimp only
      split_ifs with waiting
      · refine ⟨⟨exact_count, returns, same_hold.trans held⟩, ?_, .inr (.inl rfl)⟩
        intro quiet
        exact absurd waiting (of_decide_eq_false quiet)
      · exact ⟨⟨exact_count, returns, same_hold.trans held⟩, fun _ => rfl, .inl rfl⟩

lemma Settled.call_honest {op} (idle : Idle r.view) (gap : OneGap r op)
    (called : op.call r = some r') :
    r'.Settled hold ∧ Idle r'.view ∧ Dates r.view r'.view op.time := by
  cases op with
  | push sequence payload now =>
    rw [Op.call, Option.map_eq_some_iff] at called
    obtain ⟨⟨_, out⟩, pushed, rfl⟩ := called
    exact settled.push_honest idle gap pushed
  | flushExpired now =>
    cases called
    exact settled.flush_honest idle now
end

lemma flushExpired_moved (moved : (r.flushExpired now).1.next ≠ r.next) :
    r.buffered ≠ 0 ∧ r.gapSince ≠ 0 ∧ r.hold ≤ now - r.gapSince := by
  by_cases early : r.buffered = 0 ∨ r.gapSince = 0 ∨ now - r.gapSince < r.hold
  · rw [flushExpired, if_pos early] at moved
    exact absurd rfl moved
  · push Not at early
    exact early
end PacketReorder

/-- At this call no missing number is given up before its gap has been visible for the hold. -/
def Patient (hold : Int) (w : Watch (PacketReorder α)) : Op α → Prop
  | .push _ _ _ => True
  | .flushExpired now =>
    ∀ g, Skips w.buffer.next (w.buffer.flushExpired now).1.next
        ((w.buffer.flushExpired now).2.map ReorderPacket.sequence) g →
      ∃ t, w.since = some t ∧ hold ≤ now - t

def watched (hold clock : Int) : Watch (PacketReorder α) := ⟨newPacketReorder hold, none, clock⟩

def Watched.step : Watch (PacketReorder α) → Op α → Option (Watch (PacketReorder α)) :=
  Watch.step Op.call Op.time PacketReorder.view

lemma patient_of_oneGap (hold clock : Int) (ops : List (Op α))
    (admitted : Meets Watched.step (fun w op => OneGap w.buffer op) (watched hold clock) ops) :
    Meets Watched.step (Patient hold) (watched hold clock) ops := by
  refine Watch.meets_of_honest
    (fun r op r' settled idle gap called =>
      PacketReorder.Settled.call_honest settled idle gap called) ?_
    (PacketReorder.settled_new hold) ⟨fun _ => rfl, ?_⟩ admitted
  · intro w op settled fresh
    cases op with
    | push sequence payload now => trivial
    | flushExpired now =>
      intro g skips
      obtain ⟨occupied, running, due⟩ := PacketReorder.flushExpired_moved skips.moved
      have count := settled.counted
      have waiting : w.buffer.view.waiting = true := decide_eq_true (by omega)
      obtain ⟨t, since, -, dated⟩ := fresh.visible waiting
      refine ⟨t, since, ?_⟩
      have held := settled.held
      have recent : t ≤ w.buffer.gapSince := dated.resolve_left running
      omega
  · intro waiting
    exact absurd waiting Bool.false_ne_true
end Tamizdat.Wgturn.Reorder
