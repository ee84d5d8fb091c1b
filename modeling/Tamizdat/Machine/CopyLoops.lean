/- layer: library
   digest: Two copy loops between two connections and the thread that closes them. -/

import Tamizdat.Machine.Runs

set_option autoImplicit false
universe u

open List
namespace Tamizdat.Machine.CopyLoops
open Machine.Runs (run Meets run_invariant invariant_of_meets length_add_le)

inductive Side
  | near | far
deriving DecidableEq

def Side.other : Side → Side
  | .near => .far
  | .far => .near

@[simp] lemma Side.other_other (s : Side) : s.other.other = s := by
  cases s <;> rfl

lemma Side.eq_or_eq_other (s t : Side) : t = s ∨ t = s.other := by
  cases s <;> cases t <;> simp [Side.other]

lemma Side.other_ne (s : Side) : s.other ≠ s := by
  cases s <;> decide

/-- What the thread that started the loops does: wait for one of them, or close a connection. -/
inductive Action
  | await
  | close (s : Side)
deriving DecidableEq

/-- A relay: whether a loop half-closes its destination when it ends, and what the starting
thread does. -/
structure Relay where
  halfCloses : Bool
  script : List Action
deriving DecidableEq

variable {α : Type u}

/-- `last` says that the end of the stream was returned with the chunk. -/
inductive Loop (α : Type u)
  | reading
  | writing (chunk : List α) (last : Bool)
  | halfClosing | done

namespace Loop
def copying : Loop α → Bool
  | .reading | .writing _ _ => true
  | .halfClosing | .done => false

def held : Loop α → List α
  | .writing chunk _ => chunk
  | _ => []

def signal : Loop α → Nat
  | .done => 1
  | _ => 0

def rank : Loop α → Nat
  | .writing _ _ => 3
  | .reading => 2
  | .halfClosing => 1
  | .done => 0

lemma signal_le_one (l : Loop α) : l.signal ≤ 1 := by
  cases l <;> simp [signal]

lemma signal_of_copying {l : Loop α} (busy : l.copying = true) : l.signal = 0 := by
  cases l <;> simp_all [copying, signal]

lemma not_copying_of_signal {l : Loop α} (ended : 0 < l.signal) : l.copying = false := by
  cases l <;> simp_all [copying, signal]

lemma two_le_rank_of_copying {l : Loop α} (busy : l.copying = true) : 2 ≤ l.rank := by
  cases l <;> simp_all [copying, rank]
end Loop
variable (r : Relay)
def Relay.ending : Loop α :=
  if r.halfCloses then .halfClosing else .done

lemma Relay.ending_copying : (r.ending : Loop α).copying = false := by
  unfold Relay.ending
  split <;> rfl

lemma Relay.ending_rank : (r.ending : Loop α).rank ≤ 1 := by
  unfold Relay.ending
  split <;> simp [Loop.rank]

/-- One direction: what its source has yet to send, what is sent and unread, and what has been
written to the destination. -/
structure Lane (α : Type u) where
  unsent : List α
  inflight : List α
  delivered : List α
  finished : Bool
  loop : Loop α

/-- A lane is named by its source; `awaited` counts the loops the starting thread has waited
for. -/
structure State (α : Type u) where
  lane : Side → Lane α
  closed : Side → Bool
  signals : Nat
  awaited : Nat
  script : List Action

def start (stream : Side → List α) : State α where
  lane := fun s => ⟨stream s, [], [], false, .reading⟩
  closed := fun _ => false
  signals := 0
  awaited := 0
  script := r.script

open Function (update)
namespace State
def received (st : State α) (s : Side) : List α := (st.lane s.other).delivered

def setLane (st : State α) (s : Side) (l : Lane α) : State α :=
  { st with lane := update st.lane s l }

def leave (r : Relay) (st : State α) (s : Side) (l : Lane α) : State α :=
  { st.setLane s { l with loop := r.ending } with
    signals := st.signals + (r.ending : Loop α).signal }
end State

inductive Label
  | send (s : Side) (n : Nat)
  | finish (s : Side)
  | read (s : Side) (n : Nat) (last : Bool)
  | eof (s : Side)
  | write (s : Side)
  | fail (s : Side)
  | halfClose (s : Side)
  | main

section
variable (st : State α)
def sendStep (s : Side) (n : Nat) : Option (State α) :=
  let l := st.lane s
  if 0 < n ∧ n ≤ l.unsent.length then
    some (st.setLane s { l with
      unsent := l.unsent.drop n, inflight := l.inflight ++ l.unsent.take n })
  else none

def finishStep (s : Side) : Option (State α) :=
  let l := st.lane s
  if l.unsent.length = 0 ∧ l.finished = false then
    some (st.setLane s { l with finished := true })
  else none

/-- A read returns any positive number of the bytes that are there, with or without the end of
the stream behind them. -/
def readStep (s : Side) (n : Nat) (last : Bool) : Option (State α) :=
  let l := st.lane s
  match l.loop with
  | .reading =>
    if st.closed s = false ∧ 0 < n ∧ n ≤ l.inflight.length ∧
        (last = true → l.finished = true ∧ n = l.inflight.length) then
      some (st.setLane s { l with
        inflight := l.inflight.drop n, loop := .writing (l.inflight.take n) last })
    else none
  | _ => none

def eofStep (r : Relay) (st : State α) (s : Side) : Option (State α) :=
  let l := st.lane s
  match l.loop with
  | .reading =>
    if st.closed s = false ∧ l.inflight.length = 0 ∧ l.finished = true then some (st.leave r s l)
    else none
  | _ => none

def writeStep (r : Relay) (st : State α) (s : Side) : Option (State α) :=
  let l := st.lane s
  match l.loop with
  | .writing chunk last =>
    if st.closed s.other = false then
      let written : Lane α := { l with delivered := l.delivered ++ chunk }
      some (if last then st.leave r s written else st.setLane s { written with loop := .reading })
    else none
  | _ => none

def failStep (r : Relay) (st : State α) (s : Side) : Option (State α) :=
  let l := st.lane s
  match l.loop with
  | .reading => if st.closed s = true then some (st.leave r s l) else none
  | .writing _ _ => if st.closed s.other = true then some (st.leave r s l) else none
  | _ => none

def halfCloseStep (s : Side) : Option (State α) :=
  let l := st.lane s
  match l.loop with
  | .halfClosing =>
    some { st.setLane s { l with loop := .done } with signals := st.signals + 1 }
  | _ => none

def mainStep : Option (State α) :=
  match st.script with
  | [] => none
  | .await :: rest =>
    if 0 < st.signals then
      some { st with signals := st.signals - 1, awaited := st.awaited + 1, script := rest }
    else none
  | .close s :: rest => some { st with closed := update st.closed s true, script := rest }
end

def step (r : Relay) (st : State α) : Label → Option (State α)
  | .send s n => sendStep st s n
  | .finish s => finishStep st s
  | .read s n last => readStep st s n last
  | .eof s => eofStep r st s
  | .write s => writeStep r st s
  | .fail s => failStep r st s
  | .halfClose s => halfCloseStep st s
  | .main => mainStep st

/-- An endpoint whose connection is closed has received the other's whole stream. -/
def Whole (stream : Side → List α) (st : State α) : Prop :=
  ∀ s, st.closed s = true → st.received s = stream s.other

/-- An endpoint ends its stream only after it has received the other's. -/
def Polite (stream : Side → List α) (st : State α) : Label → Prop
  | .finish s => st.received s = stream s.other
  | _ => True

instance [DecidableEq α] (stream : Side → List α) (st : State α) (l : Label) :
    Decidable (Polite stream st l) := by
  cases l <;> unfold Polite <;> infer_instance

/-- How many loops are waited for before the first connection is closed. -/
def guard : List Action → Nat
  | .await :: rest => guard rest + 1
  | _ => 0

variable {r} {st t : State α} {s : Side} {n : Nat} {last : Bool}
lemma sendStep_some (moved : sendStep st s n = some t) :
    0 < n ∧ n ≤ (st.lane s).unsent.length ∧ t = st.setLane s { st.lane s with
        unsent := (st.lane s).unsent.drop n
        inflight := (st.lane s).inflight ++ (st.lane s).unsent.take n } := by
  simp only [sendStep, Option.ite_some_none_eq_some] at moved
  exact ⟨moved.1.1, moved.1.2, moved.2.symm⟩

lemma finishStep_some (moved : finishStep st s = some t) :
    (st.lane s).unsent = [] ∧ (st.lane s).finished = false ∧
      t = st.setLane s { st.lane s with finished := true } := by
  simp only [finishStep, Option.ite_some_none_eq_some] at moved
  exact ⟨eq_nil_of_length_eq_zero moved.1.1, moved.1.2, moved.2.symm⟩

lemma readStep_some (moved : readStep st s n last = some t) :
    (st.lane s).loop = .reading ∧ 0 < n ∧ n ≤ (st.lane s).inflight.length ∧
      (last = true → (st.lane s).finished = true ∧ n = (st.lane s).inflight.length) ∧
      t = st.setLane s { st.lane s with
        inflight := (st.lane s).inflight.drop n
        loop := .writing ((st.lane s).inflight.take n) last } := by
  unfold readStep at moved
  cases phase : (st.lane s).loop with
  | reading =>
    simp only [phase, Option.ite_some_none_eq_some] at moved
    obtain ⟨⟨-, some_, there, ended⟩, rfl⟩ := moved
    exact ⟨rfl, some_, there, ended, rfl⟩
  | writing | halfClosing | done => simp [phase] at moved

lemma eofStep_some (moved : eofStep r st s = some t) :
    (st.lane s).loop = .reading ∧ (st.lane s).inflight = [] ∧ (st.lane s).finished = true ∧
      t = st.leave r s (st.lane s) := by
  unfold eofStep at moved
  cases phase : (st.lane s).loop with
  | reading =>
    simp only [phase, Option.ite_some_none_eq_some] at moved
    obtain ⟨⟨-, read, ended⟩, rfl⟩ := moved
    exact ⟨rfl, eq_nil_of_length_eq_zero read, ended, rfl⟩
  | writing | halfClosing | done => simp [phase] at moved

lemma writeStep_some (moved : writeStep r st s = some t) :
    ∃ chunk last, (st.lane s).loop = .writing chunk last ∧ t = if last then
          st.leave r s { st.lane s with delivered := (st.lane s).delivered ++ chunk }
        else st.setLane s { st.lane s with
          delivered := (st.lane s).delivered ++ chunk, loop := .reading } := by
  unfold writeStep at moved
  cases phase : (st.lane s).loop with
  | writing chunk last =>
    simp only [phase, Option.ite_some_none_eq_some] at moved
    exact ⟨chunk, last, rfl, moved.2.symm⟩
  | reading | halfClosing | done => simp [phase] at moved

lemma failStep_some (moved : failStep r st s = some t) :
    (st.lane s).loop.copying = true ∧ (∃ c, st.closed c = true) ∧ t = st.leave r s (st.lane s) := by
  unfold failStep at moved
  cases phase : (st.lane s).loop with
  | reading =>
    simp only [phase, Option.ite_some_none_eq_some] at moved
    exact ⟨rfl, ⟨s, moved.1⟩, moved.2.symm⟩
  | writing chunk last =>
    simp only [phase, Option.ite_some_none_eq_some] at moved
    exact ⟨rfl, ⟨s.other, moved.1⟩, moved.2.symm⟩
  | halfClosing | done => simp [phase] at moved

lemma halfCloseStep_some (moved : halfCloseStep st s = some t) :
    (st.lane s).loop = .halfClosing ∧ t = { st.setLane s { st.lane s with loop := .done } with
        signals := st.signals + 1 } := by
  unfold halfCloseStep at moved
  cases phase : (st.lane s).loop with
  | halfClosing =>
    simp only [phase, Option.some.injEq] at moved
    exact ⟨rfl, moved.symm⟩
  | reading | writing | done => simp [phase] at moved

lemma mainStep_some (moved : mainStep st = some t) :
    (∃ rest, st.script = .await :: rest ∧ 0 < st.signals ∧
      t = { st with signals := st.signals - 1, awaited := st.awaited + 1, script := rest }) ∨
    ∃ s rest, st.script = .close s :: rest ∧
      t = { st with closed := update st.closed s true, script := rest } := by
  unfold mainStep at moved
  match code : st.script with
  | [] => simp [code] at moved
  | .await :: rest =>
    simp only [code, Option.ite_some_none_eq_some] at moved
    exact .inl ⟨rest, rfl, moved.1, moved.2.symm⟩
  | .close s :: rest =>
    simp only [code, Option.some.injEq] at moved
    exact .inr ⟨s, rest, rfl, moved.symm⟩

/-- Nothing of the source's stream is lost on the lane while its loop copies, and all of it has
been written once the loop has left. -/
structure Lane.Sound (stream : List α) (l : Lane α) : Prop where
  along : l.loop.copying = true → l.delivered ++ (l.loop.held ++ (l.inflight ++ l.unsent)) = stream
  ended : l.loop.copying = false → l.delivered = stream
  chunk : ∀ c last, l.loop = .writing c last →
    c ≠ [] ∧ (last = true → l.finished = true ∧ l.inflight = [])
  spent : l.finished = true → l.unsent = []

namespace Lane.Sound
variable {stream : List α} {l : Lane α} {chunk : List α}
lemma initial (stream : List α) : Lane.Sound stream ⟨stream, [], [], false, .reading⟩ where
  along := fun _ => rfl
  ended := fun h => by simp [Loop.copying] at h
  chunk := fun _ _ h => by simp at h
  spent := fun h => by simp at h

section
variable (sound : l.Sound stream)
include sound
lemma send (positive : 0 < n) (there : n ≤ l.unsent.length) : Lane.Sound stream { l with
      unsent := l.unsent.drop n, inflight := l.inflight ++ l.unsent.take n } := by
  -- an endpoint that has ended its stream has nothing left to send
  have open_ : l.finished ≠ true := by
    intro finished
    rw [sound.spent finished] at there
    simp only [length_nil] at there
    omega
  refine ⟨?_, sound.ended, ?_, fun finished => absurd finished open_⟩
  · intro busy
    rw [append_assoc l.inflight, take_append_drop]
    exact sound.along busy
  · intro c last writing
    have held := sound.chunk c last writing
    exact ⟨held.1, fun final => absurd (held.2 final).1 open_⟩

lemma finish (sent : l.unsent = []) : Lane.Sound stream { l with finished := true } where
  along := sound.along
  ended := sound.ended
  chunk := fun c last writing =>
    ⟨(sound.chunk c last writing).1, fun final => ⟨rfl, ((sound.chunk c last writing).2 final).2⟩⟩
  spent := fun _ => sent

lemma read (reading : l.loop = .reading) (positive : 0 < n) (there : n ≤ l.inflight.length)
    (final : last = true → l.finished = true ∧ n = l.inflight.length) :
    Lane.Sound stream { l with
      inflight := l.inflight.drop n, loop := .writing (l.inflight.take n) last } := by
  refine ⟨?_, fun idle => by simp [Loop.copying] at idle, ?_, sound.spent⟩
  · intro _
    have before := sound.along (by rw [reading]; rfl)
    rw [reading] at before
    simpa only [Loop.held, nil_append, ← append_assoc (l.inflight.take n),
      take_append_drop] using before
  · intro c final' writing
    obtain ⟨rfl, rfl⟩ : l.inflight.take n = c ∧ last = final' := by simpa using writing
    refine ⟨?_, fun ends => ⟨(final ends).1, ?_⟩⟩
    · intro empty
      have size := congrArg List.length empty
      rw [length_take, length_nil] at size
      omega
    · rw [drop_eq_nil_iff, (final ends).2]

lemma write (writing : l.loop = .writing chunk last) :
    Lane.Sound stream { l with delivered := l.delivered ++ chunk, loop := .reading } := by
  refine ⟨?_, fun idle => by simp [Loop.copying] at idle, fun _ _ h => by simp at h, sound.spent⟩
  intro _
  have before := sound.along (by rw [writing]; rfl)
  rw [writing] at before
  simpa only [Loop.held, nil_append, append_assoc] using before

lemma last_chunk (writing : l.loop = .writing chunk true) : l.delivered ++ chunk = stream := by
  have before := sound.along (by rw [writing]; rfl)
  obtain ⟨finished, read⟩ := (sound.chunk chunk true writing).2 rfl
  rw [writing, read, sound.spent finished] at before
  simpa only [Loop.held, append_nil] using before

lemma read_out (reading : l.loop = .reading) (read : l.inflight = [])
    (finished : l.finished = true) : l.delivered = stream := by
  have before := sound.along (by rw [reading]; rfl)
  rw [reading, read, sound.spent finished] at before
  simpa only [Loop.held, append_nil] using before

lemma not_writing (delivered : l.delivered = stream) : l.loop ≠ .writing chunk last := by
  intro writing
  have before := sound.along (by rw [writing]; rfl)
  rw [writing, delivered] at before
  have empty := append_right_eq_self.mp before
  exact (sound.chunk chunk last writing).1 (append_eq_nil_iff.mp empty).1
end

lemma leave {stop} (idle : stop.copying = false) (delivered : l.delivered = stream)
    (spent : l.finished = true → l.unsent = []) : Lane.Sound stream { l with loop := stop } where
  along := fun busy => by rw [idle] at busy; cases busy
  ended := fun _ => delivered
  chunk := fun c last writing => by
    simp only at writing
    rw [writing] at idle
    cases idle
  spent := spent
end Lane.Sound

def State.Closing (st : State α) : Prop := ∃ c, st.closed c = true

/-- `g` loops are waited for before anything is closed. With fewer than two, an endpoint that has
ended its stream must have heard the other out. -/
structure Sound (stream : Side → List α) (g : Nat) (st : State α) : Prop where
  lanes : ∀ s, (st.lane s).Sound (stream s)
  whole : st.Closing → ∀ s, (st.lane s).delivered = stream s
  counted : st.signals + st.awaited = (st.lane .near).loop.signal + (st.lane .far).loop.signal
  armed : ¬ st.Closing → g ≤ guard st.script + st.awaited
  heard : 2 ≤ g ∨ ∀ s, (st.lane s).finished = true → (st.lane s.other).delivered = stream s.other
  left : ∀ s, (st.lane s).loop.copying = false → (st.lane s).finished = true ∨ st.Closing

namespace Sound
variable {stream : Side → List α} {g : Nat}
lemma initial (r : Relay) (stream : Side → List α) :
    Sound stream (guard r.script) (start r stream) where
  lanes := fun s => Lane.Sound.initial (stream s)
  whole := fun ⟨_, closed⟩ => by simp [start] at closed
  counted := rfl
  armed := fun _ => Nat.le_refl _
  heard := .inr (fun _ finished => by simp [start] at finished)
  left := fun _ idle => by simp [start, Loop.copying] at idle

lemma signal_sum (st : State α) (s : Side) :
    (st.lane .near).loop.signal + (st.lane .far).loop.signal =
      (st.lane s).loop.signal + (st.lane s.other).loop.signal := by
  cases s
  · rfl
  · exact Nat.add_comm _ _

variable (inv : Sound stream g st)
include inv

/-- A step of one lane keeps the invariant if the lane stays sound, keeps what it has delivered
in full, and signals its end. -/
lemma move {l} (sound : l.Sound (stream s))
    (kept : (st.lane s).delivered = stream s → l.delivered = stream s)
    (signalled : t.signals + (st.lane s).loop.signal = st.signals + l.loop.signal)
    (heard : 2 ≤ g ∨ (l.finished = true → (st.lane s.other).delivered = stream s.other))
    (left : l.loop.copying = false → l.finished = true ∨ st.Closing)
    (lane : t.lane = update st.lane s l := by rfl) (closed : t.closed = st.closed := by rfl)
    (awaited : t.awaited = st.awaited := by rfl) (script : t.script = st.script := by rfl) :
    Sound stream g t := by
  have own : t.lane s = l := by rw [lane, Function.update_self]
  have others : t.lane s.other = st.lane s.other := by
    rw [lane, Function.update_of_ne (Side.other_ne s)]
  have closing : t.Closing ↔ st.Closing := by unfold State.Closing; rw [closed]
  refine ⟨?_, ?_, ?_, ?_, ?_, ?_⟩
  · intro c
    obtain rfl | rfl := Side.eq_or_eq_other s c
    · rw [own]; exact sound
    · rw [others]; exact inv.lanes _
  · intro shutting c
    have before := inv.whole (closing.mp shutting)
    obtain rfl | rfl := Side.eq_or_eq_other s c
    · rw [own]; exact kept (before _)
    · rw [others]; exact before _
  · have before := inv.counted
    rw [signal_sum st s] at before
    rw [signal_sum t s, own, others, awaited]
    omega
  · intro going
    rw [script, awaited]
    exact inv.armed (fun shutting => going (closing.mpr shutting))
  · obtain patient | listened := inv.heard
    · exact .inl patient
    obtain patient | heard := heard
    · exact .inl patient
    refine .inr (fun c finished => ?_)
    obtain rfl | rfl := Side.eq_or_eq_other s c
    · rw [own] at finished
      rw [others]
      exact heard finished
    · rw [others] at finished
      rw [Side.other_other, own]
      exact kept (by simpa only [Side.other_other] using listened _ finished)
  · intro c idle
    obtain rfl | rfl := Side.eq_or_eq_other s c
    · rw [own] at idle ⊢
      exact (left idle).imp id closing.mpr
    · rw [others] at idle ⊢
      exact (inv.left _ idle).imp id closing.mpr

lemma still_heard (s : Side) :
    2 ≤ g ∨ ((st.lane s).finished = true → (st.lane s.other).delivered = stream s.other) :=
  inv.heard.imp id (fun listened => listened s)

lemma leave {l} (delivered : l.delivered = stream s) (finished : l.finished = (st.lane s).finished)
    (unsent : l.unsent = (st.lane s).unsent) (busy : (st.lane s).loop.copying = true)
    (cause : (st.lane s).finished = true ∨ st.Closing) : Sound stream g (st.leave r s l) := by
  have spent : l.finished = true → l.unsent = [] := by
    rw [finished, unsent]
    exact (inv.lanes s).spent
  refine inv.move (s := s) (l := { l with loop := r.ending })
    (Lane.Sound.leave r.ending_copying delivered spent) (fun _ => delivered) ?_ ?_ ?_
  · rw [Loop.signal_of_copying busy]
    rfl
  · simp only [finished]
    exact inv.still_heard s
  · intro _
    simp only [finished]
    exact cause

lemma delivered_of_unguarded (some_ : 1 ≤ g) (unguarded : guard st.script = 0) :
    ∀ s, (st.lane s).delivered = stream s := by
  by_cases closing : st.Closing
  · exact inv.whole closing
  have waited := inv.armed closing
  have counted := inv.counted
  obtain patient | listened := inv.heard
  · -- both loops have ended
    have near := Loop.signal_le_one (st.lane .near).loop
    have far := Loop.signal_le_one (st.lane .far).loop
    intro s
    have ended : 0 < (st.lane s).loop.signal := by
      cases s <;> omega
    exact (inv.lanes s).ended (Loop.not_copying_of_signal ended)
  · -- one loop has ended, and its source has heard the other stream out
    have some_end : ∃ s, 0 < (st.lane s).loop.signal := by
      by_cases near : 0 < (st.lane .near).loop.signal
      · exact ⟨.near, near⟩
      · exact ⟨.far, by omega⟩
    obtain ⟨s, signalled⟩ := some_end
    have idle := Loop.not_copying_of_signal signalled
    have finished := (inv.left s idle).resolve_right closing
    intro c
    obtain rfl | rfl := Side.eq_or_eq_other s c
    · exact (inv.lanes _).ended idle
    · exact listened s finished

lemma main (some_ : 1 ≤ g) (moved : mainStep st = some t) : Sound stream g t := by
  obtain ⟨rest, code, pending, rfl⟩ | ⟨c, rest, code, rfl⟩ := mainStep_some moved
  · refine { inv with counted := ?_, armed := ?_ }
    · have before := inv.counted
      simp only
      omega
    · intro going
      have before := inv.armed going
      rw [code, guard] at before
      simp only
      omega
  · have delivered := inv.delivered_of_unguarded some_ (by rw [code, guard]; simp)
    have closing : State.Closing { st with
        closed := update st.closed c true, script := rest } :=
      ⟨c, Function.update_self c true st.closed⟩
    exact ⟨inv.lanes, fun _ => delivered, inv.counted, fun going => absurd closing going,
      inv.heard, fun _ _ => .inr closing⟩

lemma step (some_ : 1 ≤ g) (l : Label) (admitted : 2 ≤ g ∨ Polite stream st l)
    (moved : CopyLoops.step r st l = some t) : Sound stream g t := by
  cases l with
  | send s n =>
    obtain ⟨positive, there, rfl⟩ := sendStep_some moved
    exact inv.move (s := s) ((inv.lanes s).send positive there) id rfl
      (inv.still_heard s) (inv.left s)
  | finish s =>
    obtain ⟨sent, -, rfl⟩ := finishStep_some moved
    exact inv.move (s := s) ((inv.lanes s).finish sent) id rfl
      (admitted.imp id (fun heard _ => heard)) (fun _ => .inl rfl)
  | read s n last =>
    obtain ⟨reading, positive, there, final, rfl⟩ := readStep_some moved
    refine inv.move (s := s) ((inv.lanes s).read reading positive there final) id ?_
      (inv.still_heard s) ?_
    · rw [reading]
      rfl
    · intro idle
      simp [Loop.copying] at idle
  | eof s =>
    obtain ⟨reading, read, finished, rfl⟩ := eofStep_some moved
    have delivered := (inv.lanes s).read_out reading read finished
    exact inv.leave delivered rfl rfl (by rw [reading]; rfl) (.inl finished)
  | write s =>
    obtain ⟨chunk, last, writing, rfl⟩ := writeStep_some moved
    cases last with
    | true =>
      have finished := (((inv.lanes s).chunk chunk true writing).2 rfl).1
      exact inv.leave ((inv.lanes s).last_chunk writing) rfl rfl (by rw [writing]; rfl)
        (.inl finished)
    | false =>
      refine inv.move (s := s) ((inv.lanes s).write writing) ?_ ?_
        (inv.still_heard s) ?_
      · intro delivered
        exact absurd writing ((inv.lanes s).not_writing delivered)
      · rw [writing]
        rfl
      · intro idle
        simp [Loop.copying] at idle
  | fail s =>
    obtain ⟨busy, closing, rfl⟩ := failStep_some moved
    exact inv.leave (inv.whole closing s) rfl rfl busy (.inr closing)
  | halfClose s =>
    obtain ⟨halfClosing, rfl⟩ := halfCloseStep_some moved
    have idle : (st.lane s).loop.copying = false := by rw [halfClosing]; rfl
    have sound : Lane.Sound (stream s) { st.lane s with loop := .done } :=
      Lane.Sound.leave rfl ((inv.lanes s).ended idle) (inv.lanes s).spent
    refine inv.move (s := s) sound id ?_ (inv.still_heard s)
      (fun _ => inv.left s idle)
    rw [halfClosing]
    rfl
  | main => exact inv.main some_ moved
end Sound

/-! ### Every run ends, and ends with both connections closed -/

def Lane.weight (l : Lane α) : Nat :=
  3 * l.unsent.length + 2 * l.inflight.length + (if l.finished then 0 else 1) + l.loop.rank

def State.weight (st : State α) : Nat :=
  (st.lane .near).weight + (st.lane .far).weight + st.script.length

variable {l : Lane α} {ls : List Label}
lemma State.weight_lt_of_lane (lane : t.lane = update st.lane s l)
    (script : t.script = st.script) (lighter : l.weight < (st.lane s).weight) :
    t.weight < st.weight := by
  unfold State.weight
  rw [lane, script]
  cases s with
  | near | far =>
    rw [Function.update_self, Function.update_of_ne (by decide)]
    omega

lemma State.leave_weight_lt (unsent : l.unsent = (st.lane s).unsent)
    (inflight : l.inflight = (st.lane s).inflight) (finished : l.finished = (st.lane s).finished)
    (busy : (st.lane s).loop.copying = true) : (st.leave r s l).weight < st.weight := by
  refine State.weight_lt_of_lane (s := s) (l := { l with loop := r.ending }) rfl rfl ?_
  have before := Loop.two_le_rank_of_copying busy
  have after := r.ending_rank (α := α)
  simp only [Lane.weight, unsent, inflight, finished]
  omega

lemma weight_lt_of_step {l : Label} (moved : step r st l = some t) : t.weight < st.weight := by
  cases l with
  | send s n =>
    obtain ⟨positive, there, rfl⟩ := sendStep_some moved
    refine State.weight_lt_of_lane (s := s) rfl rfl ?_
    simp only [Lane.weight, length_drop, length_append, length_take]
    omega
  | finish s =>
    obtain ⟨-, going, rfl⟩ := finishStep_some moved
    refine State.weight_lt_of_lane (s := s) rfl rfl ?_
    simp [Lane.weight, going]
  | read s n last =>
    obtain ⟨reading, positive, there, -, rfl⟩ := readStep_some moved
    refine State.weight_lt_of_lane (s := s) rfl rfl ?_
    simp only [Lane.weight, reading, Loop.rank, length_drop]
    omega
  | eof s =>
    obtain ⟨reading, -, -, rfl⟩ := eofStep_some moved
    exact State.leave_weight_lt rfl rfl rfl (by rw [reading]; rfl)
  | write s =>
    obtain ⟨chunk, last, writing, rfl⟩ := writeStep_some moved
    cases last with
    | true => exact State.leave_weight_lt rfl rfl rfl (by rw [writing]; rfl)
    | false =>
      refine State.weight_lt_of_lane (s := s) rfl rfl ?_
      simp only [Lane.weight, writing, Loop.rank]
      omega
  | fail s =>
    obtain ⟨busy, -, rfl⟩ := failStep_some moved
    exact State.leave_weight_lt rfl rfl rfl busy
  | halfClose s =>
    obtain ⟨halfClosing, rfl⟩ := halfCloseStep_some moved
    refine State.weight_lt_of_lane (s := s) rfl rfl ?_
    simp only [Lane.weight, halfClosing, Loop.rank]
    omega
  | main =>
    obtain ⟨rest, code, -, rfl⟩ | ⟨c, rest, code, rfl⟩ := mainStep_some moved
    all_goals
      simp only [State.weight, code, length_cons]
      omega

lemma length_le_weight (arrive : run (step r) st ls = some t) : ls.length + t.weight ≤ st.weight :=
  length_add_le State.weight (fun _ _ _ _ moved => ⟨trivial, weight_lt_of_step moved⟩) trivial
    arrive

/-- What the starting thread has left to do: its waits are those it has not done, and what it
has not closed it will close. -/
structure Ahead (r : Relay) (st : State α) : Prop where
  waits : st.awaited + st.script.count .await = r.script.count .await
  closes : ∀ s, .close s ∈ r.script → st.closed s = true ∨ .close s ∈ st.script

namespace Ahead
lemma of_frame (ahead : Ahead r st) (awaited : t.awaited = st.awaited := by rfl)
    (script : t.script = st.script := by rfl) (closed : t.closed = st.closed := by rfl) :
    Ahead r t := by
  refine ⟨?_, ?_⟩
  · rw [awaited, script]
    exact ahead.waits
  · rw [script, closed]
    exact ahead.closes

lemma main (ahead : Ahead r st) (moved : mainStep st = some t) : Ahead r t := by
  have waits := ahead.waits
  obtain ⟨rest, code, -, rfl⟩ | ⟨c, rest, code, rfl⟩ := mainStep_some moved
  · refine ⟨?_, ?_⟩
    · rw [code, count_cons_self] at waits
      simp only
      omega
    · intro s promised
      have before := ahead.closes s promised
      rw [code] at before
      simpa using before
  · refine ⟨?_, ?_⟩
    · rw [code, count_cons_of_ne (by simp)] at waits
      exact waits
    · intro s promised
      have before := ahead.closes s promised
      rw [code, mem_cons, Action.close.injEq] at before
      by_cases same : s = c
      · subst same
        exact .inl (Function.update_self s true st.closed)
      · simp only [Function.update_of_ne same]
        exact before.imp id (fun listed => listed.resolve_left same)

lemma step (ahead : Ahead r st) (l : Label) (moved : CopyLoops.step r st l = some t) :
    Ahead r t := by
  cases l with
  | send s n =>
    obtain ⟨-, -, rfl⟩ := sendStep_some moved
    exact ahead.of_frame
  | finish s =>
    obtain ⟨-, -, rfl⟩ := finishStep_some moved
    exact ahead.of_frame
  | read s n last =>
    obtain ⟨-, -, -, -, rfl⟩ := readStep_some moved
    exact ahead.of_frame
  | eof s =>
    obtain ⟨-, -, -, rfl⟩ := eofStep_some moved
    exact ahead.of_frame
  | write s =>
    obtain ⟨chunk, last, -, rfl⟩ := writeStep_some moved
    cases last <;> exact ahead.of_frame
  | fail s =>
    obtain ⟨-, -, rfl⟩ := failStep_some moved
    exact ahead.of_frame
  | halfClose s =>
    obtain ⟨-, rfl⟩ := halfCloseStep_some moved
    exact ahead.of_frame
  | main => exact ahead.main moved
end Ahead

def Stuck (r : Relay) (st : State α) : Prop := ∀ l, step r st l = none

lemma Stuck.sent (stuck : Stuck r st) (s : Side) :
    (st.lane s).unsent = [] ∧ (st.lane s).finished = true := by
  have sending := stuck (.send s (st.lane s).unsent.length)
  simp only [step, sendStep, ite_eq_right_iff, reduceCtorEq, imp_false, le_refl, and_true,
    Nat.pos_iff_ne_zero, not_not] at sending
  have finishing := stuck (.finish s)
  simp only [step, finishStep, ite_eq_right_iff, reduceCtorEq, imp_false, sending, true_and,
    Bool.not_eq_false] at finishing
  exact ⟨eq_nil_of_length_eq_zero sending, finishing⟩

lemma Stuck.loop_done (stuck : Stuck r st) (s : Side) : (st.lane s).loop = .done := by
  have finished := (stuck.sent s).2
  cases phase : (st.lane s).loop with
  | done => rfl
  | halfClosing =>
    have closing := stuck (.halfClose s)
    simp [step, halfCloseStep, phase] at closing
  | writing chunk last =>
    have writing := stuck (.write s)
    have failing := stuck (.fail s)
    simp only [step, writeStep, failStep, phase, ite_eq_right_iff, reduceCtorEq, imp_false]
      at writing failing
    simp_all
  | reading =>
    have failing := stuck (.fail s)
    simp only [step, failStep, phase, ite_eq_right_iff, reduceCtorEq, imp_false,
      Bool.not_eq_true] at failing
    have ending := stuck (.eof s)
    simp only [step, eofStep, phase, failing, finished, and_true, true_and, ite_eq_right_iff,
      reduceCtorEq, imp_false] at ending
    have reading := stuck (.read s (st.lane s).inflight.length false)
    simp only [step, readStep, phase, failing, true_and, le_refl, Bool.false_eq_true,
      false_implies, and_true, ite_eq_right_iff, reduceCtorEq, imp_false] at reading
    omega

lemma Stuck.closed {stream g} (stuck : Stuck r st) (sound : Sound stream g st) (ahead : Ahead r st)
    (waits : r.script.count .await ≤ 2) (promised : .close s ∈ r.script) : st.closed s = true := by
  have counted := sound.counted
  rw [stuck.loop_done .near, stuck.loop_done .far] at counted
  simp only [Loop.signal] at counted
  have finished : st.script = [] := by
    match code : st.script with
    | [] => rfl
    | .await :: rest =>
      have waiting := stuck .main
      simp only [step, mainStep, code, ite_eq_right_iff, reduceCtorEq, imp_false] at waiting
      have left := ahead.waits
      rw [code, count_cons_self] at left
      omega
    | .close c :: rest =>
      have closing := stuck .main
      simp [step, mainStep, code] at closing
  have either := ahead.closes s promised
  rw [finished] at either
  exact either.resolve_right (not_mem_nil)

/-- Endpoints of a relay that waits for both loops, or that hear each other out before they end
their streams, receive everything before their connections are closed. The run is finite, and
where it ends both are closed. -/
lemma complete_of_meets {stream} (some_ : 1 ≤ guard r.script) (waits : r.script.count .await ≤ 2)
    (closes : ∀ s, .close s ∈ r.script)
    (admitted : Meets (step r) (fun st l => 2 ≤ guard r.script ∨ Polite stream st l)
      (start r stream) ls) (arrive : run (step r) (start r stream) ls = some t) :
    Whole stream t ∧ ls.length ≤ (start r stream).weight ∧
      (Stuck r t → ∀ s, t.closed s = true ∧ t.received s = stream s.other) := by
  have sound : Sound stream (guard r.script) t :=
    invariant_of_meets (fun inv ok moved => inv.step some_ _ ok moved)
      (Sound.initial r stream) admitted arrive
  have ahead : Ahead r t :=
    run_invariant (fun inv moved => inv.step _ moved)
      ⟨Nat.zero_add _, fun _ promised => .inr promised⟩ arrive
  have whole : Whole stream t := fun s closed => sound.whole ⟨s, closed⟩ s.other
  refine ⟨whole, ?_, ?_⟩
  · have spent := length_le_weight arrive
    omega
  · intro stuck s
    have closed := stuck.closed sound ahead waits (closes s)
    exact ⟨closed, whole s closed⟩
end Tamizdat.Machine.CopyLoops
