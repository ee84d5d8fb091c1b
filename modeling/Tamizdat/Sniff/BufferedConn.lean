/- source: internal/sniff/sniff.go
   digest: The connection whose first bytes are read ahead. -/

import Tamizdat.Machine.Runs

set_option autoImplicit false

open List Option
namespace Tamizdat.Sniff
open Machine.Runs
def maxPeekBytes : Nat := 4096

/-- The underlying connection: what it has still to deliver, and whether its final error, which is
permanent, has come. -/
structure Conn where
  rest : List UInt8
  failed : Bool := false

/-- `Conn.Read` into a buffer of `size` bytes. The network decides how many bytes come, and
whether the final error comes with the last of them. -/
def Conn.read (c : Conn) (size n : Nat) (last : Bool) : Option (List UInt8 × Conn) :=
  if n ≤ size ∧ n ≤ c.rest.length ∧ (last = true → n = c.rest.length) ∧
      (c.failed = true → last = true) then
    some (c.rest.take n, ⟨c.rest.drop n, c.failed || last⟩)
  else none

inductive FillStage
  | reading
  | store (got : List UInt8) (err : Bool)
  | setDone | closeReady | ended

inductive ReadStage
  | idle
  | wait (size : Nat)
  | locked (size : Nat)
  | reading (size : Nat)
deriving DecidableEq

structure BufferedConn where
  conn : Conn
  buf : List UInt8 := []
  /-- The read of `fill` came with the error. -/
  bgErr : Bool := false
  ready : Bool := false
  bgDone : Bool := false
  filling : FillStage := .reading
  reader : ReadStage := .idle
  /-- What the calls of `Read` have returned, and whether one has returned an error. -/
  returned : List UInt8 := []
  reported : Bool := false
  peeked : List UInt8 := []

def newBufferedConn (stream : List UInt8) : BufferedConn := { conn := { rest := stream } }

namespace BufferedConn
def fill (b : BufferedConn) (n : Nat) (last : Bool) : Option BufferedConn :=
  match b.filling with
  | .reading =>
    (b.conn.read maxPeekBytes n last).map fun (got, conn) =>
      { b with conn := conn, filling := .store got last }
  | .store got err => some { b with buf := b.buf ++ got, bgErr := err, filling := .setDone }
  | .setDone => some { b with bgDone := true, filling := .closeReady }
  | .closeReady => some { b with ready := true, filling := .ended }
  | .ended => none

def peekWait (b : BufferedConn) (timedOut : Bool) : Option BufferedConn :=
  if b.ready ∨ timedOut then some { b with peeked := b.buf } else none

def read (b : BufferedConn) (n : Nat) (last : Bool) : Option BufferedConn :=
  match b.reader with
  | .idle => none
  | .wait size => if b.ready then some { b with reader := .locked size } else none
  | .locked size =>
    some (if b.buf ≠ [] then
        { b with buf := b.buf.drop size, returned := b.returned ++ b.buf.take size
                 reader := .idle }
      else if b.bgErr then { b with reported := true, reader := .idle }
      else { b with reader := .reading size })
  | .reading size =>
    (b.conn.read size n last).map fun (got, conn) =>
      { b with conn := conn, returned := b.returned ++ got, reported := b.reported || last,
               reader := .idle }

inductive Label
  | fill (n : Nat) (last : Bool)
  | peekWait (timedOut : Bool)
  /-- A call of `Read` looks at `bgDone`. -/
  | call (size : Nat)
  | read (n : Nat) (last : Bool)

def step (b : BufferedConn) : Label → Option BufferedConn
  | .fill n last => b.fill n last
  | .peekWait timedOut => b.peekWait timedOut
  | .call size =>
    if b.reader = .idle then
      some { b with reader := if b.bgDone then .locked size else .wait size }
    else none
  | .read n last => b.read n last

def held (b : BufferedConn) : List UInt8 :=
  match b.filling with
  | .store got _ => got
  | _ => []

def Filled (b : BufferedConn) : Prop := b.filling = .closeReady ∨ b.filling = .ended

def Passed (b : BufferedConn) : Prop :=
  b.bgDone = true ∨ b.ready = true ∨ ∃ size, b.reader = .locked size ∨ b.reader = .reading size

structure Faithful (stream : List UInt8) (b : BufferedConn) : Prop where
  bytes : b.returned ++ b.buf ++ b.held ++ b.conn.rest = stream
  after : b.Passed → b.Filled
  drained : ∀ size, b.reader = .reading size → b.buf = []
  fault : b.bgErr = true ∨ (∃ got, b.filling = .store got true) → b.conn.rest = []
  late : b.reported = true → b.returned = stream

namespace Faithful
variable {stream got : List UInt8} {b c : BufferedConn} {n size : Nat} {last : Bool} {l : Label}
lemma held_of_filled (filled : b.Filled) : b.held = [] := by
  unfold held
  rcases filled with stage | stage <;> rw [stage]

lemma read_spec {conn conn' : Conn} (moved : conn.read size n last = some (got, conn')) :
    got ++ conn'.rest = conn.rest ∧ (last = true → conn'.rest = []) := by
  unfold Conn.read at moved
  split_ifs at moved with enabled
  cases moved
  refine ⟨take_append_drop n conn.rest, fun ends => ?_⟩
  rw [enabled.2.2.1 ends]
  exact drop_length

lemma fill (h : Faithful stream b) (moved : b.fill n last = some c) : Faithful stream c := by
  have before := h.bytes
  unfold BufferedConn.fill at moved
  cases stage : b.filling with
  | reading =>
    rw [stage] at moved
    obtain ⟨⟨got, conn⟩, taken, rfl⟩ := map_eq_some_iff.mp moved
    obtain ⟨bytes, ends⟩ := read_spec taken
    refine ⟨?_, fun passed => absurd (h.after passed) (by simp [Filled, stage]), h.drained, ?_,
      h.late⟩
    · simpa only [held, stage, append_nil, append_assoc, bytes] using before
    · rintro (old | ⟨_, same⟩)
      · rw [h.fault (.inl old)] at bytes
        exact (append_eq_nil_iff.mp bytes).2
      · cases same
        exact ends rfl
  | store got err =>
    have early : ¬b.Passed := fun passed => absurd (h.after passed) (by simp [Filled, stage])
    rw [stage] at moved
    cases moved
    refine ⟨?_, fun passed => absurd passed early,
      fun size reading => absurd (.inr (.inr ⟨size, .inr reading⟩)) early, ?_, h.late⟩
    · simpa only [held, stage, append_assoc, nil_append] using before
    · rintro (new | ⟨_, same⟩)
      · cases new
        exact h.fault (.inr ⟨got, stage⟩)
      · cases same
  | setDone | closeReady =>
    rw [stage] at moved
    cases moved
    refine ⟨by simpa only [held, stage] using before, fun _ => by simp [Filled], h.drained, ?_,
      h.late⟩
    rintro (old | ⟨_, same⟩)
    · exact h.fault (.inl old)
    · cases same
  | ended =>
    rw [stage] at moved
    cases moved

lemma after_of_idle (h : Faithful stream b) (filling : c.filling = b.filling)
    (done : c.bgDone = b.bgDone) (ready : c.ready = b.ready) (idle : c.reader = .idle) :
    c.Passed → c.Filled := by
  rintro (passed | passed | ⟨size, passed⟩)
  · rw [Filled, filling]
    exact h.after (.inl (done ▸ passed))
  · rw [Filled, filling]
    exact h.after (.inr (.inl (ready ▸ passed)))
  · rw [idle] at passed
    rcases passed with passed | passed <;> cases passed

lemma read (h : Faithful stream b) (moved : b.read n last = some c) : Faithful stream c := by
  have before := h.bytes
  unfold BufferedConn.read at moved
  cases stage : b.reader with
  | idle =>
    rw [stage] at moved
    cases moved
  | wait size =>
    rw [stage] at moved
    dsimp only at moved
    split_ifs at moved with ready
    cases moved
    exact ⟨before, fun _ => h.after (.inr (.inl ready)), by simp, h.fault, h.late⟩
  | locked size =>
    have filled := h.after (.inr (.inr ⟨size, .inl stage⟩))
    rw [stage] at moved
    cases moved
    split_ifs with any err
    · refine ⟨?_, h.after_of_idle rfl rfl rfl rfl, by simp, h.fault, fun reported => ?_⟩
      · rw [append_assoc b.returned, take_append_drop]
        exact before
      · rw [h.late reported, append_assoc, append_assoc, append_right_eq_self,
          append_eq_nil_iff] at before
        exact absurd before.1 any
    · refine ⟨before, h.after_of_idle rfl rfl rfl rfl, by simp, h.fault, fun _ => ?_⟩
      rwa [not_not.mp any, held_of_filled filled, h.fault (.inl err), append_nil,
        append_nil, append_nil] at before
    · exact ⟨before, fun _ => filled, fun _ _ => not_not.mp any, h.fault, h.late⟩
  | reading size =>
    have filled := h.after (.inr (.inr ⟨size, .inr stage⟩))
    rw [stage] at moved
    obtain ⟨⟨got, conn⟩, taken, rfl⟩ := map_eq_some_iff.mp moved
    obtain ⟨bytes, ends⟩ := read_spec taken
    refine ⟨?_, h.after_of_idle rfl rfl rfl rfl, by simp, fun faulty => ?_, fun reported => ?_⟩
    · change b.returned ++ got ++ b.buf ++ b.held ++ conn.rest = stream
      rw [h.drained size stage, held_of_filled filled, ← bytes] at before
      rw [h.drained size stage, held_of_filled filled]
      simpa only [append_nil, append_assoc] using before
    · rw [h.fault faulty] at bytes
      exact (append_eq_nil_iff.mp bytes).2
    · rw [h.drained size stage, held_of_filled filled, append_nil, append_nil, ← bytes]
        at before
      rcases Bool.or_eq_true_iff.mp reported with old | new
      · rw [h.late old, append_right_eq_self, append_eq_nil_iff] at before
        change b.returned ++ got = stream
        rw [h.late old, before.1, append_nil]
      · rwa [ends new, append_nil] at before

lemma step (h : Faithful stream b) (moved : step b l = some c) : Faithful stream c := by
  cases l with
  | fill n last => exact h.fill moved
  | peekWait timedOut =>
    simp only [BufferedConn.step, peekWait] at moved
    split_ifs at moved
    cases moved
    exact ⟨h.bytes, h.after, h.drained, h.fault, h.late⟩
  | call size =>
    simp only [BufferedConn.step] at moved
    split_ifs at moved with idle done <;> cases moved
    · exact ⟨h.bytes, fun _ => h.after (.inl done), by simp, h.fault, h.late⟩
    · refine ⟨h.bytes, fun passed => h.after ?_, by simp, h.fault, h.late⟩
      simpa [Passed, idle] using passed
  | read n last => exact h.read moved
end Faithful

/-- In every interleaving, what `Read` has returned, what is buffered and what the connection has
still to deliver make up the stream, `fill` and `Read` do not read the connection at the same time,
and no error is reported before the last byte. -/
theorem read_transparent {stream : List UInt8} {labels : List Label} {b : BufferedConn}
    (arrive : run step (newBufferedConn stream) labels = some b) :
    b.returned ++ b.buf ++ b.held ++ b.conn.rest = stream ∧
      (b.filling = .reading → ∀ size, b.reader ≠ .reading size) ∧
      (b.reported = true → b.returned = stream ∧ b.buf = []) := by
  have start : Faithful stream (newBufferedConn stream) := by
    constructor <;> simp [newBufferedConn, held, Passed]
  have faithful := run_invariant Faithful.step start arrive
  refine ⟨faithful.bytes, fun filling size reading => ?_, fun reported => ?_⟩
  · have filled := faithful.after (.inr (.inr ⟨size, .inr reading⟩))
    simp [Filled, filling] at filled
  · have all := faithful.late reported
    have bytes := faithful.bytes
    rw [all, append_assoc, append_assoc, append_right_eq_self, append_eq_nil_iff] at bytes
    exact ⟨all, bytes.1⟩

/-- The timeout of `peekWait` fires before the bytes come; they reach the reader all the same, and
the error after them. -/
theorem read_transparent_late_fill : ∃ b,
    run step (newBufferedConn [1, 2, 3]) [.peekWait true, .call 2, .fill 3 true, .fill 0 false,
      .fill 0 false, .fill 0 false, .read 0 false, .read 0 false, .call 2, .read 0 false, .call 2,
      .read 0 false] = some b ∧ b.peeked = [] ∧ b.reported = true ∧ b.returned = [1, 2, 3] := by
  refine exists_some_of (P := fun b => b.peeked = [] ∧ b.reported = true) (by decide)
    fun b arrive ⟨peeked, reported⟩ => ?_
  exact ⟨peeked, reported, ((read_transparent arrive).2.2 reported).1⟩
end BufferedConn
end Tamizdat.Sniff
