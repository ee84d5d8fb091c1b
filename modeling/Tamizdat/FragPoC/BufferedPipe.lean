/- source: internal/transport/fragpoc/buffered_pipe.go
   digest: The in-memory pipe of a session, and what is read from it before the end is reported. -/

import Tamizdat.Machine.Bytes
import Tamizdat.Machine.Runs

set_option autoImplicit false

open List Option
namespace Tamizdat.FragPoC.BufferedPipe
open Machine.ChunkReader (Reader)
open Machine.Runs
def pipeBufferSlots : Nat := 256

inductive End
  | client | server
deriving DecidableEq

def End.other : End → End
  | .client => .server
  | .server => .client

/-- One direction: the channel with the `readBuf` of its receiver. `written` records the bytes of
the successful `Write` calls before a `Close`, and `late` those of the calls after it. -/
structure Direction where
  reader : Reader UInt8
  written : List UInt8
  late : List UInt8

/-- The pipe. `into` is the direction that an end reads, and `done` says that the shared channel is
closed. -/
structure Pipe where
  into : End → Direction
  done : Bool

namespace Pipe
def newBufferedPipe : Pipe where
  into _ := ⟨Reader.empty, [], []⟩
  done := false

def setInto (p : Pipe) (e : End) (d : Direction) : Pipe :=
  { p with into := Function.update p.into e d }

@[simp] lemma into_setInto_self (p : Pipe) (e : End) (d : Direction) :
    (p.setInto e d).into e = d := by
  simp [setInto]

lemma into_setInto_of_ne {e f} (p : Pipe) (apart : e ≠ f) (d : Direction) :
    (p.setInto f d).into e = p.into e := by
  simp [setInto, apart]

def send (p : Pipe) (d : Direction) (data : List UInt8) : Direction :=
  if p.done then { d with reader := d.reader.push data, late := d.late ++ data }
  else { d with reader := d.reader.push data, written := d.written ++ data }

/-- `Write` without a deadline. `viaDone` says whether its `select` takes the case of `done`. -/
def write (p : Pipe) (e : End) (data : List UInt8) (viaDone : Bool) : Option Pipe :=
  if data = [] then some p
  else if viaDone then
    if p.done then some p else none
  else if (p.into e.other).reader.queue.length < pipeBufferSlots then
    some (p.setInto e.other (p.send (p.into e.other) data))
  else none

/-- `Read` without a deadline, into a buffer of `n` bytes. With an empty `readBuf`, `viaDone` says
whether its `select` takes the case of `done`. -/
def read (p : Pipe) (e : End) (n : Nat) (viaDone : Bool) : Option Pipe :=
  if (p.into e).reader.left = [] ∧ viaDone then
    if p.done then
      some (p.setInto e { p.into e with reader := (p.into e).reader.eof })
    else none
  else
    ((p.into e).reader.read n).map fun reader => p.setInto e { p.into e with reader := reader }
end Pipe

inductive Label
  | write (e : End) (data : List UInt8) (viaDone : Bool)
  | read (e : End) (n : Nat) (viaDone : Bool)
  | close (e : End)

def step (p : Pipe) : Label → Option Pipe
  | .write e data viaDone => p.write e data viaDone
  | .read e n viaDone => p.read e n viaDone
  | .close _ => some { p with done := true }

/-! ### What a step does to one direction -/

inductive Moves (p : Pipe) (e : End) : Label → Direction → Prop
  | same (l : Label) (other : ∀ n viaDone, l ≠ .read e n viaDone) : Moves p e l (p.into e)
  | sent (data : List UInt8) (solid : data ≠ []) :
      Moves p e (.write e.other data false) (p.send (p.into e) data)
  | got (n : Nat) (viaDone : Bool) (reader : Reader UInt8)
      (data : (p.into e).reader.read n = some reader) :
      Moves p e (.read e n viaDone) { p.into e with reader := reader }
  | ended (n : Nat) (done : p.done = true) (noLeft : (p.into e).reader.left = []) :
      Moves p e (.read e n true) { p.into e with reader := (p.into e).reader.eof }

lemma End.other_other (e : End) : e.other.other = e := by
  cases e <;> rfl

variable {p q : Pipe} {l : Label}
lemma step_moves (moved : step p l = some q) (e : End) : Moves p e l (q.into e) := by
  cases l with
  | write f data viaDone =>
    have idle : q = p → Moves p e (.write f data viaDone) (q.into e) := by
      rintro rfl
      exact .same _ (fun n viaDone => by simp)
    simp only [step, Pipe.write] at moved
    split_ifs at moved with empty taken done room
    · exact idle (some.inj moved).symm
    · exact idle (some.inj moved).symm
    · rw [← some.inj moved]
      have off : viaDone = false := by simpa using taken
      subst off
      by_cases mine : e = f.other
      · subst mine
        rw [Pipe.into_setInto_self]
        have sent := Moves.sent (p := p) (e := f.other) data empty
        rwa [End.other_other] at sent
      · rw [Pipe.into_setInto_of_ne p mine]
        exact .same _ (fun n viaDone => by simp)
  | read f n viaDone =>
    simp only [step, Pipe.read] at moved
    by_cases mine : e = f
    · subst mine
      split_ifs at moved with taken done
      · rw [← some.inj moved, Pipe.into_setInto_self, taken.2]
        exact .ended n done taken.1
      · obtain ⟨reader, data, rfl⟩ := map_eq_some_iff.mp moved
        rw [Pipe.into_setInto_self]
        exact .got n viaDone reader data
    · have apart : Moves p e (.read f n viaDone) (p.into e) :=
        .same _ (fun m via equal => mine (Label.read.inj equal).1.symm)
      split_ifs at moved with taken done
      · rw [← some.inj moved, Pipe.into_setInto_of_ne p mine]
        exact apart
      · obtain ⟨reader, data, rfl⟩ := map_eq_some_iff.mp moved
        rw [Pipe.into_setInto_of_ne p mine]
        exact apart
  | close f =>
    rw [← some.inj moved]
    exact .same _ (fun n viaDone => by simp)

/-! ### Whole runs -/

/-- No `Read` of `e` takes the case of `done` while its channel holds a chunk. -/
def DrainsFirst (e : End) (p : Pipe) : Label → Prop
  | .read f _ viaDone =>
    f = e ∧ viaDone = true → (p.into e).reader.left = [] → (p.into e).reader.queue = []
  | _ => True

instance (e : End) (p : Pipe) (l : Label) : Decidable (DrainsFirst e p l) := by
  cases l <;> unfold DrainsFirst <;> infer_instance

structure Carries (p : Pipe) (e : End) : Prop where
  stream : (p.into e).reader.stream = (p.into e).written ++ (p.into e).late
  early : p.done = false → (p.into e).late = []
  solid : ∀ chunk ∈ (p.into e).reader.queue, chunk ≠ []
  ended : ∀ bytes, (p.into e).reader.eofAfter = some bytes →
    p.done = true ∧ ∃ more, bytes = (p.into e).written ++ more ∧ more <+: (p.into e).late

lemma carries_new (e : End) : Carries Pipe.newBufferedPipe e where
  stream := rfl
  early _ := rfl
  solid _ waiting := by cases waiting
  ended _ known := by cases known

lemma stream_send (p : Pipe) (d : Direction) (data : List UInt8)
    (early : p.done = false → d.late = []) (stream : d.reader.stream = d.written ++ d.late) :
    (p.send d data).reader.stream = (p.send d data).written ++ (p.send d data).late := by
  unfold Pipe.send
  split_ifs with done
  · rw [Reader.stream_push, stream, append_assoc]
  · have none_ := early (by simpa using done)
    rw [Reader.stream_push, stream, none_]
    simp

variable {e : End}
lemma carries_send {data} (carries : Carries p e) (solid : data ≠ []) (done : q.done = p.done)
    (into : q.into e = p.send (p.into e) data) : Carries q e where
  stream := by
    rw [into]
    exact stream_send p _ data carries.early carries.stream
  early running := by
    rw [done] at running
    rw [into, Pipe.send, if_neg (by simp [running])]
    exact carries.early running
  solid chunk waiting := by
    have queued : chunk ∈ (p.into e).reader.queue ++ [data] := by
      rw [into, Pipe.send] at waiting
      split_ifs at waiting <;> exact waiting
    exact Machine.Pool.forall_snoc carries.solid solid chunk queued
  ended bytes known := by
    have earlier : (p.into e).reader.eofAfter = some bytes := by
      rw [into, Pipe.send] at known
      split_ifs at known <;> exact known
    obtain ⟨closed, more, all, part⟩ := carries.ended bytes earlier
    refine ⟨done.trans closed, more, ?_, ?_⟩
    · rw [into, Pipe.send, if_pos closed]
      exact all
    · rw [into, Pipe.send, if_pos closed]
      exact part.trans (prefix_append _ _)

lemma done_of_read {f n viaDone} (moved : step p (.read f n viaDone) = some q) :
    q.done = p.done := by
  simp only [step, Pipe.read] at moved
  split_ifs at moved
  · rw [← some.inj moved]
    rfl
  · obtain ⟨reader, data, rfl⟩ := map_eq_some_iff.mp moved
    rfl

lemma done_of_write {f data viaDone} (moved : step p (.write f data viaDone) = some q) :
    q.done = p.done := by
  simp only [step, Pipe.write] at moved
  split_ifs at moved <;> rw [← some.inj moved]
  rfl

lemma done_mono (moved : step p l = some q) (closed : p.done = true) : q.done = true := by
  cases l with
  | write f data viaDone => exact (done_of_write moved).trans closed
  | read f n viaDone => exact (done_of_read moved).trans closed
  | close f => rw [← some.inj moved]

lemma carries_step (carries : Carries p e) (drains : DrainsFirst e p l)
    (moved : step p l = some q) : Carries q e := by
  have moves := step_moves moved e
  generalize into : q.into e = d at moves
  cases moves with
  | same l other =>
    refine ⟨by rw [into]; exact carries.stream, ?_, by rw [into]; exact carries.solid, ?_⟩
    · intro running
      rw [into]
      refine carries.early ?_
      by_contra closed
      rw [done_mono moved (by simpa using closed)] at running
      cases running
    · intro bytes known
      rw [into] at known ⊢
      obtain ⟨closed, rest⟩ := carries.ended bytes known
      exact ⟨done_mono moved closed, rest⟩
  | sent data solid => exact carries_send carries solid (done_of_write moved) into
  | got n viaDone reader data =>
    refine ⟨?_, ?_, ?_, ?_⟩
    · rw [into]
      exact (Reader.stream_read data).trans carries.stream
    · rw [into, done_of_read moved]
      exact carries.early
    · rw [into]
      intro chunk waiting
      exact carries.solid chunk (Reader.queue_read data waiting)
    · rw [into, done_of_read moved]
      intro bytes known
      exact carries.ended bytes ((Reader.eofAfter_read data).symm.trans known)
  | ended n closed noLeft =>
    refine ⟨by rw [into]; exact carries.stream, ?_, by rw [into]; exact carries.solid, ?_⟩
    · rw [into, done_of_read moved]
      exact carries.early
    · rw [into, done_of_read moved]
      intro bytes known
      cases earlier : (p.into e).reader.eofAfter with
      | some bytes' =>
        simp only [Reader.eof, earlier, some_or, some.injEq] at known
        subst known
        exact carries.ended bytes' earlier
      | none =>
        simp only [Reader.eof, earlier, none_or, some.injEq] at known
        -- Nothing waits, so all that was ever sent has been read.
        have all := Reader.got_eq_stream noLeft (drains ⟨rfl, rfl⟩ noLeft)
        exact ⟨closed, _, known.symm.trans (all.trans carries.stream), prefix_refl _⟩

def fills (e : End) : Label → Bool
  | .read f n _ => decide (f = e ∧ 0 < n)
  | _ => false

lemma progress_step (carries : Carries p e) (drains : DrainsFirst e p l)
    (moved : step p l = some q) :
    (p.into e).reader.stream <+: (q.into e).reader.stream ∧
      (p.into e).reader.got.length ≤ (q.into e).reader.got.length ∧
      ((p.into e).reader.stream.length ≤ (q.into e).reader.got.length ∨
        (p.into e).reader.got.length + (if fills e l then 1 else 0) ≤
          (q.into e).reader.got.length) := by
  have moves := step_moves moved e
  generalize q.into e = d at moves
  cases moves with
  | same l other =>
    have idle : fills e l = false := by
      cases l with
      | read f n viaDone =>
        have apart : f ≠ e := fun same => other n viaDone (by rw [same])
        simp [fills, apart]
      | write | close => rfl
    exact ⟨prefix_refl _, le_rfl, .inr (by simp [idle])⟩
  | sent data solid =>
    have reader : (p.send (p.into e) data).reader = (p.into e).reader.push data := by
      unfold Pipe.send
      split_ifs <;> rfl
    rw [reader, Reader.stream_push]
    exact ⟨prefix_append _ _, le_rfl, .inr le_rfl⟩
  | got n viaDone reader data =>
    refine ⟨by rw [Reader.stream_read data], ?_, ?_⟩
    · exact Reader.got_read_le data
    · refine .inr ?_
      by_cases positive : 0 < n
      · simpa [fills, positive] using Reader.got_read_lt positive carries.solid data
      · simpa [fills, positive] using Reader.got_read_le data
  | ended n closed noLeft =>
    have all := Reader.got_eq_stream noLeft (drains ⟨rfl, rfl⟩ noLeft)
    refine ⟨prefix_refl _, le_rfl, .inl ?_⟩
    rw [← all]
    exact le_rfl

lemma progress_run {ls} (carries : Carries p e) (drains : Meets step (DrainsFirst e) p ls)
    (arrive : run step p ls = some q) :
    (p.into e).reader.stream <+: (q.into e).reader.stream ∧
      (p.into e).reader.got.length ≤ (q.into e).reader.got.length ∧
      ((p.into e).reader.stream.length ≤ (q.into e).reader.got.length ∨
        (p.into e).reader.got.length + ls.countP (fills e) ≤ (q.into e).reader.got.length) := by
  induction ls generalizing p with
  | nil =>
    cases arrive
    exact ⟨prefix_refl _, le_rfl, .inr le_rfl⟩
  | cons l ls ih =>
    obtain ⟨m, first, rest⟩ := run_cons_some arrive
    obtain ⟨grown, longer, nearer⟩ := progress_step carries drains.1 first
    obtain ⟨grown', longer', nearer'⟩ :=
      ih (carries_step carries drains.1 first) (drains.2 m first) rest
    have lengths := grown.length_le
    refine ⟨grown.trans grown', longer.trans longer', ?_⟩
    rw [countP_cons]
    omega

lemma read_returns {n} :
    ((p.into e).reader.content ≠ [] → (step p (.read e n false)).isSome = true) ∧
      (p.done = true → (step p (.read e n true)).isSome = true) := by
  have enabled : (p.into e).reader.content ≠ [] → ((p.into e).reader.read n).isSome = true := by
    intro more
    rw [isSome_iff_ne_none]
    intro nothing
    obtain ⟨noLeft, noChunk⟩ := Reader.read_eq_none_iff.mp nothing
    exact more (by simp [Reader.content, noLeft, noChunk])
  refine ⟨fun more => ?_, fun closed => ?_⟩
  · simpa [step, Pipe.read] using enabled more
  · by_cases noLeft : (p.into e).reader.left = []
    · simp [step, Pipe.read, noLeft, closed]
    · have more : (p.into e).reader.content ≠ [] := by simp [Reader.content, noLeft]
      simpa [step, Pipe.read, noLeft] using enabled more

/-- While no `Read` of `e` prefers `done` to a waiting chunk, `e` reads all that was written to it
before a `Close`, in order, before it is told of the end, and it gets there. -/
theorem written_before_eof {ls : List Label} {p : Pipe} {e : End}
    (arrive : run step Pipe.newBufferedPipe ls = some p)
    (drains : Meets step (DrainsFirst e) Pipe.newBufferedPipe ls) :
    (∀ bytes, (p.into e).reader.eofAfter = some bytes → (p.into e).written <+: bytes) ∧
      (p.into e).reader.got <+: (p.into e).written ++ (p.into e).late ∧
      (∀ n, ((p.into e).reader.content ≠ [] → (step p (.read e n false)).isSome = true) ∧
        (p.done = true → (step p (.read e n true)).isSome = true)) ∧
      (∀ more q, Meets step (DrainsFirst e) p more → run step p more = some q →
        (p.into e).reader.content.length ≤ more.countP (fills e) →
          (p.into e).written <+: (q.into e).reader.got) := by
  have carries := invariant_of_meets carries_step (carries_new e) drains arrive
  refine ⟨?_, ?_, fun n => read_returns, ?_⟩
  · intro bytes known
    obtain ⟨-, more, all, -⟩ := carries.ended bytes known
    exact all ▸ prefix_append _ _
  · rw [← carries.stream]
    exact Reader.got_prefix_stream _
  · intro more q drains' arrive' enough
    obtain ⟨grown, -, nearer⟩ := progress_run carries drains' arrive'
    have lengths : (p.into e).reader.stream.length ≤ (q.into e).reader.got.length := by
      have split : (p.into e).reader.stream.length =
          (p.into e).reader.got.length + (p.into e).reader.content.length := length_append
      omega
    have whole : (p.into e).written <+: (p.into e).reader.stream := by
      rw [carries.stream]
      exact prefix_append _ _
    exact whole.trans (prefix_of_prefix_length_le grown (Reader.got_prefix_stream _) lengths)

def writtenThenClosed : List Label :=
  [.write .server [1, 2, 3] false, .write .server [4] false, .close .server,
    .read .client 2 false, .read .client 2 true, .read .client 2 false, .read .client 2 true]

theorem writtenThenClosed_complete : ∃ p, run step Pipe.newBufferedPipe writtenThenClosed = some p ∧
      (p.into .client).reader.eofAfter = some [1, 2, 3, 4] ∧
      (p.into .client).written <+: [1, 2, 3, 4] := by
  refine exists_some_and (by decide +kernel) fun p arrive ended => ?_
  exact (written_before_eof arrive (by decide +kernel)).1 _ ended

/-- The handler returns right after its last write: the `select` of the next `Read` takes the case
of `done`, and the end is reported with the chunk unread. -/
theorem done_overtakes_data :
    (run step Pipe.newBufferedPipe
        [.write .server [7] false, .close .server, .read .client 4 true]).map
      (fun p => ((p.into .client).reader.eofAfter, (p.into .client).written)) =
      some (some [], [7]) := by
  decide +kernel
end Tamizdat.FragPoC.BufferedPipe
