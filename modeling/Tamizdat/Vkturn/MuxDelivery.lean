/- source: internal/transport/vkturn/mux.go
   digest: What the peer has sent on a stream, and what the stream's reader obtains of it. -/

import Tamizdat.Vkturn.Mux

set_option autoImplicit false

open List Option
namespace Tamizdat.Vkturn
open Vkturn.Mux Vkturn.MuxSteps Vkturn.MuxIsolation
open Machine.ChunkReader (Reader)
namespace MuxContent

/-! ### The frames of one stream -/

/-- The payloads of the DATA frames of an id up to its first CLOSE, one after the other. -/
def payloads (id : StreamID) : List Frame → List UInt8
  | [] => []
  | fr :: rest =>
    if fr.streamID = id then
      match fr.typ with
      | .close => []
      | .data => fr.payload ++ payloads id rest
      | _ => payloads id rest
    else payloads id rest

def hasClose (id : StreamID) (frames : List Frame) : Bool :=
  frames.any fun fr => decide (fr.streamID = id ∧ fr.typ = .close)

lemma hasClose_snoc (id : StreamID) (frames : List Frame) (fr : Frame) :
    hasClose id (frames ++ [fr]) =
      (hasClose id frames || decide (fr.streamID = id ∧ fr.typ = .close)) := by
  simp [hasClose]

variable {id : StreamID} {s : Session} {st : MuxStream}
lemma payloads_snoc_of_hasClose {frames} (fr : Frame) (ended : hasClose id frames = true) :
    payloads id (frames ++ [fr]) = payloads id frames := by
  induction frames with
  | nil => cases ended
  | cons head rest ih =>
    by_cases own : head.streamID = id
    · cases kind : head.typ
      case close => simp [payloads, own, kind]
      all_goals
        have later : hasClose id rest = true := by simpa [hasClose, own, kind] using ended
        simp [payloads, own, kind, ih later]
    · have later : hasClose id rest = true := by simpa [hasClose, own] using ended
      simp [payloads, own, ih later]

lemma payloads_snoc_of_not_hasClose {frames} (fr : Frame) (running : hasClose id frames = false) :
    payloads id (frames ++ [fr]) =
      payloads id frames ++ (if fr.streamID = id ∧ fr.typ = .data then fr.payload else []) := by
  induction frames with
  | nil =>
    by_cases own : fr.streamID = id
    · cases kind : fr.typ <;> simp [payloads, own, kind]
    · simp [payloads, own]
  | cons head rest ih =>
    by_cases own : head.streamID = id
    · cases kind : head.typ
      case close => simp [hasClose, own, kind] at running
      all_goals
        have later : hasClose id rest = false := by simpa [hasClose, own, kind] using running
        simp [payloads, own, kind, ih later]
    · have later : hasClose id rest = false := by simpa [hasClose, own] using running
      simp [payloads, own, ih later]

def sent (s : Session) (st : MuxStream) : List UInt8 := payloads st.id (s.handled.drop st.openedAt)
def closeSeen (s : Session) (st : MuxStream) : Bool := hasClose st.id (s.handled.drop st.openedAt)

def pending (x : Nat) : ReadLoop → List UInt8
  | .pushing y payload => if y = x then payload else []
  | _ => []

/-! ### The condition on a run -/

def Closed (s : Session) (x : Nat) : Prop := ∃ st ∈ s.objects[x]?, closeSeen s st = true
deriving Decidable

/-- Neither a local `Close`, nor a failed dial, nor the end of the session comes before the CLOSE
of the stream at `x`. -/
def Undisturbed (x : Nat) (s : Session) : Label → Prop
  | .readError | .sessionClose => Closed s x
  | .close y | .giveUp y => y = x → Closed s x
  | .dialed y => y = x → s.objects[x]?.map MuxStream.openCh = some (some (some false)) → Closed s x
  | _ => True

/-- No `Read` of the stream at `x` takes the case of `closed` while `readCh` holds a chunk. -/
def DrainsFirst (x : Nat) (s : Session) : Label → Prop
  | .read y _ viaClosed =>
    y = x ∧ viaClosed = true → ∀ st ∈ s.objects[x]?, st.reader.left = [] → st.reader.queue = []
  | _ => True

def Orderly (x : Nat) (s : Session) (l : Label) : Prop :=
  FreshId s l ∧ Undisturbed x s l ∧ DrainsFirst x s l

instance (x : Nat) (s : Session) (l : Label) : Decidable (Orderly x s l) := by
  unfold Orderly
  rcases l with ⟨⟩ <;> unfold Undisturbed DrainsFirst <;> infer_instance

/-! ### The invariant of one stream -/

def Live (loop : ReadLoop) (x : Nat) (st : MuxStream) : Prop :=
  st.holder = .opening ∨ st.holder = .dialing ∨ st.holder = .using ∨ loop = .answering x

def Closes (loop : ReadLoop) (x : Nat) : Prop := loop = .closing x ∨ loop = .joining x

/-- What the peer has sent on a stream is what its reader has obtained, what waits for it and what
the read loop is about to push. -/
structure Carries (s : Session) (x : Nat) (st : MuxStream) : Prop where
  recorded : st.openedAt ≤ s.handled.length
  answering : s.readLoop = .answering x → st.holder = .nobody
  before : Live s.readLoop x st → closeSeen s st = false →
    st.closeOnce = .fresh ∧ s.streams.lookup st.id = some x ∧ ¬Closes s.readLoop x ∧
      sent s st = st.reader.stream ++ pending x s.readLoop
  after : Live s.readLoop x st → closeSeen s st = true →
    (Closes s.readLoop x ∨ ¬st.closeOnce.Unremoved) ∧ pushTarget s.readLoop ≠ some x ∧
      sent s st = st.reader.stream
  ended : ∀ bytes, st.reader.eofAfter = some bytes → closeSeen s st = true ∧ bytes = sent s st

section
variable (fr : Frame) (loop : ReadLoop)
variable (recorded : st.openedAt ≤ s.handled.length)
include recorded
lemma since_snoc : (s.handled ++ [fr]).drop st.openedAt = s.handled.drop st.openedAt ++ [fr] :=
  drop_append_of_le_length recorded

lemma recorded_snoc : st.openedAt ≤ (s.handled ++ [fr]).length := by
  rw [length_append]
  omega

lemma closeSeen_frame : closeSeen { s with handled := s.handled ++ [fr], readLoop := loop } st =
      (closeSeen s st || decide (fr.streamID = st.id ∧ fr.typ = .close)) := by
  simp only [closeSeen, since_snoc fr recorded, hasClose_snoc]

lemma sent_frame_of_closeSeen (seen : closeSeen s st = true) :
    sent { s with handled := s.handled ++ [fr], readLoop := loop } st = sent s st := by
  simp only [sent, since_snoc fr recorded]
  exact payloads_snoc_of_hasClose fr seen

lemma sent_frame_of_running (running : closeSeen s st = false) :
    sent { s with handled := s.handled ++ [fr], readLoop := loop } st =
      sent s st ++ (if fr.streamID = st.id ∧ fr.typ = .data then fr.payload else []) := by
  simp only [sent, since_snoc fr recorded]
  exact payloads_snoc_of_not_hasClose fr running
end
variable {x : Nat}
variable {loop : ReadLoop}
lemma Live.other (alive : Live loop x st) (away : loop ≠ .answering x) (loop' : ReadLoop) :
    Live loop' x st := by
  rcases alive with opening | dialing | holds | answers
  · exact .inl opening
  · exact .inr (.inl dialing)
  · exact .inr (.inr (.inl holds))
  · exact absurd answers away

lemma carries_new {t} (fresh : st.closeOnce = .fresh) (reader : st.reader = Reader.empty)
    (opened : st.openedAt = t.handled.length) (entry : t.streams.lookup st.id = some x)
    (answering : t.readLoop = .answering x →
      st.holder = .nobody) (idle : ¬Closes t.readLoop x) (nothing : pending x t.readLoop = []) :
    Carries t x st := by
  have since : t.handled.drop st.openedAt = [] := by rw [opened, drop_length]
  refine ⟨opened.le, answering, ?_, ?_, ?_⟩
  · intro _ _
    refine ⟨fresh, entry, idle, ?_⟩
    rw [sent, since, reader, nothing]
    rfl
  · intro _ past
    rw [closeSeen, since] at past
    cases past
  · intro bytes known
    rw [reader] at known
    cases known

section
variable (carries : Carries s x st)
include carries
lemma Carries.transport {t : Session}
    (closing : Closes t.readLoop x ↔ Closes s.readLoop x := by rfl)
    (pushing : pending x t.readLoop = pending x s.readLoop := by rfl)
    (entry : Live s.readLoop x st → closeSeen s st = false → s.streams.lookup st.id = some x →
      t.streams.lookup st.id = some x := by exact fun _ _ => id)
    (handled : t.handled = s.handled := by rfl)
    (answering : t.readLoop = .answering x → s.readLoop = .answering x := by first | exact id | simp)
    (target : pushTarget t.readLoop = some x → pushTarget s.readLoop = some x := by
      first | exact id | simp [pushTarget]) : Carries t x st := by
  have seen : closeSeen t st = closeSeen s st := by rw [closeSeen, closeSeen, handled]
  have same : sent t st = sent s st := by rw [sent, sent, handled]
  have live : Live t.readLoop x st → Live s.readLoop x st := by
    rintro (opening | dialing | holds | answers)
    · exact .inl opening
    · exact .inr (.inl dialing)
    · exact .inr (.inr (.inl holds))
    · exact .inr (.inr (.inr (answering answers)))
  refine ⟨handled ▸ carries.recorded, fun at_ => carries.answering (answering at_), ?_, ?_, ?_⟩
  · intro alive running
    rw [seen] at running
    obtain ⟨fresh, found, apart, content⟩ := carries.before (live alive) running
    exact ⟨fresh, entry (live alive) running found, fun closes => apart (closing.mp closes),
      by rw [same, content, pushing]⟩
  · intro alive past
    rw [seen] at past
    obtain ⟨gone, away, content⟩ := carries.after (live alive) past
    exact ⟨gone.imp_left closing.mpr, fun at_ => away (target at_), by rw [same, content]⟩
  · intro bytes known
    rw [seen, same]
    exact carries.ended bytes known

lemma Carries.other_frame (fr : Frame)
    (foreign : Live s.readLoop x st → closeSeen s st = false → fr.streamID = st.id →
      fr.typ ≠ .data ∧ fr.typ ≠ .close) :
    Carries { s with handled := s.handled ++ [fr] } x st := by
  have recorded := carries.recorded
  have seenEq := closeSeen_frame fr s.readLoop recorded
  refine ⟨recorded_snoc fr recorded, carries.answering, ?_, ?_, ?_⟩
  · intro alive running
    rw [seenEq, Bool.or_eq_false_iff] at running
    obtain ⟨fresh, found, apart, content⟩ := carries.before alive running.1
    refine ⟨fresh, found, apart, ?_⟩
    have noData : ¬(fr.streamID = st.id ∧ fr.typ = .data) :=
      fun data => (foreign alive running.1 data.1).1 data.2
    rw [sent_frame_of_running fr s.readLoop recorded running.1, if_neg noData, append_nil]
    exact content
  · intro alive past
    rw [seenEq, Bool.or_eq_true] at past
    have seen : closeSeen s st = true := by
      by_contra running
      rw [Bool.not_eq_true] at running
      have close := past.resolve_left (by simp [running])
      rw [decide_eq_true_eq] at close
      exact (foreign alive running close.1).2 close.2
    obtain ⟨gone, away, content⟩ := carries.after alive seen
    exact ⟨gone, away, (sent_frame_of_closeSeen fr s.readLoop recorded seen).trans content⟩
  · intro bytes known
    obtain ⟨seen, all⟩ := carries.ended bytes known
    exact ⟨by rw [seenEq, seen, Bool.true_or],
      all.trans (sent_frame_of_closeSeen fr s.readLoop recorded seen).symm⟩

variable {y : Nat} {fr : Frame}
lemma Carries.foreign_frame (found : s.streams.lookup fr.streamID = some y) (other : y ≠ x) :
    Carries { s with handled := s.handled ++ [fr] } x st := by
  refine carries.other_frame fr (fun alive running sameId => ?_)
  obtain ⟨-, entry, -⟩ := carries.before alive running
  rw [sameId, entry] at found
  exact absurd (some.inj found).symm other

lemma Carries.data_frame (registered : Registered s) (here : s.objects[x]? = some st)
    (idle : s.readLoop = .idle) (typ : fr.typ = .data)
    (found : s.streams.lookup fr.streamID = some y) :
    Carries { s with handled := s.handled ++ [fr], readLoop := .pushing y fr.payload } x st := by
  have recorded := carries.recorded
  by_cases same : y = x
  · subst same
    obtain ⟨owner, there, own, unremoved⟩ := registered fr.streamID y found
    cases here.symm.trans there
    have seenEq : closeSeen
        { s with handled := s.handled ++ [fr], readLoop := .pushing y fr.payload } st =
          closeSeen s st := by
      rw [closeSeen_frame fr _ recorded]
      simp [typ]
    refine ⟨recorded_snoc fr recorded, by simp, ?_, ?_, ?_⟩
    · intro alive running
      rw [seenEq] at running
      obtain ⟨fresh, entry, -, content⟩ := carries.before (alive.other (by simp) s.readLoop) running
      refine ⟨fresh, entry, by simp [Closes], ?_⟩
      rw [sent_frame_of_running fr _ recorded running, content, idle]
      simp [pending, own, typ]
    · intro alive past
      rw [seenEq] at past
      -- The read loop has left `remoteClose`, so the stream cannot be in the map any more.
      obtain ⟨gone, -, -⟩ := carries.after (alive.other (by simp) s.readLoop) past
      rw [idle] at gone
      rcases gone with (at_ | at_) | removed
      · cases at_
      · cases at_
      · exact absurd unremoved removed
    · intro bytes known
      obtain ⟨seen, all⟩ := carries.ended bytes known
      exact ⟨seenEq.trans seen, all.trans (sent_frame_of_closeSeen fr _ recorded seen).symm⟩
  · exact (carries.foreign_frame found same).transport (by simp [Closes, idle])
      (by simp [pending, idle, same]) (fun _ _ => id) rfl (by simp) (by simp [pushTarget, same])

lemma Carries.close_frame (registered : Registered s) (here : s.objects[x]? = some st)
    (idle : s.readLoop = .idle) (typ : fr.typ = .close)
    (found : s.streams.lookup fr.streamID = some y) :
    Carries { s with handled := s.handled ++ [fr], readLoop := .closing y } x st := by
  have recorded := carries.recorded
  by_cases same : y = x
  · subst same
    obtain ⟨owner, there, own, unremoved⟩ := registered fr.streamID y found
    cases here.symm.trans there
    have seen : closeSeen
        { s with handled := s.handled ++ [fr], readLoop := .closing y } st = true := by
      rw [closeSeen_frame fr _ recorded]
      simp [own, typ]
    refine ⟨recorded_snoc fr recorded, by simp, ?_, ?_, ?_⟩
    · intro _ running
      rw [seen] at running
      cases running
    · intro alive _
      refine ⟨.inl (.inl rfl), by simp [pushTarget], ?_⟩
      have live := alive.other (by simp) s.readLoop
      cases known : closeSeen s st with
      | false =>
        obtain ⟨-, -, -, content⟩ := carries.before live known
        rw [sent_frame_of_running fr _ recorded known, content, idle]
        simp [pending, typ]
      | true =>
        obtain ⟨-, -, content⟩ := carries.after live known
        exact (sent_frame_of_closeSeen fr _ recorded known).trans content
    · intro bytes known
      obtain ⟨earlier, all⟩ := carries.ended bytes known
      exact ⟨seen, all.trans (sent_frame_of_closeSeen fr _ recorded earlier).symm⟩
  · exact (carries.foreign_frame found same).transport (by simp [Closes, idle, same])
      (by simp [pending, idle])

lemma Carries.update (st' : MuxStream) (stays : Stays st st')
    (stream : st'.reader.stream = st.reader.stream)
    (eofAfter : st'.reader.eofAfter = st.reader.eofAfter)
    (live : Live s.readLoop x st' → Live s.readLoop x st)
    (answering : s.readLoop = .answering x → st'.holder = .nobody)
    (fresh : Live s.readLoop x st' → closeSeen s st = false → st.closeOnce = .fresh →
      st'.closeOnce = .fresh) :
    Carries (s.setStream x st') x st' := by
  have seen : closeSeen (s.setStream x st') st' = closeSeen s st := by
    rw [closeSeen, closeSeen, stays.id, stays.openedAt]
    rfl
  have same : sent (s.setStream x st') st' = sent s st := by
    rw [sent, sent, stays.id, stays.openedAt]
    rfl
  refine ⟨stays.openedAt ▸ carries.recorded, answering, ?_, ?_, ?_⟩
  · intro alive running
    rw [seen] at running
    obtain ⟨unclosed, entry, apart, content⟩ := carries.before (live alive) running
    refine ⟨fresh alive running unclosed, stays.id ▸ entry, apart, ?_⟩
    rw [same, content, stream]
    rfl
  · intro alive past
    rw [seen] at past
    obtain ⟨gone, away, content⟩ := carries.after (live alive) past
    refine ⟨gone.imp_right fun removed unremoved => removed (stays.unremoved.mp unremoved), away,
      ?_⟩
    rw [same, content, stream]
  · intro bytes known
    rw [eofAfter] at known
    rw [seen, same]
    exact carries.ended bytes known

lemma Carries.eof (holds : st.holder = .using) (closed : st.isClosed = true)
    (noLeft : st.reader.left = []) (noChunk : st.reader.queue = []) :
    Carries (s.setStream x { st with reader := st.reader.eof }) x
      { st with reader := st.reader.eof } := by
  have alive : Live s.readLoop x st := .inr (.inr (.inl holds))
  refine { carries with ended := ?_ }
  intro bytes known
  cases earlier : st.reader.eofAfter with
  | some bytes' =>
    simp only [Reader.eof, earlier, some_or, some.injEq] at known
    subst known
    exact carries.ended bytes' earlier
  | none =>
    simp only [Reader.eof, earlier, none_or, some.injEq] at known
    -- The channel `closed` is closed, so the CLOSE was handled and nothing is left to push.
    have seen : closeSeen s st = true := by
      by_contra running
      rw [Bool.not_eq_true] at running
      obtain ⟨fresh, -⟩ := carries.before alive running
      simp [MuxStream.isClosed, fresh] at closed
    obtain ⟨-, -, content⟩ := carries.after alive seen
    exact ⟨seen, known.symm.trans ((Reader.got_eq_stream noLeft noChunk).trans content.symm)⟩

lemma Carries.alone {l st'} (here : s.objects[x]? = some st) (calm : Undisturbed x s l)
    (drains : DrainsFirst x s l) (moves : Alone x st l st') :
    Carries (s.setStream x st') x st' := by
  have stays := moves.stays
  have closedSeen : Closed s x → closeSeen s st = false → False := by
    rintro ⟨other, there, seen⟩ running
    cases here.symm.trans there
    rw [running] at seen
    cases seen
  have unanswered (busy : st.holder ≠ .nobody) : s.readLoop ≠ .answering x :=
    fun at_ => busy (carries.answering at_)
  cases moves with
  | wroteOpen ok opening =>
    have away := unanswered (by simp [opening])
    exact carries.update _ stays rfl rfl (fun _ => .inl opening) (fun at_ => absurd at_ away)
      (fun _ _ => id)
  | accepted dialing answer =>
    have away := unanswered (by simp [dialing])
    exact carries.update _ stays rfl rfl (fun _ => .inr (.inl dialing))
      (fun at_ => absurd at_ away) (fun _ _ => id)
  | refused dialing answer =>
    have seen := closedSeen (calm rfl (by rw [here, map_some, answer]))
    exact carries.update _ stays rfl rfl (fun _ => .inr (.inl dialing)) (fun _ => rfl)
      (fun _ running => (seen running).elim)
  | gaveUp dialing =>
    exact carries.update _ stays rfl rfl (fun _ => .inr (.inl dialing)) (fun _ => rfl)
      (fun _ running => (closedSeen (calm rfl) running).elim)
  | closeCalled holds fresh =>
    exact carries.update _ stays rfl rfl id carries.answering
      (fun _ running => (closedSeen (calm rfl) running).elim)
  | closeAgain holds begun =>
    exact carries.update _ stays rfl rfl id carries.answering (fun _ _ => id)
  | wroteClose begun | closedClosed begun | closedCtxDone begun | closedReadCh begun =>
    refine carries.update _ stays rfl rfl id carries.answering ?_
    intro _ _ fresh
    rw [begun] at fresh
    cases fresh
  | readData n viaClosed reader holds data =>
    exact carries.update _ stays (Reader.stream_read data) (Reader.eofAfter_read data) id
      carries.answering (fun _ _ => id)
  | readEOF n viaClosed holds noLeft closed drained =>
    refine carries.eof holds closed noLeft ?_
    cases viaClosed with
    | false => exact drained rfl
    | true => exact drains ⟨rfl, rfl⟩ st here noLeft
end

lemma away (hand : inHand loop ≠ some x) :
    loop ≠ .answering x ∧ ¬Closes loop x ∧ pending x loop = [] ∧ pushTarget loop ≠ some x := by
  cases loop <;> simp_all [Closes, pending, pushTarget, inHand]

variable (carries : Carries s x st)
include carries
lemma Carries.elsewhere {t} (old : inHand s.readLoop ≠ some x) (new : inHand t.readLoop ≠ some x)
    (entry : Live s.readLoop x st → closeSeen s st = false → s.streams.lookup st.id = some x →
      t.streams.lookup st.id = some x := by exact fun _ _ => id)
    (handled : t.handled = s.handled := by rfl) : Carries t x st := by
  obtain ⟨-, apart, nothing, -⟩ := away old
  obtain ⟨unanswered, apart', nothing', untargeted⟩ := away new
  exact carries.transport (iff_of_false apart' apart) (nothing'.trans nothing.symm) entry handled
    (fun at_ => absurd at_ unanswered) (fun at_ => absurd at_ untargeted)

variable {st' : MuxStream}
lemma Carries.entered (entered : Entered st st')
    (seen : Live s.readLoop x st' → closeSeen s st = true) :
    Carries (s.setStream x st') x st' := by
  have stays := entered.stays
  have unseen : Live s.readLoop x st' → closeSeen s st = false → False := by
    intro alive running
    rw [seen alive] at running
    cases running
  cases entered with
  | first fresh =>
    exact carries.update _ stays rfl rfl id carries.answering
      (fun alive running => (unseen alive running).elim)
  | later begun => exact carries.update _ stays rfl rfl id carries.answering (fun _ _ => id)

lemma Carries.pushed {payload} (at_ : s.readLoop = .pushing x payload) :
    Carries { s.setStream x { st with reader := st.reader.push payload } with readLoop := .idle } x
      { st with reader := st.reader.push payload } := by
  refine ⟨carries.recorded, by simp, ?_, ?_, carries.ended⟩
  · intro alive running
    obtain ⟨fresh, entry, -, content⟩ :=
      carries.before (Live.other alive (by simp) s.readLoop) running
    refine ⟨fresh, entry, by simp [Closes], ?_⟩
    rw [at_] at content
    simp only [pending, if_true] at content
    rw [Reader.stream_push]
    exact content.trans (append_nil _).symm
  · intro alive past
    obtain ⟨-, untargeted, -⟩ := carries.after (Live.other alive (by simp) s.readLoop) past
    rw [at_] at untargeted
    exact absurd rfl untargeted

lemma Carries.spawned (at_ : s.readLoop = .answering x) :
    Carries { s.setStream x { st with holder := .using } with readLoop := .idle } x
      { st with holder := .using } := by
  have alive : Live s.readLoop x st := .inr (.inr (.inr at_))
  refine ⟨carries.recorded, by simp, ?_, ?_, carries.ended⟩
  · intro _ running
    obtain ⟨fresh, entry, -, content⟩ := carries.before alive running
    rw [at_] at content
    exact ⟨fresh, entry, by simp [Closes], content⟩
  · intro _ past
    obtain ⟨gone, -, content⟩ := carries.after alive past
    rw [at_] at gone
    exact ⟨.inr (gone.resolve_left (by simp [Closes])), by simp [pushTarget], content⟩

lemma Carries.notified {ok} (at_ : s.readLoop = .notifying x ok) :
    Carries { s.setStream x { st with openCh := some (some ok) } with readLoop := .idle } x
      { st with openCh := some (some ok) } := by
  have changed := carries.update { st with openCh := some (some ok) } ⟨rfl, rfl, Iff.rfl, id⟩ rfl
    rfl id carries.answering (fun _ _ => id)
  exact changed.transport (by simp [Closes, Session.setStream, at_])
    (by simp [pending, Session.setStream, at_])

lemma Carries.closing (at_ : s.readLoop = .closing x) (entered : Entered st st') :
    Carries { s.setStream x st' with readLoop := .joining x } x st' := by
  have seen : Live s.readLoop x st' → closeSeen s st = true := by
    intro alive
    by_contra running
    rw [Bool.not_eq_true] at running
    have live : Live s.readLoop x st := by
      cases entered <;> exact alive
    obtain ⟨-, -, apart, -⟩ := carries.before live running
    exact apart (.inl at_)
  have changed := carries.entered entered seen
  exact changed.transport (by simp [Closes, Session.setStream, at_])
    (by simp [pending, Session.setStream, at_])

lemma Carries.served {next : ReadLoop} (at_ : s.readLoop = loop) (hand : inHand loop = some x)
    (serves : Served st loop st' next) :
    Carries { s.setStream x st' with readLoop := next } x st' := by
  cases serves with
  | pushed =>
    cases hand
    exact carries.pushed at_
  | spawned =>
    cases hand
    exact carries.spawned at_
  | notified =>
    cases hand
    exact carries.notified at_
  | closing y st' entered =>
    cases hand
    exact carries.closing at_ entered

lemma Carries.removed {l} (moves : Removal x st l st') :
    Carries ((s.removeStream st.id).setStream x st') x st' := by
  cases moves with
  | byClose here =>
    refine { carries with before := ?_, after := ?_ }
    · intro alive running
      obtain ⟨fresh, -⟩ := carries.before alive running
      rw [here] at fresh
      cases fresh
    · intro alive past
      obtain ⟨-, untargeted, content⟩ := carries.after alive past
      exact ⟨.inr (by simp [CloseOnce.Unremoved]), untargeted, content⟩
  | byDial here =>
    have dead : ¬Live s.readLoop x { st with holder := .nobody } := by
      rintro (opening | dialing | holds | at_)
      · cases opening
      · cases dialing
      · cases holds
      · simpa [here] using carries.answering at_
    exact ⟨carries.recorded, fun _ => rfl, fun alive => absurd alive dead,
      fun alive => absurd alive dead, carries.ended⟩

lemma Carries.passes {next : ReadLoop} (here : s.objects[x]? = some st) (pass : Passes s next) :
    Carries { s with readLoop := next } x st := by
  by_cases hand : inHand s.readLoop = some x
  · cases pass with
    | dropped y payload st' at_ there closed =>
      rw [at_] at hand
      cases hand
      cases here.symm.trans there
      have dead : ¬Live .idle x st := by
        intro alive
        have live := alive.other (by simp) s.readLoop
        cases seen : closeSeen s st with
        | false =>
          obtain ⟨fresh, -⟩ := carries.before live seen
          simp [MuxStream.isClosed, fresh] at closed
        | true =>
          obtain ⟨-, untargeted, -⟩ := carries.after live seen
          rw [at_] at untargeted
          exact untargeted rfl
      exact ⟨carries.recorded, by simp, fun alive => absurd alive dead,
        fun alive => absurd alive dead, carries.ended⟩
    | unanswered y at_ =>
      rw [at_] at hand
      cases hand
      have dead : ¬Live (.closing x) x st := by simp [Live, carries.answering at_]
      exact ⟨carries.recorded, by simp, fun alive => absurd alive dead,
        fun alive => absurd alive dead, carries.ended⟩
    | joined y st' at_ there finished =>
      rw [at_] at hand
      cases hand
      cases here.symm.trans there
      refine ⟨carries.recorded, by simp, ?_, ?_, carries.ended⟩
      · intro alive running
        obtain ⟨fresh, -⟩ := carries.before (alive.other (by simp) s.readLoop) running
        rw [finished] at fresh
        cases fresh
      · intro alive past
        obtain ⟨-, -, content⟩ := carries.after (alive.other (by simp) s.readLoop) past
        exact ⟨.inr (by simp [finished, CloseOnce.Unremoved]), by simp [pushTarget], content⟩
    | stopped at_ =>
      rw [at_] at hand
      cases hand
  · exact carries.elsewhere hand (fun new => hand (inHand_passes pass new))
end MuxContent
namespace MuxDelivery
open Machine.Maps
open Machine.Pool (exists_set getElem?_snoc set_cases)
open Machine.Runs Vkturn.MuxContent
def Running (s : Session) : Prop :=
  s.closeOnce = .fresh ∧ s.readLoop ≠ .stopping ∧ s.readLoop ≠ .joiningSession

structure Inv (x : Nat) (s : Session) : Prop where
  registered : Registered s
  distinct : Distinct s
  inRange : ∀ y, inHand s.readLoop = some y → y < s.objects.length
  running : ¬Closed s x → Running s
  carries : ∀ st, s.objects[x]? = some st → Carries s x st

variable {s t : Session} {l : Label}
lemma handled_action (action : Action s l t) : s.handled <+: t.handled := by
  cases action with
  | ignored | opened | answer | data | close => exact prefix_append _ _
  | stops | closeSession => simp
  | _ => exact prefix_refl _

variable {x : Nat}
lemma closed_action (closed : Closed s x) (action : Action s l t) : Closed t x := by
  obtain ⟨st, here, seen⟩ := closed
  rw [mem_def] at here
  have kept : ∃ st', t.objects[x]? = some st' ∧ st'.id = st.id ∧ st'.openedAt = st.openedAt := by
    cases action.effect with
    | none objects streams | cleared objects streams => exact ⟨st, by rw [objects, here], rfl, rfl⟩
    | one y old new there stays objects streams =>
      rw [objects]
      exact exists_set here there (fun _ same => same ▸ ⟨stays.id, stays.openedAt⟩)
        (fun _ => ⟨rfl, rfl⟩)
    | removed y old new there may id openedAt objects streams =>
      rw [objects]
      exact exists_set here there (fun _ same => same ▸ ⟨id, openedAt⟩) (fun _ => ⟨rfl, rfl⟩)
    | added new fresh unused objects streams =>
      have inside := Machine.lt_of_getElem? here
      exact ⟨st, by rw [objects, getElem?_snoc, if_neg (by omega), here], rfl, rfl⟩
  obtain ⟨st', here', id, openedAt⟩ := kept
  obtain ⟨more, grown⟩ := handled_action action
  refine ⟨st', here', ?_⟩
  rw [closeSeen, id, openedAt, ← grown, drop_append, hasClose, any_append]
  exact Bool.or_eq_true_iff.mpr (.inl seen)

variable {st st' : MuxStream}
lemma served_next {loop next : ReadLoop} (serves : Served st loop st' next) :
    next = .idle ∨ next = .joining ((inHand loop).getD 0) := by
  cases serves with
  | pushed | spawned | notified => exact .inl rfl
  | closing x st' entered => exact .inr rfl

lemma running_action (running : ¬Closed s x → Running s) (calm : Undisturbed x s l)
    (action : Action s l t) (unclosed : ¬Closed t x) : Running t := by
  have before : ¬Closed s x := fun closed => unclosed (closed_action closed action)
  obtain ⟨fresh, away, apart⟩ := running before
  cases action with
  | failed | closeSession => exact absurd calm before
  | stops choice at_ => exact absurd at_ away
  | marks pick at_ | visits pick todo st st' at_ | visited pick x todo at_ | closes pick at_ =>
    rw [fresh] at at_; cases at_
  | passes choice next pass => refine ⟨fresh, ?_, ?_⟩ <;> cases pass <;> simp
  | served choice y st st' next here hand serves =>
    rcases served_next serves with rfl | rfl <;> exact ⟨fresh, by simp, by simp⟩
  | opened | answer | data | close => exact ⟨fresh, by simp, by simp⟩
  | ignored | panics | registers | alone | removes => exact ⟨fresh, away, apart⟩

open Session (newMuxSession register)
lemma inRange_action (registered : Registered s)
    (inRange : ∀ y, inHand s.readLoop = some y → y < s.objects.length) (action : Action s l t)
    (y : Nat) (hand : inHand t.readLoop = some y) : y < t.objects.length := by
  cases action with
  | ignored | panics | marks | visited | closes => exact inRange y hand
  | failed | stops => cases hand
  | closeSession => simpa using inRange y (by simpa using hand)
  | opened =>
    rw [← some.inj hand]
    simp [register]
  | answer fr x ok idle typ found | data fr x idle typ found | close fr x idle typ found =>
    rw [← some.inj hand]
    obtain ⟨st, here, -⟩ := registered _ x found
    exact Machine.lt_of_getElem? here
  | served choice x st st' next here hand' serves =>
    simpa [Session.setStream] using inRange y (inHand_served serves hand)
  | passes choice next pass => exact inRange y (inHand_passes pass hand)
  | registers =>
    have inside := inRange y hand
    simp only [register, length_append, length_cons, length_nil]
    omega
  | alone | removes | visits => simpa [Session.setStream, Session.removeStream] using inRange y hand

lemma carries_action (inv : Inv x s) (orderly : Orderly x s l) (action : Action s l t)
    (st' : MuxStream) (here' : t.objects[x]? = some st') : Carries t x st' := by
  obtain ⟨free, calm, drains⟩ := orderly
  -- A stream that is not closed yet keeps its id from being registered again.
  have unshared : ∀ st, s.objects[x]? = some st → st.closeOnce = .fresh → st.MayRemove :=
    fun st _ fresh => .inl (by simp [fresh, CloseOnce.Unremoved])
  have running (st) (here : s.objects[x]? = some st) (unseen : closeSeen s st = false) :
      s.closeOnce = .fresh := by
    refine (inv.running ?_).1
    rintro ⟨other, there, seen⟩
    rw [some.inj (here.symm.trans there), seen] at unseen
    cases unseen
  cases action with
  | ignored fr idle unknown =>
    have carries := inv.carries st' here'
    refine carries.other_frame fr (fun alive unseen same => ?_)
    obtain ⟨-, entry, -⟩ := carries.before alive unseen
    refine ⟨fun typ => ?_, fun typ => ?_⟩
    · rw [same, entry] at unknown
      cases unknown (.inl typ)
    · rw [same, entry] at unknown
      cases unknown (.inr typ)
  | opened fr idle typ server named running =>
    rw [register, getElem?_snoc] at here'
    split_ifs at here' with new
    · rw [some.injEq] at here'
      subst new here'
      exact carries_new rfl rfl rfl (by simp [register]) (fun _ => rfl) (by simp [Closes]) rfl
    · have carries := inv.carries st' here'
      have framed := carries.other_frame fr (by simp [typ])
      refine framed.elsewhere (by simp [idle, inHand]) (fun hand => new (some.inj hand).symm) ?_
      intro alive unseen entry
      have old : closeSeen s st' = false := by
        rw [closeSeen_frame fr s.readLoop carries.recorded, Bool.or_eq_false_iff] at unseen
        exact unseen.1
      obtain ⟨fresh, -⟩ := carries.before alive old
      have apart : st'.id ≠ fr.streamID := fun same =>
        free ⟨typ, server, named, running⟩ st' (mem_of_getElem? here') same
          (unshared st' here' fresh)
      rw [register, lookup_insert, if_neg apart]
      exact entry
  | answer fr y ok idle typ found =>
    have carries := inv.carries st' here'
    have framed := carries.other_frame fr (by rcases typ with typ | typ <;> simp [typ])
    exact framed.transport (by simp [Closes, idle]) (by simp [pending, idle])
  | data fr y idle typ found =>
    exact (inv.carries st' here').data_frame inv.registered here' idle typ found
  | close fr y idle typ found =>
    exact (inv.carries st' here').close_frame inv.registered here' idle typ found
  | failed idle =>
    exact (inv.carries st' here').elsewhere (by simp [idle, inHand]) (by simp [inHand])
  | served choice y st st'' next here hand serves =>
    obtain ⟨rfl, rfl⟩ | ⟨same, here'⟩ := set_cases here here'
    · exact (inv.carries st here).served rfl hand serves
    · have other : inHand s.readLoop ≠ some x := by
        rw [hand]
        exact fun equal => same (some.inj equal).symm
      exact (inv.carries st' here').elsewhere other (fun new => other (inHand_served serves new))
  | panics | visited | closes =>
    exact (inv.carries st' here').transport
  | passes choice next pass => exact (inv.carries st' here').passes here' pass
  | stops choice at_ =>
    rw [objects_enterCloseWithError] at here'
    exact (inv.carries st' here').elsewhere (by simp [at_, inHand])
      (by simp [inHand]) (by simp) (by simp)
  | registers client running =>
    rw [register, getElem?_snoc] at here'
    split_ifs at here' with new
    · rw [some.injEq] at here'
      subst new here'
      have unheld : inHand s.readLoop ≠ some s.objects.length :=
        fun hand => lt_irrefl _ (inv.inRange _ hand)
      obtain ⟨unanswered, apart, nothing, -⟩ := away unheld
      exact carries_new rfl rfl rfl (by simp [register])
        (fun at_ => absurd at_ unanswered) apart nothing
    · have carries := inv.carries st' here'
      refine carries.transport Iff.rfl rfl ?_
      intro alive unseen entry
      obtain ⟨fresh, -⟩ := carries.before alive unseen
      have apart : st'.id ≠ s.nextID := fun same =>
        free st' (mem_of_getElem? here') same (unshared st' here' fresh)
      rw [register, lookup_insert, if_neg apart]
      exact entry
  | alone l y st st'' here moves =>
    obtain ⟨rfl, rfl⟩ | ⟨-, here'⟩ := set_cases here here'
    · exact (inv.carries st here).alone here calm drains moves
    · exact (inv.carries st' here').transport
  | removes l y st st'' here moves =>
    have spared := spares_of_removed inv.registered inv.distinct here moves.mayRemove
      (t := (s.removeStream st.id).setStream y st'') rfl rfl
    obtain ⟨rfl, rfl⟩ | ⟨same, here'⟩ := set_cases here here'
    · exact (inv.carries st here).removed moves
    · exact (inv.carries st' here').transport Iff.rfl rfl
        (fun _ _ entry => (spared.entries st'.id x same).mpr entry)
  | closeSession =>
    rw [objects_enterCloseWithError] at here'
    exact (inv.carries st' here').transport (by simp) (by simp) (by simp) (by simp) (by simp)
      (by simp)
  | marks pick at_ =>
    refine (inv.carries st' here').transport Iff.rfl rfl ?_
    intro alive unseen entry
    rw [running st' here' unseen] at at_
    cases at_
  | visits pick todo st st'' at_ member here entered =>
    obtain ⟨rfl, rfl⟩ | ⟨same, here'⟩ := set_cases here here'
    · refine ((inv.carries st here).entered entered ?_).transport
      intro _
      by_contra unseen
      rw [running st here (by simpa using unseen)] at at_
      cases at_
    · exact (inv.carries st' here').transport

lemma inv_start (x : Nat) (isServer : Bool) : Inv x (newMuxSession isServer) where
  registered := registered_start isServer
  distinct _ _ _ _ _ here := by cases here
  inRange _ hand := by cases hand
  running _ := ⟨rfl, by simp [newMuxSession], by simp [newMuxSession]⟩
  carries _ here := by cases here

lemma inv_step (inv : Inv x s) (orderly : Orderly x s l) (moved : step s l = some t) : Inv x t where
  registered := registered_step inv.registered (step_action moved).2
  distinct := distinct_step inv.distinct orderly.1 (step_action moved).2
  inRange := inRange_action inv.registered inv.inRange (step_action moved).2
  running := running_action inv.running orderly.2.1 (step_action moved).2
  carries := carries_action inv orderly (step_action moved).2

def fills (x : Nat) : Label → Bool
  | .read y n _ => decide (y = x ∧ 0 < n)
  | _ => false

structure Nears (x : Nat) (l : Label) (st st' : MuxStream) : Prop where
  finished : st'.closeOnce = .finished
  told : st.reader.eofAfter ≠ none → st'.reader.eofAfter ≠ none
  closer : st'.reader.eofAfter ≠ none ∨
    st'.reader.backlog + (if fills x l then 1 else 0) ≤ st.reader.backlog

lemma Nears.same (finished : st'.closeOnce = .finished)
    (reader : st'.reader = st.reader) (other : fills x l = false) : Nears x l st st' where
  finished := finished
  told := by rw [reader]; exact id
  closer := .inr (by rw [reader, other]; simp)

lemma nears_alone (finished : st.closeOnce = .finished) (moves : Alone x st l st') :
    Nears x l st st' := by
  cases moves with
  | wroteOpen | accepted | closeAgain => exact .same finished rfl rfl
  | refused | gaveUp => exact .same (by simp [finished]) rfl rfl
  | closeCalled holds fresh => rw [finished] at fresh; cases fresh
  | wroteClose begun | closedClosed begun | closedCtxDone begun | closedReadCh begun =>
    rw [finished] at begun
    cases begun
  | readData n viaClosed reader holds data =>
    refine ⟨finished, ?_, .inr ?_⟩
    · simp only [Reader.eofAfter_read data]
      exact id
    · by_cases positive : 0 < n
      · simpa [fills, positive] using Reader.backlog_read_lt positive data
      · simpa [fills, positive] using Reader.backlog_read_le data
  | readEOF n viaClosed holds noLeft closed drained =>
    exact ⟨finished, fun _ => Reader.eofAfter_eof_ne_none _, .inl (Reader.eofAfter_eof_ne_none _)⟩

lemma alone_fills {y} (moves : Alone y st l st') (other : x ≠ y) : fills x l = false := by
  cases moves <;> simp [fills, Ne.symm other]

lemma nears_served {choice : Bool} {loop next : ReadLoop}
    (finished : st.closeOnce = .finished) (serves : Served st loop st' next) :
    Nears x (.readLoop choice) st st' := by
  cases serves with
  | pushed y payload usable room => exact absurd finished usable
  | spawned | notified => exact .same finished rfl rfl
  | closing y st' entered =>
    cases entered with
    | first fresh => rw [finished] at fresh; cases fresh
    | later begun => exact .same finished rfl rfl

section
variable (here : s.objects[x]? = some st)
include here
lemma nears_action (finished : st.closeOnce = .finished) (action : Action s l t) :
    ∃ st', t.objects[x]? = some st' ∧ Nears x l st st' := by
  have inside := Machine.lt_of_getElem? here
  cases action with
  | ignored | answer | data | close | failed | panics | passes | marks | visited | closes =>
    exact ⟨st, here, .same finished rfl rfl⟩
  | stops | closeSession => exact ⟨st, by rw [← here]; simp, .same finished rfl rfl⟩
  | opened | registers =>
    refine ⟨st, ?_, .same finished rfl rfl⟩
    rw [register, getElem?_snoc, if_neg (by simpa using inside.ne), here]
  | served choice y old new next there hand serves =>
    refine exists_set here there ?_ (fun _ => .same finished rfl rfl)
    rintro - rfl
    exact nears_served finished serves
  | alone l y old new there moves =>
    refine exists_set here there ?_ (fun other => .same finished rfl (alone_fills moves other))
    rintro rfl rfl
    exact nears_alone finished moves
  | removes l y old new there moves =>
    refine exists_set here there ?_ (fun _ => .same finished rfl (by cases moves <;> rfl))
    rintro - rfl
    cases moves with
    | byClose begun => rw [finished] at begun; cases begun
    | byDial => exact .same finished rfl rfl
  | visits pick todo old new at_ member there entered =>
    refine exists_set here there ?_ (fun _ => .same finished rfl rfl)
    rintro - rfl
    cases entered with
    | first fresh => rw [finished] at fresh; cases fresh
    | later begun => exact .same finished rfl rfl

lemma eof_within_backlog {ls} (finished : st.closeOnce = .finished)
    (arrive : run step s ls = some t) :
    ∃ st', t.objects[x]? = some st' ∧ (st.reader.eofAfter ≠ none → st'.reader.eofAfter ≠ none) ∧
      (st.reader.backlog < ls.countP (fills x) → st'.reader.eofAfter ≠ none) := by
  induction ls generalizing s st with
  | nil =>
    cases arrive
    exact ⟨st, here, id, fun few => absurd few (Nat.not_lt_zero _)⟩
  | cons l ls ih =>
    obtain ⟨m, first, rest⟩ := run_cons_some arrive
    obtain ⟨mid, there, nears⟩ := nears_action here finished (step_action first).2
    obtain ⟨st', final, told, enough⟩ := ih there nears.finished rest
    refine ⟨st', final, fun known => told (nears.told known), ?_⟩
    intro few
    rcases nears.closer with known | less
    · exact told known
    · refine enough ?_
      rw [countP_cons] at few
      omega

lemma read_returns (holds : st.holder = .using)
    (finished : st.closeOnce = .finished) (alive : s.panicked = false) (n : Nat)
    (viaClosed : Bool) : (step s (.read x n viaClosed)).isSome = true := by
  have closed : st.isClosed = true := by rw [MuxStream.isClosed, finished]
  have ended : st.readChClosed = true := by simp [MuxStream.readChClosed, finished]
  simp only [step, alive, Bool.false_eq_true, if_false, here, bind_some, Session.read, holds,
    if_true, closed, ended]
  split_ifs
  · rfl
  · split <;> rfl
end

/-- While ids are not reused too early, nothing but the peer's CLOSE ends the stream at `x`, and no
`Read` of it prefers `closed` to a waiting chunk, its reader obtains all that was sent on it before
it is told of the end, and it gets there. -/
theorem everything_before_eof {isServer : Bool} {ls : List Label} {s : Session} {x : Nat}
    {st : MuxStream} (arrive : run step (newMuxSession isServer) ls = some s)
    (orderly : Meets step (Orderly x) (newMuxSession isServer) ls)
    (here : s.objects[x]? = some st) :
    (∀ bytes, st.reader.eofAfter = some bytes → closeSeen s st = true ∧ bytes = sent s st) ∧
      (st.holder = .using → st.reader.got <+: sent s st) ∧
      (st.holder = .using → st.closeOnce = .finished → s.panicked = false →
        ∀ n viaClosed, (step s (.read x n viaClosed)).isSome = true) ∧
      (st.closeOnce = .finished → ∀ more t, run step s more = some t →
        st.reader.backlog < more.countP (fills x) →
          ∃ st', t.objects[x]? = some st' ∧ st'.reader.eofAfter ≠ none) := by
  have inv := invariant_of_meets inv_step (inv_start x isServer) orderly arrive
  have carries := inv.carries st here
  refine ⟨carries.ended, ?_, fun holds finished alive => read_returns here holds finished alive, ?_⟩
  · intro holds
    have alive : Live s.readLoop x st := .inr (.inr (.inl holds))
    cases seen : closeSeen s st with
    | false =>
      obtain ⟨-, -, -, content⟩ := carries.before alive seen
      rw [content]
      exact (Reader.got_prefix_stream _).trans (prefix_append _ _)
    | true =>
      obtain ⟨-, -, content⟩ := carries.after alive seen
      rw [content]
      exact Reader.got_prefix_stream _
  · intro finished more t arrive' enough
    obtain ⟨st', final, -, ended⟩ := eof_within_backlog here finished arrive'
    exact ⟨st', final, ended enough⟩

def closedThenRead : List Label :=
  [.frame ⟨.open, 5, [1]⟩, .readLoop true, .frame ⟨.data, 5, [7, 8]⟩, .readLoop true,
    .frame ⟨.data, 5, [9]⟩, .readLoop true, .frame ⟨.close, 5, []⟩, .readLoop true,
    .closeStep 0, .closeStep 0, .closeStep 0, .closeStep 0, .readLoop true,
    .read 0 1 false, .read 0 4 true, .read 0 1 false, .read 0 1 true]

theorem closedThenRead_complete : ∃ s st, run step (newMuxSession true) closedThenRead = some s ∧
      s.objects[0]? = some st ∧ st.reader.eofAfter = some [7, 8, 9] ∧ sent s st = [7, 8, 9] := by
  refine exists_two_of (P := fun _ st => st.reader.eofAfter = some [7, 8, 9])
    (by decide +kernel) fun s st arrive here ended => ?_
  exact ⟨ended, ((everything_before_eof arrive (by decide +kernel) here).1 _ ended).2.symm⟩

/-- The CLOSE is handled while the first chunk waits in `readCh`; the `select` of the next `Read`
takes the case of `closed` and reports the end with the chunk unread. -/
theorem closed_overtakes_data :
    (run step (newMuxSession true)
        [.frame ⟨.open, 5, [1]⟩, .readLoop true, .frame ⟨.data, 5, [7]⟩, .readLoop true,
          .frame ⟨.close, 5, []⟩, .readLoop true, .closeStep 0, .closeStep 0, .closeStep 0,
          .closeStep 0, .readLoop true, .read 0 4 true]).bind
      (fun s => s.objects[0]?.map fun st => (st.reader.eofAfter, sent s st)) =
      some (some [], [7]) := by
  decide +kernel
end MuxDelivery
end Tamizdat.Vkturn
