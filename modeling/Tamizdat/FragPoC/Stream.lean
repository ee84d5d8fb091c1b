/- source: internal/transport/fragpoc/server.go, internal/transport/fragpoc/client.go
   digest: Which frame an answer may carry, and the bytes that a reader obtains of the stream. -/

import Tamizdat.FragPoC.System

set_option autoImplicit false

open List Option
namespace Tamizdat.FragPoC
open FragPoC.Wire FragPoC.System FragPoC.Exchange
open Machine.Runs (run Meets invariant_of_small)
namespace Answers
open FragPoC.Server (Session Stage Handler Advances retransmitGap)
open Machine.Pool (total total_append total_singleton total_set mem_total)
open Machine.Word (addW)
open System (step)
def hand (h : Handler) : Multiset DownFrame :=
  match h.stage with
  | .received _ frame => {frame}
  | .puttingBack frame _ => {frame}
  | _ => 0

def producerHand (sess : Session) : Multiset DownFrame :=
  match sess.producer with
  | .sending frame => {frame}
  | _ => 0

section
variable (server : Server.State)

/-- All frames on their way from the producer to an answer, replays aside. -/
def line : Multiset DownFrame :=
  (server.session.frameCh : Multiset DownFrame) + producerHand server.session +
    total hand server.handlers

instance (stage : Stage) (f : DownFrame) : Decidable (∃ rf, stage = .puttingBack f rf) :=
  match stage with
  | .puttingBack g rf => decidable_of_iff (g = f) ⟨fun same => ⟨rf, same ▸ rfl⟩, by simp⟩
  | .entered | .polling _ | .received _ _ | .replaying _ | .waiting _ | .draining | .fallback
  | .answered _ => isFalse (by simp)

def Returnable (f : DownFrame) : Prop :=
  f ∈ server.session.frameCh ∨ server.session.producer = .sending f ∨
    ∃ h ∈ server.handlers, h.stage = .received true f ∨ ∃ rf, h.stage = .puttingBack f rf
deriving Decidable

/-- What the replay ring may be asked for: the last resort of `findReplay` is not needed, and the
frame it offers cannot show up in the channel later. -/
def FreshReplay (h : Handler) : Prop :=
  match h.stage with
  | .replaying _ | .fallback =>
    (server.session.replay.entries = [] ∨ ∃ g ∈ server.session.replay.entries, h.ack ≤ g.seq) ∧
      ∀ rf ∈ server.session.findReplay h.ack, ¬ Returnable server rf
  | .received shouldRT frame =>
    shouldRT = true → addW 32 h.ack retransmitGap ≤ frame.seq →
      ∀ rf ∈ server.session.findReplay h.ack, rf.seq = h.ack → ¬ Returnable server rf
  | _ => True
end

instance (server : Server.State) (h : Handler) : Decidable (FreshReplay server h) := by
  unfold FreshReplay
  split <;> infer_instance

def FreshReplays (s : State) : Label → Prop
  | .server (.handle j _) => ∀ h ∈ s.server.handlers[j]?, FreshReplay s.server h
  | _ => True

instance (s : State) (l : Label) : Decidable (FreshReplays s l) := by
  unfold FreshReplays
  split <;> infer_instance

/-- The handler does not answer with a frame below its ack, and will not. -/
def UpToDate (server : Server.State) (h : Handler) : Prop :=
  match h.stage with
  | .received _ frame => h.ack ≤ frame.seq
  | .puttingBack _ rf => h.ack ≤ rf.seq ∧ ¬ Returnable server rf
  | .answered (.frame f) => h.ack ≤ f.seq
  | _ => True

variable {h : Handler} {sess sess' : Session}
variable {server : Server.State}
lemma UpToDate.mono {server'} (upToDate : UpToDate server h)
    (back : ∀ rf ∈ Frames.stageFrames h.stage, Returnable server' rf → Returnable server rf) :
    UpToDate server' h := by
  unfold UpToDate at *
  cases stage : h.stage with
  | puttingBack f rf =>
    rw [stage] at upToDate back
    exact ⟨upToDate.1, fun after => upToDate.2 (back rf (by simp [Frames.stageFrames]) after)⟩
  | received shouldRT f => rw [stage] at upToDate; exact upToDate
  | answered r =>
    rw [stage] at upToDate
    cases r with
    | frame f => exact upToDate
    | _ => trivial
  | _ => trivial

structure Current (s : State) : Prop where
  single : (line s.server).Nodup
  unserved : ∀ f, Returnable s.server f → ¬ Served s.server f
  upToDate : ∀ h ∈ s.server.handlers, UpToDate s.server h

lemma current_start : Current State.start where
  single := by simp [line, State.start, Server.State.start, Session.fresh, producerHand, total]
  unserved := by
    rintro f - ⟨h, member, -⟩
    cases member
  upToDate := nofun

variable {f : DownFrame}
lemma mem_line_of_returnable (returnable : Returnable server f) : f ∈ line server := by
  unfold line
  rw [Multiset.mem_add, Multiset.mem_add]
  rcases returnable with queued | sending | ⟨h, member, stage⟩
  · exact .inl (.inl (Multiset.mem_coe.mpr queued))
  · refine .inl (.inr ?_)
    rw [producerHand, sending]
    exact Multiset.mem_singleton_self f
  · refine .inr (mem_total.mpr ⟨h, member, ?_⟩)
    rcases stage with received | ⟨rf, putting⟩
    · rw [hand, received]
      exact Multiset.mem_singleton_self f
    · rw [hand, putting]
      exact Multiset.mem_singleton_self f

variable {ack : Nat}
lemma advances_line {stage stage'} (moved : Advances sess ack stage sess' stage') :
    (sess'.frameCh : Multiset DownFrame) + hand ⟨ack, stage'⟩ ≤
      (sess.frameCh : Multiset DownFrame) + hand ⟨ack, stage⟩ := by
  cases moved with
  | enter =>
    rw [sess.frameCh_shouldRetransmit]
    exact le_rfl
  | take before queue =>
    have empty : hand ⟨ack, stage⟩ = 0 := by rcases before with rfl | rfl <;> rfl
    rw [queue, empty, add_zero, ← Multiset.cons_coe, ← Multiset.singleton_add, add_comm]
    exact le_rfl
  | drain queue =>
    rw [queue]
    exact add_le_add (Multiset.coe_le.mpr (sublist_cons_self _ _).subperm) le_rfl
  | keep => exact add_le_add le_rfl (Multiset.zero_le _)
  | divert far found same | miss empty | await absent | wake | fall empty | idle absent =>
    exact le_rfl
  | putBack =>
    unfold Session.offer
    split_ifs
    · rw [← Multiset.coe_add, add_assoc]
      exact le_rfl
    · exact add_le_add le_rfl (Multiset.zero_le _)
  | replay before found => exact add_le_add le_rfl (Multiset.zero_le _)

lemma advances_origin {stage g} (moved : Advances sess ack stage sess' (.answered (.frame g))) :
    ((sess'.frameCh : Multiset DownFrame) + {g} = sess.frameCh + hand ⟨ack, stage⟩ ∧
      ((∃ shouldRT, stage = .received shouldRT g) ∨ stage = .draining ∧ g ∈ sess.frameCh)) ∨
    (∃ f, stage = .puttingBack f g) ∨
    (((∃ shouldRT, stage = .replaying shouldRT) ∨ stage = .fallback) ∧
      sess.findReplay ack = some g) := by
  cases moved with
  | keep => exact .inl ⟨rfl, .inl ⟨_, rfl⟩⟩
  | drain queue =>
    refine .inl ⟨?_, .inr ⟨rfl, by rw [queue]; exact mem_cons_self⟩⟩
    rw [queue, ← Multiset.cons_coe, ← Multiset.singleton_add, add_comm]
    exact (add_zero _).symm
  | putBack => exact .inr (.inl ⟨_, rfl⟩)
  | replay before found => exact .inr (.inr ⟨before, found⟩)

section
variable {i : Nat} {stage : Stage}
lemma mem_frameCh_advances {before} (moved : Advances sess ack before sess' stage)
    (member : f ∈ sess'.frameCh) : f ∈ sess.frameCh ∨ ∃ rf, before = .puttingBack f rf := by
  cases moved with
  | enter => exact .inl (sess.frameCh_shouldRetransmit ▸ member)
  | take _ queue | drain queue =>
    rw [queue]
    exact .inl (mem_cons_of_mem _ member)
  | @putBack frame rf =>
    unfold Session.offer at member
    split_ifs at member
    · rcases mem_append.mp member with before | back
      · exact .inl before
      · rw [mem_singleton.mp back]
        exact .inr ⟨rf, rfl⟩
    · exact .inl member
  | _ => exact .inl member

variable (here : server.handlers[i]? = some h)
include here
lemma line_set (stage : Stage) (producer : sess.producer = server.session.producer) :
    line ⟨sess, server.handlers.set i { h with stage := stage }⟩ + hand h =
      ((sess.frameCh : Multiset DownFrame) + hand { h with stage := stage }) +
        (producerHand server.session + total hand server.handlers) := by
  have trade := total_set hand here { h with stage := stage }
  have same : producerHand sess = producerHand server.session := by
    rw [producerHand, producerHand, producer]
  unfold line
  rw [add_assoc, trade, same]
  abel

lemma line_handle (moved : Advances server.session h.ack h.stage sess stage) :
    line ⟨sess, server.handlers.set i { h with stage := stage }⟩ ≤ line server := by
  have passed := advances_line moved
  refine le_of_add_le_add_right (a := hand h) ?_
  rw [line_set here stage moved.frame.1]
  calc ((sess.frameCh : Multiset DownFrame) + hand { h with stage := stage }) +
        (producerHand server.session + total hand server.handlers)
      ≤ ((server.session.frameCh : Multiset DownFrame) + hand h) +
        (producerHand server.session + total hand server.handlers) := add_le_add passed le_rfl
    _ = line server + hand h := by
        unfold line
        abel

lemma not_mem_line_handle {g} (single : (line server).Nodup)
    (producer : sess.producer = server.session.producer)
    (left : (sess.frameCh : Multiset DownFrame) + {g} = server.session.frameCh + hand h) :
    g ∉ line ⟨sess, server.handlers.set i { h with stage := .answered (.frame g) }⟩ := by
  have trade := line_set here (.answered (.frame g)) producer
  have whole : line ⟨sess, server.handlers.set i { h with stage := .answered (.frame g) }⟩ + {g} =
      line server := by
    refine add_right_cancel (b := hand h) ?_
    rw [add_right_comm, trade]
    have gone : hand { h with stage := .answered (.frame g) } = 0 := rfl
    rw [gone, add_zero, add_right_comm, left]
    unfold line
    abel
  rw [← whole, Multiset.nodup_add] at single
  intro member
  exact Multiset.disjoint_left.mp single.2.2 member (Multiset.mem_singleton_self g)

lemma returnable_handle (moved : Advances server.session h.ack h.stage sess stage)
    (after : Returnable ⟨sess, server.handlers.set i { h with stage := stage }⟩ f) :
    Returnable server f := by
  have inside := mem_of_getElem? here
  rcases after with queued | sending | ⟨g, member, held⟩
  · rcases mem_frameCh_advances moved queued with before | ⟨rf, putting⟩
    · exact .inl before
    · exact .inr (.inr ⟨h, inside, .inr ⟨rf, putting⟩⟩)
  · exact .inr (.inl (moved.frame.1 ▸ sending))
  · rcases mem_or_eq_of_mem_set member with before | rfl
    · exact .inr (.inr ⟨g, before, held⟩)
    · generalize old : h.stage = before at moved
      rcases held with received | ⟨rf, putting⟩
      · subst received
        cases moved with
        | take _ queue => exact .inl (by rw [queue]; exact mem_cons_self)
      · subst putting
        cases moved with
        | divert _ _ _ => exact .inr (.inr ⟨h, inside, .inl old⟩)
end

lemma findReplay_ge {rf}
    (recent : sess.replay.entries = [] ∨ ∃ g ∈ sess.replay.entries, ack ≤ g.seq)
    (found : sess.findReplay ack = some rf) : ack ≤ rf.seq := by
  rw [Session.findReplay, or_eq_some_iff, or_eq_some_iff] at found
  rcases found with (exactly | ⟨-, closest⟩) | ⟨missed, newest⟩
  · have same : rf.seq = ack := by simpa using find?_some exactly
    exact same.ge
  · simpa using find?_some closest
  · rcases recent with empty | ⟨g, member, past⟩
    · rw [empty] at newest
      cases newest
    · have none_past := (or_eq_none_iff.mp missed).2
      rw [find?_eq_none] at none_past
      exact absurd past (by simpa using none_past g member)

variable {cfg : Config} {s : State}
lemma Current.expected (current : Current s) (agrees : Agrees cfg s)
    (few : s.Few) (known : f ∈ s.server.session.produced)
    (returnable : Returnable s.server f) : s.conn.nextSeq ≤ f.seq := by
  by_contra below
  obtain ⟨g, served, number⟩ := agrees.holds.counted f.seq (by omega)
  have first := (agrees.index few known).1
  have second := (agrees.index few (agrees.produced_of_served served)).1
  rw [number, first, some.injEq] at second
  exact current.unserved f returnable (second ▸ served)

lemma Current.handle {i stage} (current : Current s) (agrees : Agrees cfg s)
    (few : s.Few) (here : s.server.handlers[i]? = some h)
    (fresh : FreshReplay s.server h) (moved : Advances s.server.session h.ack h.stage sess stage) :
    Current { s with server := ⟨sess, s.server.handlers.set i { h with stage := stage }⟩ } := by
  have inside := mem_of_getElem? here
  have prior := current.upToDate h inside
  have asked := agrees.asked h inside
  have queued : ∀ f ∈ s.server.session.frameCh, h.ack ≤ f.seq := by
    intro f member
    exact asked.trans (current.expected agrees few (agrees.sound.known f (.inl member))
      (.inl member))
  refine ⟨Multiset.nodup_of_le (line_handle here moved) current.single, ?_, ?_⟩
  · rintro f after ⟨g, member, answer⟩
    have before := returnable_handle here moved after
    rcases mem_or_eq_of_mem_set member with old | rfl
    · exact current.unserved f before ⟨g, old, answer⟩
    · subst answer
      rcases advances_origin moved with ⟨left, -⟩ | ⟨g, putting⟩ | ⟨replayed, found⟩
      · exact not_mem_line_handle here current.single moved.frame.1 left
          (mem_line_of_returnable after)
      · rw [UpToDate, putting] at prior
        exact prior.2 before
      · unfold FreshReplay at fresh
        rcases replayed with ⟨shouldRT, replaying⟩ | fallback
        · rw [replaying] at fresh
          exact fresh.2 f found before
        · rw [fallback] at fresh
          exact fresh.2 f found before
  · intro g member
    rcases mem_or_eq_of_mem_set member with old | rfl
    · exact (current.upToDate g old).mono (fun _ _ => returnable_handle here moved)
    · generalize old : h.stage = before at moved
      cases moved with
      | take _ queue | drain queue => exact queued _ (by rw [queue]; exact mem_cons_self)
      | keep =>
        unfold UpToDate at prior
        rw [old] at prior
        exact prior
      | divert far found same =>
        unfold FreshReplay at fresh
        rw [old] at fresh
        refine ⟨same.ge, fun after => fresh rfl far _ found same ?_⟩
        exact returnable_handle here (old ▸ Advances.divert far found same) after
      | putBack =>
        unfold UpToDate at prior
        rw [old] at prior
        exact prior.1
      | replay replayed found =>
        unfold FreshReplay at fresh
        rw [old] at fresh
        rcases replayed with ⟨shouldRT, rfl⟩ | rfl <;> exact findReplay_ge fresh.1 found
      | _ => trivial

lemma known_of_mem_line {limit} (sound : Frames.Sound limit server) (member : f ∈ line server) :
    f ∈ server.session.produced := by
  unfold line at member
  rw [Multiset.mem_add, Multiset.mem_add] at member
  apply sound.known
  rcases member with (queued | sending) | held
  · exact .inl (Multiset.mem_coe.mp queued)
  · unfold producerHand at sending
    split at sending
    · next frame producer =>
        rw [Multiset.mem_singleton.mp sending]
        exact .inr (.inl producer)
    · exact absurd sending (Multiset.notMem_zero f)
  · obtain ⟨h, inside, held⟩ := mem_total.mp held
    refine .inr (.inr (.inr ⟨h, inside, ?_⟩))
    unfold hand at held
    split at held
    · next stage =>
        rw [stage, Multiset.mem_singleton.mp held]
        exact mem_cons_self
    · next stage =>
        rw [stage, Multiset.mem_singleton.mp held]
        exact mem_cons_self
    · exact absurd held (Multiset.notMem_zero f)

section
variable (current : Current s)
include current
lemma Current.produce {limit frame seq} (sound : Frames.Sound limit s.server)
    (reading : s.server.session.producer = .reading)
    (builds : Server.Builds limit s.server.session.seq frame seq)
    (few : s.server.session.produced.length + 1 < 2 ^ 32) : Current { s with server :=
      { s.server with session := s.server.session.produce frame seq } } := by
  -- the new number is one past every number so far
  have new : frame ∉ s.server.session.produced := by
    intro member
    obtain ⟨i, here⟩ := getElem?_of_mem member
    have inside := Machine.lt_of_getElem? here
    have number := sound.numbered.seq_eq here
    have count := (sound.numbered.counting (.inl reading)).1
    have same : frame.seq = s.server.session.seq := by cases builds <;> rfl
    omega
  have grown : line { s.server with session := s.server.session.produce frame seq } =
      line s.server + {frame} := by
    have before : producerHand s.server.session = 0 := by rw [producerHand, reading]
    have after : producerHand (s.server.session.produce frame seq) = {frame} := rfl
    have queue : (s.server.session.produce frame seq).frameCh = s.server.session.frameCh := rfl
    unfold line
    rw [before, after, queue]
    abel
  have back : ∀ f, f ≠ frame →
      Returnable { s.server with session := s.server.session.produce frame seq } f →
      Returnable s.server f := by
    rintro f other (queued | sending | held)
    · exact .inl queued
    · exact absurd (Server.Producer.sending.inj sending).symm other
    · exact .inr (.inr held)
  refine ⟨?_, ?_, ?_⟩
  · rw [grown, Multiset.nodup_add]
    refine ⟨current.single, Multiset.nodup_singleton frame, ?_⟩
    rw [Multiset.disjoint_singleton]
    exact fun member => new (known_of_mem_line sound member)
  · rintro f after ⟨h, member, answer⟩
    have known : f ∈ s.server.session.produced :=
      sound.known f (.inr (.inr (.inr ⟨h, member, by rw [answer]; exact mem_cons_self⟩)))
    have other : f ≠ frame := fun same => new (same ▸ known)
    exact current.unserved f (back f other after) ⟨h, member, answer⟩
  · intro h member
    refine (current.upToDate h member).mono ?_
    intro rf held
    refine back rf ?_
    rintro rfl
    exact new (sound.known rf (.inr (.inr (.inr ⟨h, member, held⟩))))

lemma Current.shift (shorter : line server ≤ line s.server)
    (back : ∀ f, Returnable server f → Returnable s.server f)
    (handlers : ∀ h ∈ server.handlers, h ∈ s.server.handlers ∨ h.stage = .entered) :
    Current { s with server := server } := by
  refine ⟨Multiset.nodup_of_le shorter current.single, ?_, ?_⟩
  · rintro f after ⟨h, member, answer⟩
    rcases handlers h member with old | entered
    · exact current.unserved f (back f after) ⟨h, old, answer⟩
    · rw [entered] at answer
      cases answer
  · intro h member
    rcases handlers h member with old | entered
    · exact (current.upToDate h old).mono (fun rf _ => back rf)
    · unfold UpToDate
      rw [entered]
      trivial

lemma Current.send {frame} (sending : s.server.session.producer = .sending frame) :
    Current { s with server := { s.server with session := { s.server.session with
      frameCh := s.server.session.frameCh ++ [frame]
      producer := Server.Producer.next frame } } } := by
  have next : ∀ f, Server.Producer.next frame ≠ .sending f := by
    unfold Server.Producer.next
    split_ifs <;> simp
  refine current.shift ?_ ?_ (fun _ => .inl)
  · have before : producerHand s.server.session = {frame} := by rw [producerHand, sending]
    have after : producerHand { s.server.session with
        frameCh := s.server.session.frameCh ++ [frame]
        producer := Server.Producer.next frame } = 0 := by
      simp only [producerHand, Server.Producer.next]
      cases frame.eof <;> rfl
    unfold line
    rw [after, before, ← Multiset.coe_add]
    simp
  · rintro f (queued | holds | held)
    · rcases mem_append.mp queued with before | new
      · exact .inl before
      · rw [mem_singleton.mp new]
        exact .inr (.inl sending)
    · exact absurd holds (next f)
    · exact .inr (.inr held)

lemma Current.giveUp : Current { s with server := { s.server with
      session := { s.server.session with producer := .returned } } } := by
  refine current.shift ?_ ?_ (fun _ => .inl)
  · exact add_le_add (add_le_add le_rfl (Multiset.zero_le _)) le_rfl
  · rintro f (queued | holds | held)
    · exact .inl queued
    · cases holds
    · exact .inr (.inr held)

lemma Current.serve (ack : Nat) : Current { s with server := { s.server with
      handlers := s.server.handlers ++ [⟨ack, .entered⟩] } } := by
  have entered : ∀ h ∈ s.server.handlers ++ [⟨ack, .entered⟩],
      h ∈ s.server.handlers ∨ h.stage = .entered :=
    Machine.Pool.forall_snoc (fun _ => .inl) (.inr rfl)
  refine current.shift ?_ ?_ entered
  · have empty : hand ⟨ack, .entered⟩ = 0 := rfl
    unfold line
    rw [total_append, total_singleton, empty, add_zero]
  · rintro f (queued | sending | ⟨h, member, held⟩)
    · exact .inl queued
    · exact .inr (.inl sending)
    · rcases entered h member with old | new
      · exact .inr (.inr ⟨h, old, held⟩)
      · rcases held with received | ⟨rf, putting⟩
        · rw [new] at received
          cases received
        · rw [new] at putting
          cases putting

lemma Current.step {l s'} (agrees : Agrees cfg s) (fresh : FreshReplays s l)
    (moved : step cfg s l = some s') (few : s'.Few) :
    Current s' := by
  have before := few_of_step moved few
  cases l with
  | poll l =>
    have server := stepPoll_server moved
    exact ⟨server ▸ current.single, server ▸ current.unserved, server ▸ current.upToDate⟩
  | reader l =>
    have server := stepReader_server moved
    exact ⟨server ▸ current.single, server ▸ current.unserved, server ▸ current.upToDate⟩
  | server l =>
    obtain ⟨server, -, inner, rfl⟩ := step_server moved
    cases l with
    | read chunk =>
      obtain ⟨frame, seq, builds, reading, rfl⟩ := Server.step_produce (.inl ⟨chunk, rfl⟩) inner
      exact current.produce agrees.sound reading builds (by simpa [Session.produce] using few)
    | fail =>
      obtain ⟨frame, seq, builds, reading, rfl⟩ := Server.step_produce (.inr rfl) inner
      exact current.produce agrees.sound reading builds (by simpa [Session.produce] using few)
    | send =>
      obtain ⟨frame, sending, -, rfl⟩ := Server.step_send inner
      exact current.send sending
    | giveUp =>
      obtain ⟨frame, -, rfl⟩ := Server.step_giveUp inner
      exact current.giveUp
    | serve ack =>
      rw [Server.step_serve inner]
      exact current.serve ack
    | handle i wake =>
      obtain ⟨h, sess, stage, here, advances, rfl⟩ := Server.step_handle inner
      exact current.handle agrees before here (fresh h here) advances
end

/-- Every answer is a frame at or past the poll's ack, or idle; a poll that acknowledges all there
is gets an idle answer. -/
def AnswersCurrent (server : Server.State) : Prop :=
  ∀ h ∈ server.handlers, ∀ r, h.stage = .answered r →
    ((∃ f, r = .frame f ∧ h.ack ≤ f.seq) ∨ r = .idle h.ack) ∧
    ((∀ f ∈ server.session.produced, f.seq < h.ack) → r = .idle h.ack)

/-- In every run whose consultations of the replay ring are fresh, no poll is answered with a
frame that its client has acknowledged. -/
theorem answers_current (cfg : Config) {ls : List Label} {t : State}
    (fresh : Meets (step cfg) FreshReplays State.start ls)
    (arrive : run (step cfg) State.start ls = some t)
    (few : t.server.session.produced.length < 2 ^ 32) : AnswersCurrent t.server := by
  obtain ⟨agrees, current⟩ := run_agreeing (fun agrees current fresh moved few =>
    current.step agrees fresh moved few) current_start fresh arrive few
  intro h member r answer
  rcases agrees.sound.idles h member r answer with ⟨f, rfl⟩ | idle
  · have upToDate := current.upToDate h member
    unfold UpToDate at upToDate
    rw [answer] at upToDate
    refine ⟨.inl ⟨f, rfl, upToDate⟩, ?_⟩
    intro acknowledged
    have known := agrees.produced_of_served ⟨h, member, answer⟩
    have below := acknowledged f known
    omega
  · exact ⟨.inr idle, fun _ => idle⟩

def busyStream : List Label :=
  [.server (.read [7]), .server .send, .server (.read [8]), .server .send] ++ exchange 0 0 ++
    readBack 0 7 ++ exchange 1 1

theorem answers_current_busy : ∃ t, run (step plainConfig) State.start busyStream = some t ∧
      t.server.session.produced.length < 2 ^ 32 ∧ AnswersCurrent t.server := by
  refine Machine.Runs.exists_some_and (by decide +kernel) fun t arrive few => ?_
  exact answers_current plainConfig (by decide +kernel) arrive few

def idleStream : List Label :=
  [.server (.read [7]), .server .send] ++ exchange 0 0 ++ readBack 0 7 ++ exchange 1 1

theorem idle_stream_answers_stale : ¬ ∀ ls t, run (step plainConfig) State.start ls = some t →
      AnswersCurrent t.server := by
  intro always
  obtain ⟨t, arrive, member⟩ : ∃ t, run (step plainConfig) State.start idleStream = some t ∧
      ⟨1, .answered (.frame ⟨0, [7], false⟩)⟩ ∈ t.server.handlers := by decide +kernel
  rcases (always idleStream t arrive _ member _ rfl).1 with ⟨f, same, current⟩ | idle
  · cases same
    exact absurd current (by decide)
  · cases idle
end Answers
namespace Stream
open FragPoC.Client
open System (step)
open State (start)
def outcomeBytes : Outcome → List UInt8
  | .data bytes => bytes
  | .error _ => []

def returned (outcomes : List Outcome) : List UInt8 := outcomes.flatMap outcomeBytes

section
variable (frames : List DownFrame)
def upstream : List UInt8 := frames.flatMap DownFrame.data

def HasEOF : Prop := ∃ f ∈ frames, f.eof = true

/-- Every `io.EOF` came after all bytes of all frames, and the last frame had been produced. -/
def EndsWhole (outcomes : List Outcome) : Prop :=
  ∀ before after, outcomes = before ++ .error .eof :: after →
    HasEOF frames ∧ returned before = upstream frames
end

/-- No poll is cut cleanly between two blocks of its answer, and none fails with `io.EOF`. -/
def NoCleanCut (cfg : Config) (s : State) : Label → Prop
  | .poll (.reply _ source nonce m ending) =>
    ∀ r ∈ s.response source, ¬ CleanCut cfg.link nonce r m ending
  | .poll (.fail _ e) => e ≠ .eof
  | _ => True

structure Streams (s : State) : Prop where
  bytes : returned s.outcomes ++ s.conn.readBuf =
    upstream (s.server.session.produced.take s.conn.nextSeq)
  drained : ∀ n, s.reader = .selecting n → s.conn.readBuf = []
  ended : s.conn.eof = true → HasEOF s.server.session.produced ∧ s.conn.readBuf = [] ∧
    s.conn.nextSeq = s.server.session.produced.length
  honest : Err.eof ∉ s.conn.errCh
  whole : EndsWhole s.server.session.produced s.outcomes

lemma streams_start : Streams start where
  bytes := rfl
  drained := by simp [start]
  ended := by simp [start, Conn.fresh]
  honest := by simp [start, Conn.fresh]
  whole := by
    intro before after split
    simp [start] at split

lemma snoc_split {x e} {l before after : List Outcome} (split : l ++ [x] = before ++ e :: after) :
    (before = l ∧ e = x) ∨ ∃ rest, l = before ++ e :: rest := by
  rcases eq_nil_or_concat after with rfl | ⟨rest, y, rfl⟩
  · have := append_inj' split rfl
    exact .inl ⟨this.1.symm, (List.cons.inj this.2).1.symm⟩
  · rw [concat_eq_append, ← cons_append, ← append_assoc] at split
    exact .inr ⟨rest, (append_inj' split rfl).1⟩

lemma EndsWhole.snoc {frames outcomes o} (whole : EndsWhole frames outcomes)
    (last : o = .error .eof → HasEOF frames ∧ returned outcomes = upstream frames) :
    EndsWhole frames (outcomes ++ [o]) := by
  intro before after split
  rcases snoc_split split with ⟨rfl, same⟩ | ⟨rest, earlier⟩
  · exact last same.symm
  · exact whole before rest earlier

lemma returned_snoc (outcomes : List Outcome) (o : Outcome) :
    returned (outcomes ++ [o]) = returned outcomes ++ outcomeBytes o := by
  simp [returned]

variable {n : Nat}
lemma upstream_take_succ {f} {frames : List DownFrame} (here : frames[n]? = some f) :
    upstream (frames.take (n + 1)) = upstream (frames.take n) ++ f.data := by
  rw [take_add_one, here]
  simp [upstream]

section
variable {cfg : Config} {s : State}
lemma produced_cases {limit server l server'} (sound : Frames.Sound limit server)
    (moved : Server.step limit server l = some server') :
    server'.session.produced = server.session.produced ∨ (¬ HasEOF server.session.produced ∧
        ∃ f, server'.session.produced = server.session.produced ++ [f]) := by
  have grows : ∀ (frame : DownFrame) (seq : Nat), server.session.producer = .reading →
      ¬ HasEOF server.session.produced ∧
        ∃ f, (server.session.produce frame seq).produced = server.session.produced ++ [f] := by
    intro frame seq reading
    refine ⟨?_, frame, rfl⟩
    rintro ⟨f, member, last⟩
    rw [(sound.numbered.counting (.inl reading)).2 f member] at last
    cases last
  cases l with
  | read chunk =>
    obtain ⟨frame, seq, -, reading, rfl⟩ := Server.step_produce (.inl ⟨chunk, rfl⟩) moved
    exact .inr (grows frame seq reading)
  | fail =>
    obtain ⟨frame, seq, -, reading, rfl⟩ := Server.step_produce (.inr rfl) moved
    exact .inr (grows frame seq reading)
  | send =>
    obtain ⟨_, -, -, rfl⟩ := Server.step_send moved
    exact .inl rfl
  | giveUp =>
    obtain ⟨_, -, rfl⟩ := Server.step_giveUp moved
    exact .inl rfl
  | serve ack =>
    rw [Server.step_serve moved]
    exact .inl rfl
  | handle i wake =>
    obtain ⟨_, _, _, -, advances, rfl⟩ := Server.step_handle moved
    exact .inl advances.frame.2.2.2

lemma Streams.server {l} (streams : Streams s) (agrees : Agrees cfg s)
    (few : s.Few) {server : Server.State}
    (moved : Server.step cfg.limit s.server l = some server) :
    Streams { s with server := server } := by
  rcases produced_cases agrees.sound moved with same | ⟨more, f, grown⟩
  · refine ⟨?_, streams.drained, ?_, streams.honest, ?_⟩
    · rw [same]
      exact streams.bytes
    · rw [same]
      exact streams.ended
    · rw [same]
      exact streams.whole
  · refine ⟨?_, streams.drained, ?_, streams.honest, ?_⟩
    · rw [grown, take_append_of_le_length (agrees.nextSeq_le few)]
      exact streams.bytes
    · exact fun ended => absurd (streams.ended ended).1 more
    · intro before after split
      exact absurd (streams.whole before after split).1 more

variable {s' : State}
lemma stepPoll_reader {l} (moved : stepPoll cfg s l = some s') :
    s'.conn.nextSeq = s.conn.nextSeq ∧ s'.conn.readBuf = s.conn.readBuf ∧
      s'.conn.eof = s.conn.eof ∧ s'.reader = s.reader ∧ s'.outcomes = s.outcomes := by
  have concludes : ∀ i outcome, (s.setPoll i (conclude s.conn outcome)).conn.nextSeq =
      s.conn.nextSeq ∧ (s.setPoll i (conclude s.conn outcome)).conn.readBuf = s.conn.readBuf ∧
      (s.setPoll i (conclude s.conn outcome)).conn.eof = s.conn.eof ∧
      (s.setPoll i (conclude s.conn outcome)).reader = s.reader ∧
      (s.setPoll i (conclude s.conn outcome)).outcomes = s.outcomes := by
    intro i outcome
    unfold State.setPoll conclude Conn.offerErr
    cases outcome <;> dsimp only <;> split_ifs <;> exact ⟨rfl, rfl, rfl, rfl, rfl⟩
  cases l with
  | reply i source nonce m ending | fail i e =>
    simp only [stepPoll] at moved
    repeat' split at moved
    all_goals cases moved
    exact concludes _ _
  | stuck =>
    cases moved
    unfold Conn.offerErr
    split_ifs <;> exact ⟨rfl, rfl, rfl, rfl, rfl⟩
  | _ =>
    simp only [stepPoll] at moved
    repeat' split at moved
    all_goals cases moved
    exact ⟨rfl, rfl, rfl, rfl, rfl⟩

variable {c : Conn}
lemma offerErr_honest {e} (honest : Err.eof ∉ c.errCh) (other : e ≠ .eof) :
    Err.eof ∉ (c.offerErr e).errCh := by
  unfold Conn.offerErr
  split_ifs
  · simpa using Ne.symm other
  · exact honest

lemma conclude_honest {outcome} (honest : Err.eof ∉ c.errCh) (other : outcome ≠ .error .eof) :
    Err.eof ∉ (conclude c outcome).1.errCh := by
  unfold conclude
  cases outcome with
  | error e =>
    dsimp only
    split_ifs
    · exact honest
    · exact offerErr_honest honest (fun same => other (same ▸ rfl))
  | ok res =>
    dsimp only
    split_ifs <;> exact honest

lemma Streams.poll {l} (streams : Streams s) (agrees : Agrees cfg s)
    (few : s.Few) (clean : NoCleanCut cfg s (.poll l))
    (moved : stepPoll cfg s l = some s') : Streams s' := by
  obtain ⟨nextSeq, readBuf, eof, reader, outcomes⟩ := stepPoll_reader moved
  have server := stepPoll_server moved
  refine ⟨?_, ?_, ?_, ?_, ?_⟩
  · rw [outcomes, readBuf, server, nextSeq]
    exact streams.bytes
  · rw [reader, readBuf]
    exact streams.drained
  · rw [eof, server, readBuf, nextSeq]
    exact streams.ended
  · have honest := streams.honest
    cases l with
    | reply i source nonce m ending =>
      simp only [stepPoll] at moved
      split at moved
      · next ack r asking answer =>
          split_ifs at moved with twelve
          cases moved
          refine conclude_honest honest ?_
          intro failed
          rcases down_wire cfg.link twelve (agrees.fits few answer) m ending with
            ⟨res, -, result⟩ | ⟨e, result, cut⟩
          · rw [failed] at result
            cases result
          · rw [failed, Except.error.injEq] at result
            exact clean r answer (cut result.symm)
      · cases moved
    | fail i e =>
      simp only [stepPoll] at moved
      split at moved
      · cases moved
        exact conclude_honest honest (fun same => clean (Except.error.inj same))
      · cases moved
    | stuck =>
      cases moved
      exact offerErr_honest honest (by simp)
    | _ =>
      simp only [stepPoll] at moved
      repeat' split at moved
      all_goals cases moved
      exact honest
  · rw [server, outcomes]
    exact streams.whole

lemma Streams.returns {o} (streams : Streams s) (n : Nat)
    (bytes : returned s.outcomes ++ (outcomeBytes o ++ c.readBuf) =
      upstream (s.server.session.produced.take c.nextSeq))
    (ended : c.eof = true → HasEOF s.server.session.produced ∧ c.readBuf = [] ∧
      c.nextSeq = s.server.session.produced.length) (honest : Err.eof ∉ c.errCh)
    (last : o = .error .eof → c.eof = true) : Streams (s.settle n (c, .returns o)) := by
  refine ⟨?_, ?_, ended, honest, ?_⟩
  · change returned (s.outcomes ++ [o]) ++ c.readBuf = _
    rw [returned_snoc, append_assoc]
    exact bytes
  · exact nofun
  · refine streams.whole.snoc ?_
    rintro rfl
    obtain ⟨finished, empty, all⟩ := ended (last rfl)
    refine ⟨finished, ?_⟩
    rw [empty, all, take_length] at bytes
    simpa [outcomeBytes] using bytes

lemma expected_bytes {f} (agrees : Agrees cfg s) (few : s.Few)
    (served : Served s.server f) (expected : f.seq = s.conn.nextSeq) :
    s.conn.acknowledge.nextSeq = s.conn.nextSeq + 1 ∧
      upstream (s.server.session.produced.take (s.conn.nextSeq + 1)) =
        upstream (s.server.session.produced.take s.conn.nextSeq) ++ f.data ∧
      s.server.session.produced[s.conn.nextSeq]? = some f := by
  have here := (agrees.index few (agrees.produced_of_served served)).1
  rw [expected] at here
  exact ⟨(agrees.holds.acknowledge (agrees.small few) served expected).1,
    upstream_take_succ here, here⟩

section
variable (streams : Streams s) (agrees : Agrees cfg s)
    (few : s.Few)
include streams agrees few
lemma Streams.not_ended {f} (served : Served s.server f) (expected : f.seq = s.conn.nextSeq) :
    s.conn.eof ≠ true := by
  intro ended
  have all := (streams.ended ended).2.2
  have inside := (agrees.index few (agrees.produced_of_served served)).2
  omega

lemma Streams.turn {next : Conn × Turn} (heads : Conn.Heads s.conn n next) :
    Streams (s.settle n next) := by
  have bytes := streams.bytes
  cases heads with
  | copies full =>
    refine streams.returns n ?_ (fun ended => absurd (streams.ended ended).2.1 full)
      streams.honest (by simp)
    simp only [outcomeBytes, take_append_drop]
    exact bytes
  | @pends buf empty held =>
    obtain ⟨f, served, more, expected, data⟩ := agrees.holds.pending held
    obtain ⟨count, extended, -⟩ := expected_bytes agrees few served expected
    refine streams.returns n ?_
      (fun ended => absurd ended (streams.not_ended agrees few served expected))
      streams.honest (by simp)
    change _ ++ (buf.take n ++ buf.drop n) = upstream (List.take s.conn.acknowledge.nextSeq _)
    rw [take_append_drop, count, extended, ← bytes, empty, append_nil, data]
  | ends empty have_eof here =>
    obtain ⟨f, served, last, number⟩ := agrees.holds.ending have_eof
    obtain ⟨count, extended, place⟩ := expected_bytes agrees few served (number.trans here)
    obtain ⟨all, data⟩ := agrees.sound.numbered.eof_last place last
    refine streams.returns n ?_ (fun _ => ⟨⟨f, agrees.produced_of_served served, last⟩, empty,
      count.trans all⟩) streams.honest (fun _ => rfl)
    change _ ++ ([] ++ s.conn.readBuf) = upstream (List.take s.conn.acknowledge.nextSeq _)
    rw [count, extended, ← bytes, empty, data]
    simp
  | selects empty => exact { streams with bytes := bytes, drained := fun _ _ => empty }

lemma Streams.receive {f} {rest : List DownResult} (selecting : s.reader = .selecting n)
    (served : Served s.server f) {next : Conn × Turn}
    (receives : Conn.Receives { s.conn with downCh := rest } (frameResult f) next) :
    Streams (s.settle n next) := by
  have bytes := streams.bytes
  have empty := streams.drained n selecting
  have unselected : ∀ {c : Conn} (m : Nat), (s.settle n (c, .again)).reader ≠ .selecting m := nofun
  cases receives with
  | late last stale =>
    have stale : f.seq < s.conn.nextSeq := stale
    have known := agrees.produced_of_served served
    have upper := agrees.nextSeq_le few
    have all := (agrees.sound.numbered.eof_last (agrees.index few known).1 last).1
    refine streams.returns n ?_ (fun _ => ⟨⟨f, known, last⟩, empty, ?_⟩) streams.honest
      (fun _ => rfl)
    · exact bytes
    · change s.conn.nextSeq = _
      omega
  | ending last | ignores | stores more =>
    exact { streams with bytes := bytes, drained := fun m same => absurd same (unselected m) }
  | expected more same =>
    have more : f.eof = false := more
    obtain ⟨count, extended, -⟩ := expected_bytes agrees few served same
    refine ⟨?_, fun m same => absurd same (unselected m),
      fun ended => absurd ended (streams.not_ended agrees few served same), streams.honest,
      streams.whole⟩
    change returned s.outcomes ++ (if f.eof then [] else f.data) =
      upstream (List.take s.conn.acknowledge.nextSeq s.server.session.produced)
    rw [count, extended, ← bytes, empty, append_nil, more]
    rfl

lemma Streams.reader {l} (moved : stepReader s l = some s') : Streams s' := by
  have bytes := streams.bytes
  cases l <;> simp only [stepReader] at moved
  case read n =>
    split at moved
    · next idle =>
        split_ifs at moved <;> cases moved
        · refine { streams with bytes := ?_, whole := streams.whole.snoc (by simp) }
          rw [returned_snoc]
          simpa [outcomeBytes] using bytes
        · exact { streams with bytes := bytes, drained := by simp }
    · cases moved
  case turn =>
    split at moved
    · cases moved
      exact streams.turn agrees few (Conn.heads_loopHead _ _)
    · cases moved
  case takeResult =>
    split at moved
    · next n res rest selecting queue =>
        cases moved
        obtain ⟨f, served, rfl⟩ := agrees.holds.results res (by rw [queue]; simp)
        exact streams.receive agrees few selecting served (Conn.receives_receive _ _)
    · cases moved
  case takeErr =>
    split at moved
    · next n e rest selecting queue =>
        cases moved
        have honest := streams.honest
        rw [queue, mem_cons, not_or] at honest
        refine streams.returns n bytes streams.ended honest.2 ?_
        intro same
        have same := Outcome.error.inj same
        split_ifs at same
        exact absurd same.symm honest.1
    · cases moved
  case takeDone =>
    split at moved
    · next n selecting =>
        by_cases done : s.conn.done = true
        · rw [if_pos done] at moved
          cases moved
          refine streams.returns n bytes streams.ended streams.honest ?_
          intro same
          by_contra more
          rw [if_neg more] at same
          cases same
        · rw [if_neg done] at moved
          cases moved
    · cases moved
  case expire =>
    split at moved
    · next n selecting =>
        cases moved
        exact streams.returns n bytes streams.ended streams.honest (by simp)
    · cases moved
end

lemma Streams.step {l} (streams : Streams s) (agrees : Agrees cfg s) (clean : NoCleanCut cfg s l)
    (moved : step cfg s l = some s') (few : s'.Few) :
    Streams s' := by
  have before := few_of_step moved few
  cases l with
  | server l =>
    obtain ⟨server, -, inner, rfl⟩ := step_server moved
    exact streams.server agrees before inner
  | poll l => exact streams.poll agrees before clean moved
  | reader l => exact streams.reader agrees before moved
end

/-- In every run without a clean cut, the bytes returned by `Read` are a prefix of the bytes the
producer read, and `io.EOF` is returned only after all of them. -/
theorem reads_prefix_until_eof (cfg : Config) {ls : List Label} {t : State}
    (clean : Meets (step cfg) (NoCleanCut cfg) start ls)
    (arrive : run (step cfg) start ls = some t)
    (few : t.server.session.produced.length < 2 ^ 32) :
    returned t.outcomes <+: upstream t.server.session.produced ∧
      EndsWhole t.server.session.produced t.outcomes := by
  obtain ⟨-, streams⟩ := run_agreeing (fun agrees streams clean moved few =>
    streams.step agrees clean moved few) streams_start clean arrive few
  refine ⟨?_, streams.whole⟩
  have shown : returned t.outcomes <+: upstream (t.server.session.produced.take t.conn.nextSeq) :=
    ⟨t.conn.readBuf, streams.bytes⟩
  refine shown.trans ?_
  obtain ⟨rest, split⟩ := take_prefix t.conn.nextSeq t.server.session.produced
  conv_rhs => rw [← split]
  simp [upstream]

def wholeSession : List Label :=
  [.server (.read [7]), .server .send, .server .fail, .server .send] ++ exchange 0 0 ++
    readBack 0 7 ++ exchange 1 1 ++ readBack 1 6

instance (cfg : Config) (s : State) (l : Label) : Decidable (NoCleanCut cfg s l) := by
  unfold NoCleanCut
  split <;> infer_instance

theorem reads_prefix_until_eof_session : ∃ t, run (step plainConfig) start wholeSession = some t ∧
      t.server.session.produced.length < 2 ^ 32 ∧
      returned t.outcomes <+: upstream t.server.session.produced ∧
      EndsWhole t.server.session.produced t.outcomes := by
  refine Machine.Runs.exists_some_and (by decide +kernel) fun t arrive few => ?_
  exact reads_prefix_until_eof plainConfig (by decide +kernel) arrive few

def lostAnswer : List Label :=
  [.server (.read [7]), .server .send] ++ exchange 0 0 ++
    [.poll (.reply 0 (.handler 0) zeroNonce 0 .closed), .reader (.read 10), .reader .turn,
      .reader .takeErr]

theorem eof_before_data : ¬ ∀ ls t, run (step plainConfig) start ls = some t →
      t.server.session.produced.length < 2 ^ 32 →
      returned t.outcomes <+: upstream t.server.session.produced ∧
        EndsWhole t.server.session.produced t.outcomes := by
  intro always
  obtain ⟨t, arrive, produced, outcomes⟩ : ∃ t,
      run (step plainConfig) start lostAnswer = some t ∧
        t.server.session.produced = [⟨0, [7], false⟩] ∧ t.outcomes = [.error .eof] := by
    decide +kernel
  have whole := (always lostAnswer t arrive (by rw [produced]; decide)).2
  obtain ⟨-, all⟩ := whole [] [] outcomes
  rw [produced] at all
  exact absurd all (by decide)

/-- In every interleaving, no ack that is on its way or has arrived is past the frame that the
reader waits for, and the server has answered with every frame before that one. -/
theorem acks_behind_reader (cfg : Config) {ls : List Label} {t : State}
    (arrive : run (step cfg) start ls = some t)
    (few : t.server.session.produced.length < 2 ^ 32) :
    (∀ ack ∈ t.requests, ack ≤ t.conn.nextSeq) ∧
      (∀ h ∈ t.server.handlers, h.ack ≤ t.conn.nextSeq) ∧
      ∀ n < t.conn.nextSeq, ∃ f, Served t.server f ∧ f.seq = n := by
  have agrees : Agrees cfg t := invariant_of_small (fun _ _ _ moved few => few_of_step moved few)
    (fun _ _ _ agrees _ moved few => agrees.step moved few) (agrees_start cfg)
    (Machine.Runs.meets_of_forall (fun _ _ => trivial) _ _) arrive few
  exact ⟨agrees.requested, agrees.asked, agrees.holds.counted⟩

theorem acks_behind_reader_session : ∃ t, run (step plainConfig) start wholeSession = some t ∧
      t.server.session.produced.length < 2 ^ 32 ∧
      ∀ h ∈ t.server.handlers, h.ack ≤ t.conn.nextSeq :=
  Machine.Runs.exists_some_and (by decide +kernel) fun _ arrive few =>
    (acks_behind_reader plainConfig arrive few).2.1
end Stream
end Tamizdat.FragPoC
