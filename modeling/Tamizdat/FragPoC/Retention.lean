/- source: internal/transport/fragpoc/server.go
   digest: When the replay ring keeps the frame a client still needs, and how soon a client that
           keeps polling for it is answered. -/

import Tamizdat.FragPoC.Server
import Tamizdat.Machine.Runs

set_option autoImplicit false

open List Option
namespace Tamizdat.FragPoC.Retention
open FragPoC.Wire FragPoC.Server
open Machine.Circular (Ring mem_push_self mem_push_of_mem entries_push_of_lt
  entries_push_of_full length_entries)
open Machine.Pool (forall_set total total_nil total_append
  total_singleton total_set)
open Machine.Runs (run run_nil run_cons_some Meets run_invariant
  invariant_of_meets)
open Session (offer shouldRetransmit)
variable (sess : Session)
def Obtainable (f : DownFrame) : Prop :=
  f ∈ sess.frameCh ∨ sess.producer = .sending f ∨ f ∈ sess.replay.entries

/-- Every produced frame that the highest received ack does not cover can still be had. -/
def Retains : Prop := ∀ f ∈ sess.produced, sess.lastRetransmitAck ≤ f.seq → Obtainable sess f

/-- The producer does not overwrite a frame at or past the highest received ack. -/
def KeepsUnacked (s : State) : Label → Prop
  | .read _ | .fail => s.session.replay.len = replayRingSize →
      ∀ oldest rest, s.session.replay.entries = oldest :: rest →
        oldest.seq < s.session.lastRetransmitAck
  | _ => True

instance (s : State) (l : Label) : Decidable (KeepsUnacked s l) := by
  have produce : Decidable (s.session.replay.len = replayRingSize → ∀ oldest rest,
      s.session.replay.entries = oldest :: rest → oldest.seq < s.session.lastRetransmitAck) :=
    decidable_of_iff (s.session.replay.len = replayRingSize →
        ∀ oldest ∈ s.session.replay.entries.head?, oldest.seq < s.session.lastRetransmitAck)
      (by
        refine forall_congr' fun _ => ⟨?_, ?_⟩
        · intro spared oldest rest entries
          exact spared oldest (by rw [entries]; rfl)
        · intro spared oldest head
          obtain ⟨rest, entries⟩ := head?_eq_some_iff.mp head
          exact spared oldest rest entries)
  cases l
  · exact produce
  · exact produce
  all_goals exact isTrue trivial

def Ringed (s : State) : Prop :=
  ∀ f ∈ s.session.produced, s.session.lastRetransmitAck ≤ f.seq → f ∈ s.session.replay.entries

lemma shouldRetransmit_mono (ack : Nat) :
    sess.lastRetransmitAck ≤ (sess.shouldRetransmit ack).1.lastRetransmitAck := by
  unfold shouldRetransmit
  split_ifs with above
  · exact above.le
  · exact le_rfl
  · exact le_rfl

variable {sess sess' : Session} {ack : Nat} {stage stage' : Stage}
lemma advances_mono (moved : Advances sess ack stage sess' stage') :
    sess.lastRetransmitAck ≤ sess'.lastRetransmitAck := by
  cases moved with
  | enter => exact shouldRetransmit_mono sess ack
  | putBack =>
    unfold offer
    split_ifs <;> exact le_rfl
  | _ => exact le_rfl

variable {l : Label}
variable {s' t : State} {f : DownFrame} {w w' i : Nat} {h : Handler}
variable {limit : Nat}
lemma ringed_step {s} (ringed : Ringed s) (keeps : KeepsUnacked s l)
    (moved : step limit s l = some s') : Ringed s' := by
  have produce : ∀ frame seq, (s.session.replay.len = replayRingSize →
      ∀ oldest rest, s.session.replay.entries = oldest :: rest →
        oldest.seq < s.session.lastRetransmitAck) →
      Ringed { s with session := s.session.produce frame seq } := by
    intro frame seq spared f member unacked
    rcases mem_append.mp member with old | new
    · refine mem_push_of_mem (ringed f old unacked) ?_
      intro full rest oldest
      have acked := spared full f rest oldest
      have above : s.session.lastRetransmitAck ≤ f.seq := unacked
      omega
    · rw [mem_singleton.mp new]
      exact mem_push_self _
  cases l with
  | read chunk =>
    obtain ⟨frame, seq, -, -, rfl⟩ := step_produce (.inl ⟨chunk, rfl⟩) moved
    exact produce frame seq keeps
  | fail =>
    obtain ⟨frame, seq, -, -, rfl⟩ := step_produce (.inr rfl) moved
    exact produce frame seq keeps
  | send =>
    obtain ⟨frame, -, -, rfl⟩ := step_send moved
    exact ringed
  | giveUp =>
    obtain ⟨frame, -, rfl⟩ := step_giveUp moved
    exact ringed
  | serve ack =>
    rw [step_serve moved]
    exact ringed
  | handle i wake =>
    obtain ⟨h, sess, stage, -, advances, rfl⟩ := step_handle moved
    obtain ⟨-, -, replay, produced⟩ := advances.frame
    intro f member unacked
    have above := (advances_mono advances).trans unacked
    rw [produced] at member
    rw [replay]
    exact ringed f member above

lemma ringed_start : Ringed State.start := nofun

lemma retains_of_ringed {s} (ringed : Ringed s) : Retains s.session :=
  fun f member unacked => .inr (.inr (ringed f member unacked))

lemma advances_bounded (bounded : sess.frameCh.length ≤ frameChCap)
    (moved : Advances sess ack stage sess' stage') : sess'.frameCh.length ≤ frameChCap := by
  cases moved with
  | enter =>
    unfold shouldRetransmit
    split_ifs <;> exact bounded
  | take _ queue | drain queue =>
    rw [queue, length_cons] at bounded
    exact Nat.le_of_succ_le bounded
  | putBack =>
    unfold offer
    split_ifs with room
    · simp only [length_append, length_singleton]
      omega
    · exact bounded
  | _ => exact bounded

lemma channel_bounded {s} (bounded : s.session.frameCh.length ≤ frameChCap)
    (moved : step limit s l = some s') : s'.session.frameCh.length ≤ frameChCap := by
  cases l with
  | read chunk =>
    obtain ⟨frame, seq, -, -, rfl⟩ := step_produce (.inl ⟨chunk, rfl⟩) moved
    exact bounded
  | fail =>
    obtain ⟨frame, seq, -, -, rfl⟩ := step_produce (.inr rfl) moved
    exact bounded
  | send =>
    obtain ⟨frame, -, room, rfl⟩ := step_send moved
    simp only [length_append, length_singleton]
    omega
  | giveUp =>
    obtain ⟨frame, -, rfl⟩ := step_giveUp moved
    exact bounded
  | serve ack =>
    rw [step_serve moved]
    exact bounded
  | handle i wake =>
    obtain ⟨h, sess, stage, -, advances, rfl⟩ := step_handle moved
    exact advances_bounded bounded advances

lemma findReplay_exact (member : f ∈ sess.replay.entries) :
    ∃ rf, sess.findReplay f.seq = some rf ∧ rf.seq = f.seq := by
  have present : (sess.replay.entries.find? (fun g => g.seq == f.seq)).isSome := by
    rw [find?_isSome]
    exact ⟨f, member, beq_self_eq_true _⟩
  obtain ⟨rf, found⟩ := isSome_iff_exists.mp present
  refine ⟨rf, ?_, ?_⟩
  · rw [Session.findReplay, found, some_or, some_or]
  · simpa using find?_some found

def rank : Stage → Nat
  | .entered => 6
  | .polling _ => 5
  | .replaying _ => 4
  | .waiting _ => 3
  | .received _ _ => 2
  | .draining => 2
  | .puttingBack _ _ => 1
  | .fallback => 1
  | .answered _ => 0

lemma rank_decreases (moved : Advances sess ack stage sess' stage') : rank stage' < rank stage := by
  cases moved with
  | take before queue => rcases before with rfl | rfl <;> simp [rank]
  | replay before found => rcases before with ⟨shouldRT, rfl⟩ | rfl <;> simp [rank]
  | _ => simp [rank]

def load (h : Handler) : Nat :=
  match h.stage with
  | .received _ _ => 1
  | .puttingBack _ _ => 1
  | _ => 0

/-- What a poll for frame `k` may still cost: one if it is or can end up without that frame. -/
def cost (k : Nat) (h : Handler) : Nat :=
  match h.stage with
  | .polling shouldRT => if shouldRT then 0 else 1
  | .replaying shouldRT => if shouldRT then 0 else 1
  | .received _ _ => 1
  | .puttingBack _ _ => 1
  | .answered (.frame f) => if f.seq = k then 0 else 1
  | .answered _ => 1
  | _ => 0

def OnTrack (k : Nat) : Stage → Prop
  | .waiting _ => False
  | .draining => False
  | .fallback => False
  | .puttingBack _ rf => rf.seq = k
  | _ => True

/-- Polls for `k` that can still be answered before a retransmission is due. -/
def slack (k : Nat) (sess : Session) : Nat :=
  if sess.lastRetransmitAck = k then retransmitAfter - sess.servedSinceAck else retransmitAfter

def inHand (sess : Session) : Nat :=
  match sess.producer with
  | .sending _ => 1
  | _ => 0

/-- A client that needs frame `k` polls for it: `old` are the handlers from before, `polls` its
polls so far, and `newer` counts the frames behind frame `k` in the ring. -/
structure Pursuit (k budget : Nat) (old polls : List Handler) (newer : Nat) (u : State) : Prop where
  handlers : u.handlers = old ++ polls
  bounded : ∀ h ∈ old, h.ack ≤ k
  onTrack : ∀ h ∈ polls, h.ack = k ∧ OnTrack k h.stage
  unacked : u.session.lastRetransmitAck ≤ k
  ringed : ∃ pre f post, u.session.replay.entries = pre ++ f :: post ∧ f.seq = k ∧
    post.length = newer
  within : total load old + total (cost k) polls + u.session.frameCh.length +
    inHand u.session + (replayRingSize - 1 - newer) + slack k u.session ≤ budget

variable {k budget newer : Nat} {old polls : List Handler} {u : State}
lemma Pursuit.exact (pursuit : Pursuit k budget old polls newer u) :
    ∃ rf, u.session.findReplay k = some rf ∧ rf.seq = k := by
  obtain ⟨pre, f, post, entries, rfl, -⟩ := pursuit.ringed
  exact findReplay_exact (by rw [entries]; simp)

lemma slack_shouldRetransmit (unacked : sess.lastRetransmitAck ≤ k) (below : ack ≤ k) :
    (sess.shouldRetransmit ack).1.lastRetransmitAck ≤ k ∧
      slack k (sess.shouldRetransmit ack).1 ≤ slack k sess := by
  unfold shouldRetransmit slack
  split_ifs <;> constructor <;> dsimp only at * <;> omega

lemma slack_poll (unacked : sess.lastRetransmitAck ≤ k) :
    slack k (sess.shouldRetransmit k).1 + cost k ⟨k, .polling (sess.shouldRetransmit k).2⟩ ≤
      slack k sess := by
  have window : retransmitAfter = 16 := rfl
  rcases Nat.lt_or_eq_of_le unacked with before | here
  · have first : sess.shouldRetransmit k =
        ({ sess with lastRetransmitAck := k, servedSinceAck := 1 }, false) := if_pos before
    rw [first]
    simp only [slack, cost, before.ne, if_true, if_false, Bool.false_eq_true]
    omega
  · have again : sess.shouldRetransmit k = ({ sess with servedSinceAck := sess.servedSinceAck + 1 },
          decide (retransmitAfter < sess.servedSinceAck + 1)) := by
      rw [shouldRetransmit, if_neg (by omega), if_pos here.symm]
    rw [again]
    simp only [slack, cost, here, if_true, decide_eq_true_eq]
    split_ifs <;> omega

def share (k : Nat) (sess : Session) (w : Nat) : Nat := w + sess.frameCh.length + slack k sess

lemma share_take {frame rest} (queue : sess.frameCh = frame :: rest) (one : w' ≤ w + 1) :
    share k { sess with frameCh := rest } w' ≤ share k sess w := by
  have length : sess.frameCh.length = rest.length + 1 := by rw [queue, length_cons]
  have same : slack k { sess with frameCh := rest } = slack k sess := rfl
  simp only [share, same]
  omega

lemma share_offer (k : Nat) (sess : Session) (frame : DownFrame) :
    share k (sess.offer frame) 0 ≤ share k sess 1 := by
  unfold offer
  split_ifs with room
  · have same : slack k { sess with frameCh := sess.frameCh ++ [frame] } = slack k sess := rfl
    simp only [share, same, length_append, length_singleton]
    omega
  · simp only [share]
    omega

lemma share_mono (sess : Session) (less : w' ≤ w) : share k sess w' ≤ share k sess w := by
  unfold share
  omega

lemma offer_last (sess : Session) (frame : DownFrame) :
    (sess.offer frame).lastRetransmitAck = sess.lastRetransmitAck := by
  unfold offer
  split_ifs <;> rfl

lemma old_budget (unacked : sess.lastRetransmitAck ≤ k) (below : ack ≤ k)
    (moved : Advances sess ack stage sess' stage') :
    sess'.lastRetransmitAck ≤ k ∧
      share k sess' (load ⟨ack, stage'⟩) ≤ share k sess (load ⟨ack, stage⟩) := by
  cases moved with
  | enter =>
    obtain ⟨still, less⟩ := slack_shouldRetransmit unacked below
    simp only [share, load, sess.frameCh_shouldRetransmit]
    omega
  | take before queue =>
    refine ⟨unacked, share_take queue ?_⟩
    rcases before with rfl | rfl <;> simp [load]
  | drain queue => exact ⟨unacked, share_take queue (by simp [load])⟩
  | putBack => exact ⟨(offer_last sess _).trans_le unacked, share_offer k sess _⟩
  | replay before found =>
    refine ⟨unacked, share_mono sess ?_⟩
    rcases before with ⟨shouldRT, rfl⟩ | rfl <;> simp [load]
  | _ => exact ⟨unacked, share_mono sess (by simp [load])⟩

lemma poll_budget (unacked : sess.lastRetransmitAck ≤ k) (onTrack : OnTrack k stage)
    (exactly : ∃ rf, sess.findReplay k = some rf ∧ rf.seq = k)
    (moved : Advances sess k stage sess' stage') :
    sess'.lastRetransmitAck ≤ k ∧ OnTrack k stage' ∧
      share k sess' (cost k ⟨k, stage'⟩) ≤ share k sess (cost k ⟨k, stage⟩) := by
  obtain ⟨exactFrame, present, number⟩ := exactly
  cases moved with
  | enter =>
    have spent := slack_poll unacked
    refine ⟨(slack_shouldRetransmit unacked le_rfl).1, trivial, ?_⟩
    have free : cost k ⟨k, .entered⟩ = 0 := rfl
    simp only [share, sess.frameCh_shouldRetransmit, free]
    omega
  | take before queue => exact ⟨unacked, trivial, share_take queue (by simp [cost])⟩
  | miss empty => exact ⟨unacked, trivial, le_rfl⟩
  | keep =>
    refine ⟨unacked, trivial, share_mono sess ?_⟩
    simp only [cost]
    split_ifs <;> omega
  | divert far found same => exact ⟨unacked, same, le_rfl⟩
  | @putBack frame rf =>
    have same : rf.seq = k := onTrack
    refine ⟨(offer_last sess frame).trans_le unacked, trivial, ?_⟩
    simp only [cost, same, if_true]
    exact share_offer k sess frame
  | replay before found =>
    have same : _ = k := (some.inj (found.symm.trans present)).symm ▸ number
    refine ⟨unacked, trivial, share_mono sess ?_⟩
    simp only [cost, same, if_true]
    exact Nat.zero_le _
  | await absent =>
    rw [absent] at present
    cases present
  | wake | drain queue | fall empty | idle absent => exact onTrack.elim

lemma push_behind {ring : Ring DownFrame replayRingSize} {pre post : List DownFrame}
    (entries : ring.entries = pre ++ f :: post) (frame : DownFrame)
    (spared : ring.len = replayRingSize → ∀ rest, ring.entries ≠ f :: rest) :
    post.length + 1 < replayRingSize ∧
      ∃ pre', (ring.push frame).entries = pre' ++ f :: (post ++ [frame]) := by
  have count : pre.length + post.length + 1 = ring.len := by
    rw [← length_entries, entries, length_append, length_cons]
    omega
  rcases Nat.lt_or_ge ring.len replayRingSize with room | full
  · refine ⟨by omega, pre, ?_⟩
    rw [entries_push_of_lt room, entries, append_assoc, cons_append]
  · have full := le_antisymm ring.len_le full
    cases pre with
    | nil => exact absurd entries (spared full post)
    | cons g pre =>
      rw [length_cons] at count
      refine ⟨by omega, pre, ?_⟩
      rw [entries_push_of_full full, entries, cons_append, tail_cons, append_assoc, cons_append]

section
variable (pursuit : Pursuit k budget old polls newer u)
include pursuit
lemma Pursuit.produce (spared : u.session.replay.len = replayRingSize → ∀ oldest rest,
      u.session.replay.entries = oldest :: rest → oldest.seq < u.session.lastRetransmitAck)
    (frame : DownFrame) (seq : Nat) :
    Pursuit k budget old polls (newer + 1)
      { u with session := u.session.produce frame seq } := by
  obtain ⟨pre, f, post, entries, number, length⟩ := pursuit.ringed
  have unacked := pursuit.unacked
  obtain ⟨fits, pre', behind⟩ := push_behind entries frame (by
    intro full rest oldest
    have acked := spared full f rest oldest
    omega)
  refine ⟨pursuit.handlers, pursuit.bounded, pursuit.onTrack, pursuit.unacked,
    ⟨pre', f, post ++ [frame], behind, number, by simp [length]⟩, ?_⟩
  have within := pursuit.within
  have busy : inHand (u.session.produce frame seq) = 1 := rfl
  have same : slack k (u.session.produce frame seq) = slack k u.session := rfl
  have queue : (u.session.produce frame seq).frameCh = u.session.frameCh := rfl
  simp only [busy, same, queue]
  omega

lemma Pursuit.handle_old
    (here : old[i]? = some h) (moved : Advances u.session h.ack h.stage sess stage) :
    Pursuit k budget (old.set i { h with stage := stage }) polls newer
      ⟨sess, u.handlers.set i { h with stage := stage }⟩ := by
  have below := pursuit.bounded h (mem_of_getElem? here)
  obtain ⟨unacked, less⟩ := old_budget pursuit.unacked below moved
  obtain ⟨producer, -, replay, -⟩ := moved.frame
  have inside : i < old.length := Machine.lt_of_getElem? here
  refine ⟨?_, ?_, pursuit.onTrack, unacked, ?_, ?_⟩
  · rw [pursuit.handlers]
    exact set_append_left i _ inside
  · exact forall_set pursuit.bounded below
  · rw [replay]
    exact pursuit.ringed
  · have within := pursuit.within
    have trade := total_set load here { h with stage := stage }
    have hand : inHand sess = inHand u.session := by rw [inHand, inHand, producer]
    simp only [share] at less
    dsimp only at trade ⊢
    have weight : load h = load ⟨h.ack, h.stage⟩ := rfl
    omega

lemma Pursuit.handle_poll
    (here : polls[i]? = some h) (moved : Advances u.session h.ack h.stage sess stage) :
    Pursuit k budget old (polls.set i { h with stage := stage }) newer
      ⟨sess, u.handlers.set (old.length + i) { h with stage := stage }⟩ := by
  obtain ⟨ack, onTrack⟩ := pursuit.onTrack h (mem_of_getElem? here)
  rw [ack] at moved
  obtain ⟨unacked, onTrack', less⟩ := poll_budget pursuit.unacked onTrack pursuit.exact moved
  obtain ⟨producer, -, replay, -⟩ := moved.frame
  refine ⟨?_, pursuit.bounded, ?_, unacked, ?_, ?_⟩
  · rw [pursuit.handlers]
    rw [set_append_right _ _ (Nat.le_add_right _ _), Nat.add_sub_cancel_left]
  · exact forall_set pursuit.onTrack ⟨ack, onTrack'⟩
  · rw [replay]
    exact pursuit.ringed
  · have within := pursuit.within
    have trade := total_set (cost k) here { h with stage := stage }
    have hand : inHand sess = inHand u.session := by rw [inHand, inHand, producer]
    have weight : cost k h = cost k ⟨k, h.stage⟩ := rfl
    have weight' : cost k { h with stage := stage } = cost k ⟨k, stage⟩ := rfl
    simp only [share] at less
    dsimp only at trade ⊢
    omega
end

def PollsFor (k : Nat) (l : Label) : Prop := ∀ ack, l = .serve ack → ack = k

lemma Pursuit.rehand {queue producer} (pursuit : Pursuit k budget old polls newer u)
    (within : queue.length + inHand { u.session with frameCh := queue, producer } ≤
      u.session.frameCh.length + inHand u.session) :
    Pursuit k budget old polls newer
      { u with session := { u.session with frameCh := queue, producer } } := by
  refine { pursuit with within := ?_ }
  have before := pursuit.within
  dsimp only [slack] at before within ⊢
  omega

lemma Pursuit.step {u'} (pursuit : Pursuit k budget old polls newer u) (keeps : KeepsUnacked u l)
    (polling : PollsFor k l) (moved : step limit u l = some u') :
    ∃ old' polls' newer', old'.length = old.length ∧ Pursuit k budget old' polls' newer' u' := by
  cases l with
  | read chunk =>
    obtain ⟨frame, seq, -, reading, rfl⟩ := step_produce (.inl ⟨chunk, rfl⟩) moved
    exact ⟨old, polls, newer + 1, rfl, pursuit.produce keeps frame seq⟩
  | fail =>
    obtain ⟨frame, seq, -, reading, rfl⟩ := step_produce (.inr rfl) moved
    exact ⟨old, polls, newer + 1, rfl, pursuit.produce keeps frame seq⟩
  | send =>
    obtain ⟨frame, sending, room, rfl⟩ := step_send moved
    refine ⟨old, polls, newer, rfl, pursuit.rehand ?_⟩
    rw [length_append]
    simp only [inHand, sending, Producer.next]
    cases frame.eof <;> rfl
  | giveUp =>
    obtain ⟨frame, sending, rfl⟩ := step_giveUp moved
    exact ⟨old, polls, newer, rfl, pursuit.rehand (Nat.add_le_add_left (Nat.zero_le _) _)⟩
  | serve ack =>
    obtain rfl := polling ack rfl
    rw [step_serve moved]
    refine ⟨old, polls ++ [⟨ack, .entered⟩], newer, rfl, ?_, pursuit.bounded, ?_,
      pursuit.unacked, pursuit.ringed, ?_⟩
    · rw [pursuit.handlers, append_assoc]
    · exact Machine.Pool.forall_snoc pursuit.onTrack ⟨rfl, trivial⟩
    · have within := pursuit.within
      have free : cost ack ⟨ack, .entered⟩ = 0 := rfl
      rw [total_append, total_singleton, free]
      exact within
  | handle i wake =>
    obtain ⟨h, sess, stage, here, advances, rfl⟩ := step_handle moved
    rw [pursuit.handlers] at here
    rcases Nat.lt_or_ge i old.length with before | after
    · rw [getElem?_append_left before] at here
      exact ⟨_, polls, newer, length_set, pursuit.handle_old here advances⟩
    · rw [getElem?_append_right after] at here
      obtain ⟨j, rfl⟩ := Nat.exists_eq_add_of_le after
      rw [Nat.add_sub_cancel_left] at here
      exact ⟨old, _, newer, rfl, pursuit.handle_poll here advances⟩

lemma Pursuit.run {later} (pursuit : Pursuit k budget old polls newer t)
    (keeps : Meets (Server.step limit) KeepsUnacked t later) (polling : ∀ l ∈ later, PollsFor k l)
    (arrive : run (Server.step limit) t later = some u) :
    ∃ old' polls' newer', old'.length = old.length ∧ Pursuit k budget old' polls' newer' u := by
  induction later generalizing t old polls newer with
  | nil =>
    rw [run_nil, some.injEq] at arrive
    exact ⟨old, polls, newer, rfl, arrive ▸ pursuit⟩
  | cons l later ih =>
    obtain ⟨m, first, rest⟩ := run_cons_some arrive
    obtain ⟨old₁, polls₁, newer₁, length₁, pursuit₁⟩ :=
      pursuit.step keeps.1 (polling l mem_cons_self) first
    obtain ⟨old₂, polls₂, newer₂, length₂, pursuit₂⟩ := ih pursuit₁ (keeps.2 m first)
      (fun l member => polling l (mem_cons_of_mem _ member)) rest
    exact ⟨old₂, polls₂, newer₂, length₂.trans length₁, pursuit₂⟩

def answered (h : Handler) : Bool :=
  match h.stage with
  | .answered _ => true
  | _ => false

def gets (k : Nat) (h : Handler) : Bool :=
  match h.stage with
  | .answered (.frame f) => f.seq == k
  | _ => false

lemma answered_le_cost (k : Nat) (h : Handler) (other : gets k h = false) :
    (if answered h then 1 else 0) ≤ cost k h := by
  unfold answered gets cost at *
  cases stage : h.stage with
  | answered response =>
    cases response with
    | frame f =>
      simp only [stage, beq_eq_false_iff_ne, ne_eq] at other
      simp [other]
    | _ => simp
  | _ => simp

lemma countP_answered_le (none : ∀ h ∈ polls, gets k h = false) :
    polls.countP answered ≤ total (cost k) polls := by
  induction polls with
  | nil => exact le_rfl
  | cons h polls ih =>
    have rest := ih (fun g member => none g (mem_cons_of_mem h member))
    have head := answered_le_cost k h (none h mem_cons_self)
    simp only [total, map_cons, sum_cons, countP_cons] at rest ⊢
    omega

lemma advance_onTrack (sess : Session) (onTrack : OnTrack k stage)
    (exactly : ∃ rf, sess.findReplay k = some rf ∧ rf.seq = k) (unfinished : rank stage ≠ 0) :
    ∃ next, advance sess k stage .go = some next := by
  obtain ⟨rf, found, -⟩ := exactly
  cases stage with
  | entered | received shouldRT frame | puttingBack frame rf => exact ⟨_, rfl⟩
  | polling shouldRT =>
    simp only [advance]
    cases sess.frameCh <;> exact ⟨_, rfl⟩
  | replaying shouldRT =>
    simp only [advance, found]
    exact ⟨_, rfl⟩
  | waiting shouldRT | draining | fallback => exact onTrack.elim
  | answered response => exact absurd rfl unfinished

def holding (t : State) : Nat := total load t.handlers

/-- What a client that keeps polling with `ack = k` is promised from state `t` on. Each of its
polls can always take its next action and has fewer left after it, and once more than
`64 + holding` of them have been answered, one was answered with frame `k`. -/
def Delivers (limit : Nat) (t : State) (k : Nat) : Prop :=
  ∀ later u, Meets (Server.step limit) KeepsUnacked t later → (∀ l ∈ later, PollsFor k l) →
    run (Server.step limit) t later = some u →
      (∀ i h, (u.handlers.drop t.handlers.length)[i]? = some h → rank h.stage ≠ 0 →
        ∃ u' h', Server.step limit u (.handle (t.handlers.length + i) .go) = some u' ∧
          u'.handlers[t.handlers.length + i]? = some h' ∧ rank h'.stage < rank h.stage) ∧
      (64 + holding t < (u.handlers.drop t.handlers.length).countP answered →
        ∃ h ∈ u.handlers.drop t.handlers.length, ∃ f, h.stage = .answered (.frame f) ∧ f.seq = k)

lemma Pursuit.delivers (pursuit : Pursuit k (64 + holding t) t.handlers [] newer t) :
    Delivers limit t k := by
  intro later u keeps polling arrive
  obtain ⟨old, polls, newer', length, reached⟩ := pursuit.run keeps polling arrive
  have recent : u.handlers.drop t.handlers.length = polls := by
    rw [reached.handlers, ← length, drop_left]
  rw [recent]
  constructor
  · intro i h here unfinished
    obtain ⟨ack, onTrack⟩ := reached.onTrack h (mem_of_getElem? here)
    obtain ⟨⟨sess, stage⟩, next⟩ := advance_onTrack u.session onTrack reached.exact unfinished
    have place : u.handlers[t.handlers.length + i]? = some h := by
      rw [reached.handlers, ← length, getElem?_append_right (Nat.le_add_right _ _),
        Nat.add_sub_cancel_left, here]
    refine ⟨⟨sess, u.handlers.set (t.handlers.length + i) { h with stage := stage }⟩,
      { h with stage := stage }, ?_, ?_, rank_decreases (advances_of_advance next)⟩
    · rw [Server.step, place]
      dsimp only
      rw [ack, next]
      rfl
    · have inside := Machine.lt_of_getElem? place
      rw [getElem?_set_self inside]
  · intro many
    by_contra missed
    have none : ∀ h ∈ polls, gets k h = false := by
      intro h member
      by_contra got
      rw [Bool.not_eq_false] at got
      unfold gets at got
      split at got
      · next f stage => exact missed ⟨h, member, f, stage, by simpa using got⟩
      · cases got
    have few := countP_answered_le none
    have within := reached.within
    omega

/-- In every run in which the producer never overwrites a frame at or past the highest received
ack, every such frame can still be had, and a client that keeps polling for a frame it has not
acknowledged gets it. -/
theorem retains_and_delivers (limit : Nat) {ls : List Label} {t : State}
    (keeps : Meets (Server.step limit) KeepsUnacked State.start ls)
    (arrive : run (Server.step limit) State.start ls = some t) :
    Retains t.session ∧
      ∀ k, (∃ f ∈ t.session.produced, f.seq = k) → t.session.lastRetransmitAck ≤ k →
        (∀ h ∈ t.handlers, h.ack ≤ k) → Delivers limit t k := by
  have ringed : Ringed t := invariant_of_meets ringed_step ringed_start keeps arrive
  have bounded : t.session.frameCh.length ≤ frameChCap :=
    run_invariant channel_bounded (Nat.zero_le _) arrive
  refine ⟨retains_of_ringed ringed, ?_⟩
  rintro k ⟨f, member, rfl⟩ unacked below
  obtain ⟨pre, post, entries⟩ := append_of_mem (ringed f member unacked)
  have room : slack f.seq t.session ≤ 16 := by
    have window : retransmitAfter = 16 := rfl
    unfold slack
    split_ifs <;> omega
  have hand : inHand t.session ≤ 1 := by
    unfold inHand
    split <;> omega
  have capacity : frameChCap = 16 := rfl
  have size : replayRingSize = 32 := rfl
  have pursuit : Pursuit f.seq (64 + holding t) t.handlers [] post.length t := by
    refine ⟨(append_nil _).symm, below, by simp, unacked, ⟨pre, f, post, entries, rfl, rfl⟩, ?_⟩
    rw [total_nil, holding]
    omega
  exact pursuit.delivers

/-- The first of two frames has been delivered, and the poll that acknowledges it is waiting. -/
def halfway : List Label :=
  [.read [7], .send, .read [8], .send, .serve 0, .handle 0 .go, .handle 0 .go, .serve 1,
    .handle 1 .go]

theorem retains_and_delivers_halfway : ∃ t, run (Server.step 480) State.start halfway = some t ∧
      t.session.lastRetransmitAck = 1 ∧ Retains t.session ∧ Delivers 480 t 1 := by
  obtain ⟨t, arrive, acked, last, below⟩ : ∃ t, run (Server.step 480) State.start halfway = some t ∧
      t.session.lastRetransmitAck = 1 ∧ (∃ f ∈ t.session.produced, f.seq = 1) ∧
      ∀ h ∈ t.handlers, h.ack ≤ 1 := by decide
  obtain ⟨retains, delivers⟩ := retains_and_delivers 480 (by decide) arrive
  exact ⟨t, arrive, acked, retains, delivers 1 last acked.le below⟩

def burst (n : Nat) : List Label := (List.range n).flatMap (fun i => [.read [UInt8.ofNat i], .send])

def serveZero (n : Nat) : List Label :=
  (List.range n).flatMap (fun i => [.serve 0, .handle i .go, .handle i .go, .handle i .go])

/-- Sixteen parallel polls take frames 0 to 15 before any ack, sixteen more frames fill the
channel, and the next one overwrites frame 0. -/
def outrun : List Label := burst 16 ++ serveZero 16 ++ burst 16 ++ [.read [32]]

def misses (s : State) : Bool :=
  s.session.produced.any (fun f => decide (s.session.lastRetransmitAck ≤ f.seq ∧
    f ∉ s.session.frameCh ∧ s.session.producer ≠ .sending f ∧ f ∉ s.session.replay.entries))

lemma outrun_misses : ((run (Server.step 480) State.start outrun).map misses) = some true := by
  decide +kernel

theorem ring_outruns_unacked :
    ¬ ∀ ls t, run (Server.step 480) State.start ls = some t → Retains t.session := by
  intro always
  obtain ⟨t, arrive, missing⟩ := map_eq_some_iff.mp outrun_misses
  obtain ⟨f, member, lost⟩ := List.any_eq_true.mp missing
  obtain ⟨unacked, queued, held, ringed⟩ := of_decide_eq_true lost
  rcases always outrun t arrive f member unacked with inside | inside | inside
  · exact queued inside
  · exact held inside
  · exact ringed inside
end Tamizdat.FragPoC.Retention
