/- source: internal/transport/fragpoc/server.go, internal/transport/fragpoc/client.go,
   internal/transport/fragpoc/secure.go
   digest: DOWN responses on the wire, and the session of the server that numbers their frames. -/

import Tamizdat.Machine.CyclicScan
import Tamizdat.Machine.Runs

open List
namespace Tamizdat.FragPoC
open Machine.Word (addW)
namespace Wire
open Machine.Bytes
def ackErr : UInt8 := 0xff
def payloadCeiling : Nat := 480

inductive NetErr
  | timeout | other
deriving DecidableEq

inductive Err
  | eof | unexpectedEOF | protocol
  | net (reason : NetErr)
  | deadlineExceeded | errClosed | schedulerStuck
deriving DecidableEq

def isTransientDownError : Err → Bool
  | .deadlineExceeded => true
  | .net .timeout => true
  | _ => false

structure DownFrame where
  seq : Nat
  data : List UInt8
  eof : Bool
deriving DecidableEq, Inhabited

def encodeDownFrame (frame : DownFrame) : List UInt8 :=
  if frame.eof then putBE 4 frame.seq ++ putBE 2 0xffff
  else putBE 4 frame.seq ++ (putBE 2 frame.data.length ++ frame.data)

structure DownResult where
  seq : Nat
  buf : List UInt8
  eof : Bool

def secureOverhead : Nat := 16
def secureNonceLen : Nat := 12

structure Aead where
  sealBody : List UInt8 → List UInt8 → List UInt8
  openBody : List UInt8 → List UInt8 → Option (List UInt8)
  open_seal : ∀ nonce plain, openBody nonce (sealBody nonce plain) = some plain
  length_seal : ∀ nonce plain, (sealBody nonce plain).length = plain.length + secureOverhead

structure Link where
  secure : Bool
  aead : Aead
  maxPayload : Nat

def readBlock (n : Nat) (conn : Incoming NetErr) : Except Err (List UInt8 × Incoming NetErr) :=
  match readFull n conn with
  | .full block rest => .ok (block, rest)
  | .eof => .error .eof
  | .unexpectedEOF => .error .unexpectedEOF
  | .failed reason => .error (.net reason)

def writeSecureBody (aead : Aead) (nonce plaintext : List UInt8) : List UInt8 :=
  if 0xffff < (aead.sealBody nonce plaintext).length then []
  else nonce ++ putBE 2 (aead.sealBody nonce plaintext).length ++ aead.sealBody nonce plaintext

def readSecureBody (aead : Aead) (plaintextLimit : Nat) (conn : Incoming NetErr) :
    Except Err (List UInt8) :=
  match readBlock (secureNonceLen + 2) conn with
  | .error e => .error e
  | .ok (hdr, rest) =>
    if plaintextLimit + secureOverhead < getBE (hdr.drop secureNonceLen) then .error .protocol
    else
      match readBlock (getBE (hdr.drop secureNonceLen)) rest with
      | .error e => .error e
      | .ok (body, _) =>
        match aead.openBody (hdr.take secureNonceLen) body with
        | none => .error .protocol
        | some plaintext =>
          if plaintextLimit < plaintext.length then .error .protocol else .ok plaintext

variable (l : Link)
def decodeDown (plain : List UInt8) (rest : Incoming NetErr) : Except Err DownResult :=
  if plain.length < 6 then .error .protocol
  else if getBE ((plain.drop 4).take 2) = 0xffff then .ok ⟨getBE (plain.take 4), [], true⟩
  else if l.maxPayload < getBE ((plain.drop 4).take 2) then .error .protocol
  else if getBE ((plain.drop 4).take 2) = 0 then .ok ⟨getBE (plain.take 4), [], false⟩
  else if l.secure then
    if plain.length ≠ 6 + getBE ((plain.drop 4).take 2) then .error .protocol
    else .ok ⟨getBE (plain.take 4), plain.drop 6, false⟩
  else
    match readBlock (getBE ((plain.drop 4).take 2)) rest with
    | .error e => .error e
    | .ok (buf, _) => .ok ⟨getBE (plain.take 4), buf, false⟩

def down (conn : Incoming NetErr) : Except Err DownResult :=
  if l.secure then
    match readSecureBody l.aead (6 + l.maxPayload) conn with
    | .error e => .error e
    | .ok plain => decodeDown l plain ⟨[], .closed⟩
  else
    match readBlock 6 conn with
    | .error e => .error e
    | .ok (plain, rest) => decodeDown l plain rest

inductive Response
  | frame (f : DownFrame)
  | idle (ack : Nat)
  | noSession | badRequest
deriving DecidableEq

def Response.body : Response → List UInt8
  | .frame f => encodeDownFrame f
  | .idle ack => putBE 4 ack ++ putBE 2 0
  | .noSession => [ackErr]
  | .badRequest => [ackErr]

def Response.wire (nonce : List UInt8) (r : Response) : List UInt8 :=
  if l.secure ∧ r ≠ .noSession then writeSecureBody l.aead nonce r.body else r.body

/-- The values a handler can answer with: fields fit their widths, chunks fit a payload. -/
def Response.Fits : Response → Prop
  | .frame f => f.seq < 2 ^ 32 ∧ f.data.length ≤ payloadCeiling
  | .idle ack => ack < 2 ^ 32
  | .noSession => True
  | .badRequest => True

def Response.result : Response → Option DownResult
  | .frame f => some ⟨f.seq, if f.eof then [] else f.data, f.eof⟩
  | .idle ack => some ⟨ack, [], false⟩
  | .noSession => none
  | .badRequest => none

def Link.headerLen : Nat := if l.secure then secureNonceLen + 2 else 6

/-- The peer ends the connection cleanly between two blocks of an answer that is not complete. -/
def CleanCut (nonce : List UInt8) (r : Response) (m : Nat) (ending : Ending NetErr) : Prop :=
  ending = .closed ∧ m < (r.wire l nonce).length ∧ (m = 0 ∨ m = l.headerLen)
deriving Decidable

lemma readBlock_cut (positive : 0 < block.length) (rest : List UInt8) (m : Nat)
    (ending : Ending NetErr) :
    (block.length ≤ m ∧ readBlock block.length ⟨(block ++ rest).take m, ending⟩ =
      .ok (block, ⟨rest.take (m - block.length), ending⟩)) ∨
    (m < block.length ∧ ∃ e, readBlock block.length ⟨(block ++ rest).take m, ending⟩ = .error e ∧
      (e = .eof → ending = .closed ∧ m = 0)) := by
  unfold readBlock
  rcases readFull_cut positive rest m ending with
    ⟨enough, result⟩ | ⟨short, closed, zero, result⟩ | ⟨short, result | ⟨reason, result⟩⟩ <;>
    rw [result]
  · exact .inl ⟨enough, rfl⟩
  · exact .inr ⟨short, .eof, rfl, fun _ => ⟨closed, zero⟩⟩
  · exact .inr ⟨short, .unexpectedEOF, rfl, by simp⟩
  · exact .inr ⟨short, .net reason, rfl, by simp⟩

lemma readBlock_last (positive : 0 < block.length) (m : Nat) (ending : Ending NetErr) :
    (∃ rest, readBlock block.length ⟨block.take m, ending⟩ = .ok (block, rest)) ∨
    (m < block.length ∧ ∃ e, readBlock block.length ⟨block.take m, ending⟩ = .error e ∧
      (e = .eof → ending = .closed ∧ m = 0)) := by
  have cut := readBlock_cut positive [] m ending
  rw [append_nil] at cut
  rcases cut with ⟨-, result⟩ | failed
  · exact .inl ⟨_, result⟩
  · exact .inr failed

lemma readBlock_ackErr (more : 1 < n) (m : Nat) (ending : Ending NetErr) :
    ∃ e, readBlock n ⟨[ackErr].take m, ending⟩ = .error e ∧
      (e = .eof → ending = .closed ∧ m = 0) := by
  have short : ¬ n ≤ ([ackErr].take m).length := by
    rw [length_take, length_singleton]
    omega
  unfold readBlock readFull
  rw [if_neg short]
  cases ending with
  | failed reason => exact ⟨.net reason, rfl, by simp⟩
  | closed =>
    cases m with
    | zero => exact ⟨.eof, rfl, fun _ => ⟨rfl, rfl⟩⟩
    | succ m => exact ⟨.unexpectedEOF, rfl, by simp⟩

section
variable (seq n : Nat) (data : List UInt8)
lemma header_seq (fits : seq < 2 ^ 32) :
    getBE ((putBE 4 seq ++ (putBE 2 n ++ data)).take 4) = seq := by
  rw [take_left' (length_putBE 4 seq)]
  exact getBE_putBE fits

lemma header_count (fits : n < 2 ^ 16) :
    getBE (((putBE 4 seq ++ (putBE 2 n ++ data)).drop 4).take 2) = n := by
  rw [drop_left' (length_putBE 4 seq), take_left' (length_putBE 2 n)]
  exact getBE_putBE fits

lemma header_rest : (putBE 4 seq ++ (putBE 2 n ++ data)).drop 6 = data := by
  rw [← append_assoc]
  exact drop_left' (by simp)

lemma header_long : ¬ (putBE 4 seq ++ (putBE 2 n ++ data)).length < 6 := by
  rw [length_append, length_append, length_putBE, length_putBE]
  omega
end

/-- What reading an answer can come to: its result, or an error that is `eof` only at a clean
cut. -/
def Response.ReadsAs (r : Response) (cut : Prop) (outcome : Except Err DownResult) : Prop :=
  (∃ res, r.result = some res ∧ outcome = .ok res) ∨ ∃ e, outcome = .error e ∧ (e = .eof → cut)

variable {r : Response}
lemma Response.readsAs_error (harmless : e ≠ .eof) : r.ReadsAs cut (.error e) :=
  .inr ⟨e, rfl, fun same => absurd same harmless⟩

lemma decodeDown_eof (l : Link) (fits : seq < 2 ^ 32) (rest : Incoming NetErr) :
    decodeDown l (putBE 4 seq ++ putBE 2 0xffff) rest = .ok ⟨seq, [], true⟩ := by
  have long := header_long seq 0xffff []
  have number := header_seq seq 0xffff [] fits
  have count := header_count seq 0xffff [] (by decide)
  rw [append_nil] at long number count
  rw [decodeDown, if_neg long, if_pos count, number]

lemma decodeDown_idle {ack : Nat} (l : Link) (fits : ack < 2 ^ 32) (rest : Incoming NetErr) :
    decodeDown l (putBE 4 ack ++ putBE 2 0) rest = .ok ⟨ack, [], false⟩ := by
  have long := header_long ack 0 []
  have number := header_seq ack 0 [] fits
  have count := header_count ack 0 [] (by decide)
  rw [append_nil] at long number count
  rw [decodeDown, if_neg long, if_neg (by rw [count]; decide), if_neg (by rw [count]; omega),
    if_pos count, number]

lemma decodeDown_data (l : Link) {seq : Nat} {data : List UInt8} (fits : seq < 2 ^ 32)
    (chunk : data.length ≤ payloadCeiling) (tail : List UInt8) (rest : Incoming NetErr) :
    decodeDown l (putBE 4 seq ++ (putBE 2 data.length ++ tail)) rest =
      if l.maxPayload < data.length then .error .protocol
      else if data.length = 0 then .ok ⟨seq, [], false⟩
      else if l.secure then
        if tail.length ≠ data.length then .error .protocol else .ok ⟨seq, tail, false⟩
      else
        match readBlock data.length rest with
        | .error e => .error e
        | .ok (buf, _) => .ok ⟨seq, buf, false⟩ := by
  have ceiling : payloadCeiling = 480 := rfl
  have width : data.length < 2 ^ 16 := by omega
  have size : (putBE 4 seq ++ (putBE 2 data.length ++ tail)).length = 6 + tail.length := by
    rw [length_append, length_append, length_putBE, length_putBE]
    omega
  have ends : data.length ≠ 0xffff := by omega
  rw [decodeDown, if_neg (header_long _ _ tail), header_count _ _ tail width,
    header_seq _ _ tail fits, header_rest, if_neg ends, size]
  simp only [ne_eq, Nat.add_left_cancel_iff]

variable {l : Link}
lemma readsAs_plain_data (plain : l.secure = false) {f : DownFrame} (data : f.eof = false)
    (fits : (Response.frame f).Fits) {cut : Prop} (k : Nat) (ending : Ending NetErr)
    (here : ending = .closed → k = 0 → 0 < f.data.length → cut) :
    (Response.frame f).ReadsAs cut
      (decodeDown l (putBE 4 f.seq ++ putBE 2 f.data.length) ⟨f.data.take k, ending⟩) := by
  have branches := decodeDown_data l fits.1 fits.2 [] ⟨f.data.take k, ending⟩
  rw [append_nil] at branches
  simp only [branches, plain, Bool.false_eq_true, if_false]
  split_ifs with large empty
  · exact Response.readsAs_error (by simp)
  · refine .inl ⟨_, ?_, rfl⟩
    rw [Response.result, data, eq_nil_of_length_eq_zero empty]
    rfl
  · rcases readBlock_last (Nat.pos_of_ne_zero empty) k ending with
      ⟨rest, result⟩ | ⟨-, e, result, why⟩ <;> rw [result]
    · refine .inl ⟨_, ?_, rfl⟩
      rw [Response.result, data]
      rfl
    · refine .inr ⟨e, rfl, fun ends => ?_⟩
      obtain ⟨closed, zero⟩ := why ends
      exact here closed zero (Nat.pos_of_ne_zero empty)

lemma readsAs_secure_body (secure : l.secure = true) (fits : r.Fits) (cut : Prop) :
    r.ReadsAs cut (decodeDown l r.body ⟨[], .closed⟩) := by
  have ackShort : decodeDown l [ackErr] ⟨[], .closed⟩ = .error .protocol := rfl
  cases r with
  | noSession | badRequest => exact ackShort ▸ Response.readsAs_error (by simp)
  | idle ack => exact .inl ⟨_, rfl, decodeDown_idle l fits _⟩
  | frame f =>
    cases eof : f.eof with
    | true =>
      refine .inl ⟨⟨f.seq, [], true⟩, by simp [Response.result, eof], ?_⟩
      rw [Response.body, encodeDownFrame, eof, if_pos rfl]
      exact decodeDown_eof l fits.1 _
    | false =>
      rw [Response.body, encodeDownFrame, eof, if_neg Bool.false_ne_true,
        decodeDown_data l fits.1 fits.2, if_pos secure]
      split_ifs with large empty other
      · exact Response.readsAs_error (by simp)
      · refine .inl ⟨_, ?_, rfl⟩
        simp [Response.result, eq_nil_of_length_eq_zero empty, eof]
      · exact absurd rfl other
      · exact .inl ⟨_, by simp [Response.result, eof], rfl⟩

lemma readsAs_plain (plain : l.secure = false) (nonce : List UInt8) (fits : r.Fits) (m : Nat)
    (ending : Ending NetErr) :
    r.ReadsAs (CleanCut l nonce r m ending) (down l ⟨(r.wire l nonce).take m, ending⟩) := by
  have wire : r.wire l nonce = r.body := if_neg (by simp [plain])
  have header : l.headerLen = 6 := if_neg (by simp [plain])
  have start : ∀ {e : Err}, 0 < r.body.length →
      (e = .eof → ending = .closed ∧ m = 0) → e = .eof → CleanCut l nonce r m ending := by
    intro e positive why ends
    obtain ⟨closed, zero⟩ := why ends
    exact ⟨closed, by rw [wire]; omega, .inl zero⟩
  have refused : r.body = [ackErr] →
      r.ReadsAs (CleanCut l nonce r m ending) (down l ⟨r.body.take m, ending⟩) := by
    intro body
    obtain ⟨e, result, why⟩ := readBlock_ackErr (n := 6) (by decide) m ending
    rw [down, if_neg (by simp [plain]), body, result]
    exact .inr ⟨e, rfl, start (by rw [body]; decide) why⟩
  rw [wire]
  -- the three proper answers share the first block and differ in what follows it
  have split : ∀ (seq n : Nat) (rest : List UInt8), r.body = putBE 4 seq ++ putBE 2 n ++ rest →
      (6 ≤ m → r.ReadsAs (CleanCut l nonce r m ending)
        (decodeDown l (putBE 4 seq ++ putBE 2 n) ⟨rest.take (m - 6), ending⟩)) →
      r.ReadsAs (CleanCut l nonce r m ending) (down l ⟨r.body.take m, ending⟩) := by
    intro seq n rest body next
    have six : (putBE 4 seq ++ putBE 2 n).length = 6 := by simp
    have cut := readBlock_cut (by rw [six]; omega) rest m ending
    rw [six, ← body] at cut
    rw [down, if_neg (by simp [plain])]
    rcases cut with ⟨enough, result⟩ | ⟨-, e, result, why⟩ <;> rw [result]
    · exact next enough
    · refine .inr ⟨e, rfl, start ?_ why⟩
      rw [body, length_append, six]
      omega
  cases r with
  | noSession | badRequest => exact refused rfl
  | idle ack =>
    exact split ack 0 [] (append_nil _).symm (fun _ => .inl ⟨_, rfl, decodeDown_idle l fits _⟩)
  | frame f =>
    cases eof : f.eof with
    | true =>
      refine split f.seq 0xffff [] (by simp [Response.body, encodeDownFrame, eof])
        (fun _ => .inl ⟨⟨f.seq, [], true⟩, by simp [Response.result, eof], ?_⟩)
      exact decodeDown_eof l fits.1 _
    | false =>
      have body : (Response.frame f).body = putBE 4 f.seq ++ putBE 2 f.data.length ++ f.data := by
        simp [Response.body, encodeDownFrame, eof]
      refine split f.seq f.data.length f.data body (fun enough => ?_)
      refine readsAs_plain_data plain eof fits (m - 6) ending (fun closed zero some => ?_)
      refine ⟨closed, ?_, .inr (by omega)⟩
      rw [wire, body, length_append, length_append, length_putBE, length_putBE]
      omega

lemma Response.length_body_le (fits : r.Fits) : r.body.length ≤ 486 := by
  have ceiling : payloadCeiling = 480 := rfl
  cases r with
  | frame f =>
    have chunk := fits.2
    simp only [Response.body, encodeDownFrame]
    split_ifs
    · simp
    · simp only [length_append, length_putBE]
      omega
  | idle ack | noSession | badRequest => simp [Response.body]

lemma readsAs_secure (secure : l.secure = true) (twelve : nonce.length = secureNonceLen)
    (fits : r.Fits) (m : Nat) (ending : Ending NetErr) :
    r.ReadsAs (CleanCut l nonce r m ending) (down l ⟨(r.wire l nonce).take m, ending⟩) := by
  have header : l.headerLen = 14 := if_pos secure
  by_cases missing : r = .noSession
  · subst missing
    obtain ⟨e, result, why⟩ := readBlock_ackErr (n := secureNonceLen + 2) (by decide) m ending
    have wire : Response.noSession.wire l nonce = [ackErr] := if_neg (by simp)
    rw [down, if_pos secure, wire, readSecureBody, result]
    refine .inr ⟨e, rfl, fun ends => ?_⟩
    obtain ⟨closed, zero⟩ := why ends
    exact ⟨closed, by rw [wire, zero]; decide, .inl zero⟩
  · have size := l.aead.length_seal nonce r.body
    have overhead : secureOverhead = 16 := rfl
    have short := Response.length_body_le fits
    obtain ⟨cipher, cipher_eq⟩ : ∃ cipher, l.aead.sealBody nonce r.body = cipher := ⟨_, rfl⟩
    have opens := l.aead.open_seal nonce r.body
    rw [cipher_eq] at size opens
    have wire : r.wire l nonce = nonce ++ putBE 2 cipher.length ++ cipher := by
      rw [Response.wire, if_pos ⟨secure, missing⟩, writeSecureBody, cipher_eq, if_neg (by omega)]
    have fourteen : (nonce ++ putBE 2 cipher.length).length = secureNonceLen + 2 := by
      rw [length_append, twelve, length_putBE]
    have count : getBE ((nonce ++ putBE 2 cipher.length).drop secureNonceLen) = cipher.length := by
      rw [drop_left' twelve]
      exact getBE_putBE (by omega)
    have cut := readBlock_cut (by rw [fourteen]; decide) cipher m ending
    rw [fourteen, ← wire] at cut
    have long : (r.wire l nonce).length = 14 + cipher.length := by
      rw [wire, length_append, fourteen]
      rfl
    rw [down, if_pos secure, readSecureBody]
    rcases cut with ⟨enough, result⟩ | ⟨-, e, result, why⟩ <;> rw [result]
    · dsimp only
      rw [count, take_left' twelve]
      split_ifs with large
      · exact Response.readsAs_error (by simp)
      · have positive : 0 < cipher.length := by omega
        rcases readBlock_last positive (m - (secureNonceLen + 2)) ending with
          ⟨rest, result⟩ | ⟨-, e, result, why⟩ <;> rw [result]
        · dsimp only
          rw [opens]
          dsimp only
          split_ifs with larger
          · exact Response.readsAs_error (by simp)
          · exact readsAs_secure_body secure fits _
        · refine .inr ⟨e, rfl, fun ends => ?_⟩
          obtain ⟨closed, zero⟩ := why ends
          have twelve : secureNonceLen = 12 := rfl
          exact ⟨closed, by omega, .inr (by omega)⟩
    · refine .inr ⟨e, rfl, fun ends => ?_⟩
      obtain ⟨closed, zero⟩ := why ends
      exact ⟨closed, by omega, .inl zero⟩

lemma down_wire (l : Link) (twelve : nonce.length = secureNonceLen) (fits : r.Fits) (m : Nat)
    (ending : Ending NetErr) :
    r.ReadsAs (CleanCut l nonce r m ending) (down l ⟨(r.wire l nonce).take m, ending⟩) := by
  cases secure : l.secure with
  | true => exact readsAs_secure secure twelve fits m ending
  | false => exact readsAs_plain secure nonce fits m ending
end Wire
open Option
namespace Server
open FragPoC.Wire
open Machine.Circular (Ring)
variable {ack : Nat}
def replayRingSize : Nat := 32
def frameChCap : Nat := 16
def maxDownWindow : Nat := 16
def retransmitGap : Nat := 4
def retransmitAfter : Nat := maxDownWindow

instance : NeZero replayRingSize := ⟨by decide⟩

/-- Where `downProducer` stands. A frame enters the replay ring before it is sent. -/
inductive Producer
  | reading
  | sending (frame : DownFrame)
  | returned
deriving DecidableEq

/-- The producer after its frame was taken over. An EOF frame is the last one. -/
def Producer.next (frame : DownFrame) : Producer := if frame.eof then .returned else .reading

/-- The fields of `session` that the DOWN direction uses. `seq` is the producer's local counter,
and `produced` records the frames it has built. -/
structure Session where
  seq : Nat
  producer : Producer
  frameCh : List DownFrame
  replay : Ring DownFrame replayRingSize
  lastRetransmitAck : Nat
  servedSinceAck : Nat
  produced : List DownFrame

namespace Session
def fresh : Session where
  seq := 0
  producer := .reading
  frameCh := []
  replay := Ring.empty
  lastRetransmitAck := 0
  servedSinceAck := 0
  produced := []

variable (sess : Session)
def shouldRetransmit (ack : Nat) : Session × Bool :=
  if sess.lastRetransmitAck < ack then
    ({ sess with lastRetransmitAck := ack, servedSinceAck := 1 }, false)
  else if ack = sess.lastRetransmitAck then
    ({ sess with servedSinceAck := sess.servedSinceAck + 1 },
      decide (retransmitAfter < sess.servedSinceAck + 1))
  else (sess, false)

lemma frameCh_shouldRetransmit : (sess.shouldRetransmit ack).1.frameCh = sess.frameCh := by
  unfold shouldRetransmit
  split_ifs <;> rfl

def findReplay (ack : Nat) : Option DownFrame :=
  ((sess.replay.entries.find? (fun f => f.seq == ack)).or
    (sess.replay.entries.find? (fun f => decide (ack ≤ f.seq)))).or sess.replay.entries.getLast?

def produce (frame : DownFrame) (seq : Nat) : Session :=
  { sess with
    seq := seq
    producer := .sending frame
    replay := sess.replay.push frame
    produced := sess.produced ++ [frame] }

def offer (frame : DownFrame) : Session :=
  if sess.frameCh.length < frameChCap then { sess with frameCh := sess.frameCh ++ [frame] }
  else sess
end Session

inductive Stage
  | entered
  | polling (shouldRT : Bool)
  | received (shouldRT : Bool) (frame : DownFrame)
  | puttingBack (frame rf : DownFrame)
  | replaying (shouldRT : Bool)
  | waiting (shouldRT : Bool)
  | draining | fallback
  | answered (response : Response)
deriving DecidableEq

structure Handler where
  ack : Nat
  stage : Stage
deriving DecidableEq

inductive Wake
  | go | timeout | producerDone

def checkRetransmit (sess : Session) (ack : Nat) (shouldRT : Bool) (frame : DownFrame) : Stage :=
  if shouldRT ∧ addW 32 ack retransmitGap ≤ frame.seq then
    match sess.findReplay ack with
    | some rf => if rf.seq = ack then .puttingBack frame rf else .answered (.frame frame)
    | none => .answered (.frame frame)
  else .answered (.frame frame)

def advance (sess : Session) (ack : Nat) : Stage → Wake → Option (Session × Stage)
  | .entered, .go => some ((sess.shouldRetransmit ack).1, .polling (sess.shouldRetransmit ack).2)
  | .polling shouldRT, .go =>
    match sess.frameCh with
    | frame :: rest => some ({ sess with frameCh := rest }, .received shouldRT frame)
    | [] => some (sess, .replaying shouldRT)
  | .received shouldRT frame, .go => some (sess, checkRetransmit sess ack shouldRT frame)
  | .puttingBack frame rf, .go => some (sess.offer frame, .answered (.frame rf))
  | .replaying shouldRT, .go =>
    match sess.findReplay ack with
    | some rf => some (sess, .answered (.frame rf))
    | none => some (sess, .waiting shouldRT)
  | .waiting shouldRT, .go =>
    match sess.frameCh with
    | frame :: rest => some ({ sess with frameCh := rest }, .received shouldRT frame)
    | [] => none
  | .waiting _, .timeout => some (sess, .draining)
  | .waiting _, .producerDone => if sess.producer = .returned then some (sess, .draining) else none
  | .draining, .go =>
    match sess.frameCh with
    | frame :: rest => some ({ sess with frameCh := rest }, .answered (.frame frame))
    | [] => some (sess, .fallback)
  | .fallback, .go =>
    match sess.findReplay ack with
    | some rf => some (sess, .answered (.frame rf))
    | none => some (sess, .answered (.idle ack))
  | _, _ => none

structure State where
  session : Session
  handlers : List Handler

def State.start : State := ⟨Session.fresh, []⟩

/-- `read` and `fail` are the two ways a read of the upstream pipe ends; a timeout or an empty
read goes round the loop and changes nothing. -/
inductive Label
  | read (chunk : List UInt8)
  | fail | send | giveUp
  | serve (ack : Nat)
  | handle (i : Nat) (wake : Wake)

def step (limit : Nat) (s : State) : Label → Option State
  | .read chunk =>
    if s.session.producer = .reading ∧ 0 < chunk.length ∧ chunk.length ≤ limit then
      some { s with session :=
        s.session.produce ⟨s.session.seq, chunk, false⟩ (addW 32 s.session.seq 1) }
    else none
  | .fail =>
    if s.session.producer = .reading then
      some { s with session := s.session.produce ⟨s.session.seq, [], true⟩ s.session.seq }
    else none
  | .send =>
    match s.session.producer with
    | .sending frame =>
      if s.session.frameCh.length < frameChCap then
        some { s with session := { s.session with
          frameCh := s.session.frameCh ++ [frame]
          producer := Producer.next frame } }
      else none
    | _ => none
  | .giveUp =>
    match s.session.producer with
    | .sending _ => some { s with session := { s.session with producer := .returned } }
    | _ => none
  | .serve ack => some { s with handlers := s.handlers ++ [⟨ack, .entered⟩] }
  | .handle i wake =>
    match s.handlers[i]? with
    | none => none
    | some h =>
      (advance s.session h.ack h.stage wake).map (fun next =>
        ⟨next.1, s.handlers.set i { h with stage := next.2 }⟩)

inductive Advances (sess : Session) (ack : Nat) : Stage → Session → Stage → Prop
  | enter : Advances sess ack .entered (sess.shouldRetransmit ack).1
      (.polling (sess.shouldRetransmit ack).2)
  | take {before : Stage} {shouldRT : Bool} {frame : DownFrame} {rest : List DownFrame} :
      before = .polling shouldRT ∨ before = .waiting shouldRT → sess.frameCh = frame :: rest →
      Advances sess ack before { sess with frameCh := rest } (.received shouldRT frame)
  | miss {shouldRT : Bool} : sess.frameCh = [] →
      Advances sess ack (.polling shouldRT) sess (.replaying shouldRT)
  | keep {shouldRT : Bool} {frame : DownFrame} :
      Advances sess ack (.received shouldRT frame) sess (.answered (.frame frame))
  | divert {frame rf : DownFrame} : addW 32 ack retransmitGap ≤ frame.seq →
      sess.findReplay ack = some rf → rf.seq = ack →
      Advances sess ack (.received true frame) sess (.puttingBack frame rf)
  | putBack {frame rf : DownFrame} :
      Advances sess ack (.puttingBack frame rf) (sess.offer frame) (.answered (.frame rf))
  | replay {before : Stage} {rf : DownFrame} :
      (∃ shouldRT, before = .replaying shouldRT) ∨ before = .fallback →
      sess.findReplay ack = some rf → Advances sess ack before sess (.answered (.frame rf))
  | await {shouldRT : Bool} : sess.findReplay ack = none →
      Advances sess ack (.replaying shouldRT) sess (.waiting shouldRT)
  | wake {shouldRT : Bool} : Advances sess ack (.waiting shouldRT) sess .draining
  | drain {frame : DownFrame} {rest : List DownFrame} : sess.frameCh = frame :: rest →
      Advances sess ack .draining { sess with frameCh := rest } (.answered (.frame frame))
  | fall : sess.frameCh = [] → Advances sess ack .draining sess .fallback
  | idle : sess.findReplay ack = none → Advances sess ack .fallback sess (.answered (.idle ack))

lemma advances_check (sess : Session) (ack : Nat) (shouldRT : Bool) (frame : DownFrame) :
    Advances sess ack (.received shouldRT frame) sess
      (checkRetransmit sess ack shouldRT frame) := by
  unfold checkRetransmit
  split_ifs with due
  · cases found : sess.findReplay ack with
    | none => exact Advances.keep
    | some rf =>
      dsimp only
      split_ifs with exactly
      · obtain ⟨rfl, far⟩ := due
        exact Advances.divert far found exactly
      · exact Advances.keep
  · exact Advances.keep

lemma advances_of_advance (moved : advance sess ack stage wake = some (sess', stage')) :
    Advances sess ack stage sess' stage' := by
  unfold advance at moved
  split at moved
  · cases moved
    exact .enter
  · split at moved
    · next frame rest queue =>
      cases moved
      exact .take (.inl rfl) queue
    · next queue =>
      cases moved
      exact .miss queue
  · cases moved
    exact advances_check _ _ _ _
  · cases moved
    exact .putBack
  · split at moved
    · next rf found =>
      cases moved
      exact .replay (.inl ⟨_, rfl⟩) found
    · next found =>
      cases moved
      exact .await found
  · split at moved
    · next frame rest queue =>
      cases moved
      exact .take (.inr rfl) queue
    · cases moved
  · cases moved
    exact .wake
  · split_ifs at moved
    cases moved
    exact .wake
  · split at moved
    · next frame rest queue =>
      cases moved
      exact .drain queue
    · next queue =>
      cases moved
      exact .fall queue
  · split at moved
    · next rf found =>
      cases moved
      exact .replay (.inr rfl) found
    · next found =>
      cases moved
      exact .idle found
  · cases moved

lemma Advances.frame (moved : Advances sess ack stage sess' stage') :
    sess'.producer = sess.producer ∧ sess'.seq = sess.seq ∧ sess'.replay = sess.replay ∧
      sess'.produced = sess.produced := by
  cases moved with
  | enter =>
    unfold Session.shouldRetransmit
    split_ifs <;> exact ⟨rfl, rfl, rfl, rfl⟩
  | putBack =>
    unfold Session.offer
    split_ifs <;> exact ⟨rfl, rfl, rfl, rfl⟩
  | _ => exact ⟨rfl, rfl, rfl, rfl⟩

variable {limit : Nat} {s s' : State}

inductive Builds (limit : Nat) (seq : Nat) : DownFrame → Nat → Prop
  | data {chunk : List UInt8} : 0 < chunk.length → chunk.length ≤ limit →
      Builds limit seq ⟨seq, chunk, false⟩ (addW 32 seq 1)
  | eof : Builds limit seq ⟨seq, [], true⟩ seq

lemma step_produce (build : (∃ chunk, l = .read chunk) ∨ l = .fail)
    (moved : step limit s l = some s') :
    ∃ frame seq, Builds limit s.session.seq frame seq ∧ s.session.producer = .reading ∧
      s' = { s with session := s.session.produce frame seq } := by
  rcases build with ⟨chunk, rfl⟩ | rfl <;> simp only [step] at moved
  · split_ifs at moved with ready
    rw [some.injEq] at moved
    exact ⟨_, _, Builds.data ready.2.1 ready.2.2, ready.1, moved.symm⟩
  · split_ifs at moved with ready
    rw [some.injEq] at moved
    exact ⟨_, _, Builds.eof, ready, moved.symm⟩

lemma step_send (moved : step limit s .send = some s') :
    ∃ frame, s.session.producer = .sending frame ∧ s.session.frameCh.length < frameChCap ∧
      s' = { s with session := { s.session with
        frameCh := s.session.frameCh ++ [frame]
        producer := Producer.next frame } } := by
  simp only [step] at moved
  cases hand : s.session.producer with
  | reading | returned => simp only [hand, reduceCtorEq] at moved
  | sending frame =>
    simp only [hand] at moved
    split_ifs at moved with room
    rw [some.injEq] at moved
    exact ⟨frame, rfl, room, moved.symm⟩

lemma step_giveUp (moved : step limit s .giveUp = some s') :
    ∃ frame, s.session.producer = .sending frame ∧
      s' = { s with session := { s.session with producer := .returned } } := by
  simp only [step] at moved
  cases hand : s.session.producer with
  | reading | returned => simp only [hand, reduceCtorEq] at moved
  | sending frame =>
    simp only [hand, some.injEq] at moved
    exact ⟨frame, rfl, moved.symm⟩

lemma step_serve (moved : step limit s (.serve ack) = some s') :
    s' = { s with handlers := s.handlers ++ [⟨ack, .entered⟩] } := by
  rw [step, some.injEq] at moved
  exact moved.symm

lemma step_handle (moved : step limit s (.handle i wake) = some s') :
    ∃ h sess stage, s.handlers[i]? = some h ∧ Advances s.session h.ack h.stage sess stage ∧
      s' = ⟨sess, s.handlers.set i { h with stage := stage }⟩ := by
  simp only [step] at moved
  cases here : s.handlers[i]? with
  | none => simp only [here, reduceCtorEq] at moved
  | some h =>
    simp only [here, map_eq_some_iff, Prod.exists] at moved
    obtain ⟨sess, stage, next, rfl⟩ := moved
    exact ⟨h, sess, stage, rfl, advances_of_advance next, rfl⟩
end Server
namespace Frames
open FragPoC.Wire FragPoC.Server
open Machine.Circular (mem_entries_push)
def stageFrames : Stage → List DownFrame
  | .received _ frame => [frame]
  | .puttingBack frame rf => [frame, rf]
  | .answered (.frame f) => [f]
  | _ => []

def Holds (s : State) (f : DownFrame) : Prop :=
  f ∈ s.session.frameCh ∨ s.session.producer = .sending f ∨ f ∈ s.session.replay.entries ∨
    ∃ h ∈ s.handlers, f ∈ stageFrames h.stage

def Open (sess : Session) : Prop :=
  sess.producer = .reading ∨ ∃ f, sess.producer = .sending f ∧ f.eof = false

structure Numbered (limit : Nat) (sess : Session) : Prop where
  seq_eq : ∀ {i : Nat} {f : DownFrame}, sess.produced[i]? = some f → f.seq = i % 2 ^ 32
  eof_last : ∀ {i : Nat} {f : DownFrame}, sess.produced[i]? = some f → f.eof = true →
    i + 1 = sess.produced.length ∧ f.data = []
  sized : ∀ f ∈ sess.produced, f.eof = false → 0 < f.data.length ∧ f.data.length ≤ limit
  counting : Open sess → sess.seq = sess.produced.length % 2 ^ 32 ∧
    ∀ f ∈ sess.produced, f.eof = false

structure Sound (limit : Nat) (s : State) : Prop where
  numbered : Numbered limit s.session
  known : ∀ f, Holds s f → f ∈ s.session.produced
  idles : ∀ h ∈ s.handlers, ∀ r, h.stage = .answered r → (∃ f, r = .frame f) ∨ r = .idle h.ack

open Session (fresh)
lemma numbered_fresh (limit : Nat) : Numbered limit fresh where
  seq_eq := by simp [fresh]
  eof_last := by simp [fresh]
  sized := by simp [fresh]
  counting := by simp [fresh]

lemma sound_start (limit : Nat) : Sound limit State.start where
  numbered := numbered_fresh limit
  known := by
    rintro f (queued | sending | ringed | ⟨h, member, -⟩)
    · cases queued
    · cases sending
    · cases ringed
    · cases member
  idles := nofun

lemma seq_next (n : Nat) : addW 32 (n % 2 ^ 32) 1 = (n + 1) % 2 ^ 32 := by
  unfold addW
  omega

lemma getElem?_snoc (here : (l ++ [a])[i]? = some f) : l[i]? = some f ∨ (i = l.length ∧ f = a) := by
  rw [Machine.Pool.getElem?_snoc] at here
  split_ifs at here with last
  · exact .inr ⟨last, (some.inj here).symm⟩
  · exact .inl here

variable {sess : Session}
lemma Numbered.produce (numbered : Numbered limit sess) (reading : sess.producer = .reading)
    (builds : Builds limit sess.seq frame seq) : Numbered limit (sess.produce frame seq) := by
  obtain ⟨number, data⟩ := numbered.counting (.inl reading)
  have frame_seq : frame.seq = sess.produced.length % 2 ^ 32 := by
    cases builds <;> exact number
  refine ⟨?_, ?_, ?_, ?_⟩
  · intro i f here
    rcases getElem?_snoc here with old | ⟨rfl, rfl⟩
    · exact numbered.seq_eq old
    · exact frame_seq
  · intro i f here ends
    rcases getElem?_snoc here with old | ⟨rfl, rfl⟩
    · rw [data f (mem_of_getElem? old)] at ends
      cases ends
    · refine ⟨by simp [Session.produce], ?_⟩
      cases builds with
      | data _ _ => cases ends
      | eof => rfl
  · refine Machine.Pool.forall_snoc numbered.sized fun more => ?_
    cases builds with
    | data some fits => exact ⟨some, fits⟩
    | eof => cases more
  · intro opened
    have more : frame.eof = false := by
      rcases opened with impossible | ⟨g, sending, more⟩
      · cases impossible
      · cases sending
        exact more
    cases builds with
    | eof => cases more
    | data some fits =>
      refine ⟨?_, ?_⟩
      · simp only [Session.produce, length_append, length_singleton]
        rw [number]
        exact seq_next _
      · exact Machine.Pool.forall_snoc data rfl

variable {sess' : Session}
lemma Numbered.congr (numbered : Numbered limit sess)
    (produced : sess'.produced = sess.produced) (seq : sess'.seq = sess.seq)
    (opened : Open sess' → Open sess) : Numbered limit sess' := by
  refine ⟨?_, ?_, ?_, ?_⟩
  · rw [produced]
    exact numbered.seq_eq
  · rw [produced]
    exact numbered.eof_last
  · rw [produced]
    exact numbered.sized
  · rw [produced, seq]
    exact fun more => numbered.counting (opened more)

variable {ack : Nat}
lemma mem_of_findReplay (found : sess.findReplay ack = some rf) : rf ∈ sess.replay.entries := by
  rw [Session.findReplay, or_eq_some_iff, or_eq_some_iff] at found
  rcases found with (exactly | ⟨-, closest⟩) | ⟨-, newest⟩
  · exact mem_of_find?_eq_some exactly
  · exact mem_of_find?_eq_some closest
  · exact List.mem_of_getLast? newest

variable {stage : Stage}
lemma advances_frames (moved : Advances sess ack stage sess' stage')
    (after : f ∈ sess'.frameCh ∨ f ∈ stageFrames stage') :
    f ∈ sess.frameCh ∨ f ∈ sess.replay.entries ∨ f ∈ stageFrames stage := by
  cases moved with
  | enter =>
    rw [sess.frameCh_shouldRetransmit] at after
    exact after.imp_right (by simp [stageFrames])
  | take before queue | drain queue =>
    rw [queue]
    rcases after with rest | head
    · exact .inl (mem_cons_of_mem _ rest)
    · exact .inl (by rw [mem_singleton.mp head]; exact mem_cons_self)
  | divert far found same =>
    rcases after with queued | held
    · exact .inl queued
    · rcases mem_cons.mp held with rfl | rest
      · exact .inr (.inr mem_cons_self)
      · rw [mem_singleton.mp rest]
        exact .inr (.inl (mem_of_findReplay found))
  | @putBack frame rf =>
    rcases after with queued | held
    · unfold Session.offer at queued
      split_ifs at queued with room
      · rcases mem_append.mp queued with before | back
        · exact .inl before
        · exact .inr (.inr (by simp [stageFrames, mem_singleton.mp back]))
      · exact .inl queued
    · exact .inr (.inr (mem_cons_of_mem frame held))
  | replay before found =>
    rcases after with queued | held
    · exact .inl queued
    · rw [mem_singleton.mp held]
      exact .inr (.inl (mem_of_findReplay found))
  | _ => exact after.imp_right .inr

lemma advances_answer (moved : Advances sess ack stage sess' (.answered r)) :
    (∃ f, r = .frame f) ∨ r = .idle ack := by
  cases moved with
  | idle _ => exact .inr rfl
  | _ => exact .inl ⟨_, rfl⟩

lemma Sound.produce (sound : Sound limit s) (reading : s.session.producer = .reading)
    (builds : Builds limit s.session.seq frame seq) :
    Sound limit { s with session := s.session.produce frame seq } := by
  refine ⟨sound.numbered.produce reading builds, ?_, sound.idles⟩
  intro f held
  have old : Holds s f → f ∈ s.session.produced ++ [frame] :=
    fun before => mem_append_left _ (sound.known f before)
  rcases held with queued | sending | ringed | handled
  · exact old (.inl queued)
  · cases sending
    exact mem_append_right _ mem_cons_self
  · rcases mem_entries_push ringed with before | rfl
    · exact old (.inr (.inr (.inl before)))
    · exact mem_append_right _ mem_cons_self
  · exact old (.inr (.inr (.inr handled)))

lemma Sound.handle (sound : Sound limit s) (here : s.handlers[i]? = some h)
    (moved : Advances s.session h.ack h.stage sess stage) :
    Sound limit ⟨sess, s.handlers.set i { h with stage := stage }⟩ := by
  obtain ⟨producer, seq, replay, produced⟩ := moved.frame
  have inside : h ∈ s.handlers := mem_of_getElem? here
  have came : ∀ f, f ∈ sess.frameCh ∨ f ∈ stageFrames stage → Holds s f := by
    intro f after
    rcases advances_frames moved after with queued | ringed | held
    · exact .inl queued
    · exact .inr (.inr (.inl ringed))
    · exact .inr (.inr (.inr ⟨h, inside, held⟩))
  refine ⟨sound.numbered.congr produced seq (by rw [Open, Open, producer]; exact id), ?_, ?_⟩
  · intro f held
    rw [produced]
    apply sound.known
    rcases held with queued | sending | ringed | ⟨g, member, held⟩
    · exact came f (.inl queued)
    · exact .inr (.inl (producer ▸ sending))
    · exact .inr (.inr (.inl (replay ▸ ringed)))
    · rcases mem_or_eq_of_mem_set member with before | rfl
      · exact .inr (.inr (.inr ⟨g, before, held⟩))
      · exact came f (.inr held)
  · intro g member r answer
    rcases mem_or_eq_of_mem_set member with before | rfl
    · exact sound.idles g before r answer
    · subst answer
      exact advances_answer moved

lemma Sound.step (sound : Sound limit s) (moved : Server.step limit s l = some s') :
    Sound limit s' := by
  cases l with
  | read chunk =>
    obtain ⟨frame, seq, builds, reading, rfl⟩ := step_produce (.inl ⟨chunk, rfl⟩) moved
    exact sound.produce reading builds
  | fail =>
    obtain ⟨frame, seq, builds, reading, rfl⟩ := step_produce (.inr rfl) moved
    exact sound.produce reading builds
  | send =>
    obtain ⟨frame, sending, -, rfl⟩ := step_send moved
    have opened : ∀ queue, Open { s.session with
        frameCh := queue, producer := Producer.next frame } → Open s.session := by
      intro queue more
      refine .inr ⟨frame, sending, ?_⟩
      by_contra last
      rw [Bool.not_eq_false] at last
      rcases more with reading | ⟨f, holds, -⟩
      · simp [Producer.next, last] at reading
      · simp [Producer.next, last] at holds
    refine ⟨sound.numbered.congr rfl rfl (opened _), ?_, sound.idles⟩
    rintro f (queued | holds | ringed | handled)
    · rcases mem_append.mp queued with before | new
      · exact sound.known f (.inl before)
      · rw [mem_singleton.mp new]
        exact sound.known frame (.inr (.inl sending))
    · have gone : Producer.next frame ≠ .sending f := by
        unfold Producer.next
        split_ifs <;> simp
      exact absurd holds gone
    · exact sound.known f (.inr (.inr (.inl ringed)))
    · exact sound.known f (.inr (.inr (.inr handled)))
  | giveUp =>
    obtain ⟨frame, sending, rfl⟩ := step_giveUp moved
    refine ⟨sound.numbered.congr rfl rfl ?_, ?_, sound.idles⟩
    · rintro (reading | ⟨f, holds, -⟩)
      · cases reading
      · cases holds
    · rintro f (queued | holds | ringed | handled)
      · exact sound.known f (.inl queued)
      · cases holds
      · exact sound.known f (.inr (.inr (.inl ringed)))
      · exact sound.known f (.inr (.inr (.inr handled)))
  | serve ack =>
    rw [step_serve moved]
    refine ⟨sound.numbered, ?_, ?_⟩
    · rintro f (queued | holds | ringed | ⟨h, member, held⟩)
      · exact sound.known f (.inl queued)
      · exact sound.known f (.inr (.inl holds))
      · exact sound.known f (.inr (.inr (.inl ringed)))
      · rcases mem_append.mp member with before | new
        · exact sound.known f (.inr (.inr (.inr ⟨h, before, held⟩)))
        · rw [mem_singleton.mp new] at held
          cases held
    · exact Machine.Pool.forall_snoc sound.idles fun r answer => by cases answer
  | handle i wake =>
    obtain ⟨h, sess, stage, here, advances, rfl⟩ := step_handle moved
    exact sound.handle here advances
end Frames
end Tamizdat.FragPoC
