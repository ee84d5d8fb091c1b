/- source: pkg/tamizdat/h2transport.go
   digest: The observer of HTTP/2 frames finds GOAWAY however the network has cut the stream. -/

import Tamizdat.Machine.Bytes

set_option autoImplicit false

open List
namespace Tamizdat.Client.FrameObserver
open Machine.Bytes Machine.Framing

structure Transport where
  draining : Bool := false
  drainCloseStarted : Bool := false
  deriving DecidableEq

def Transport.startGracefulDrainClose (t : Transport) : Transport :=
  if t.drainCloseStarted then t else { t with drainCloseStarted := true }

def markDraining : Option Transport → Option Transport
  | none => none
  | some t => some (if t.draining then t else { t with draining := true }.startGracefulDrainClose)

def goAway : UInt8 := 0x7

def scanFrames (t : Option Transport) (readBuf : List UInt8) : Option Transport × List UInt8 :=
  if 9 ≤ readBuf.length then
    let length := getBE (readBuf.take 3)
    let frameLen := 9 + length
    if frameLen < 9 ∨ 2 ^ 20 < length then (t, [])
    else if readBuf.length < frameLen then (t, readBuf)
    else
      scanFrames (if readBuf[3]? = some goAway then markDraining t else t) (readBuf.drop frameLen)
  else (t, readBuf)
termination_by readBuf.length
decreasing_by
  rw [length_drop]
  omega

structure AdaptiveConn where
  transport : Option Transport
  serverSide : Bool := false
  readBuf : List UInt8 := []

def AdaptiveConn.observeFrames (c : AdaptiveConn) (p : List UInt8) : AdaptiveConn :=
  let scanned := scanFrames c.transport (c.readBuf ++ p)
  { c with transport := scanned.1, readBuf := scanned.2 }

structure Frame where
  type : UInt8
  flags : UInt8
  streamID : Nat
  payload : List UInt8
  small : payload.length ≤ 2 ^ 20

namespace Frame
def header (f : Frame) : List UInt8 :=
  putBE 3 f.payload.length ++ (f.type :: f.flags :: putBE 4 f.streamID)

def encode (f : Frame) : List UInt8 := f.header ++ f.payload
end Frame
variable (t : Option Transport)
open Frame (encode)
section
variable (f : Frame)
def mark : Option Transport :=
  if f.type = goAway then markDraining t else t

@[simp] lemma length_header : f.header.length = 9 := by
  simp [Frame.header]

lemma length_encode : f.encode.length = 9 + f.payload.length := by
  rw [encode, length_append, length_header]

lemma getBE_of_header (rest : List UInt8) :
    getBE ((f.header ++ rest).take 3) = f.payload.length := by
  have small := f.small
  rw [Frame.header, append_assoc, take_left' (length_putBE _ _)]
  exact getBE_putBE (by omega)

lemma scanFrames_encode (rest : List UInt8) :
    scanFrames t (f.encode ++ rest) = scanFrames (mark t f) rest := by
  have small := f.small
  have whole := length_encode f
  have field : getBE ((f.encode ++ rest).take 3) = f.payload.length := by
    exact getBE_of_header f _
  have type : (f.encode ++ rest)[3]? = some f.type := by
    rw [encode, Frame.header, append_assoc, append_assoc, getElem?_append_right (by simp)]
    simp
  rw [scanFrames, if_pos (by rw [length_append]; omega)]
  rw [field, if_neg (by omega), if_neg (by rw [length_append]; omega), type, drop_left' whole]
  simp only [Option.some.injEq]
  rfl
end

lemma scanFrames_unfinished {tail : List UInt8} {rest : List Frame}
    (unfinished : Unfinished encode tail rest) : scanFrames t tail = (t, tail) := by
  rw [scanFrames]
  by_cases header : 9 ≤ tail.length
  · cases rest with
    | nil =>
      rw [unfinished, length_nil] at header
      omega
    | cons f later =>
      obtain ⟨⟨more, whole⟩, short⟩ := unfinished
      have small := f.small
      have field : getBE (tail.take 3) = f.payload.length := by
        have front := getBE_of_header f f.payload
        rwa [← encode, ← whole, take_append_of_le_length (by omega)] at front
      rw [length_encode] at short
      rw [if_pos header]
      rw [field, if_neg (by omega), if_pos short]
  · rw [if_neg header]

lemma scanFrames_arrived (complete rest : List Frame) (tail : List UInt8)
    (unfinished : Unfinished encode tail rest) :
    scanFrames t (stream encode complete ++ tail) = (complete.foldl mark t, tail) := by
  induction complete generalizing t with
  | nil => exact scanFrames_unfinished t unfinished
  | cons f later ih =>
    rw [stream, flatMap_cons, append_assoc, scanFrames_encode, ← stream, ih]
    rfl

lemma draining_markDraining (t : Transport) :
    ∃ u, markDraining (some t) = some u ∧ u.draining = true := by
  refine ⟨_, rfl, ?_⟩
  unfold Transport.startGracefulDrainClose
  split_ifs <;> simp_all

lemma foldl_mark (t : Transport) (frames : List Frame) : ∃ u, frames.foldl mark (some t) = some u ∧
      (u.draining = true ↔ t.draining = true ∨ ∃ f ∈ frames, f.type = goAway) := by
  induction frames generalizing t with
  | nil => exact ⟨t, rfl, by simp⟩
  | cons f later ih =>
    rw [foldl_cons, mark]
    split_ifs with isGoAway
    · obtain ⟨m, marked, draining⟩ := draining_markDraining t
      obtain ⟨u, folded, iff⟩ := ih m
      exact ⟨u, marked ▸ folded, by simp [iff, draining, isGoAway]⟩
    · obtain ⟨u, folded, iff⟩ := ih t
      exact ⟨u, folded, by simp [iff, isGoAway]⟩

def AdaptiveConn.observeAll (c : AdaptiveConn) (chunks : List (List UInt8)) : AdaptiveConn :=
  chunks.foldl AdaptiveConn.observeFrames c

lemma observeAll_eq (c : AdaptiveConn) (chunks : List (List UInt8)) : c.observeAll chunks = { c with
      transport := (feed scanFrames (c.transport, c.readBuf) chunks).1
      readBuf := (feed scanFrames (c.transport, c.readBuf) chunks).2 } := by
  induction chunks generalizing c with
  | nil => rfl
  | cons chunk later ih => exact ih (c.observeFrames chunk)

/-- Whatever chunks have come of a stream of frames, the transport is draining exactly if it was
before or a complete frame is a GOAWAY, and the buffer holds the unfinished tail. -/
theorem observer_chunk_invariant (t : Transport) (serverSide : Bool) (frames : List Frame)
    (chunks : List (List UInt8)) (begins : chunks.flatten <+: stream encode frames) :
    ∃ complete tail u, Arrived encode frames chunks.flatten complete tail ∧
      AdaptiveConn.observeAll ⟨some t, serverSide, []⟩ chunks = ⟨some u, serverSide, tail⟩ ∧
      (u.draining = true ↔ t.draining = true ∨ ∃ f ∈ complete, f.type = goAway) ∧
      (chunks.flatten = stream encode frames → complete = frames ∧ tail = []) := by
  have nothing : Unfinished encode [] frames := by
    cases frames with
    | nil => rfl
    | cons f later => exact ⟨ nil_prefix, by rw [length_encode, length_nil]; omega⟩
  obtain ⟨complete, tail, arrived, fed⟩ :=
    feed_spec scanFrames_arrived (s := some t) nothing (by rwa [nil_append])
  obtain ⟨u, folded, draining⟩ := foldl_mark t complete
  refine ⟨complete, tail, u, arrived, ?_, draining, ?_⟩
  · rw [observeAll_eq, fed, folded]
  · intro all
    rw [nil_append, all] at arrived
    exact arrived.whole

def pingThenGoAway : List Frame :=
  [⟨6, 0, 0, [1, 2, 3, 4, 5, 6, 7, 8], by decide⟩, ⟨goAway, 0, 0, [0, 0, 0, 0], by decide⟩]

theorem observer_chunk_invariant_pingThenGoAway : ∃ u, AdaptiveConn.observeAll ⟨some {}, false, []⟩
        [[0, 0, 8, 6, 0], [0, 0, 0, 0, 1, 2, 3, 4, 5, 6, 7, 8, 0, 0], [4, 7, 0, 0, 0, 0, 0, 0, 0],
          [0, 0]] = ⟨some u, false, []⟩ ∧ u.draining = true := by
  obtain ⟨complete, tail, u, -, observed, draining, whole⟩ :=
    observer_chunk_invariant {} false pingThenGoAway
      [[0, 0, 8, 6, 0], [0, 0, 0, 0, 1, 2, 3, 4, 5, 6, 7, 8, 0, 0], [4, 7, 0, 0, 0, 0, 0, 0, 0],
        [0, 0]] (by decide)
  obtain ⟨rfl, rfl⟩ := whole (by decide)
  refine ⟨u, observed, draining.mpr (.inr ⟨_, mem_cons_of_mem _ mem_cons_self, rfl⟩)⟩
end Tamizdat.Client.FrameObserver
