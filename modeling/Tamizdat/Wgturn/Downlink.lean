/- source: internal/wgturn/bond.go
   digest: The frames of the server, their numbers, and the gaps that dropped packets leave. -/

import Tamizdat.Wgturn.BondSchedule
import Tamizdat.WgturnClient.Dispatch

set_option autoImplicit false

open List
namespace Tamizdat.Wgturn.Downlink
open Machine.Bytes (putBE getBE)
open Machine.Checked (Panic)
open Machine.Folds (toOption_eq_some)
open Machine.Pool (getElem?_snoc)
open Machine.Runs
open Wgturn.BondSchedule (ServerBond bondSmallPacketMax)
open WgturnClient
open Frames (BondFrame BondFrameType bondFrameData bondFlagLatency decodeBondFrame decode_of_encode)
def bondMagic : List UInt8 := [84, 90, 66, 50]
def bondVersion : UInt8 := 2
def bondHeaderSize : Nat := 16
def bondMaxBindPayload : Nat := 4096
def bondMaxDataPayload : Nat := 4096
def bondFrameBind : BondFrameType := 1
def bondFrameError : BondFrameType := 7

def limit (typ : BondFrameType) : Nat :=
  if typ = bondFrameBind then bondMaxBindPayload else bondMaxDataPayload

def encodeBondFrame (typ : BondFrameType) (flags : UInt16) (sequence : UInt64)
    (payload : List UInt8) : Except String (List UInt8) :=
  if typ < bondFrameBind ∨ bondFrameError < typ then .error "invalid bond frame type"
  else if limit typ < payload.length then .error "bond frame payload too large"
  else
    .ok (bondMagic ++ [bondVersion, typ] ++ putBE 2 flags.toNat ++ putBE 8 sequence.toNat ++
      payload)

structure Packet where
  payload : List UInt8
  frame : List UInt8
  placed : Bool

def latency (payload : List UInt8) : Bool := payload.length ≤ bondSmallPacketMax
def laneFlags (lane : Bool) : UInt16 := if lane then bondFlagLatency else 0

/-- The state of `runWGReader`. `log` is the record of its iterations; the source has no such
field. -/
structure Reader where
  bond : ServerBond
  outBulkSequence : UInt64 := 0
  outLatencySequence : UInt64 := 0
  log : List Packet := []

namespace Reader
def counter (r : Reader) (lane : Bool) : UInt64 :=
  if lane then r.outLatencySequence else r.outBulkSequence

def nextOutboundFrameMeta (r : Reader) (payloadLen : Nat) : Reader × UInt16 × UInt64 :=
  if payloadLen ≤ bondSmallPacketMax then
    ({ r with outLatencySequence := r.outLatencySequence + 1 }, bondFlagLatency,
      r.outLatencySequence + 1)
  else ({ r with outBulkSequence := r.outBulkSequence + 1 }, 0, r.outBulkSequence + 1)

/-- One iteration of `runWGReader`. A datagram is cut to the buffer it is read into. -/
def readPacket (r : Reader) (datagram : List UInt8) : Except Panic Reader :=
  let payload := datagram.take bondMaxDataPayload
  let numbered := r.nextOutboundFrameMeta payload.length
  match encodeBondFrame bondFrameData numbered.2.1 numbered.2.2 payload with
  | .error _ => .ok numbered.1
  | .ok frame => do
    let (bond, placed) ← numbered.1.bond.schedule frame payload.length
    return { numbered.1 with bond := bond, log := numbered.1.log ++ [⟨payload, frame, placed⟩] }

def packets (r : Reader) (lane : Bool) : List Packet :=
  r.log.filter fun p => latency p.payload = lane

/-- Those of them whose frames were placed on a worker's queue, in the order in which they were. -/
def placed (r : Reader) (lane : Bool) : List Packet := (r.packets lane).filter (·.placed)

/-- The peer reads the placed frames of a lane under the numbers 1, 2, 3, … -/
def GapFree (r : Reader) : Prop :=
  ∀ lane i (p : Packet), (r.placed lane)[i]? = some p → decodeBondFrame p.frame =
      .ok ⟨bondFrameData, laneFlags lane, UInt64.ofNat (i + 1), p.payload⟩

def lostBefore (r : Reader) (lane : Bool) (i : Nat) : Nat :=
  ((r.packets lane).take i).countP fun p => !p.placed
end Reader

inductive Label where
  | read (datagram : List UInt8)
  | addWorker (room worker : Int)
  | removeWorker (object : Nat)
  | drain (object : Nat)

def Reader.move (r : Reader) (l : BondSchedule.Label) : Option Reader :=
  (BondSchedule.step r.bond l).map fun bond => { r with bond := bond }

def step (r : Reader) : Label → Option Reader
  | .read datagram => (r.readPacket datagram).toOption
  | .addWorker room worker => r.move (.addWorker room worker)
  | .removeWorker object => r.move (.removeWorker object)
  | .drain object => r.move (.drain object)

lemma encode_iff {flags} {typ : BondFrameType} {sequence : UInt64} {payload buf : List UInt8} :
    encodeBondFrame typ flags sequence payload = .ok buf ↔
      Frames.encodeBondFrame ⟨typ, flags, sequence, payload⟩ = .ok buf := by
  by_cases invalid : typ < bondFrameBind ∨ bondFrameError < typ
  · have client : Frames.encodeBondFrame ⟨typ, flags, sequence, payload⟩ = .error _ :=
      if_pos invalid
    rw [encodeBondFrame, if_pos invalid, client]
    exact iff_of_false nofun nofun
  · have same : Frames.encodeBondFrame ⟨typ, flags, sequence, payload⟩ =
        encodeBondFrame typ flags sequence payload := (if_neg invalid).trans (if_neg invalid).symm
    rw [same]

lemma encode_data {payload} (flags : UInt16) (sequence : UInt64)
    (fits : payload.length ≤ bondMaxDataPayload) :
    ∃ frame, encodeBondFrame bondFrameData flags sequence payload = .ok frame := by
  have valid : ¬ (bondFrameData < bondFrameBind ∨ bondFrameError < bondFrameData) := by decide
  have short : ¬ limit bondFrameData < payload.length := Nat.not_lt.mpr fits
  rw [encodeBondFrame, if_neg valid, if_neg short]
  exact ⟨_, rfl⟩

lemma meta_spec (r : Reader) (payload : List UInt8) :
    (r.nextOutboundFrameMeta payload.length).2 =
        (laneFlags (latency payload), r.counter (latency payload) + 1) ∧
      (r.nextOutboundFrameMeta payload.length).1.log = r.log ∧
      (r.nextOutboundFrameMeta payload.length).1.bond = r.bond ∧
      ∀ lane, (r.nextOutboundFrameMeta payload.length).1.counter lane =
        if lane = latency payload then r.counter lane + 1 else r.counter lane := by
  by_cases small : payload.length ≤ bondSmallPacketMax
  · have lane : latency payload = true := decide_eq_true small
    rw [Reader.nextOutboundFrameMeta, if_pos small, lane]
    refine ⟨rfl, rfl, rfl, ?_⟩
    intro lane
    cases lane <;> rfl
  · have lane : latency payload = false := decide_eq_false small
    rw [Reader.nextOutboundFrameMeta, if_neg small, lane]
    refine ⟨rfl, rfl, rfl, ?_⟩
    intro lane
    cases lane <;> rfl

/-- What one iteration does: the packet takes the next number of its lane, whatever becomes of
its frame. -/
structure Logged (r t : Reader) (payload frame : List UInt8) (placed : Bool) : Prop where
  encoded : encodeBondFrame bondFrameData (laneFlags (latency payload))
    (r.counter (latency payload) + 1) payload = .ok frame
  scheduled : r.bond.schedule frame payload.length = .ok (t.bond, placed)
  log : t.log = r.log ++ [⟨payload, frame, placed⟩]
  counter : ∀ lane, t.counter lane =
    if lane = latency payload then r.counter lane + 1 else r.counter lane

lemma readPacket_spec {r t datagram} (moved : r.readPacket datagram = .ok t) :
    ∃ frame placed, Logged r t (datagram.take bondMaxDataPayload) frame placed := by
  generalize read : datagram.take bondMaxDataPayload = payload
  have fits : payload.length ≤ bondMaxDataPayload := by
    rw [← read, length_take]
    exact Nat.min_le_left _ _
  obtain ⟨numbers, log, bond, counter⟩ := meta_spec r payload
  unfold Reader.readPacket at moved
  rw [read] at moved
  dsimp only at moved
  rw [numbers] at moved
  obtain ⟨frame, encoded⟩ :=
    encode_data (laneFlags (latency payload)) (r.counter (latency payload) + 1) fits
  rw [encoded, bond] at moved
  dsimp only at moved
  cases scheduled : r.bond.schedule frame payload.length with
  | error panic =>
    rw [scheduled] at moved
    cases moved
  | ok outcome =>
    obtain ⟨after, placed⟩ := outcome
    rw [scheduled] at moved
    obtain rfl := Except.ok.inj moved
    refine ⟨frame, placed, encoded, scheduled, ?_, counter⟩
    rw [log]

/-- What every run keeps: the packets of a lane are numbered from one, placed or not, and its
counter stands at how many there are. -/
structure Numbered (r : Reader) : Prop where
  frames : ∀ lane i (p : Packet), (r.packets lane)[i]? = some p → decodeBondFrame p.frame =
      .ok ⟨bondFrameData, laneFlags lane, UInt64.ofNat (i + 1), p.payload⟩
  counter : ∀ lane, r.counter lane = UInt64.ofNat (r.packets lane).length

namespace Numbered
variable {r t : Reader}
lemma new (primaryRoom : Int) : Numbered { bond := { primaryRoom := primaryRoom } } := by
  refine ⟨?_, ?_⟩
  · exact nofun
  · intro lane
    cases lane <;> rfl

lemma logged (h : Numbered r) {payload frame : List UInt8} {placed : Bool}
    (log : Logged r t payload frame placed) : Numbered t := by
  have lanes : ∀ lane, t.packets lane =
      if lane = latency payload then r.packets lane ++ [⟨payload, frame, placed⟩]
      else r.packets lane := by
    intro lane
    rw [Reader.packets, log.log, filter_append]
    split_ifs with same
    · rw [filter_singleton, same]
      simp [Reader.packets]
    · rw [filter_singleton]
      simp [Reader.packets, Ne.symm same]
  have next : ∀ lane, r.counter lane + 1 = UInt64.ofNat ((r.packets lane).length + 1) := by
    intro lane
    rw [h.counter, UInt64.ofNat_add]
    rfl
  refine ⟨?_, ?_⟩
  · intro lane i p found
    rw [lanes] at found
    split_ifs at found with same
    · rw [getElem?_snoc] at found
      split_ifs at found with last
      · -- the new packet
        cases found
        rw [decode_of_encode (encode_iff.mp log.encoded), last, ← next, same]
      · exact h.frames lane i p found
    · exact h.frames lane i p found
  · intro lane
    rw [log.counter, lanes]
    split_ifs with same
    · rw [next, length_append, length_singleton]
    · exact h.counter lane

lemma move {l} (h : Numbered r) (moved : r.move l = some t) : Numbered t := by
  obtain ⟨bond, -, rfl⟩ := Option.map_eq_some_iff.mp moved
  exact ⟨h.frames, h.counter⟩

lemma step {l} (h : Numbered r) (moved : step r l = some t) : Numbered t := by
  cases l with
  | read datagram =>
    obtain ⟨frame, placed, log⟩ := readPacket_spec (toOption_eq_some.mp moved)
    exact h.logged log
  | addWorker room worker | removeWorker object | drain object => exact h.move moved
end Numbered
variable {α : Type} {keep : α → Bool} {xs : List α} {a : α}
lemma getElem?_filter {k} (found : xs[k]? = some a) (kept : keep a = true) :
    (xs.filter keep)[(xs.take k).countP keep]? = some a := by
  induction xs generalizing k with
  | nil => cases found
  | cons x rest ih =>
    cases k with
    | zero =>
      obtain rfl : x = a := by simpa using found
      simp [kept]
    | succ k =>
      have later := @ih k (by simpa using found)
      cases keeps : keep x with
      | false | true => simpa [keeps] using later

lemma exists_of_getElem?_filter {i} (found : (xs.filter keep)[i]? = some a) :
    ∃ k, xs[k]? = some a ∧ keep a = true ∧ (xs.take k).countP keep = i := by
  induction xs generalizing i with
  | nil => cases found
  | cons x rest ih =>
    cases keeps : keep x with
    | false =>
      rw [filter_cons_of_neg (by simp [keeps])] at found
      obtain ⟨k, here, kept, count⟩ := ih found
      exact ⟨k + 1, here, kept, by simp [keeps, count]⟩
    | true =>
      rw [filter_cons_of_pos keeps] at found
      cases i with
      | zero =>
        obtain rfl : x = a := by simpa using found
        exact ⟨0, rfl, keeps, rfl⟩
      | succ i =>
        obtain ⟨k, here, kept, count⟩ := ih (by simpa using found)
        exact ⟨k + 1, here, kept, by simp [keeps, count]⟩

lemma ofNat_add_eq_iff (n lost : Nat) :
    UInt64.ofNat (n + lost + 1) = UInt64.ofNat (n + 1) ↔ 2 ^ 64 ∣ lost := by
  rw [← UInt64.toNat_inj, UInt64.toNat_ofNat', UInt64.toNat_ofNat']
  omega

lemma index_eq {k p} (r : Reader) (lane : Bool) (found : (r.packets lane)[k]? = some p) :
    k = ((r.packets lane).take k).countP (·.placed) + r.lostBefore lane k := by
  have inside := Machine.lt_of_getElem? found
  have parts := length_eq_countP_add_countP (·.placed) (l := (r.packets lane).take k)
  rw [length_take_of_le inside.le] at parts
  rw [Reader.lostBefore]
  simpa using parts

lemma Reader.lostBefore_eq (r : Reader) (lane : Bool) (k : Nat) :
    r.lostBefore lane k = (((r.packets lane).map (·.placed)).take k).countP (!·) := by
  rw [← map_take, countP_map]
  rfl

/-- In every run of the reader the placed frames are numbered without a gap exactly if before each
of them the packets its lane has lost are a multiple of 2 ^ 64 in number. -/
theorem gapFree_iff_nothing_lost (primaryRoom : Int) {labels : List Label} {r : Reader}
    (arrive : run step { bond := { primaryRoom := primaryRoom } } labels = some r) :
    r.GapFree ↔ ∀ lane k (p : Packet), (r.packets lane)[k]? = some p → p.placed = true →
      2 ^ 64 ∣ r.lostBefore lane k := by
  have numbered : Numbered r := run_invariant Numbered.step (Numbered.new primaryRoom) arrive
  constructor
  · intro free lane k p found placed
    have asPlaced := free lane _ p (getElem?_filter found placed)
    have asNumbered := numbered.frames lane k p found
    rw [asNumbered, Except.ok.injEq, BondFrame.mk.injEq] at asPlaced
    rw [← ofNat_add_eq_iff (((r.packets lane).take k).countP (·.placed)), ← index_eq r lane found]
    exact asPlaced.2.2.1
  · intro nothingLost lane i p found
    obtain ⟨k, here, placed, count⟩ := exists_of_getElem?_filter found
    have same := (ofNat_add_eq_iff i (r.lostBefore lane k)).mpr (nothingLost lane k p here placed)
    rw [numbered.frames lane k p here, ← same]
    conv_lhs => rw [index_eq r lane here, count]

def lastPacketLost : List Label :=
  [Label.addWorker 0 0, .read [1], .read [2], .removeWorker 0, .read [3]]

theorem gapFree_iff_nothing_lost_last : ∃ r,
    run step { bond := { primaryRoom := 0 } } lastPacketLost = some r ∧
      (r.placed true).length = 2 ∧ (r.packets true).length = 3 ∧ r.GapFree := by
  obtain ⟨r, arrive, kept, latencyFates, bulkFates⟩ : ∃ r,
      run step { bond := { primaryRoom := 0 } } lastPacketLost = some r ∧
        (r.placed true).length = 2 ∧ (r.packets true).map (·.placed) = [true, true, false] ∧
        (r.packets false).map (·.placed) = [] := by decide +kernel
  have lengths : (r.packets true).length = 3 := by
    rw [← length_map (·.placed), latencyFates]
    rfl
  refine ⟨r, arrive, kept, lengths, (gapFree_iff_nothing_lost 0 arrive).mpr ?_⟩
  intro lane k p found placed
  have fate : ((r.packets lane).map (·.placed))[k]? = some true := by
    rw [getElem?_map, found, Option.map_some, placed]
  rw [Reader.lostBefore_eq]
  cases lane with
  | false =>
    rw [bulkFates] at fate
    cases fate
  | true =>
    rw [latencyFates] at fate ⊢
    rcases k with _ | _ | _ | k
    · decide
    · decide
    · cases fate
    · cases fate

def earlyPacket : List Label := [Label.read [1], .addWorker 0 0, .read [2]]

theorem early_packet_leaves_gap : ∃ r p,
    run step { bond := { primaryRoom := 0 } } earlyPacket = some r ∧ r.placed true = [p] ∧
      decodeBondFrame p.frame = .ok ⟨bondFrameData, bondFlagLatency, 2, [2]⟩ ∧ ¬ r.GapFree := by
  obtain ⟨r, arrive, frames⟩ : ∃ r, run step { bond := { primaryRoom := 0 } } earlyPacket = some r ∧
      (r.placed true).map (fun p => (decodeBondFrame p.frame).toOption) =
        [some ⟨bondFrameData, bondFlagLatency, 2, [2]⟩] := by decide +kernel
  obtain ⟨p, one, decoded⟩ := map_eq_singleton_iff.mp frames
  have number := toOption_eq_some.mp decoded
  refine ⟨r, p, arrive, one, number, ?_⟩
  intro free
  have first := free true 0 p (by rw [one]; rfl)
  rw [number, Except.ok.injEq, BondFrame.mk.injEq] at first
  exact absurd first.2.2.1 (by decide)

def isBondPacket (p : List UInt8) : Bool :=
  bondMagic.length ≤ p.length && p.take bondMagic.length = bondMagic

/-- The server's decoder. Its `bondFrame` has the four fields of the client's. -/
def decodeBondFrame (p : List UInt8) : Except String BondFrame :=
  if p.length < bondHeaderSize ∨ !isBondPacket p then .error "invalid bond frame magic or length"
  else if p.getD 4 0 ≠ bondVersion then .error "unsupported bond frame version"
  else
    let typ := p.getD 5 0
    let payload := p.drop bondHeaderSize
    if typ < bondFrameBind ∨ bondFrameError < typ then .error "invalid bond frame type"
    else if limit typ < payload.length then .error "bond frame payload too large"
    else
      .ok
        { type := typ
          flags := UInt16.ofNat (getBE ((p.drop 6).take 2))
          seq := UInt64.ofNat (getBE ((p.drop 8).take 8))
          payload := payload }

/-- The encoders of both sides accept the same frames and give the same bytes, and both decoders
accept these byte strings and no others and give the frames back. -/
theorem codecs_inverse (frame : BondFrame) (buf : List UInt8) :
    (encodeBondFrame frame.type frame.flags frame.seq frame.payload = .ok buf ↔
        Frames.encodeBondFrame frame = .ok buf) ∧
      (Frames.decodeBondFrame buf = .ok frame ↔ Frames.encodeBondFrame frame = .ok buf) ∧
      (decodeBondFrame buf = .ok frame ↔ Frames.encodeBondFrame frame = .ok buf) := by
  have client : Frames.decodeBondFrame buf = .ok frame ↔ Frames.encodeBondFrame frame = .ok buf :=
    ⟨Frames.encode_of_decode, decode_of_encode⟩
  refine ⟨encode_iff, client, Iff.trans ?_ client⟩
  have magic : isBondPacket buf = true ↔ 4 ≤ buf.length ∧ buf.take 4 = Frames.bondMagic := by
    simp [isBondPacket, bondMagic, Frames.bondMagic]
  grind [decodeBondFrame, Frames.decodeBondFrame, bondVersion, Frames.bondVersion,
    bondHeaderSize, Frames.bondHeaderLen, limit, Frames.limit, bondMaxBindPayload,
    Frames.bondMaxBindJSON, bondMaxDataPayload, Frames.bondMaxDataPayload, bondFrameBind,
    Frames.bondFrameBind, bondFrameError, Frames.bondFrameError]
end Tamizdat.Wgturn.Downlink
