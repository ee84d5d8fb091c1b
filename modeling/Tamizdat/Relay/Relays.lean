/- source: node/inbound_socks.go, internal/wgturn/outbound_bridge.go, internal/localtun/client.go,
   pkg/tamizdat/server.go, udp_packetconn.go, internal/transport/fragpoc/udp_packetconn.go
   digest: The relays between two connections, and the framing of datagrams. -/

import Tamizdat.Machine.CopyLoops
import Tamizdat.Machine.Bytes

set_option autoImplicit false

open List Option
namespace Tamizdat.Relay
open Machine.Runs (run Meets)
open Machine.CopyLoops

/-- The relay of `SocksInbound.handle`: `c` is near and the tunnel far. It waits for one copy and
returns, and the deferred calls close the tunnel and then `c`. -/
def socksHandle : Relay where
  halfCloses := false
  script := [.await, .close .far, .close .near]

/-- `OutboundBridge.pumpTCP`: `gconn` is near and `upConn` far. The last two are its deferred
`closeNetConn` calls. -/
def pumpTCP : Relay where
  halfCloses := false
  script := [.await, .close .near, .close .far, .await, .close .far, .close .near]

/-- `proxyCounted` under `Client.serveTCP`: `local` is near and `upstream` far. The last two are
the deferred calls of `serveTCP`. -/
def proxyCounted : Relay where
  halfCloses := false
  script := [.await, .close .near, .close .far, .await, .close .far, .close .near]

/-- `proxyBidirectionalCounted` under `Server.handleTCPConnect`: `client` is near and `upstream`
far. Each copy half-closes its destination, `wg.Wait` waits for both, and the caller's deferred
calls close the connections. -/
def proxyBidirectionalCounted : Relay where
  halfCloses := true
  script := [.await, .await, .close .far, .close .near]

def relays : List Relay := [socksHandle, pumpTCP, proxyCounted, proxyBidirectionalCounted]

/-- Outside the server's relay, an endpoint ends its stream only after it has received the whole
of the other's. -/
def Hears (r : Relay) (stream : Side → List UInt8) (st : State UInt8) (l : Label) : Prop :=
  r = proxyBidirectionalCounted ∨ Polite stream st l
deriving Decidable

lemma relays_shape {r} (known : r ∈ relays) :
    1 ≤ guard r.script ∧ r.script.count .await ≤ 2 ∧ ∀ s, .close s ∈ r.script := by
  simp only [relays, List.mem_cons, List.not_mem_nil, or_false] at known
  obtain rfl | rfl | rfl | rfl := known
  all_goals exact ⟨by decide, by decide, fun s => by cases s <;> decide⟩

lemma Hears.patient_or_polite {r stream st l} (hears : Hears r stream st l) :
    2 ≤ guard r.script ∨ Polite stream st l := by
  obtain rfl | polite := hears
  · exact .inl (by decide)
  · exact .inr polite

/-- In every schedule whose endpoints hear each other out, an endpoint of any of the relays has
the other's whole stream when its connection is closed. Every schedule is finite, and where
nothing more can happen both connections are closed. -/
theorem relays_deliver_whole (r : Relay) (known : r ∈ relays) (stream : Side → List UInt8)
    (ls : List Label) (t : State UInt8)
    (hears : Meets (step r) (Hears r stream) (start r stream) ls)
    (arrive : run (step r) (start r stream) ls = some t) :
    Whole stream t ∧ ls.length ≤ (start r stream).weight ∧
      (Stuck r t → ∀ s, t.closed s = true ∧ t.received s = stream s.other) := by
  obtain ⟨waits, few, closes⟩ := relays_shape known
  have admitted : Meets (step r) (fun st l => 2 ≤ guard r.script ∨ Polite stream st l)
      (start r stream) ls :=
    Machine.Runs.meets_of_invariant (fun _ _ _ _ _ _ => trivial)
      (fun _ _ _ hears => hears.patient_or_polite) trivial hears
  exact complete_of_meets waits few closes admitted arrive

def oneByteEach : Side → List UInt8
  | .near => [1]
  | .far => [2]

def answered : List Label :=
  [.send .far 1, .read .far 1 false, .write .far, .send .near 1, .read .near 1 false,
    .write .near, .finish .near, .eof .near, .main, .main, .main]

theorem relays_deliver_whole_answered :
    ∃ t, run (step socksHandle) (start socksHandle oneByteEach) answered = some t ∧
      t.closed .near = true ∧ t.received .near = [2] := by
  refine Machine.Runs.exists_some_and (by decide +kernel) fun t arrive closed => ?_
  have whole := relays_deliver_whole socksHandle (by decide) oneByteEach answered t
    (by decide +kernel) arrive
  exact whole.1 .near closed

/-- The near endpoint ends its stream first; the far endpoint sends and ends after that. -/
def endsFirst : List Label :=
  [.send .near 1, .read .near 1 false, .write .near, .finish .near, .eof .near, .main, .main,
    .main, .send .far 1, .finish .far, .fail .far]

/-- Under that schedule the relay closes the near connection without the far endpoint's byte. -/
def Truncates (r : Relay) : Prop :=
  ∃ t, run (step r) (start r oneByteEach) endsFirst = some t ∧
    t.closed .near = true ∧ t.received .near = [] ∧ ¬ Whole oneByteEach t

lemma truncates_of_run {r} (evaluated : (run (step r) (start r oneByteEach) endsFirst).map
      (fun t => decide (t.closed .near = true ∧ t.received .near = [])) = some true) :
    Truncates r := by
  obtain ⟨t, arrive, holds⟩ := Option.map_eq_some_iff.mp evaluated
  obtain ⟨closed, nothing⟩ := of_decide_eq_true holds
  refine ⟨t, arrive, closed, nothing, ?_⟩
  intro whole
  have received := whole .near closed
  rw [nothing] at received
  exact absurd received (by decide)

theorem first_end_truncates :
    Truncates socksHandle ∧ Truncates pumpTCP ∧ Truncates proxyCounted := by
  refine ⟨truncates_of_run ?_, truncates_of_run ?_, truncates_of_run ?_⟩
  · decide +kernel
  · decide +kernel
  · decide +kernel
end Tamizdat.Relay
namespace Tamizdat.Relay.UdpFraming
open Machine.Buffers Machine.Bytes
variable {ε : Type}

inductive UdpError (ε : Type) where
  | errClosed
  | timeout (op : String)
  | refused (message : String)
  | eof | unexpectedEOF | shortBuffer
  | stream (reason : ε)

/-- The two packages have the same code and differ in these texts. -/
structure Texts where
  tooLarge : String
  otherTarget : String

def samizdat : Texts where
  tooLarge := "samizdat: udp datagram too large (>65000)"
  otherTarget := "samizdat: udp tunnel is bound to a single target"

/-- `incoming` is what the stream still brings and `written` what went out on it. An address is
its text, and `none` is nil. Deadlines are in nanoseconds, 0 for none. -/
structure PacketConn (ε : Type) where
  target : Option String
  closed : Bool := false
  rd : Int := 0
  wd : Int := 0
  incoming : Incoming ε
  written : List UInt8 := []

def passed (deadline now : Int) : Bool := deadline ≠ 0 && deadline ≤ now

def readBlock (n : Nat) (r : Incoming ε) : Except (UdpError ε) (List UInt8 × Incoming ε) :=
  match readFull n r with
  | .full block rest => .ok (block, rest)
  | .eof => .error .eof
  | .unexpectedEOF => .error .unexpectedEOF
  | .failed reason => .error (.stream reason)

def exhausted (r : Incoming ε) : Incoming ε := ⟨[], r.ending⟩
def scratchLen : Nat := 4096

/-- The loop that takes an oversized datagram from the stream: the error it ends with, the buffer
of the caller and what is left of the stream. -/
def drain (remaining copied : Nat) (p : List UInt8) (r : Incoming ε) :
    Option (UdpError ε) × List UInt8 × Incoming ε :=
  if remaining = 0 then (none, p, r)
  else
    let chunk := if scratchLen < remaining then scratchLen else remaining
    match readBlock chunk r with
    | .error e => (some e, p, exhausted r)
    | .ok (block, rest) =>
      if copied < p.length then
        drain (remaining - chunk) (copied + min (p.length - copied) chunk)
          (copyAt p copied block) rest
      else drain (remaining - chunk) copied p rest
termination_by remaining
decreasing_by
  all_goals
    unfold scratchLen
    split_ifs <;> omega

structure ReadOutcome (ε : Type) where
  n : Nat
  addr : Option String
  err : Option (UdpError ε)
  p : List UInt8

def readFrom (c : PacketConn ε) (now : Int) (p : List UInt8) : ReadOutcome ε × PacketConn ε :=
  if c.closed then (⟨0, none, some .errClosed, p⟩, c)
  else if passed c.rd now then (⟨0, none, some (.timeout "read"), p⟩, c)
  else
    match readBlock 2 c.incoming with
    | .error e => (⟨0, none, some e, p⟩, { c with incoming := exhausted c.incoming })
    | .ok (hdr, r) =>
      if p.length < getBE hdr then
        match drain (getBE hdr) 0 p r with
        | (some e, q, rest) => (⟨0, none, some e, q⟩, { c with incoming := rest })
        | (none, q, rest) =>
          (⟨p.length, c.target, some .shortBuffer, q⟩, { c with incoming := rest })
      else
        match readBlock (getBE hdr) r with
        | .error e => (⟨0, none, some e, copyAt p 0 r.bytes⟩, { c with incoming := exhausted r })
        | .ok (block, rest) =>
          (⟨getBE hdr, c.target, none, copyAt p 0 block⟩, { c with incoming := rest })

inductive Sent (ε : Type) where
  | all
  | failed (sent : Nat) (reason : ε)

structure WriteOutcome (ε : Type) where
  n : Nat
  err : Option (UdpError ε)

def frame (p : List UInt8) : List UInt8 := putBE 2 p.length ++ p

def writeTo (equalFold : String → String → Bool) (texts : Texts) (c : PacketConn ε) (now : Int)
    (p : List UInt8) (addr : Option String) (sent : Sent ε) : WriteOutcome ε × PacketConn ε :=
  if c.closed then (⟨0, some .errClosed⟩, c)
  else if 65000 < p.length then (⟨0, some (.refused texts.tooLarge)⟩, c)
  else if (addr.any fun a => c.target.any fun t => !equalFold a t) then
    (⟨0, some (.refused texts.otherTarget)⟩, c)
  else if passed c.wd now then (⟨0, some (.timeout "write")⟩, c)
  else
    match sent with
    | .all => (⟨p.length, none⟩, { c with written := c.written ++ frame p })
    | .failed k reason =>
      (⟨0, some (.stream reason)⟩, { c with written := c.written ++ (frame p).take k })

structure Send (ε : Type) where
  now : Int
  p : List UInt8
  addr : Option String
  sent : Sent ε

structure Receive where
  now : Int
  p : List UInt8

def writeAll (equalFold : String → String → Bool) (texts : Texts) (c : PacketConn ε) :
    List (Send ε) → List (WriteOutcome ε) × PacketConn ε
  | [] => ([], c)
  | s :: more =>
    let first := writeTo equalFold texts c s.now s.p s.addr s.sent
    let rest := writeAll equalFold texts first.2 more
    (first.1 :: rest.1, rest.2)

def readAll (c : PacketConn ε) : List Receive → List (ReadOutcome ε) × PacketConn ε
  | [] => ([], c)
  | r :: more =>
    let first := readFrom c r.now r.p
    let rest := readAll first.2 more
    (first.1 :: rest.1, rest.2)

lemma readBlock_append {n block} (exact : block.length = n) (rest : List UInt8)
    (ending : Ending ε) :
    readBlock n ⟨block ++ rest, ending⟩ = .ok (block, ⟨rest, ending⟩) := by
  rw [readBlock, readFull_append exact]

lemma drain_append {copied p} (block rest : List UInt8) (ending : Ending ε)
    (inside : copied ≤ p.length) :
    drain block.length copied p ⟨block ++ rest, ending⟩ =
      (none, copyAt p copied block, ⟨rest, ending⟩) := by
  generalize size : block.length = remaining
  induction remaining using Nat.strong_induction_on generalizing block copied p with
  | _ remaining ih =>
    rw [drain]
    by_cases done : remaining = 0
    · rw [if_pos done, length_eq_zero_iff.mp (size.trans done), copyAt_nil]
      rfl
    · rw [if_neg done]
      generalize cut : (if scratchLen < remaining then scratchLen else remaining) = chunk
      have bounds : 0 < chunk ∧ chunk ≤ remaining := by
        rw [← cut, scratchLen]
        split_ifs <;> omega
      have front : (block.take chunk).length = chunk := length_take_of_le (by omega)
      have back : (block.drop chunk).length = remaining - chunk := by rw [length_drop, size]
      have whole : block.take chunk ++ block.drop chunk = block := take_append_drop _ _
      have read := readBlock_append front (block.drop chunk ++ rest) ending
      rw [← append_assoc, whole] at read
      dsimp only
      rw [read]
      dsimp only
      split_ifs with more
      · have place : copied + min (p.length - copied) chunk =
            min p.length (copied + (block.take chunk).length) := by omega
        have room : min p.length (copied + (block.take chunk).length) ≤
            (copyAt p copied (block.take chunk)).length := by
          rw [length_copyAt inside]
          exact Nat.min_le_left _ _
        rw [place, ih (remaining - chunk) (by omega) (block.drop chunk) room back,
          copyAt_copyAt inside, whole]
      · obtain rfl : copied = p.length := by omega
        rw [ih (remaining - chunk) (by omega) (block.drop chunk) inside back, copyAt_end,
          copyAt_end]

variable {c : PacketConn ε}
lemma length_lt_of_accepted {equalFold : String → String → Bool} {texts : Texts} {s : Send ε}
    (accepted : (writeTo equalFold texts c s.now s.p s.addr s.sent).1.err = none) :
    s.p.length < 256 ^ 2 ∧ (writeTo equalFold texts c s.now s.p s.addr s.sent).2 =
      { c with written := c.written ++ frame s.p } := by
  unfold writeTo at accepted ⊢
  split_ifs at accepted ⊢ with closed large other late
  cases outcome : s.sent with
  | all => exact ⟨by omega, rfl⟩
  | failed k reason =>
    rw [outcome] at accepted
    cases accepted

lemma written_of_accepted {equalFold texts sends}
    (accepted : ∀ o ∈ (writeAll equalFold texts c sends).1, o.err = none) :
    (∀ s ∈ sends, s.p.length < 256 ^ 2) ∧ (writeAll equalFold texts c sends).2.written =
      c.written ++ sends.flatMap fun s => frame s.p := by
  induction sends generalizing c with
  | nil => simp [writeAll]
  | cons s more ih =>
    obtain ⟨small, next⟩ := length_lt_of_accepted (accepted _ mem_cons_self)
    obtain ⟨others, written⟩ := ih fun o member => accepted o (mem_cons_of_mem _ member)
    refine ⟨forall_mem_cons.mpr ⟨small, others⟩, ?_⟩
    rw [writeAll]
    dsimp only
    rw [written, next, flatMap_cons, append_assoc]

def delivery (c : PacketConn ε) (datagram p : List UInt8) : ReadOutcome ε where
  n := min datagram.length p.length
  addr := c.target
  err := if p.length < datagram.length then some .shortBuffer else none
  p := datagram.take p.length ++ p.drop datagram.length

lemma delivery_buffer (c : PacketConn ε) (datagram p : List UInt8) :
    (delivery c datagram p).p.take (min datagram.length p.length) =
        datagram.take (min datagram.length p.length) ∧
      (delivery c datagram p).p.drop (min datagram.length p.length) =
        p.drop (min datagram.length p.length) := by
  have size : (datagram.take p.length).length = min datagram.length p.length := by
    rw [length_take, Nat.min_comm]
  refine ⟨?_, ?_⟩
  · rw [delivery, take_left' size]
    rcases Nat.le_total datagram.length p.length with whole | cut
    · rw [Nat.min_eq_left whole, take_length, take_of_length_le whole]
    · rw [Nat.min_eq_right cut]
  · rw [delivery, drop_left' size]
    rcases Nat.le_total datagram.length p.length with whole | cut
    · rw [Nat.min_eq_left whole]
    · rw [Nat.min_eq_right cut, drop_length, drop_eq_nil_of_le cut]

lemma delivery_err (c : PacketConn ε) (datagram p : List UInt8) :
    ((delivery c datagram p).err = some .shortBuffer ↔ p.length < datagram.length) ∧
      ((delivery c datagram p).err = none ↔ datagram.length ≤ p.length) := by
  dsimp only [delivery]
  split_ifs with short
  · simp [short]
  · simp [short, not_lt.mp short]

lemma readFrom_frame {now datagram rest} (openNow : c.closed = false)
    (inTime : passed c.rd now = false)
    (small : datagram.length < 256 ^ 2) (stream : c.incoming.bytes = frame datagram ++ rest)
    (p : List UInt8) :
    readFrom c now p =
      (delivery c datagram p, { c with incoming := ⟨rest, c.incoming.ending⟩ }) := by
  have header : readBlock 2 c.incoming =
      .ok (putBE 2 datagram.length, ⟨datagram ++ rest, c.incoming.ending⟩) := by
    rw [show c.incoming = ⟨putBE 2 datagram.length ++ (datagram ++ rest), c.incoming.ending⟩ by
      rw [← append_assoc, ← frame, ← stream]]
    exact readBlock_append (length_putBE _ _) _ _
  unfold readFrom
  rw [openNow, inTime, header]
  simp only [Bool.false_eq_true, if_false, getBE_putBE small, delivery]
  split_ifs with short
  · rw [drain_append datagram rest _ (Nat.zero_le _), copyAt_zero, Nat.min_eq_right short.le]
  · rw [readBlock_append rfl, Nat.min_eq_left (not_lt.mp short)]
    dsimp only
    rw [copyAt_zero]

lemma readAll_frames {reads k d r} {datagrams : List (List UInt8)} (openNow : c.closed = false)
    (inTime : ∀ r ∈ reads, passed c.rd r.now = false)
    (small : ∀ d ∈ datagrams, d.length < 256 ^ 2)
    (stream : c.incoming.bytes = datagrams.flatMap frame) (sent : datagrams[k]? = some d)
    (read : reads[k]? = some r) :
    (readAll c reads).1[k]? = some (delivery c d r.p) ∧ (readAll c (reads.take (k + 1))).2 =
        { c with incoming := ⟨(datagrams.drop (k + 1)).flatMap frame, c.incoming.ending⟩ } := by
  induction reads generalizing c datagrams k with
  | nil => cases read
  | cons next more ih =>
    cases datagrams with
    | nil => cases sent
    | cons first later =>
      have one := readFrom_frame openNow (inTime next mem_cons_self)
        (small first mem_cons_self) (stream.trans flatMap_cons) next.p
      cases k with
      | zero =>
        cases sent
        cases read
        simp [readAll, one]
      | succ k =>
        rw [take_succ_cons, readAll, readAll, one]
        exact ih (c := { c with incoming := ⟨later.flatMap frame, c.incoming.ending⟩ })
          openNow (fun r member => inTime r (mem_cons_of_mem _ member))
          (fun d member => small d (mem_cons_of_mem _ member)) rfl sent read

/-- The two ends stay in step. Of the datagrams that `WriteTo` has accepted on a stream, each
read at the other end gets the next, as much of it as its buffer holds, with `ErrShortBuffer`
exactly if that is not all, and takes just the frame of that datagram from the stream; the sizes
of the buffers before it make no difference. -/
theorem datagrams_in_step (equalFold : String → String → Bool) (texts : Texts)
    {c d : PacketConn ε} {sends : List (Send ε)} {reads : List Receive}
    (accepted : ∀ o ∈ (writeAll equalFold texts c sends).1, o.err = none)
    (stream : (writeAll equalFold texts c sends).2.written = c.written ++ d.incoming.bytes)
    (openNow : d.closed = false) (inTime : ∀ r ∈ reads, passed d.rd r.now = false) {k : Nat}
    {send : Send ε} {read : Receive} (sent : sends[k]? = some send)
    (received : reads[k]? = some read) :
    ∃ o, (readAll d reads).1[k]? = some o ∧ o.n = min send.p.length read.p.length ∧
      o.p.take o.n = send.p.take o.n ∧ o.p.drop o.n = read.p.drop o.n ∧
      (o.err = some .shortBuffer ↔ read.p.length < send.p.length) ∧
      (o.err = none ↔ send.p.length ≤ read.p.length) ∧ o.addr = d.target ∧
      (readAll d (reads.take (k + 1))).2 = { d with
        incoming := ⟨(sends.drop (k + 1)).flatMap fun s => frame s.p, d.incoming.ending⟩ } := by
  obtain ⟨small, written⟩ := written_of_accepted accepted
  have bytes : d.incoming.bytes = (sends.map Send.p).flatMap frame := by
    rw [written, append_cancel_left_eq] at stream
    rw [← stream, flatMap_map]
  have fits : ∀ p ∈ sends.map Send.p, p.length < 256 ^ 2 := by
    intro p member
    obtain ⟨s, old, rfl⟩ := List.mem_map.mp member
    exact small s old
  have there : (sends.map Send.p)[k]? = some send.p := by rw [getElem?_map, sent]; rfl
  obtain ⟨outcome, left⟩ := readAll_frames openNow inTime fits bytes there received
  obtain ⟨front, back⟩ := delivery_buffer d send.p read.p
  obtain ⟨short, none⟩ := delivery_err d send.p read.p
  refine ⟨_, outcome, rfl, front, back, short, none, rfl, ?_⟩
  rw [left, ← map_drop, flatMap_map]

def threeSends : List (Send Unit) :=
  [⟨0, [1, 2, 3], none, .all⟩, ⟨0, [], none, .all⟩, ⟨0, [4], none, .all⟩]

def writerEnd : PacketConn Unit := { target := none, incoming := ⟨[], .closed⟩ }

def readerEnd : PacketConn Unit :=
  { target := none, incoming := ⟨[0, 3, 1, 2, 3, 0, 0, 0, 1, 4], .closed⟩ }

def smallBuffers : List Receive := [⟨0, [9, 9]⟩, ⟨0, []⟩, ⟨0, [9, 9]⟩]

theorem datagrams_in_step_smallBuffers :
    ∃ o, (readAll readerEnd smallBuffers).1[2]? = some o ∧ o.n = 1 ∧ o.p.take o.n = [4] ∧
      o.err = none := by
  have accepted : ∀ o ∈ (writeAll (fun _ _ => true) samizdat writerEnd threeSends).1,
      o.err = none := by decide
  have stream : (writeAll (fun _ _ => true) samizdat writerEnd threeSends).2.written =
      writerEnd.written ++ readerEnd.incoming.bytes := by decide
  have inTime : ∀ r ∈ smallBuffers, passed readerEnd.rd r.now = false := by decide
  have sent : threeSends[2]? = some ⟨0, [4], none, .all⟩ := rfl
  have received : smallBuffers[2]? = some ⟨0, [9, 9]⟩ := rfl
  obtain ⟨o, third, count, front, -, -, none, -, -⟩ :=
    datagrams_in_step (fun _ _ => true) samizdat accepted stream rfl inTime sent received
  refine ⟨o, third, count, ?_, none.mpr (by decide)⟩
  rw [front, count]
  rfl
end Tamizdat.Relay.UdpFraming
