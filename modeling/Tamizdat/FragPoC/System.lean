/- source: internal/transport/fragpoc/client.go, scheduler.go, server.go
   digest: A session end to end, over a network that cuts, and what its client can hold. -/

import Tamizdat.FragPoC.Server
import Tamizdat.Machine.Maps
import Tamizdat.Machine.Runs

set_option autoImplicit false

open List Option
namespace Tamizdat.FragPoC
open FragPoC.Wire Machine.Maps
open Machine.Word (addW)
open Machine.Bytes (Ending)
namespace Client
def maxPendingFrames : Nat := 16

/-- The fields of `Conn` that `Read` and the polls use. `done` stands for the closed channel. -/
structure Conn where
  closed : Bool
  eof : Bool
  done : Bool
  readBuf : List UInt8
  downCh : List DownResult
  errCh : List Err
  pending : GoMap Nat (List UInt8)
  nextSeq : Nat
  eofSeq : Nat
  haveEOF : Bool
  recvAck : Nat

inductive Outcome
  | data (bytes : List UInt8)
  | error (e : Err)
deriving DecidableEq

inductive Turn
  | returns (outcome : Outcome)
  | selects | again

namespace Conn
def fresh : Conn where
  closed := false
  eof := false
  done := false
  readBuf := []
  downCh := []
  errCh := []
  pending := ∅
  nextSeq := 0
  eofSeq := 0
  haveEOF := false
  recvAck := 0

section
variable (c : Conn)
def acknowledge : Conn := { c with nextSeq := addW 32 c.nextSeq 1, recvAck := addW 32 c.nextSeq 1 }
def finish : Conn := { c with eof := true, done := true }

def copyOut (n : Nat) : Conn × Turn :=
  ({ c with readBuf := c.readBuf.drop n }, .returns (.data (c.readBuf.take n)))

def loopHead (n : Nat) : Conn × Turn :=
  if c.readBuf ≠ [] then c.copyOut n
  else
    match c.pending.lookup c.nextSeq with
    | some buf => copyOut { c.acknowledge with
        pending := c.pending.erase c.nextSeq, readBuf := buf } n
    | none =>
      if c.haveEOF ∧ c.eofSeq = c.nextSeq then (c.acknowledge.finish, .returns (.error .eof))
      else (c, .selects)

def receive (res : DownResult) : Conn × Turn :=
  if res.eof then
    if res.seq < c.nextSeq then (c.finish, .returns (.error .eof))
    else ({ c with haveEOF := true, eofSeq := res.seq }, .again)
  else if res.buf = [] ∨ res.seq < c.nextSeq then (c, .again)
  else if res.seq = c.nextSeq then ({ c.acknowledge with readBuf := res.buf }, .again)
  else if c.pending.lookup res.seq = none ∧ size c.pending < maxPendingFrames then
    ({ c with pending := c.pending.insert res.seq res.buf }, .again)
  else (c, .again)
end

inductive Heads (c : Conn) (n : Nat) : Conn × Turn → Prop
  | copies : c.readBuf ≠ [] → Heads c n (c.copyOut n)
  | pends {buf : List UInt8} : c.readBuf = [] → c.pending.lookup c.nextSeq = some buf →
      Heads c n (copyOut { c.acknowledge with
        pending := c.pending.erase c.nextSeq, readBuf := buf } n)
  | ends : c.readBuf = [] → c.haveEOF = true → c.eofSeq = c.nextSeq →
      Heads c n (c.acknowledge.finish, .returns (.error .eof))
  | selects : c.readBuf = [] → Heads c n (c, .selects)

lemma heads_loopHead (c : Conn) (n : Nat) : Heads c n (c.loopHead n) := by
  unfold loopHead
  by_cases full : c.readBuf ≠ []
  · rw [if_pos full]
    exact Heads.copies full
  · rw [if_neg full]
    rw [ne_eq, not_not] at full
    cases held : c.pending.lookup c.nextSeq with
    | some buf => exact Heads.pends full held
    | none =>
      split_ifs with last
      · exact Heads.ends full last.1 last.2
      · exact Heads.selects full

inductive Receives (c : Conn) (res : DownResult) : Conn × Turn → Prop
  | late : res.eof = true → res.seq < c.nextSeq → Receives c res (c.finish, .returns (.error .eof))
  | ending : res.eof = true → Receives c res ({ c with haveEOF := true, eofSeq := res.seq }, .again)
  | ignores : Receives c res (c, .again)
  | expected : res.eof = false → res.seq = c.nextSeq →
      Receives c res ({ c.acknowledge with readBuf := res.buf }, .again)
  | stores : res.eof = false →
      Receives c res ({ c with pending := c.pending.insert res.seq res.buf }, .again)

lemma receives_receive (c : Conn) (res : DownResult) : Receives c res (c.receive res) := by
  unfold receive
  split_ifs with last stale ignored same room
  · exact Receives.late last stale
  · exact Receives.ending last
  · exact Receives.ignores
  · exact Receives.expected (by simpa using last) same
  · exact Receives.stores (by simpa using last)
  · exact Receives.ignores

def offerErr (c : Conn) (e : Err) : Conn :=
  if c.errCh = [] then { c with errCh := [e] } else c
end Conn

/-- Where the one call of `Read` that holds `readMu` stands, with the length of its buffer. -/
inductive Reader
  | idle
  | looping (n : Nat)
  | selecting (n : Nat)

/-- The stages of `runScheduledDownPoll`. `closing` is also where `Close` and the scheduler stand
before their `closeDone`. -/
inductive Poll
  | started
  | asking (ack : Nat)
  | delivering (res : DownResult)
  | closing | over

def conclude (c : Conn) : Except Err DownResult → Conn × Poll
  | .error e => if isTransientDownError e then (c, .over) else (c.offerErr e, .closing)
  | .ok res => if res.eof = false ∧ res.buf = [] then (c, .over) else (c, .delivering res)
end Client
namespace System
open FragPoC.Client

/-- `limit` is the server's payload bound, which its configuration keeps within the constant.
`link` and `downWindow` belong to the client. -/
structure Config where
  link : Link
  downWindow : Nat
  limit : Nat
  limit_le : limit ≤ payloadCeiling

/-- `requests` holds the ack of every DOWN request ever sent, and `outcomes` what the calls of
`Read` have returned so far. -/
structure State where
  server : Server.State
  requests : List Nat
  polls : List Poll
  conn : Conn
  reader : Reader
  outcomes : List Outcome

/-- The frames produced so far fit their 32-bit numbers. -/
abbrev State.Few (s : State) : Prop := s.server.session.produced.length < 2 ^ 32

def State.start : State where
  server := Server.State.start
  requests := []
  polls := []
  conn := Conn.fresh
  reader := .idle
  outcomes := []

inductive Source
  | handler (j : Nat)
  | noSession | badRequest

variable (s : State)

/-- The answer, once it has been given. An answer can be read late, and more than once. -/
def State.response : Source → Option Response
  | .handler j =>
    match s.server.handlers[j]? with
    | some ⟨_, .answered r⟩ => some r
    | _ => none
  | .noSession => some .noSession
  | .badRequest => some .badRequest

/-- Steps of the polls, of `Close` and of the scheduler. `reply` delivers the first `m` bytes of
an answer; `fail` is a poll whose dial or write failed, or whose connection ended before any
answer was given. -/
inductive PollLabel
  | poll
  | ask (i : Nat)
  | reply (i : Nat) (source : Source) (nonce : List UInt8) (m : Nat) (ending : Ending NetErr)
  | fail (i : Nat) (e : Err)
  | enqueue (i : Nat)
  | abandon (i : Nat)
  | closeDone (i : Nat)
  | close | stuck

inductive ReadLabel
  | read (n : Nat)
  | turn | takeResult | takeErr | takeDone | expire

inductive Label
  | server (l : Server.Label)
  | poll (l : PollLabel)
  | reader (l : ReadLabel)

def State.settle (n : Nat) (next : Conn × Turn) : State :=
  match next.2 with
  | .returns outcome =>
    { s with conn := next.1, reader := .idle, outcomes := s.outcomes ++ [outcome] }
  | .selects => { s with conn := next.1, reader := .selecting n }
  | .again => { s with conn := next.1, reader := .looping n }

def State.setPoll (i : Nat) (next : Conn × Poll) : State :=
  { s with conn := next.1, polls := s.polls.set i next.2 }

def stepPoll (cfg : Config) (s : State) : PollLabel → Option State
  | .poll => if s.conn.done then none else some { s with polls := s.polls ++ [.started] }
  | .ask i =>
    match s.polls[i]? with
    | some .started => some { s with
        requests := s.requests ++ [s.conn.recvAck]
        polls := s.polls.set i (.asking s.conn.recvAck) }
    | _ => none
  | .reply i source nonce m ending =>
    match s.polls[i]?, s.response source with
    | some (.asking _), some r =>
      if nonce.length = secureNonceLen then
        some (s.setPoll i
          (conclude s.conn (down cfg.link ⟨(r.wire cfg.link nonce).take m, ending⟩)))
      else none
    | _, _ => none
  | .fail i e =>
    match s.polls[i]? with
    | some (.asking _) => some (s.setPoll i (conclude s.conn (.error e)))
    | _ => none
  | .enqueue i =>
    match s.polls[i]? with
    | some (.delivering res) =>
      if s.conn.downCh.length < 2 * cfg.downWindow then
        some (s.setPoll i ({ s.conn with downCh := s.conn.downCh ++ [res] }, .over))
      else none
    | _ => none
  | .abandon i =>
    match s.polls[i]? with
    | some (.delivering _) => if s.conn.done then some (s.setPoll i (s.conn, .over)) else none
    | _ => none
  | .closeDone i =>
    match s.polls[i]? with
    | some .closing => some (s.setPoll i ({ s.conn with done := true }, .over))
    | _ => none
  | .close => if s.conn.closed then none else some { s with
      conn := { s.conn with closed := true }, polls := s.polls ++ [.closing] }
  | .stuck => some { s with
      conn := s.conn.offerErr .schedulerStuck, polls := s.polls ++ [.closing] }

def stepReader : ReadLabel → Option State
  | .read n =>
    match s.reader with
    | .idle =>
      if s.conn.closed then some { s with outcomes := s.outcomes ++ [.error .errClosed] }
      else some { s with reader := .looping n }
    | _ => none
  | .turn =>
    match s.reader with
    | .looping n => some (s.settle n (s.conn.loopHead n))
    | _ => none
  | .takeResult =>
    match s.reader, s.conn.downCh with
    | .selecting n, res :: rest => some (s.settle n ({ s.conn with downCh := rest }.receive res))
    | _, _ => none
  | .takeErr =>
    match s.reader, s.conn.errCh with
    | .selecting n, e :: rest => some (s.settle n ({ s.conn with errCh := rest },
        .returns (.error (if s.conn.closed then .errClosed else e))))
    | _, _ => none
  | .takeDone =>
    match s.reader with
    | .selecting n =>
      if s.conn.done then some (s.settle n (s.conn,
        .returns (.error (if s.conn.eof then .eof else .errClosed))))
      else none
    | _ => none
  | .expire =>
    match s.reader with
    | .selecting n => some (s.settle n (s.conn, .returns (.error .deadlineExceeded)))
    | _ => none

/-- A handler is started by a request that was sent, at whatever time it arrives. -/
def State.admits : Server.Label → Bool
  | .serve ack => decide (ack ∈ s.requests)
  | _ => true

def step (cfg : Config) (s : State) : Label → Option State
  | .server l =>
    if s.admits l then
      (Server.step cfg.limit s.server l).map (fun server => { s with server := server })
    else none
  | .poll l => stepPoll cfg s l
  | .reader l => stepReader s l

def paddingAead : Aead where
  sealBody := fun _ plain => plain ++ List.replicate secureOverhead 0
  openBody := fun _ body => some (body.take (body.length - secureOverhead))
  open_seal := by simp
  length_seal := by simp

def plainConfig : Config where
  link := ⟨false, paddingAead, payloadCeiling⟩
  downWindow := 4
  limit := payloadCeiling
  limit_le := le_rfl

def zeroNonce : List UInt8 := List.replicate secureNonceLen 0

def exchange (i ack : Nat) : List Label :=
  [.poll .poll, .poll (.ask i), .server (.serve ack), .server (.handle i .go),
    .server (.handle i .go), .server (.handle i .go)]

def readBack (i m : Nat) : List Label :=
  [.poll (.reply i (.handler i) zeroNonce m .closed), .poll (.enqueue i), .reader (.read 10),
    .reader .turn, .reader .takeResult, .reader .turn]
end System
namespace Exchange
open FragPoC.Client FragPoC.System
open Machine.Word (addW_of_lt)
open Server (step_giveUp step_handle step_produce step_send step_serve)
def frameResult (f : DownFrame) : DownResult := ⟨f.seq, if f.eof then [] else f.data, f.eof⟩

section

structure From (P : DownFrame → Prop) (c : Conn) : Prop where
  results : ∀ res ∈ c.downCh, ∃ f, P f ∧ res = frameResult f
  pending : ∀ {k : Nat} {buf : List UInt8}, c.pending.lookup k = some buf →
    ∃ f, P f ∧ f.eof = false ∧ f.seq = k ∧ f.data = buf
  ending : c.haveEOF = true → ∃ f, P f ∧ f.eof = true ∧ f.seq = c.eofSeq
  counted : ∀ n < c.nextSeq, ∃ f, P f ∧ f.seq = n
  published : c.recvAck = c.nextSeq

variable {P : DownFrame → Prop} {c : Conn}
lemma from_fresh : From P Conn.fresh where
  results := by simp [Conn.fresh]
  pending := by simp [Conn.fresh]
  ending := by simp [Conn.fresh]
  counted := by simp [Conn.fresh]
  published := rfl

variable (source : From P c)
include source
lemma From.mono {Q} (weaker : ∀ f, P f → Q f) : From Q c where
  results := fun res member => by
    obtain ⟨f, holds, same⟩ := source.results res member
    exact ⟨f, weaker f holds, same⟩
  pending := fun held => by
    obtain ⟨f, holds, rest⟩ := source.pending held
    exact ⟨f, weaker f holds, rest⟩
  ending := fun ends => by
    obtain ⟨f, holds, rest⟩ := source.ending ends
    exact ⟨f, weaker f holds, rest⟩
  counted := fun n below => by
    obtain ⟨f, holds, same⟩ := source.counted n below
    exact ⟨f, weaker f holds, same⟩
  published := source.published

lemma From.congr {c'} (downCh : ∀ res ∈ c'.downCh, res ∈ c.downCh)
    (pending : c'.pending = c.pending := by rfl) (haveEOF : c'.haveEOF = c.haveEOF := by rfl)
    (eofSeq : c'.eofSeq = c.eofSeq := by rfl) (nextSeq : c'.nextSeq = c.nextSeq := by rfl)
    (recvAck : c'.recvAck = c.recvAck := by rfl) : From P c' where
  results := fun res member => source.results res (downCh res member)
  pending := by rw [pending]; exact source.pending
  ending := by rw [haveEOF, eofSeq]; exact source.ending
  counted := by rw [nextSeq]; exact source.counted
  published := by rw [recvAck, nextSeq]; exact source.published

variable (small : ∀ f, P f → f.seq + 1 < 2 ^ 32)
include small
lemma From.acknowledge {f} (holds : P f) (expected : f.seq = c.nextSeq) :
    c.acknowledge.nextSeq = c.nextSeq + 1 ∧ From P c.acknowledge := by
  have next : addW 32 c.nextSeq 1 = c.nextSeq + 1 := addW_of_lt (by have := small f holds; omega)
  refine ⟨next, source.results, source.pending, source.ending, ?_, rfl⟩
  intro n below
  have bound : n < c.nextSeq + 1 := next ▸ below
  rcases Nat.lt_or_eq_of_le (Nat.le_of_lt_succ bound) with before | rfl
  · exact source.counted n before
  · exact ⟨f, holds, expected⟩

lemma From.loopHead {n : Nat} {next : Conn × Turn} (heads : Conn.Heads c n next) :
    From P next.1 ∧ c.nextSeq ≤ next.1.nextSeq := by
  cases heads with
  | copies full => exact ⟨source.congr fun _ => id, le_rfl⟩
  | pends empty held =>
    obtain ⟨f, holds, -, expected, -⟩ := source.pending held
    obtain ⟨next, after⟩ := source.acknowledge small holds expected
    refine ⟨{ after with pending := ?_ },
      by change _ ≤ c.acknowledge.nextSeq; omega⟩
    intro k buf' present
    exact source.pending (lookup_of_erase present)
  | ends empty last here =>
    obtain ⟨f, holds, -, number⟩ := source.ending last
    obtain ⟨next, after⟩ := source.acknowledge small holds (number.trans here)
    exact ⟨after.congr fun _ => id,
      by change _ ≤ c.acknowledge.nextSeq; omega⟩
  | selects empty => exact ⟨source, le_rfl⟩

lemma From.receive {f : DownFrame} (holds : P f) {next : Conn × Turn}
    (receives : Conn.Receives c (frameResult f) next) :
    From P next.1 ∧ c.nextSeq ≤ next.1.nextSeq := by
  cases receives with
  | late last stale => exact ⟨source.congr fun _ => id, le_rfl⟩
  | ending last => exact ⟨{ source with ending := fun _ => ⟨f, holds, last, rfl⟩ }, le_rfl⟩
  | ignores => exact ⟨source, le_rfl⟩
  | expected more same =>
    obtain ⟨next, after⟩ := source.acknowledge small holds same
    exact ⟨after.congr fun _ => id,
      by change _ ≤ c.acknowledge.nextSeq; omega⟩
  | stores more =>
    have more : f.eof = false := more
    refine ⟨{ source with pending := ?_ }, le_rfl⟩
    intro k buf present
    have inserted : (c.pending.insert f.seq (if f.eof then [] else f.data)).lookup k =
        some buf := present
    simp only [lookup_insert, more, Bool.false_eq_true, if_false] at inserted
    split_ifs at inserted with same
    · rw [some.injEq] at inserted
      exact ⟨f, holds, more, same.symm, inserted⟩
    · exact source.pending inserted
end

def Served (server : Server.State) (f : DownFrame) : Prop :=
  ∃ h ∈ server.handlers, h.stage = .answered (.frame f)

variable {limit : Nat} {l : Server.Label}
section
variable {server server' : Server.State} (moved : Server.step limit server l = some server')
include moved
lemma answered_step {h r}
    (member : h ∈ server.handlers) (answer : h.stage = .answered r) : h ∈ server'.handlers := by
  cases l with
  | read chunk =>
    obtain ⟨_, _, -, -, rfl⟩ := step_produce (.inl ⟨chunk, rfl⟩) moved
    exact member
  | fail =>
    obtain ⟨_, _, -, -, rfl⟩ := step_produce (.inr rfl) moved
    exact member
  | send =>
    obtain ⟨_, -, -, rfl⟩ := step_send moved
    exact member
  | giveUp =>
    obtain ⟨_, -, rfl⟩ := step_giveUp moved
    exact member
  | serve ack =>
    rw [step_serve moved]
    exact mem_append_left _ member
  | handle i wake =>
    obtain ⟨g, sess, stage, here, advances, rfl⟩ := step_handle moved
    obtain ⟨j, there⟩ := getElem?_of_mem member
    have other : i ≠ j := by
      rintro rfl
      rw [here] at there
      cases there
      rw [answer] at advances
      cases advances with
      | take before _ => rcases before with impossible | impossible <;> cases impossible
      | replay before _ => rcases before with ⟨_, impossible⟩ | impossible <;> cases impossible
    refine mem_of_getElem? (i := j) ?_
    rw [getElem?_set_ne other, there]

lemma served_step {f} (served : Served server f) : Served server' f := by
  obtain ⟨h, member, answer⟩ := served
  exact ⟨h, answered_step moved member answer, answer⟩

lemma produced_step : server.session.produced <+: server'.session.produced := by
  cases l with
  | read chunk =>
    obtain ⟨_, _, -, -, rfl⟩ := step_produce (.inl ⟨chunk, rfl⟩) moved
    exact prefix_append _ _
  | fail =>
    obtain ⟨_, _, -, -, rfl⟩ := step_produce (.inr rfl) moved
    exact prefix_append _ _
  | send =>
    obtain ⟨_, -, -, rfl⟩ := step_send moved
    exact prefix_refl _
  | giveUp =>
    obtain ⟨_, -, rfl⟩ := step_giveUp moved
    exact prefix_refl _
  | serve ack => rw [step_serve moved]
  | handle i wake =>
    obtain ⟨h, sess, stage, -, advances, rfl⟩ := step_handle moved
    rw [advances.frame.2.2.2]
end

structure Agrees (cfg : Config) (s : State) : Prop where
  sound : Frames.Sound cfg.limit s.server
  holds : From (Served s.server) s.conn
  delivering : ∀ res, .delivering res ∈ s.polls → ∃ f, Served s.server f ∧ res = frameResult f
  requested : ∀ ack ∈ s.requests, ack ≤ s.conn.nextSeq
  asked : ∀ h ∈ s.server.handlers, h.ack ≤ s.conn.nextSeq

lemma agrees_start (cfg : Config) : Agrees cfg State.start where
  sound := Frames.sound_start cfg.limit
  holds := from_fresh
  delivering := by simp [State.start]
  requested := by simp [State.start]
  asked := by simp [State.start, Server.State.start]

variable {cfg : Config} {s : State} {f : DownFrame}
section
variable (agrees : Agrees cfg s)
include agrees
lemma Agrees.produced_of_served (served : Served s.server f) : f ∈ s.server.session.produced := by
  obtain ⟨h, member, answer⟩ := served
  refine agrees.sound.known f (.inr (.inr (.inr ⟨h, member, ?_⟩)))
  rw [answer]
  exact mem_cons_self

variable (few : s.Few)
include few
lemma Agrees.index (member : f ∈ s.server.session.produced) :
    s.server.session.produced[f.seq]? = some f ∧ f.seq < s.server.session.produced.length := by
  obtain ⟨i, here⟩ := getElem?_of_mem member
  have inside := Machine.lt_of_getElem? here
  have number := agrees.sound.numbered.seq_eq here
  rw [Nat.mod_eq_of_lt (by omega)] at number
  rw [number]
  exact ⟨here, inside⟩

lemma Agrees.small : ∀ f, Served s.server f → f.seq + 1 < 2 ^ 32 := by
  intro f served
  have := (agrees.index few (agrees.produced_of_served served)).2
  omega

lemma Agrees.nextSeq_le : s.conn.nextSeq ≤ s.server.session.produced.length := by
  rcases Nat.eq_zero_or_pos s.conn.nextSeq with zero | positive
  · omega
  · obtain ⟨f, served, number⟩ := agrees.holds.counted (s.conn.nextSeq - 1) (by omega)
    have := (agrees.index few (agrees.produced_of_served served)).2
    omega
end
variable {source : Source}
lemma Agrees.fits {r} (agrees : Agrees cfg s) (few : s.Few)
    (answer : s.response source = some r) : r.Fits := by
  cases source with
  | noSession | badRequest => cases answer; trivial
  | handler j =>
    dsimp only [State.response] at answer
    split at answer
    · next ack response here =>
        cases answer
        have member := mem_of_getElem? here
        rcases agrees.sound.idles _ member r rfl with ⟨f, rfl⟩ | idle
        · have known := agrees.produced_of_served ⟨_, member, rfl⟩
          have bound := cfg.limit_le
          refine ⟨?_, ?_⟩
          · have := (agrees.index few known).2
            omega
          · cases last : f.eof with
            | true =>
              obtain ⟨i, here⟩ := getElem?_of_mem known
              rw [(agrees.sound.numbered.eof_last here last).2]
              exact Nat.zero_le _
            | false =>
              have := agrees.sound.numbered.sized f known last
              omega
        · have low := agrees.asked _ member
          have high := agrees.nextSeq_le few
          dsimp only at low idle
          rw [idle]
          change ack < 2 ^ 32
          omega
    · cases answer

lemma Agrees.server (agrees : Agrees cfg s) {l : Server.Label} {server : Server.State}
    (admitted : s.admits l = true) (moved : Server.step cfg.limit s.server l = some server) :
    Agrees cfg { s with server := server } := by
  refine ⟨agrees.sound.step moved, agrees.holds.mono (fun _ => served_step moved), ?_,
    agrees.requested, ?_⟩
  · intro res member
    obtain ⟨f, served, same⟩ := agrees.delivering res member
    exact ⟨f, served_step moved served, same⟩
  · cases l with
    | read chunk =>
      obtain ⟨_, _, -, -, rfl⟩ := step_produce (.inl ⟨chunk, rfl⟩) moved
      exact agrees.asked
    | fail =>
      obtain ⟨_, _, -, -, rfl⟩ := step_produce (.inr rfl) moved
      exact agrees.asked
    | send =>
      obtain ⟨_, -, -, rfl⟩ := step_send moved
      exact agrees.asked
    | giveUp =>
      obtain ⟨_, -, rfl⟩ := step_giveUp moved
      exact agrees.asked
    | serve ack =>
      rw [step_serve moved]
      exact Machine.Pool.forall_snoc agrees.asked
        (agrees.requested ack (of_decide_eq_true admitted))
    | handle i wake =>
      obtain ⟨g, sess, stage, here, -, rfl⟩ := step_handle moved
      exact Machine.Pool.forall_set agrees.asked (agrees.asked g (mem_of_getElem? here))

variable {s' : State}
lemma Agrees.client (agrees : Agrees cfg s) (holds : From (Served s.server) s'.conn)
    (delivering : ∀ res, .delivering res ∈ s'.polls → .delivering res ∈ s.polls ∨
      ∃ f, Served s.server f ∧ res = frameResult f)
    (forward : s.conn.nextSeq ≤ s'.conn.nextSeq := by exact le_rfl)
    (requests : ∀ ack ∈ s'.requests, ack ∈ s.requests ∨ ack ≤ s.conn.nextSeq :=
      by exact fun _ => .inl) (server : s'.server = s.server := by rfl) : Agrees cfg s' := by
  refine ⟨server ▸ agrees.sound, server ▸ holds, ?_, ?_, ?_⟩
  · intro res member
    rw [server]
    rcases delivering res member with before | new
    · exact agrees.delivering res before
    · exact new
  · intro ack member
    rcases requests ack member with before | new
    · exact (agrees.requested ack before).trans forward
    · exact new.trans forward
  · intro h member
    rw [server] at member
    exact (agrees.asked h member).trans forward

lemma From.offerErr {P c} (source : From P c) (e : Err) : From P (c.offerErr e) := by
  unfold Conn.offerErr
  split_ifs
  · exact source.congr fun _ => id
  · exact source

lemma nextSeq_offerErr (c : Conn) (e : Err) : (c.offerErr e).nextSeq = c.nextSeq := by
  unfold Conn.offerErr
  split_ifs <;> rfl

section
variable {i : Nat} {p : Poll} {polls : List Poll} {new : DownResult → Prop}
lemma delivering_of_set {res} (member : .delivering res ∈ polls.set i p) :
    .delivering res ∈ polls ∨ p = .delivering res :=
  (mem_or_eq_of_mem_set member).imp_right Eq.symm

lemma delivering_set (harmless : ∀ res, p ≠ .delivering res) (res : DownResult)
    (member : .delivering res ∈ polls.set i p) : .delivering res ∈ polls ∨ new res :=
  (delivering_of_set member).imp_right fun same => absurd same (harmless res)

lemma delivering_snoc (harmless : ∀ res, p ≠ .delivering res) (res : DownResult)
    (member : .delivering res ∈ polls ++ [p]) : .delivering res ∈ polls ∨ new res :=
  (mem_append.mp member).imp_right fun last =>
    absurd (mem_singleton.mp last).symm (harmless res)
end

lemma Agrees.concludes (agrees : Agrees cfg s) (i : Nat) {outcome : Except Err DownResult}
    (genuine : ∀ res, outcome = .ok res → (res.eof = false ∧ res.buf = []) ∨
      ∃ f, Served s.server f ∧ res = frameResult f) :
    Agrees cfg (s.setPoll i (conclude s.conn outcome)) := by
  unfold Client.conclude
  cases outcome with
  | error e =>
    dsimp only
    split_ifs
    · exact agrees.client agrees.holds (delivering_set (by simp))
    · exact agrees.client (agrees.holds.offerErr e) (delivering_set (by simp))
        (nextSeq_offerErr s.conn e).symm.le
  | ok res =>
    dsimp only
    split_ifs with idle
    · exact agrees.client agrees.holds (delivering_set (by simp))
    · refine agrees.client agrees.holds ?_
      intro res' member
      rcases delivering_of_set member with before | new
      · exact .inl before
      · obtain rfl := Poll.delivering.inj new
        exact .inr ((genuine _ rfl).resolve_left idle)

lemma served_of_response (answer : s.response source = some (.frame f)) : Served s.server f := by
  cases source with
  | noSession | badRequest => cases answer
  | handler j =>
    dsimp only [State.response] at answer
    split at answer
    · next ack response here =>
        cases answer
        exact ⟨_, mem_of_getElem? here, rfl⟩
    · cases answer

lemma Agrees.reads {r nonce res} (agrees : Agrees cfg s) (few : s.Few)
    (answer : s.response source = some r) (twelve : nonce.length = secureNonceLen) (m : Nat)
    (ending : Ending NetErr)
    (read : down cfg.link ⟨(r.wire cfg.link nonce).take m, ending⟩ = .ok res) :
    (res.eof = false ∧ res.buf = []) ∨ ∃ f, Served s.server f ∧ res = frameResult f := by
  rcases down_wire cfg.link twelve (agrees.fits few answer) m ending with
    ⟨res', result, same⟩ | ⟨e, failed, -⟩
  · rw [read] at same
    cases same
    cases r with
    | frame f =>
      cases result
      exact .inr ⟨f, served_of_response answer, rfl⟩
    | idle ack =>
      cases result
      exact .inl ⟨rfl, rfl⟩
    | noSession | badRequest => cases result
  · rw [read] at failed
    cases failed

lemma Agrees.poll (agrees : Agrees cfg s) (few : s.Few)
    {l : PollLabel} (moved : stepPoll cfg s l = some s') : Agrees cfg s' := by
  cases l <;> simp only [stepPoll] at moved
  case poll =>
    split_ifs at moved
    cases moved
    exact agrees.client agrees.holds (delivering_snoc (by simp))
  case ask i =>
    split at moved
    · cases moved
      exact agrees.client agrees.holds (delivering_set (by simp)) le_rfl
        (Machine.Pool.forall_snoc (fun _ => .inl) (.inr agrees.holds.published.le))
    · cases moved
  case reply i source nonce m ending =>
    split at moved
    · next ack r asking answer =>
        split_ifs at moved with twelve
        cases moved
        exact agrees.concludes i (fun res read => agrees.reads few answer twelve m ending read)
    · cases moved
  case fail i e =>
    split at moved
    · cases moved
      exact agrees.concludes i (by simp)
    · cases moved
  case enqueue i =>
    split at moved
    · next res here =>
        split_ifs at moved with room
        cases moved
        have given := agrees.delivering res (mem_of_getElem? here)
        exact agrees.client { agrees.holds with
          results := Machine.Pool.forall_snoc agrees.holds.results given } (delivering_set (by simp))
    · cases moved
  case abandon i =>
    split at moved
    · split_ifs at moved
      cases moved
      exact agrees.client agrees.holds (delivering_set (by simp))
    · cases moved
  case closeDone i =>
    split at moved
    · cases moved
      exact agrees.client (agrees.holds.congr fun _ => id) (delivering_set (by simp))
    · cases moved
  case close =>
    split_ifs at moved
    cases moved
    exact agrees.client (agrees.holds.congr fun _ => id) (delivering_snoc (by simp))
  case stuck =>
    cases moved
    exact agrees.client (agrees.holds.offerErr _) (delivering_snoc (by simp))
      (nextSeq_offerErr _ _).symm.le

variable (n : Nat)
variable (next : Conn × Turn)
lemma settle_server : (s.settle n next).server = s.server := by
  unfold State.settle
  split <;> rfl

lemma settle_polls : (s.settle n next).polls = s.polls := by
  unfold State.settle
  split <;> rfl

lemma settle_requests : (s.settle n next).requests = s.requests := by
  unfold State.settle
  split <;> rfl

lemma settle_conn : (s.settle n next).conn = next.1 := by
  unfold State.settle
  split <;> rfl

lemma Agrees.settle (agrees : Agrees cfg s) (n : Nat) {next : Conn × Turn}
    (holds : From (Served s.server) next.1) (forward : s.conn.nextSeq ≤ next.1.nextSeq) :
    Agrees cfg (s.settle n next) :=
  agrees.client (settle_conn n next ▸ holds)
    (fun _ member => .inl (settle_polls n next ▸ member)) (settle_conn n next ▸ forward)
    (fun _ member => .inl (settle_requests n next ▸ member)) (settle_server n next)

lemma Agrees.reader (agrees : Agrees cfg s) (few : s.Few)
    {l : ReadLabel} (moved : stepReader s l = some s') : Agrees cfg s' := by
  have small := agrees.small few
  cases l <;> simp only [stepReader] at moved
  case read n =>
    split at moved
    · split_ifs at moved <;> cases moved
      · exact agrees.client agrees.holds fun _ => .inl
      · exact agrees.client agrees.holds fun _ => .inl
    · cases moved
  case turn =>
    split at moved
    · next n looping =>
        cases moved
        obtain ⟨holds, forward⟩ := agrees.holds.loopHead small (Conn.heads_loopHead s.conn n)
        exact agrees.settle n holds forward
    · cases moved
  case takeResult =>
    split at moved
    · next n res rest selecting queue =>
        cases moved
        obtain ⟨f, served, rfl⟩ := agrees.holds.results res (by rw [queue]; simp)
        have source : From (Served s.server) { s.conn with downCh := rest } :=
          agrees.holds.congr
            (fun res member => by rw [queue]; exact mem_cons_of_mem _ member)
            rfl rfl rfl rfl rfl
        obtain ⟨holds, forward⟩ := source.receive small served (Conn.receives_receive _ _)
        exact agrees.settle n holds forward
    · cases moved
  case takeErr =>
    split at moved
    · cases moved
      exact agrees.settle _ (agrees.holds.congr fun _ => id) le_rfl
    · cases moved
  case takeDone =>
    split at moved
    · split_ifs at moved <;> cases moved
      · exact agrees.settle _ agrees.holds le_rfl
      · exact agrees.settle _ agrees.holds le_rfl
    · cases moved
  case expire =>
    split at moved
    · cases moved
      exact agrees.settle _ agrees.holds le_rfl
    · cases moved

lemma stepPoll_server {l : PollLabel} (moved : stepPoll cfg s l = some s') :
    s'.server = s.server := by
  cases l <;> simp only [stepPoll] at moved <;> repeat' split at moved
  all_goals cases moved <;> rfl

lemma stepReader_server {l : ReadLabel} (moved : stepReader s l = some s') :
    s'.server = s.server := by
  cases l <;> simp only [stepReader] at moved <;> repeat' split at moved
  all_goals cases moved <;> first | rfl | exact settle_server _ _

lemma step_server (moved : step cfg s (.server l) = some s') :
    ∃ server, s.admits l = true ∧ Server.step cfg.limit s.server l = some server ∧
      s' = { s with server := server } := by
  simp only [step] at moved
  split_ifs at moved with admitted
  obtain ⟨server, inner, rfl⟩ := map_eq_some_iff.mp moved
  exact ⟨server, admitted, inner, rfl⟩

variable {l : Label}
lemma step_produced (moved : step cfg s l = some s') :
    s.server.session.produced <+: s'.server.session.produced := by
  cases l with
  | server l =>
    obtain ⟨server, -, inner, rfl⟩ := step_server moved
    exact produced_step inner
  | poll l => rw [stepPoll_server moved]
  | reader l => rw [stepReader_server moved]

lemma few_of_step (moved : step cfg s l = some s') (few : s'.Few) : s.Few :=
  lt_of_le_of_lt (step_produced moved).length_le few

lemma Agrees.step (agrees : Agrees cfg s) (moved : System.step cfg s l = some s')
    (few : s'.Few) : Agrees cfg s' := by
  have before := few_of_step moved few
  cases l with
  | server l =>
    obtain ⟨server, admitted, inner, rfl⟩ := step_server moved
    exact agrees.server admitted inner
  | poll l => exact agrees.poll before moved
  | reader l => exact agrees.reader before moved

lemma run_agreeing {ls t} {Inv : State → Prop} {ok : State → Label → Prop}
    (preserve : ∀ {s l t}, Agrees cfg s → Inv s → ok s l → System.step cfg s l = some t → t.Few →
      Inv t)
    (start : Inv .start) (meets : Machine.Runs.Meets (System.step cfg) ok .start ls)
    (arrive : Machine.Runs.run (System.step cfg) .start ls = some t) (few : t.Few) :
    Agrees cfg t ∧ Inv t := by
  have both : ∀ s l t, Agrees cfg s ∧ Inv s → ok s l → System.step cfg s l = some t → t.Few →
      Agrees cfg t ∧ Inv t := by
    rintro s l t ⟨agrees, held⟩ allowed moved few
    exact ⟨agrees.step moved few, preserve agrees held allowed moved few⟩
  exact Machine.Runs.invariant_of_small (fun _ _ _ moved few => few_of_step moved few) both
    ⟨agrees_start cfg, start⟩ meets arrive few
end Exchange
end Tamizdat.FragPoC
