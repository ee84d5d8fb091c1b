/- source: internal/transport/vkturn/mux.go, internal/transport/vkturn/client.go
   digest: One mux session: the read loop, dialers and handlers, and streams that share an id. -/

import Tamizdat.Machine.Bytes
import Tamizdat.Machine.Maps
import Tamizdat.Machine.Runs

set_option autoImplicit false

open List Option
namespace Tamizdat.Vkturn
open Machine.Maps
open Machine.ChunkReader (Reader)
open Machine.Word (addW)
namespace Mux
abbrev StreamID := Nat
abbrev Payload := List UInt8

/-- The frame types; `other` stands for every byte that `handleFrame` has no case for. -/
inductive FrameType
  | open | openOK | openErr | data | close | ping | other
deriving DecidableEq

structure Frame where
  typ : FrameType
  streamID : StreamID
  payload : Payload

def readChCap : Nat := 128

/-- The next action of the function that the `closeOnce` of a stream runs. `Close` starts it with
the CLOSE frame, `remoteClose` with `removeStream`. -/
inductive CloseOnce
  | fresh | writing | removing | closingClosed | closingCtxDone | closingReadCh | finished
deriving DecidableEq

def CloseOnce.Unremoved : CloseOnce → Prop
  | .fresh | .writing | .removing => True
  | _ => False

instance : DecidablePred CloseOnce.Unremoved := fun once => by
  cases once <;> unfold CloseOnce.Unremoved <;> infer_instance

inductive Holder
  /-- No other goroutine: the OPEN_OK is not written, or the dial has failed. -/
  | nobody
  | opening
  /-- The OPEN frame could not be written; `removeStream` is next. -/
  | unregistering
  /-- `DialContext` waits for the answer. -/
  | dialing
  /-- The handler, or the caller of `DialContext`. -/
  | using
deriving DecidableEq

/-- A stream object. `closeOnce` also says which of its channels are closed. An `openCh` has room
for one answer; the streams of a server have none. `openedAt` records how many frames the read
loop had handled when the object was registered. -/
structure MuxStream where
  id : StreamID
  reader : Reader UInt8
  openCh : Option (Option Bool)
  closeOnce : CloseOnce
  holder : Holder
  openedAt : Nat

namespace MuxStream
variable (st : MuxStream)
def isClosed : Bool :=
  match st.closeOnce with
  | .closingCtxDone | .closingReadCh | .finished => true
  | _ => false

def readChClosed : Bool := decide (st.closeOnce = .finished)

def MayRemove : Prop := st.closeOnce.Unremoved ∨ st.holder = .opening ∨ st.holder = .unregistering
deriving Decidable
end MuxStream

/-- Where `readLoop` stands inside `handleFrame`. Streams are named by their position among the
objects of the session. -/
inductive ReadLoop
  | idle
  /-- `getStream` has returned the stream for a DATA frame. -/
  | pushing (x : Nat) (payload : Payload)
  /-- A stream was registered for an OPEN frame; OPEN_OK is to be written. -/
  | answering (x : Nat)
  /-- `getStream` has returned the stream for an answer to OPEN. -/
  | notifying (x : Nat) (ok : Bool)
  | closing (x : Nat)
  /-- Inside `remoteClose`, until its `closeOnce` is through. -/
  | joining (x : Nat)
  /-- The connection failed; `closeWithError` is next. -/
  | stopping | joiningSession | stopped
deriving DecidableEq

inductive SessionOnce
  | fresh | marking
  | closing (todo : List Nat)
  | joining (x : Nat) (todo : List Nat)
  | finished
deriving DecidableEq

/-- A `muxSession` with its goroutines. `handled` records the frames the read loop has handled;
`panicked` is set by a send on a closed channel. -/
structure Session where
  isServer : Bool
  streams : GoMap StreamID Nat
  nextID : StreamID
  rrClosed : Bool
  closeOnce : SessionOnce
  readLoop : ReadLoop
  objects : List MuxStream
  handled : List Frame
  panicked : Bool

namespace Session
def newMuxSession (isServer : Bool) : Session where
  isServer := isServer
  streams := ∅
  nextID := if isServer then 2 else 1
  rrClosed := false
  closeOnce := .fresh
  readLoop := .idle
  objects := []
  handled := []
  panicked := false

def getStream (s : Session) (id : StreamID) : Option Nat := s.streams.lookup id
def removeStream (s : Session) (id : StreamID) : Session := { s with streams := s.streams.erase id }

def setStream (s : Session) (x : Nat) (st : MuxStream) : Session :=
  { s with objects := s.objects.set x st }

def register (s : Session) (id : StreamID) (openCh : Option (Option Bool)) (holder : Holder) :
    Session :=
  { s with
    streams := s.streams.insert id s.objects.length
    objects := s.objects ++
      [{ id := id, reader := Reader.empty, openCh := openCh, closeOnce := .fresh,
         holder := holder, openedAt := s.handled.length }] }

/-- What `handleFrame` does up to and including its critical section. The OPEN_ERR that answers an
empty destination changes nothing here. -/
def handleFrame (s : Session) (fr : Frame) : Session :=
  let s := { s with handled := s.handled ++ [fr] }
  match fr.typ with
  | .ping | .other => s
  | .open =>
    if s.isServer ∧ fr.payload ≠ [] ∧ s.rrClosed = false then
      { s.register fr.streamID none .nobody with readLoop := .answering s.objects.length }
    else s
  | .openOK | .openErr =>
    match s.getStream fr.streamID with
    | some x =>
      if (s.objects[x]?.bind MuxStream.openCh).isSome then
        { s with readLoop := .notifying x (decide (fr.typ = .openOK)) }
      else s
    | none => s
  | .data =>
    match s.getStream fr.streamID with
    | some x => { s with readLoop := .pushing x fr.payload }
    | none => s
  | .close =>
    match s.getStream fr.streamID with
    | some x => { s with readLoop := .closing x }
    | none => s

def enterClose (s : Session) (x : Nat) (st : MuxStream) (first : CloseOnce) : Session :=
  if st.closeOnce = .fresh then s.setStream x { st with closeOnce := first } else s

def enterCloseWithError (s : Session) : Session :=
  if s.closeOnce = .fresh then { s with closeOnce := .marking } else s

def closeStep (s : Session) (x : Nat) (st : MuxStream) : Option Session :=
  match st.closeOnce with
  | .fresh | .finished => none
  | .writing => some (s.setStream x { st with closeOnce := .removing })
  | .removing => some ((s.removeStream st.id).setStream x { st with closeOnce := .closingClosed })
  | .closingClosed => some (s.setStream x { st with closeOnce := .closingCtxDone })
  | .closingCtxDone => some (s.setStream x { st with closeOnce := .closingReadCh })
  | .closingReadCh => some (s.setStream x { st with closeOnce := .finished })

/-- The `select` of `push`. A send on a closed channel panics; a full one blocks. -/
def push (s : Session) (x : Nat) (st : MuxStream) (payload : Payload) (send : Bool) :
    Option Session :=
  if send then
    if st.readChClosed then some { s with panicked := true }
    else if st.reader.queue.length < readChCap then
      some { s.setStream x { st with reader := st.reader.push payload } with readLoop := .idle }
    else none
  else if st.isClosed then some { s with readLoop := .idle }
  else none

/-- One action of the read loop after the critical section of `handleFrame`. `choice` is the case
that the `select` of `push` takes, or whether OPEN_OK could be written. -/
def readLoopStep (s : Session) (choice : Bool) : Option Session :=
  match s.readLoop with
  | .idle | .stopped => none
  | .pushing x payload => s.objects[x]?.bind fun st => s.push x st payload choice
  | .answering x =>
    if choice then
      s.objects[x]?.map fun st =>
        { s.setStream x { st with holder := .using } with readLoop := .idle }
    else some { s with readLoop := .closing x }
  | .notifying x ok =>
    s.objects[x]?.bind fun st =>
      if st.openCh = some none then
        some { s.setStream x { st with openCh := some (some ok) } with readLoop := .idle }
      else none
  | .closing x =>
    s.objects[x]?.map fun st => { s.enterClose x st .removing with readLoop := .joining x }
  | .joining x =>
    s.objects[x]?.bind fun st =>
      if st.closeOnce = .finished then some { s with readLoop := .idle } else none
  | .stopping => some { s.enterCloseWithError with readLoop := .joiningSession }
  | .joiningSession =>
    if s.closeOnce = .finished then some { s with readLoop := .stopped } else none

/-- The function that the `closeOnce` of the session runs, one action at a time. `pick` is the
stream that the loop over the collected streams visits next. -/
def closeWithErrorStep (s : Session) (pick : Nat) : Option Session :=
  match s.closeOnce with
  | .fresh | .finished => none
  | .marking =>
    some { s with
      rrClosed := true
      closeOnce := .closing (valuesAt s.streams s.streams.keys)
      streams := ∅ }
  | .closing todo =>
    if todo = [] then some { s with closeOnce := .finished }
    else if pick ∈ todo then
      s.objects[pick]?.map fun st =>
        { s.enterClose pick st .removing with closeOnce := .joining pick (todo.erase pick) }
    else none
  | .joining x todo =>
    s.objects[x]?.bind fun st =>
      if st.closeOnce = .finished then some { s with closeOnce := .closing todo } else none

def newClientStream (s : Session) : Option Session :=
  if s.isServer = false ∧ s.rrClosed = false then
    some { s.register s.nextID (some none) .opening with nextID := addW 32 s.nextID 2 }
  else none

def wroteOpen (s : Session) (x : Nat) (st : MuxStream) (ok : Bool) : Option Session :=
  if st.holder = .opening then
    some (s.setStream x { st with holder := if ok then .dialing else .unregistering })
  else none

def unregister (s : Session) (x : Nat) (st : MuxStream) : Option Session :=
  if st.holder = .unregistering then
    some ((s.removeStream st.id).setStream x { st with holder := .nobody })
  else none

/-- `DialContext` takes the answer from `openCh`. It closes the stream when that is an error. -/
def dialed (s : Session) (x : Nat) (st : MuxStream) : Option Session :=
  if st.holder = .dialing then
    match st.openCh with
    | some (some true) => some (s.setStream x { st with openCh := some none, holder := .using })
    | some (some false) =>
      some (s.setStream x
        { st with
          openCh := some none
          holder := .nobody
          closeOnce := if st.closeOnce = .fresh then .writing else st.closeOnce })
    | _ => none
  else none

def giveUp (s : Session) (x : Nat) (st : MuxStream) : Option Session :=
  if st.holder = .dialing then
    some (s.setStream x
      { st with
        holder := .nobody
        closeOnce := if st.closeOnce = .fresh then .writing else st.closeOnce })
  else none

def close (s : Session) (x : Nat) (st : MuxStream) : Option Session :=
  if st.holder = .using then some (s.enterClose x st .writing) else none

/-- `Read` without a deadline, into a buffer of `n` bytes. When nothing was left over from the last
chunk, `viaClosed` says whether its `select` takes the case of `closed`. -/
def read (s : Session) (x : Nat) (st : MuxStream) (n : Nat) (viaClosed : Bool) : Option Session :=
  if st.holder = .using then
    if st.reader.left = [] ∧ viaClosed then
      if st.isClosed then some (s.setStream x { st with reader := st.reader.eof }) else none
    else
      match st.reader.read n with
      | some reader => some (s.setStream x { st with reader := reader })
      | none =>
        if st.readChClosed then some (s.setStream x { st with reader := st.reader.eof }) else none
  else none
end Session

inductive Label
  | frame (fr : Frame)
  | readError
  | readLoop (choice : Bool)
  | newClientStream
  | wroteOpen (x : Nat) (ok : Bool)
  | unregister (x : Nat)
  | dialed (x : Nat)
  | giveUp (x : Nat)
  | close (x : Nat)
  | closeStep (x : Nat)
  | sessionClose
  | closeWithErrorStep (pick : Nat)
  | read (x n : Nat) (viaClosed : Bool)

def step (s : Session) (l : Label) : Option Session :=
  if s.panicked then none
  else
    match l with
    | .frame fr => if s.readLoop = .idle then some (s.handleFrame fr) else none
    | .readError => if s.readLoop = .idle then some { s with readLoop := .stopping } else none
    | .readLoop choice => s.readLoopStep choice
    | .newClientStream => s.newClientStream
    | .wroteOpen x ok => s.objects[x]?.bind fun st => s.wroteOpen x st ok
    | .unregister x => s.objects[x]?.bind fun st => s.unregister x st
    | .dialed x => s.objects[x]?.bind fun st => s.dialed x st
    | .giveUp x => s.objects[x]?.bind fun st => s.giveUp x st
    | .close x => s.objects[x]?.bind fun st => s.close x st
    | .closeStep x => s.objects[x]?.bind fun st => s.closeStep x st
    | .sessionClose => some s.enterCloseWithError
    | .closeWithErrorStep pick => s.closeWithErrorStep pick
    | .read x n viaClosed => s.objects[x]?.bind fun st => s.read x st n viaClosed
end Mux
namespace MuxSteps
open Vkturn.Mux

inductive Alone (x : Nat) (st : MuxStream) : Label → MuxStream → Prop
  | wroteOpen (ok : Bool) (opening : st.holder = .opening) : Alone x st (.wroteOpen x ok)
        { st with holder := if ok then .dialing else .unregistering }
  | accepted (dialing : st.holder = .dialing) (answer : st.openCh = some (some true)) :
      Alone x st (.dialed x) { st with openCh := some none, holder := .using }
  | refused (dialing : st.holder = .dialing) (answer : st.openCh = some (some false)) :
      Alone x st (.dialed x)
        { st with
          openCh := some none
          holder := .nobody
          closeOnce := if st.closeOnce = .fresh then .writing else st.closeOnce }
  | gaveUp (dialing : st.holder = .dialing) : Alone x st (.giveUp x)
        { st with
          holder := .nobody
          closeOnce := if st.closeOnce = .fresh then .writing else st.closeOnce }
  | closeCalled (holds : st.holder = .using) (fresh : st.closeOnce = .fresh) :
      Alone x st (.close x) { st with closeOnce := .writing }
  | closeAgain (holds : st.holder = .using) (begun : st.closeOnce ≠ .fresh) :
      Alone x st (.close x) st
  | wroteClose (here : st.closeOnce = .writing) :
      Alone x st (.closeStep x) { st with closeOnce := .removing }
  | closedClosed (here : st.closeOnce = .closingClosed) :
      Alone x st (.closeStep x) { st with closeOnce := .closingCtxDone }
  | closedCtxDone (here : st.closeOnce = .closingCtxDone) :
      Alone x st (.closeStep x) { st with closeOnce := .closingReadCh }
  | closedReadCh (here : st.closeOnce = .closingReadCh) :
      Alone x st (.closeStep x) { st with closeOnce := .finished }
  | readData (n : Nat) (viaClosed : Bool) (reader : Reader UInt8) (holds : st.holder = .using)
      (data : st.reader.read n = some reader) :
      Alone x st (.read x n viaClosed) { st with reader := reader }
  | readEOF (n : Nat) (viaClosed : Bool) (holds : st.holder = .using)
      (noLeft : st.reader.left = []) (closed : st.isClosed = true)
      (drained : viaClosed = false → st.reader.queue = []) :
      Alone x st (.read x n viaClosed) { st with reader := st.reader.eof }

inductive Removal (x : Nat) (st : MuxStream) : Label → MuxStream → Prop
  | byClose (here : st.closeOnce = .removing) :
      Removal x st (.closeStep x) { st with closeOnce := .closingClosed }
  | byDial (here : st.holder = .unregistering) :
      Removal x st (.unregister x) { st with holder := .nobody }

inductive Entered (st : MuxStream) : MuxStream → Prop
  | first (fresh : st.closeOnce = .fresh) : Entered st { st with closeOnce := .removing }
  | later (begun : st.closeOnce ≠ .fresh) : Entered st st

inductive Served (st : MuxStream) : ReadLoop → MuxStream → ReadLoop → Prop
  | pushed (x : Nat) (payload : Payload) (usable : st.closeOnce ≠ .finished)
      (room : st.reader.queue.length < readChCap) :
      Served st (.pushing x payload) { st with reader := st.reader.push payload } .idle
  | spawned (x : Nat) : Served st (.answering x) { st with holder := .using } .idle
  | notified (x : Nat) (ok : Bool) (room : st.openCh = some none) :
      Served st (.notifying x ok) { st with openCh := some (some ok) } .idle
  | closing (x : Nat) (st' : MuxStream) (entered : Entered st st') :
      Served st (.closing x) st' (.joining x)

def inHand : ReadLoop → Option Nat
  | .pushing x _ | .answering x | .notifying x _ | .closing x | .joining x => some x
  | _ => none

inductive Passes (s : Session) : ReadLoop → Prop
  | dropped (x : Nat) (payload : Payload) (st : MuxStream) (at_ : s.readLoop = .pushing x payload)
      (here : s.objects[x]? = some st) (closed : st.isClosed = true) : Passes s .idle
  | unanswered (x : Nat) (at_ : s.readLoop = .answering x) : Passes s (.closing x)
  | joined (x : Nat) (st : MuxStream) (at_ : s.readLoop = .joining x)
      (here : s.objects[x]? = some st) (finished : st.closeOnce = .finished) : Passes s .idle
  | stopped (at_ : s.readLoop = .joiningSession) : Passes s .stopped

inductive Action (s : Session) : Label → Session → Prop
  | ignored (fr : Frame) (idle : s.readLoop = .idle)
      (unknown : fr.typ = .data ∨ fr.typ = .close → s.streams.lookup fr.streamID = none) :
      Action s (.frame fr) { s with handled := s.handled ++ [fr] }
  | opened (fr : Frame) (idle : s.readLoop = .idle) (typ : fr.typ = .open)
      (server : s.isServer = true) (named : fr.payload ≠ []) (running : s.rrClosed = false) :
      Action s (.frame fr)
        { ({ s with handled := s.handled ++ [fr] } : Session).register fr.streamID none .nobody with
          readLoop := .answering s.objects.length }
  | answer (fr : Frame) (x : Nat) (ok : Bool) (idle : s.readLoop = .idle)
      (typ : fr.typ = .openOK ∨ fr.typ = .openErr) (found : s.streams.lookup fr.streamID = some x) :
      Action s (.frame fr) { s with handled := s.handled ++ [fr], readLoop := .notifying x ok }
  | data (fr : Frame) (x : Nat) (idle : s.readLoop = .idle) (typ : fr.typ = .data)
      (found : s.streams.lookup fr.streamID = some x) :
      Action s (.frame fr)
        { s with handled := s.handled ++ [fr], readLoop := .pushing x fr.payload }
  | close (fr : Frame) (x : Nat) (idle : s.readLoop = .idle) (typ : fr.typ = .close)
      (found : s.streams.lookup fr.streamID = some x) :
      Action s (.frame fr) { s with handled := s.handled ++ [fr], readLoop := .closing x }
  | failed (idle : s.readLoop = .idle) : Action s .readError { s with readLoop := .stopping }
  | served (choice : Bool) (x : Nat) (st st' : MuxStream) (next : ReadLoop)
      (here : s.objects[x]? = some st) (hand : inHand s.readLoop = some x)
      (serves : Served st s.readLoop st' next) :
      Action s (.readLoop choice) { s.setStream x st' with readLoop := next }
  | panics (x : Nat) (payload : Payload) (st : MuxStream)
      (at_ : s.readLoop = .pushing x payload) (here : s.objects[x]? = some st)
      (closed : st.closeOnce = .finished) :
      Action s (.readLoop true) { s with panicked := true }
  | passes (choice : Bool) (next : ReadLoop) (pass : Passes s next) :
      Action s (.readLoop choice) { s with readLoop := next }
  | stops (choice : Bool) (at_ : s.readLoop = .stopping) :
      Action s (.readLoop choice) { s.enterCloseWithError with readLoop := .joiningSession }
  | registers (client : s.isServer = false) (running : s.rrClosed = false) :
      Action s .newClientStream
        { s.register s.nextID (some none) .opening with nextID := addW 32 s.nextID 2 }
  | alone (l : Label) (x : Nat) (st st' : MuxStream) (here : s.objects[x]? = some st)
      (moves : Alone x st l st') : Action s l (s.setStream x st')
  | removes (l : Label) (x : Nat) (st st' : MuxStream) (here : s.objects[x]? = some st)
      (moves : Removal x st l st') : Action s l ((s.removeStream st.id).setStream x st')
  | closeSession : Action s .sessionClose s.enterCloseWithError
  | marks (pick : Nat) (here : s.closeOnce = .marking) : Action s (.closeWithErrorStep pick)
        { s with
          rrClosed := true
          closeOnce := .closing (valuesAt s.streams s.streams.keys)
          streams := ∅ }
  | visits (pick : Nat) (todo : List Nat) (st st' : MuxStream) (here : s.closeOnce = .closing todo)
      (member : pick ∈ todo) (object : s.objects[pick]? = some st) (entered : Entered st st') :
      Action s (.closeWithErrorStep pick)
        { s.setStream pick st' with closeOnce := .joining pick (todo.erase pick) }
  | visited (pick x : Nat) (todo : List Nat) (here : s.closeOnce = .joining x todo) :
      Action s (.closeWithErrorStep pick) { s with closeOnce := .closing todo }
  | closes (pick : Nat) (here : s.closeOnce = .closing []) :
      Action s (.closeWithErrorStep pick) { s with closeOnce := .finished }

variable {s t : Session} {x : Nat} {st : MuxStream}
lemma handleFrame_action (fr : Frame) (idle : s.readLoop = .idle) :
    Action s (.frame fr) (s.handleFrame fr) := by
  unfold Session.handleFrame
  cases typ : fr.typ <;> dsimp only
  case ping => exact .ignored fr idle (by simp [typ])
  case other => exact .ignored fr idle (by simp [typ])
  case «open» =>
      split_ifs with wanted
      · exact .opened fr idle typ wanted.1 wanted.2.1 wanted.2.2
      · exact .ignored fr idle (by simp [typ])
  case openOK =>
      split
      · split_ifs
        · rename_i x found _
          exact .answer fr x _ idle (.inl typ) found
        · exact .ignored fr idle (by simp [typ])
      · exact .ignored fr idle (by simp [typ])
  case openErr =>
      split
      · split_ifs
        · rename_i x found _
          exact .answer fr x _ idle (.inr typ) found
        · exact .ignored fr idle (by simp [typ])
      · exact .ignored fr idle (by simp [typ])
  case data =>
      split
      · rename_i x found
        exact .data fr x idle typ found
      · rename_i missing
        exact .ignored fr idle (fun _ => missing)
  case close =>
      split
      · rename_i x found
        exact .close fr x idle typ found
      · rename_i missing
        exact .ignored fr idle (fun _ => missing)

section
variable (here : s.objects[x]? = some st)
include here
lemma setStream_self : s.setStream x st = s := by
  have same : s.objects.set x st = s.objects := by
    apply ext_getElem?
    intro i
    rw [getElem?_set]
    split_ifs with at_ bound
    · rw [← at_, here]
    · exact (getElem?_eq_none (by omega)).symm
    · rfl
  rw [Session.setStream, same]

lemma enterClose_eq : ∃ st', Entered st st' ∧ s.enterClose x st .removing = s.setStream x st' := by
  by_cases fresh : st.closeOnce = .fresh
  · exact ⟨_, .first fresh, by rw [Session.enterClose, if_pos fresh]⟩
  · exact ⟨_, .later fresh, by rw [Session.enterClose, if_neg fresh, setStream_self here]⟩

lemma push_action {payload : Payload} {choice : Bool} (at_ : s.readLoop = .pushing x payload)
    (moved : s.push x st payload choice = some t) : Action s (.readLoop choice) t := by
  unfold Session.push at moved
  split_ifs at moved with send closed room dropped
  · rw [← some.inj moved, send]
    exact .panics x payload st at_ here (of_decide_eq_true closed)
  · rw [← some.inj moved]
    refine .served choice x st _ .idle here (by rw [at_]; rfl) ?_
    rw [at_]
    exact .pushed x payload (by simpa [MuxStream.readChClosed] using closed) room
  · rw [← some.inj moved]
    exact .passes choice .idle (.dropped x payload st at_ here dropped)
end

lemma readLoopStep_action {choice : Bool} (moved : s.readLoopStep choice = some t) :
    Action s (.readLoop choice) t := by
  unfold Session.readLoopStep at moved
  cases at_ : s.readLoop <;> rw [at_] at moved <;> dsimp only at moved
  case idle => cases moved
  case stopped => cases moved
  case pushing x payload =>
      obtain ⟨st, here, pushed⟩ := bind_eq_some_iff.mp moved
      exact push_action here at_ pushed
  case answering x =>
      split_ifs at moved
      · obtain ⟨st, here, rfl⟩ := map_eq_some_iff.mp moved
        refine .served choice x st _ .idle here (by rw [at_]; rfl) ?_
        rw [at_]
        exact .spawned x
      · rw [← some.inj moved]
        exact .passes choice _ (.unanswered x at_)
  case notifying x ok =>
      obtain ⟨st, here, sent⟩ := bind_eq_some_iff.mp moved
      split_ifs at sent with room
      rw [← some.inj sent]
      refine .served choice x st _ .idle here (by rw [at_]; rfl) ?_
      rw [at_]
      exact .notified x ok room
  case closing x =>
      obtain ⟨st, here, rfl⟩ := map_eq_some_iff.mp moved
      obtain ⟨st', entered, same⟩ := enterClose_eq here
      rw [same]
      refine .served choice x st st' (.joining x) here (by rw [at_]; rfl) ?_
      rw [at_]
      exact .closing x st' entered
  case joining x =>
      obtain ⟨st, here, done⟩ := bind_eq_some_iff.mp moved
      obtain ⟨finished, done⟩ := ite_none_right_eq_some.mp done
      rw [← some.inj done]
      exact .passes choice .idle (.joined x st at_ here finished)
  case stopping =>
      rw [← some.inj moved]
      exact .stops choice at_
  case joiningSession =>
      split_ifs at moved
      rw [← some.inj moved]
      exact .passes choice .stopped (.stopped at_)

lemma closeWithErrorStep_action {pick} (moved : s.closeWithErrorStep pick = some t) :
    Action s (.closeWithErrorStep pick) t := by
  unfold Session.closeWithErrorStep at moved
  cases at_ : s.closeOnce <;> rw [at_] at moved <;> dsimp only at moved
  case fresh => cases moved
  case finished => cases moved
  case marking =>
      rw [← some.inj moved]
      exact .marks pick at_
  case closing todo =>
      split_ifs at moved with none_ member
      · rw [← some.inj moved]
        exact .closes pick (none_ ▸ at_)
      · obtain ⟨st, here, rfl⟩ := map_eq_some_iff.mp moved
        obtain ⟨st', entered, same⟩ := enterClose_eq here
        rw [same]
        exact .visits pick todo st st' at_ member here entered
  case joining x todo =>
      obtain ⟨st, here, done⟩ := bind_eq_some_iff.mp moved
      split_ifs at done
      rw [← some.inj done]
      exact .visited pick x todo at_

section
variable (here : s.objects[x]? = some st)
include here
lemma closeStep_action (moved : s.closeStep x st = some t) : Action s (.closeStep x) t := by
  unfold Session.closeStep at moved
  split at moved <;> first | (cases moved; done) | skip
  all_goals rename_i at_; rw [← some.inj moved]
  · exact .alone _ x st _ here (.wroteClose at_)
  · exact .removes _ x st _ here (.byClose at_)
  · exact .alone _ x st _ here (.closedClosed at_)
  · exact .alone _ x st _ here (.closedCtxDone at_)
  · exact .alone _ x st _ here (.closedReadCh at_)

lemma dialed_action (moved : s.dialed x st = some t) : Action s (.dialed x) t := by
  obtain ⟨dialing, moved⟩ := ite_none_right_eq_some.mp moved
  split at moved
  · rename_i answer
    rw [← some.inj moved]
    exact .alone _ x st _ here (.accepted dialing answer)
  · rename_i answer
    rw [← some.inj moved]
    exact .alone _ x st _ here (.refused dialing answer)
  · cases moved

lemma close_action (moved : s.close x st = some t) : Action s (.close x) t := by
  obtain ⟨holds, moved⟩ := ite_none_right_eq_some.mp moved
  rw [← some.inj moved, Session.enterClose]
  split_ifs with fresh
  · exact .alone _ x st _ here (.closeCalled holds fresh)
  · have same := Action.alone (.close x) x st st here (.closeAgain holds fresh)
    rwa [setStream_self here] at same
end

lemma isClosed_of_readChClosed (closed : st.readChClosed = true) : st.isClosed = true := by
  rw [MuxStream.isClosed, of_decide_eq_true closed]

lemma read_action {n viaClosed} (here : s.objects[x]? = some st)
    (moved : s.read x st n viaClosed = some t) : Action s (.read x n viaClosed) t := by
  obtain ⟨holds, moved⟩ := ite_none_right_eq_some.mp moved
  by_cases taken : st.reader.left = [] ∧ viaClosed = true
  · rw [if_pos taken] at moved
    obtain ⟨closed, moved⟩ := ite_none_right_eq_some.mp moved
    rw [← some.inj moved]
    exact .alone _ x st _ here
      (.readEOF n viaClosed holds taken.1 closed (fun other => by simp [taken.2] at other))
  · rw [if_neg taken] at moved
    split at moved
    · rename_i reader data
      rw [← some.inj moved]
      exact .alone _ x st _ here (.readData n viaClosed reader holds data)
    · rename_i nothing
      obtain ⟨noLeft, noChunk⟩ := Reader.read_eq_none_iff.mp nothing
      obtain ⟨ended, moved⟩ := ite_none_right_eq_some.mp moved
      rw [← some.inj moved]
      exact .alone _ x st _ here
        (.readEOF n viaClosed holds noLeft (isClosed_of_readChClosed ended) (fun _ => noChunk))

lemma step_action {l} (moved : step s l = some t) : s.panicked = false ∧ Action s l t := by
  unfold step at moved
  rw [ite_none_left_eq_some] at moved
  obtain ⟨alive, moved⟩ := moved
  refine ⟨by simpa using alive, ?_⟩
  cases l <;> dsimp only at moved
  case frame fr =>
      obtain ⟨idle, moved⟩ := ite_none_right_eq_some.mp moved
      exact some.inj moved ▸ handleFrame_action fr idle
  case readError =>
      obtain ⟨idle, moved⟩ := ite_none_right_eq_some.mp moved
      exact some.inj moved ▸ .failed idle
  case readLoop choice => exact readLoopStep_action moved
  case newClientStream =>
      obtain ⟨able, moved⟩ := ite_none_right_eq_some.mp moved
      exact some.inj moved ▸ .registers able.1 able.2
  case sessionClose => exact some.inj moved ▸ .closeSession
  case closeWithErrorStep pick => exact closeWithErrorStep_action moved
  all_goals obtain ⟨st, here, acted⟩ := bind_eq_some_iff.mp moved
  case wroteOpen x ok =>
      obtain ⟨opening, acted⟩ := ite_none_right_eq_some.mp acted
      exact some.inj acted ▸ .alone _ x st _ here (.wroteOpen ok opening)
  case unregister x =>
      obtain ⟨failed, acted⟩ := ite_none_right_eq_some.mp acted
      exact some.inj acted ▸ .removes _ x st _ here (.byDial failed)
  case dialed x => exact dialed_action here acted
  case giveUp x =>
      obtain ⟨dialing, acted⟩ := ite_none_right_eq_some.mp acted
      exact some.inj acted ▸ .alone _ x st _ here (.gaveUp dialing)
  case close x => exact close_action here acted
  case closeStep x => exact closeStep_action here acted
  case read x n viaClosed => exact read_action here acted

structure Stays (st st' : MuxStream) : Prop where
  id : st'.id = st.id
  openedAt : st'.openedAt = st.openedAt
  unremoved : st'.closeOnce.Unremoved ↔ st.closeOnce.Unremoved
  mayRemove : st'.MayRemove → st.MayRemove

variable {st' : MuxStream} {at_ : ReadLoop}
lemma Entered.stays (entered : Entered st st') : Stays st st' := by
  cases entered with
  | first fresh => constructor <;> simp [MuxStream.MayRemove, CloseOnce.Unremoved, fresh]
  | later begun => exact ⟨rfl, rfl, Iff.rfl, id⟩

variable {next : ReadLoop}
lemma Served.stays (served : Served st at_ st' next) : Stays st st' := by
  cases served with
  | pushed x payload usable room | notified x ok room => exact ⟨rfl, rfl, Iff.rfl, id⟩
  | spawned x =>
    refine ⟨rfl, rfl, Iff.rfl, ?_⟩
    rintro (left | other)
    · exact .inl left
    · simp at other
  | closing x st' entered => exact entered.stays

variable {l : Label}
lemma Alone.stays (moves : Alone x st l st') : Stays st st' := by
  cases moves with
  | wroteOpen ok opening => exact ⟨rfl, rfl, Iff.rfl, fun _ => .inr (.inl opening)⟩
  | accepted dialing answer =>
    refine ⟨rfl, rfl, Iff.rfl, ?_⟩
    rintro (left | other)
    · exact .inl left
    · simp at other
  | refused dialing answer | gaveUp dialing =>
    by_cases fresh : st.closeOnce = .fresh <;>
      constructor <;> simp [MuxStream.MayRemove, CloseOnce.Unremoved, fresh]
    exact .inl
  | closeCalled holds fresh =>
    constructor <;> simp [MuxStream.MayRemove, CloseOnce.Unremoved, fresh]
  | closeAgain holds begun | readData n viaClosed reader holds data
  | readEOF n viaClosed holds noLeft closed drained => exact ⟨rfl, rfl, Iff.rfl, id⟩
  | wroteClose here | closedClosed here | closedCtxDone here | closedReadCh here =>
    constructor <;> simp [MuxStream.MayRemove, CloseOnce.Unremoved, here]

lemma Removal.mayRemove (moves : Removal x st l st') : st.MayRemove := by
  cases moves with
  | byClose here => exact .inl (by simp [here, CloseOnce.Unremoved])
  | byDial here => exact .inr (.inr here)

lemma Removal.id_eq (moves : Removal x st l st') : st'.id = st.id := by
  cases moves <;> rfl

lemma Removal.openedAt_eq (moves : Removal x st l st') : st'.openedAt = st.openedAt := by
  cases moves <;> rfl

/-- A stream is registered only under an id that no earlier object can still remove. -/
def FreshId (s : Session) : Label → Prop
  | .frame fr =>
    fr.typ = .open ∧ s.isServer = true ∧ fr.payload ≠ [] ∧ s.rrClosed = false →
      ∀ st ∈ s.objects, st.id = fr.streamID → ¬st.MayRemove
  | .newClientStream => ∀ st ∈ s.objects, st.id = s.nextID → ¬st.MayRemove
  | _ => True

instance (s : Session) (l : Label) : Decidable (FreshId s l) := by
  cases l <;> unfold FreshId <;> infer_instance

lemma inHand_served (served : Served st at_ st' next) (hand : inHand next = some x) :
    inHand at_ = some x := by
  cases served with
  | pushed | spawned | notified => cases hand
  | closing y st' entered => exact hand

lemma inHand_passes (pass : Passes s next) (hand : inHand next = some x) :
    inHand s.readLoop = some x := by
  cases pass with
  | dropped | joined | stopped => cases hand
  | unanswered y at_ => rw [at_]; exact hand

inductive Effect (s : Session) (l : Label) (t : Session) : Prop
  | none (objects : t.objects = s.objects) (streams : t.streams = s.streams)
  | one (x : Nat) (st st' : MuxStream) (here : s.objects[x]? = some st) (stays : Stays st st')
      (objects : t.objects = s.objects.set x st') (streams : t.streams = s.streams)
  | removed (x : Nat) (st st' : MuxStream) (here : s.objects[x]? = some st)
      (may : st.MayRemove) (id : st'.id = st.id) (openedAt : st'.openedAt = st.openedAt)
      (objects : t.objects = s.objects.set x st') (streams : t.streams = s.streams.erase st.id)
  | added (st : MuxStream) (fresh : st.closeOnce = .fresh)
      (unused : FreshId s l → ∀ other ∈ s.objects, other.id = st.id → ¬other.MayRemove)
      (objects : t.objects = s.objects ++ [st])
      (streams : t.streams = s.streams.insert st.id s.objects.length)
  | cleared (objects : t.objects = s.objects) (streams : t.streams = ∅)

@[simp] lemma objects_enterCloseWithError (s : Session) :
    s.enterCloseWithError.objects = s.objects := by
  unfold Session.enterCloseWithError
  split_ifs <;> rfl

@[simp] lemma enterCloseWithError_frame (s : Session) :
    s.enterCloseWithError.streams = s.streams ∧ s.enterCloseWithError.readLoop = s.readLoop ∧
      s.enterCloseWithError.handled = s.handled ∧ s.enterCloseWithError.panicked = s.panicked := by
  unfold Session.enterCloseWithError
  split_ifs <;> exact ⟨rfl, rfl, rfl, rfl⟩

lemma Action.effect {t} (action : Action s l t) : Effect s l t := by
  cases action with
  | ignored | answer | data | close | failed | panics | passes | visited | closes =>
    exact .none rfl rfl
  | stops | closeSession => exact .none (by simp) (by simp)
  | opened fr idle typ server named running =>
    exact .added _ rfl (fun free => free ⟨typ, server, named, running⟩) rfl rfl
  | registers client running => exact .added _ rfl id rfl rfl
  | served choice x st st' next here hand serves => exact .one x st st' here serves.stays rfl rfl
  | alone l x st st' here moves => exact .one x st st' here moves.stays rfl rfl
  | removes l x st st' here moves =>
    exact .removed x st st' here moves.mayRemove moves.id_eq moves.openedAt_eq rfl rfl
  | marks => exact .cleared rfl rfl
  | visits pick todo st st' here member object entered =>
    exact .one pick st st' object entered.stays rfl rfl
end MuxSteps
namespace MuxIsolation
open Machine.Pool (exists_set getElem?_set_apply getElem?_snoc)
open Machine.Runs Vkturn.Mux Vkturn.MuxSteps
open Session (newMuxSession)

/-- A stream is in the map under its own id, and only before its own `removeStream`. -/
def Registered (s : Session) : Prop :=
  ∀ (k : StreamID) (x : Nat), s.streams.lookup k = some x →
    ∃ st, s.objects[x]? = some st ∧ st.id = k ∧ st.closeOnce.Unremoved

lemma registered_start (isServer : Bool) : Registered (newMuxSession isServer) := by
  intro k x found
  simp [newMuxSession] at found

variable {s t : Session} {l : Label}
lemma registered_step (registered : Registered s) (action : Action s l t) : Registered t := by
  intro k y found
  cases action.effect with
  | none objects streams =>
    rw [streams] at found
    rw [objects]
    exact registered k y found
  | one x st st' here stays objects streams =>
    rw [streams] at found
    obtain ⟨old, there, own, unremoved⟩ := registered k y found
    rw [objects]
    refine exists_set there here ?_ (fun _ => ⟨own, unremoved⟩)
    rintro - rfl
    exact ⟨stays.id.trans own, stays.unremoved.mpr unremoved⟩
  | removed x st st' here may id openedAt objects streams =>
    rw [streams, lookup_erase] at found
    split_ifs at found with gone
    obtain ⟨old, there, own, unremoved⟩ := registered k y found
    have other : y ≠ x := by
      rintro rfl
      rw [here, some.injEq] at there
      exact gone (own.symm.trans (by rw [there]))
    exact ⟨old, by rw [objects, getElem?_set_apply here, if_neg other, there], own, unremoved⟩
  | added st fresh unused objects streams =>
    rw [streams, lookup_insert] at found
    rw [objects, getElem?_snoc]
    split_ifs at found with new
    · rw [some.injEq] at found
      exact ⟨st, if_pos found.symm, new.symm, by simp [fresh, CloseOnce.Unremoved]⟩
    · obtain ⟨old, there, own, unremoved⟩ := registered k y found
      have inside := Machine.lt_of_getElem? there
      exact ⟨old, by rw [if_neg (by omega), there], own, unremoved⟩
  | cleared objects streams =>
    rw [streams] at found
    simp at found

/-! ### Sends on a closed channel -/

def pushTarget : ReadLoop → Option Nat
  | .pushing x _ => some x
  | _ => none

/-- `readCh` is not closed while the read loop has the stream in hand for a DATA frame. -/
def ClosesQuietly (s : Session) : Label → Prop
  | .closeStep x =>
    s.objects[x]?.map MuxStream.closeOnce = some .closingReadCh → pushTarget s.readLoop ≠ some x
  | _ => True

instance (s : Session) (l : Label) : Decidable (ClosesQuietly s l) := by
  rcases l with ⟨⟩ <;> unfold ClosesQuietly <;> infer_instance

def SendsOpen (s : Session) : Prop :=
  ∀ x, pushTarget s.readLoop = some x → ∃ st, s.objects[x]? = some st ∧ st.closeOnce ≠ .finished

lemma sendsOpen_of_same (opens : SendsOpen s) (objects : t.objects = s.objects)
    (target : pushTarget t.readLoop = none ∨ pushTarget t.readLoop = pushTarget s.readLoop) :
    SendsOpen t := by
  intro x at_
  rcases target with nothing | same
  · rw [nothing] at at_
    cases at_
  · rw [objects]
    exact opens x (same ▸ at_)

variable {x : Nat} {st st' : MuxStream}
lemma sendsOpen_of_set (opens : SendsOpen s) (here : s.objects[x]? = some st)
    (objects : t.objects = s.objects.set x st')
    (target : pushTarget t.readLoop = pushTarget s.readLoop)
    (still : pushTarget s.readLoop = some x → st.closeOnce ≠ .finished →
      st'.closeOnce ≠ .finished) : SendsOpen t := by
  intro y at_
  rw [target] at at_
  obtain ⟨old, there, usable⟩ := opens y at_
  rw [objects]
  refine exists_set there here ?_ (fun _ => usable)
  rintro rfl rfl
  exact still at_ usable

lemma entered_not_finished (entered : Entered st st')
    (open_ : st.closeOnce ≠ .finished) : st'.closeOnce ≠ .finished := by
  cases entered with
  | first fresh => simp
  | later begun => exact open_

lemma alone_not_finished (moves : Alone x st l st') (open_ : st.closeOnce ≠ .finished)
    (quiet : l = .closeStep x → st.closeOnce ≠ .closingReadCh) : st'.closeOnce ≠ .finished := by
  cases moves with
  | refused | gaveUp =>
    dsimp only
    split_ifs
    · simp
    · exact open_
  | closedReadCh here => exact absurd here (quiet rfl)
  | wroteOpen | accepted | closeAgain | readData | readEOF => exact open_
  | closeCalled | wroteClose | closedClosed | closedCtxDone => simp

lemma served_pushTarget {at_ loop} (served : Served st at_ st' loop) : pushTarget loop = none := by
  cases served <;> rfl

lemma passes_pushTarget {loop} (pass : Passes s loop) : pushTarget loop = none := by
  cases pass <;> rfl

lemma sendsOpen_step (registered : Registered s) (opens : SendsOpen s)
    (quiet : ClosesQuietly s l) (action : Action s l t) : SendsOpen t := by
  cases action with
  | ignored | panics | marks | visited | closes => exact sendsOpen_of_same opens rfl (.inr rfl)
  | answer | close | failed => exact sendsOpen_of_same opens rfl (.inl rfl)
  | passes choice next pass => exact sendsOpen_of_same opens rfl (.inl (passes_pushTarget pass))
  | stops => exact sendsOpen_of_same opens (by simp) (.inl rfl)
  | closeSession => exact sendsOpen_of_same opens (by simp) (.inr (by simp))
  | data fr x idle typ found =>
    intro y at_
    rw [← some.inj at_]
    obtain ⟨st, here, -, unremoved⟩ := registered fr.streamID x found
    refine ⟨st, here, ?_⟩
    intro finished
    simp [finished, CloseOnce.Unremoved] at unremoved
  | opened =>
    exact nofun
  | registers =>
    intro y at_
    obtain ⟨st, here, usable⟩ := opens y at_
    have inside := Machine.lt_of_getElem? here
    refine ⟨st, ?_, usable⟩
    rw [Session.register, getElem?_snoc, if_neg (by omega), here]
  | served choice x st st' next here hand serves =>
    intro y at_
    have nothing : pushTarget next = none := served_pushTarget serves
    rw [nothing] at at_
    cases at_
  | alone l x st st' here moves =>
    refine sendsOpen_of_set opens here rfl rfl ?_
    intro target open_
    refine alone_not_finished moves open_ ?_
    rintro rfl closing
    exact quiet (by rw [here, map_some, closing]) target
  | removes l x st st' here moves =>
    refine sendsOpen_of_set opens here rfl rfl ?_
    intro _ open_
    cases moves with
    | byClose => simp
    | byDial => exact open_
  | visits pick todo st st' here member object entered =>
    exact sendsOpen_of_set opens object rfl rfl (fun _ open_ => entered_not_finished entered open_)

structure Sound (s : Session) : Prop where
  registered : Registered s
  opens : SendsOpen s
  alive : s.panicked = false

lemma sound_step (sound : Sound s) (quiet : ClosesQuietly s l)
    (moved : step s l = some t) : Sound t := by
  obtain ⟨alive, action⟩ := step_action moved
  refine ⟨registered_step sound.registered action,
    sendsOpen_step sound.registered sound.opens quiet action, ?_⟩
  cases action with
  | panics x payload st at_ here closed =>
    -- The invariant says that the channel of the stream in hand is open.
    obtain ⟨st', here', usable⟩ := sound.opens x (by rw [at_]; rfl)
    rw [here, some.injEq] at here'
    exact absurd (here' ▸ closed) usable
  | stops | closeSession => simpa using alive
  | _ => exact alive

/-- While no stream closes its `readCh` between the lookup and the send of a DATA frame, no send
finds the channel closed. -/
theorem never_sends_on_closed_channel {isServer : Bool} {ls : List Label} {s : Session}
    (arrive : run step (newMuxSession isServer) ls = some s)
    (quiet : Meets step ClosesQuietly (newMuxSession isServer) ls) :
    s.panicked = false := by
  have start : Sound (newMuxSession isServer) :=
    ⟨registered_start isServer, fun x at_ => (nomatch at_), rfl⟩
  exact (invariant_of_meets sound_step start quiet arrive).alive

theorem data_before_close : ∃ s, run step (newMuxSession true)
        [.frame ⟨.open, 5, [1]⟩, .readLoop true, .frame ⟨.data, 5, [7]⟩, .readLoop true,
          .close 0, .closeStep 0, .closeStep 0, .closeStep 0, .closeStep 0, .closeStep 0,
          .frame ⟨.data, 5, [8]⟩] = some s ∧ s.panicked = false := by
  refine exists_some_of (P := fun _ => True) (by decide +kernel) fun s arrive _ => ?_
  exact never_sends_on_closed_channel arrive (by decide +kernel)

/-- The handler returns while the read loop is between `getStream` and `push`: its deferred
`Close` runs to the end, and the `select` of `push` takes the send. -/
theorem close_between_lookup_and_send :
    (run step (newMuxSession true)
        [.frame ⟨.open, 5, [1]⟩, .readLoop true, .frame ⟨.data, 5, [7]⟩,
          .close 0, .closeStep 0, .closeStep 0, .closeStep 0, .closeStep 0, .closeStep 0,
          .readLoop true]).map Session.panicked = some true := by
  decide +kernel

/-! ### Streams that share an id -/

/-- Of two objects with one id, the older one has gone through all its removals. -/
def Distinct (s : Session) : Prop :=
  ∀ (x y : Nat) (st st' : MuxStream), x < y → s.objects[x]? = some st →
    s.objects[y]? = some st' → st.id = st'.id → ¬st.MayRemove

lemma distinct_of_set (distinct : Distinct s) (here : s.objects[x]? = some st)
    (objects : t.objects = s.objects.set x st') (id : st'.id = st.id)
    (may : st'.MayRemove → st.MayRemove) : Distinct t := by
  intro a b old new older hereA hereB same
  rw [objects, getElem?_set_apply here] at hereA hereB
  split_ifs at hereA hereB with isA isB isB
  · omega
  · cases hereA
    exact fun able => distinct a b st new older (isA ▸ here) hereB (id ▸ same) (may able)
  · cases hereB
    exact distinct a b old st older hereA (isB ▸ here) (same.trans id)
  · exact distinct a b old new older hereA hereB same

lemma distinct_step (distinct : Distinct s) (free : FreshId s l) (action : Action s l t) :
    Distinct t := by
  cases action.effect with
  | none objects streams | cleared objects streams =>
    unfold Distinct
    rw [objects]
    exact distinct
  | one x st st' here stays objects streams =>
    exact distinct_of_set distinct here objects stays.id stays.mayRemove
  | removed x st st' here may id openedAt objects streams =>
    exact distinct_of_set distinct here objects id (fun _ => may)
  | added st fresh unused objects streams =>
    intro a b old new older hereA hereB same
    rw [objects, getElem?_snoc] at hereA hereB
    split_ifs at hereA hereB with isA isB isB
    · omega
    · have inside := Machine.lt_of_getElem? hereB
      omega
    · cases hereB
      exact unused free old (List.mem_of_getElem? hereA) same
    · exact distinct a b old new older hereA hereB same

lemma eq_of_mayRemove {y} (distinct : Distinct s) (hereX : s.objects[x]? = some st)
    (hereY : s.objects[y]? = some st') (same : st.id = st'.id) (mayX : st.MayRemove)
    (mayY : st'.MayRemove) : x = y := by
  rcases lt_trichotomy x y with before | equal | after
  · exact absurd mayX (distinct x y st st' before hereX hereY same)
  · exact equal
  · exact absurd mayY (distinct y x st' st after hereY hereX same.symm)

def closing (s : Session) : Label → Option Nat
  | .unregister x | .dialed x | .giveUp x | .close x | .closeStep x => some x
  | .readLoop _ =>
    match s.readLoop with
    | .closing x | .joining x => some x
    | _ => none
  | .closeWithErrorStep pick =>
    match s.closeOnce with
    | .closing _ => some pick
    | .joining x _ => some x
    | _ => none
  | _ => none

/-- The action changes no object but `x`, and no entry of the map but that of `x`. -/
structure Spares (s t : Session) (x : Nat) : Prop where
  objects : ∀ y, y ≠ x → t.objects[y]? = s.objects[y]?
  entries : ∀ k y, y ≠ x → (t.streams.lookup k = some y ↔ s.streams.lookup k = some y)

lemma spares_of_one (here : s.objects[x]? = some st)
    (objects : t.objects = s.objects.set x st') (streams : t.streams = s.streams) :
    Spares s t x where
  objects y other := by rw [objects, getElem?_set_apply here, if_neg other]
  entries k y _ := by rw [streams]

lemma spares_of_none (x : Nat) (objects : t.objects = s.objects)
    (streams : t.streams = s.streams) : Spares s t x where
  objects y _ := by rw [objects]
  entries k y _ := by rw [streams]

section
variable (registered : Registered s) (distinct : Distinct s)
include registered distinct
lemma spares_of_removed (here : s.objects[x]? = some st) (may : st.MayRemove)
    (objects : t.objects = s.objects.set x st') (streams : t.streams = s.streams.erase st.id) :
    Spares s t x where
  objects y other := by rw [objects, getElem?_set_apply here, if_neg other]
  entries k y other := by
    rw [streams, lookup_erase]
    split_ifs with same
    · refine iff_of_false not_false ?_
      intro found
      -- The entry would belong to a second object with this id that is not removed yet.
      obtain ⟨st', there, own, unremoved⟩ := registered k y found
      have sameId : st'.id = st.id := own.trans same
      exact other (eq_of_mayRemove distinct there here sameId (.inl unremoved) may)
    · exact Iff.rfl

lemma spares_of_closing (closes : closing s l = some x) (action : Action s l t) : Spares s t x := by
  cases action with
  | ignored | opened | answer | data | close | failed | registers | closeSession => cases closes
  | panics y payload st at_ | stops choice at_ | marks pick at_ => simp [closing, at_] at closes
  | served choice y st st' next here hand serves =>
    have same : y = x := by
      cases at_ : s.readLoop <;> simp_all [closing, inHand]
    subst same
    exact spares_of_one here rfl rfl
  | passes choice next pass | visited | closes => exact spares_of_none x rfl rfl
  | alone l y st st' here moves =>
    have same : y = x := by
      cases moves <;> simp_all [closing]
    subst same
    exact spares_of_one here rfl rfl
  | removes l y st st' here moves =>
    have same : y = x := by
      cases moves <;> simpa [closing] using closes
    subst same
    exact spares_of_removed registered distinct here moves.mayRemove rfl rfl
  | visits pick todo st st' here member object entered =>
    have same : pick = x := by simpa [closing, here] using closes
    subst same
    exact spares_of_one object rfl rfl

/-- The streams of a session do not meet: closing or removing one touches no other, a DATA or CLOSE
frame goes to the only object with its id that is not removed, and it changes that one alone. -/
structure Isolated (s : Session) : Prop where
  closing : ∀ l t x, closing s l = some x → step s l = some t → Spares s t x
  target : ∀ fr t x, fr.typ = .data ∨ fr.typ = .close → step s (.frame fr) = some t →
    inHand t.readLoop = some x → ∃ st, t.objects[x]? = some st ∧ st.id = fr.streamID ∧
        ∀ y other, y ≠ x → t.objects[y]? = some other → other.id = fr.streamID → ¬other.MayRemove
  serving : ∀ choice t x, inHand s.readLoop = some x → step s (.readLoop choice) = some t →
    ∀ y, y ≠ x → t.objects[y]? = s.objects[y]?

lemma target_of_found {k} (found : s.streams.lookup k = some x) :
    ∃ st, s.objects[x]? = some st ∧ st.id = k ∧
      ∀ y other, y ≠ x → s.objects[y]? = some other → other.id = k → ¬other.MayRemove := by
  obtain ⟨st, here, own, unremoved⟩ := registered k x found
  refine ⟨st, here, own, ?_⟩
  intro y other apart there same may
  exact apart (eq_of_mayRemove distinct there here (same.trans own.symm) may (.inl unremoved))

lemma isolated_of_invariants : Isolated s where
  closing l t x closes moved := spares_of_closing registered distinct closes (step_action moved).2
  target fr t x typ moved hand := by
    have action := (step_action moved).2
    cases action with
    | ignored fr idle => simp [idle, inHand] at hand
    | opened fr idle kind => simp [kind] at typ
    | answer fr y ok idle kind => rcases kind with kind | kind <;> simp [kind] at typ
    | data fr y idle kind found | close fr y idle kind found =>
      rw [← some.inj hand]
      exact target_of_found registered distinct found
    | alone l y st st' here moves | removes l y st st' here moves => cases moves
  serving choice t x hand moved := by
    have action := (step_action moved).2
    cases action with
    | served choice y st st' next here hand' serves =>
      have same : y = x := some.inj (hand'.symm.trans hand)
      subst same
      intro z apart
      exact (getElem?_set_apply here st' z).trans (if_neg apart)
    | panics | passes => exact fun y _ => rfl
    | stops choice at_ => simp [at_, inHand] at hand
    | alone l y st st' here moves | removes l y st st' here moves => cases moves
end

/-- While streams are registered only under ids that no earlier object can still remove, the
streams of a session stay apart. -/
theorem streams_isolated {isServer : Bool} {ls : List Label} {s : Session}
    (arrive : run step (newMuxSession isServer) ls = some s)
    (free : Meets step FreshId (newMuxSession isServer) ls) : Isolated s := by
  have start : Registered (newMuxSession isServer) ∧ Distinct (newMuxSession isServer) :=
    ⟨registered_start isServer, fun x y st st' _ here => by cases here⟩
  have invariants := invariant_of_meets
    (fun {s _ _} (inv : Registered s ∧ Distinct s) free moved =>
      And.intro (registered_step inv.1 (step_action moved).2)
        (distinct_step inv.2 free (step_action moved).2)) start free arrive
  exact isolated_of_invariants invariants.1 invariants.2

theorem two_ids_isolated : ∃ s, run step (newMuxSession true)
        [.frame ⟨.open, 5, [1]⟩, .readLoop true, .frame ⟨.open, 7, [1]⟩, .readLoop true,
          .close 0, .closeStep 0] = some s ∧ Isolated s := by
  refine exists_some_of (P := fun _ => True) (by decide +kernel) fun s arrive _ => ?_
  exact streams_isolated arrive (by decide +kernel)

/-- A peer opens id 5 twice. When the handler of the first stream returns, its `removeStream`
takes the entry of the second one. -/
theorem reopened_id_unregistered :
    (run step (newMuxSession true)
        [.frame ⟨.open, 5, [1]⟩, .readLoop true, .frame ⟨.open, 5, [1]⟩, .readLoop true,
          .close 0, .closeStep 0]).bind
      (fun s => (step s (.closeStep 0)).map fun t =>
        (closing s (.closeStep 0), s.streams.lookup 5, t.streams.lookup 5)) =
      some (some 0, some 1, none) := by
  decide +kernel
end MuxIsolation
end Tamizdat.Vkturn
