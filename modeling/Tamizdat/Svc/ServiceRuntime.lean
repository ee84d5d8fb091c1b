/- source: cmd/tamizdat-svc/service_runtime.go
   digest: The session of the service under concurrent Connect and Disconnect requests. -/

import Tamizdat.Machine.Runs

set_option autoImplicit false

open List Option
namespace Tamizdat.Svc.ServiceRuntime
open Machine Pool Machine.Runs

inductive ConnState
  | disconnected | connecting | connected | disconnecting | failed
deriving DecidableEq

/-- `serviceRuntime` with the sessions that its engine has returned. A session is named by the
order of its creation, a `done` channel by the call of `Connect` that made it. -/
structure Runtime where
  state : ConnState
  session : Option Nat
  connectDone : Option Nat
  stopped : List Bool
  closedDone : List Nat

def newServiceRuntime : Runtime where
  state := .disconnected
  session := none
  connectDone := none
  stopped := []
  closedDone := []

/-- The next step of a request. The result of a call to the engine or to a session is applied
when the request holds the mutex again. -/
inductive Call
  | connect | connecting | connectReturns | disconnect
  | waitDone (done : Option Nat)
  | readSession
  | stopSession (sess : Option Nat)
  | closeEngine (sess : Option Nat) (failed : Bool)
  | finishDisconnect (sess : Option Nat) (failed : Bool)
  | returned
deriving DecidableEq

namespace Runtime
variable (rt : Runtime)
def beginConnect (self : Nat) : Runtime × Call :=
  if rt.state = .disconnected then
    ({ rt with state := .connecting, connectDone := some self }, .connecting)
  else (rt, .returned)

/-- `Connect` after `engine.Connect`, which has returned a session or an error. -/
def endConnect (self : Nat) (succeeds : Bool) : Runtime :=
  { rt with
    connectDone := if rt.connectDone = some self then none else rt.connectDone
    session := if succeeds then some rt.stopped.length
      else if rt.state = .connecting then none else rt.session
    state := if rt.state = .connecting then if succeeds then .connected else .disconnected
      else rt.state
    stopped := if succeeds then rt.stopped ++ [false] else rt.stopped }

def beginDisconnect : Runtime × Call :=
  match rt.state with
  | .disconnected => (rt, .returned)
  | .connecting => ({ rt with state := .disconnecting }, .waitDone rt.connectDone)
  | _ => ({ rt with state := .disconnecting }, .stopSession rt.session)

def markStopped (sess : Option Nat) : Runtime :=
  match sess with
  | none => rt
  | some j => { rt with stopped := rt.stopped.set j true }

def finishDisconnect (failed : Bool) : Runtime :=
  if failed then { rt with connectDone := none, state := .failed }
  else { rt with connectDone := none, session := none, state := .disconnected }
end Runtime

/-- One step of the call `self`. `succeeds` is the outcome of what it has waited for: the engine,
the session, or the `done` channel against the caller's context. -/
def advance (rt : Runtime) (self : Nat) (succeeds : Bool) : Call → Option (Runtime × Call)
  | .connect => some (rt.beginConnect self)
  | .connecting => some (rt.endConnect self succeeds, .connectReturns)
  | .connectReturns => some ({ rt with closedDone := self :: rt.closedDone }, .returned)
  | .disconnect => some rt.beginDisconnect
  | .waitDone none => some (rt, .readSession)
  | .waitDone (some done) =>
    if succeeds then if done ∈ rt.closedDone then some (rt, .readSession) else none
    else some (rt, .finishDisconnect none true)
  | .readSession => some (rt, .stopSession rt.session)
  | .stopSession none => some (rt, .closeEngine none false)
  | .stopSession (some j) =>
    if succeeds then some (rt.markStopped (some j), .closeEngine (some j) false)
    else some (rt, .closeEngine (some j) true)
  | .closeEngine sess failed => some (rt, .finishDisconnect sess (failed || !succeeds))
  | .finishDisconnect _ failed => some (rt.finishDisconnect failed, .returned)
  | .returned => none

structure State where
  runtime : Runtime
  calls : List Call

def State.initial : State := ⟨newServiceRuntime, []⟩

inductive Label
  | connect | disconnect
  | move (call : Nat) (succeeds : Bool)

def step (s : State) : Label → Option State
  | .connect => some { s with calls := s.calls ++ [.connect] }
  | .disconnect => some { s with calls := s.calls ++ [.disconnect] }
  | .move i succeeds =>
    s.calls[i]?.bind fun call =>
      (advance s.runtime i succeeds call).map fun after => ⟨after.1, s.calls.set i after.2⟩

def inFlight (call : Call) : Nat := if call = .connecting then 1 else 0

/-- The condition on a step: `Disconnect` announces success only when no `engine.Connect` is in
flight and the session is still the one that it has stopped. -/
def Identified (s : State) : Label → Prop
  | .move i _ =>
    match s.calls[i]? with
    | some (.finishDisconnect sess false) => total inFlight s.calls = 0 ∧ s.runtime.session = sess
    | _ => True
  | _ => True

instance (s : State) (label : Label) : Decidable (Identified s label) := by
  unfold Identified
  split
  · split <;> infer_instance
  · infer_instance

def Stopped (rt : Runtime) (sess : Option Nat) : Prop :=
  ∀ j, sess = some j → rt.stopped[j]? = some true

def Exists (rt : Runtime) (sess : Option Nat) : Prop := ∀ j, sess = some j → j < rt.stopped.length

/-- What a running `Disconnect` knows of its session: it exists, and it has been stopped if no
error was met. -/
def Truthful (rt : Runtime) : Call → Prop
  | .stopSession sess => Exists rt sess
  | .closeEngine sess false => Stopped rt sess
  | .finishDisconnect sess false => Stopped rt sess
  | _ => True

structure Owned (s : State) : Prop where
  owner : ∀ j : Nat, s.runtime.stopped[j]? = some false → s.runtime.session = some j
  exist : Exists s.runtime s.runtime.session
  single : total inFlight s.calls ≤ 1
  settled : s.runtime.state = .disconnected → total inFlight s.calls = 0
  vacant : s.runtime.state = .disconnected ∨ s.runtime.state = .connecting ∨
    total inFlight s.calls = 1 → s.runtime.session = none
  truthful : ∀ call ∈ s.calls, Truthful s.runtime call

structure Runtime.Grows (rt rt' : Runtime) : Prop where
  stays : ∀ j : Nat, rt.stopped[j]? = some true → rt'.stopped[j]? = some true
  longer : rt.stopped.length ≤ rt'.stopped.length

lemma Runtime.Grows.of_eq {rt rt' : Runtime} (same : rt'.stopped = rt.stopped) : rt.Grows rt' := by
  constructor
  · intro j done
    rw [same]
    exact done
  · rw [same]

lemma Truthful.mono {rt rt' : Runtime} {call} (grows : rt.Grows rt')
    (truthful : Truthful rt call) : Truthful rt' call := by
  unfold Truthful at truthful ⊢
  split at truthful
  · exact fun j same => (truthful j same).trans_le grows.longer
  · exact fun j same => grows.stays j (truthful j same)
  · exact fun j same => grows.stays j (truthful j same)
  · trivial

namespace Owned
lemma initial : Owned State.initial where
  owner := by simp [State.initial, newServiceRuntime]
  exist := by simp [State.initial, newServiceRuntime, Exists]
  single := by simp [State.initial]
  settled := by simp [State.initial]
  vacant := by simp [State.initial, newServiceRuntime]
  truthful := by simp [State.initial]

variable {s : State} {i : Nat} {call : Call}
lemma grows_endConnect (rt : Runtime) (self : Nat) (succeeds : Bool) :
    rt.Grows (rt.endConnect self succeeds) := by
  cases succeeds with
  | false => exact .of_eq rfl
  | true =>
    constructor
    · intro j done
      have inside := lt_of_getElem? done
      simp only [Runtime.endConnect, if_true]
      rw [getElem?_append_left inside]
      exact done
    · simp [Runtime.endConnect]

section
variable (inv : Owned s)
include inv
lemma truthful_set {rt : Runtime} (grows : s.runtime.Grows rt) {after : Call}
    (honest : Truthful rt after) : ∀ call ∈ s.calls.set i after, Truthful rt call :=
  forall_set (fun call member => (inv.truthful call member).mono grows) honest

lemma restate (here : s.calls[i]? = some call) {rt : Runtime} {after : Call}
    (honest : Truthful s.runtime after)
    (settled : rt.state = .disconnected → s.runtime.state = .disconnected)
    (vacant : rt.state = .connecting → s.runtime.state = .connecting)
    (session : rt.session = s.runtime.session := by rfl)
    (stopped : rt.stopped = s.runtime.stopped := by rfl)
    (flight : inFlight after = inFlight call := by rfl) :
    Owned ⟨rt, s.calls.set i after⟩ := by
  have same : total inFlight (s.calls.set i after) = total inFlight s.calls :=
    total_set_eq inFlight here flight
  have grows : s.runtime.Grows rt := .of_eq stopped
  constructor <;> dsimp only
  · rw [session, stopped]
    exact inv.owner
  · rw [Exists, session, stopped]
    exact inv.exist
  · rw [same]
    exact inv.single
  · rw [same]
    exact fun arrived => inv.settled (settled arrived)
  · rw [same, session]
    rintro (arrived | arrived | flying)
    · exact inv.vacant (.inl (settled arrived))
    · exact inv.vacant (.inr (.inl (vacant arrived)))
    · exact inv.vacant (.inr (.inr flying))
  · exact inv.truthful_set grows (honest.mono grows)

lemma beginConnect (here : s.calls[i]? = some .connect) :
    Owned ⟨(s.runtime.beginConnect i).1, s.calls.set i (s.runtime.beginConnect i).2⟩ := by
  unfold Runtime.beginConnect
  split_ifs with idle
  · have traded := total_set inFlight here .connecting
    have landed := inv.settled idle
    have session := inv.vacant (.inl idle)
    simp only [inFlight, reduceCtorEq, if_true, if_false] at traded
    constructor <;> dsimp only
    · exact inv.owner
    · exact inv.exist
    · omega
    · simp
    · exact fun _ => session
    · exact inv.truthful_set (.of_eq rfl) trivial
  · exact inv.restate here trivial id id

lemma nothing_running (here : s.calls[i]? = some .connecting) :
    s.runtime.session = none ∧ s.runtime.state ≠ .disconnected ∧
      ∀ j : Nat, s.runtime.stopped[j]? ≠ some false := by
  have weighs := Pool.le_total inFlight here
  have single := inv.single
  simp only [inFlight, if_true] at weighs
  have session : s.runtime.session = none := by
    apply inv.vacant
    omega
  refine ⟨session, ?_, ?_⟩
  · intro idle
    have landed := inv.settled idle
    omega
  · intro j running
    rw [inv.owner j running] at session
    exact absurd session (by simp)

lemma endConnect (here : s.calls[i]? = some .connecting) (succeeds : Bool) :
    Owned ⟨s.runtime.endConnect i succeeds, s.calls.set i .connectReturns⟩ := by
  obtain ⟨session, active, ended⟩ := inv.nothing_running here
  have traded := total_set inFlight here .connectReturns
  have single := inv.single
  have landed : total inFlight (s.calls.set i .connectReturns) = 0 := by
    simp only [inFlight, reduceCtorEq, if_true, if_false] at traded single ⊢
    omega
  have grows := grows_endConnect s.runtime i succeeds
  constructor <;> dsimp only
  · intro j running
    cases succeeds with
    | true =>
      simp only [Runtime.endConnect, if_true] at running ⊢
      rw [getElem?_snoc] at running
      split_ifs at running with new
      · rw [new]
      · exact absurd running (ended j)
    | false => exact absurd running (ended j)
  · cases succeeds with
    | true =>
      rintro j ⟨⟩
      simp [Runtime.endConnect]
    | false => simp [Exists, Runtime.endConnect, session]
  · omega
  · exact fun _ => landed
  · rintro (idle | connecting | flying)
    · cases succeeds with
      | true =>
        simp only [Runtime.endConnect, if_true] at idle
        split_ifs at idle
        exact absurd idle active
      | false => simp [Runtime.endConnect, session]
    · simp only [Runtime.endConnect] at connecting
      split_ifs at connecting with before
      exact absurd connecting before
    · omega
  · exact inv.truthful_set grows trivial

lemma beginDisconnect (here : s.calls[i]? = some .disconnect) :
    Owned ⟨s.runtime.beginDisconnect.1, s.calls.set i s.runtime.beginDisconnect.2⟩ := by
  unfold Runtime.beginDisconnect
  split
  · exact inv.restate here trivial id id
  · exact inv.restate here trivial (by simp) (by simp)
  · exact inv.restate here inv.exist (by simp) (by simp)

lemma stopSession {j : Nat} (here : s.calls[i]? = some (.stopSession (some j))) :
    Owned ⟨s.runtime.markStopped (some j), s.calls.set i (.closeEngine (some j) false)⟩ := by
  have inside : j < s.runtime.stopped.length := inv.truthful _ (mem_of_getElem? here) j rfl
  have same : total inFlight (s.calls.set i (.closeEngine (some j) false)) =
      total inFlight s.calls := total_set_eq inFlight here rfl
  have now : (s.runtime.stopped.set j true)[j]? = some true := by
    rw [getElem?_set_self inside]
  have grows : s.runtime.Grows (s.runtime.markStopped (some j)) := by
    constructor
    · intro k done
      simp only [Runtime.markStopped, getElem?_set]
      split_ifs with this
      · rfl
      · exact done
    · simp [Runtime.markStopped]
  constructor <;> dsimp only
  · intro k running
    simp only [Runtime.markStopped, getElem?_set] at running
    split_ifs at running
    · exact absurd running (by simp)
    · exact inv.owner k running
  · exact fun k known => (inv.exist k known).trans_le grows.longer
  · rw [same]
    exact inv.single
  · rw [same]
    exact inv.settled
  · rw [same]
    exact inv.vacant
  · apply inv.truthful_set grows
    rintro k ⟨⟩
    exact now

lemma finishDisconnect {sess : Option Nat} {failed : Bool}
    (here : s.calls[i]? = some (.finishDisconnect sess failed))
    (identified : failed = false → total inFlight s.calls = 0 ∧ s.runtime.session = sess) :
    Owned ⟨s.runtime.finishDisconnect failed, s.calls.set i .returned⟩ := by
  cases failed with
  | true =>
    refine inv.restate here trivial ?_ ?_
    · simp [Runtime.finishDisconnect]
    · simp [Runtime.finishDisconnect]
  | false =>
    obtain ⟨landed, current⟩ := identified rfl
    have ended : Stopped s.runtime sess := inv.truthful _ (mem_of_getElem? here)
    have same : total inFlight (s.calls.set i .returned) = total inFlight s.calls :=
      total_set_eq inFlight here rfl
    constructor <;> dsimp only
    · intro j running
      have owner := inv.owner j running
      have done := ended j (current ▸ owner)
      have clash : some false = some true := running.symm.trans done
      exact absurd clash (by simp)
    · simp [Exists, Runtime.finishDisconnect]
    · rw [same]
      exact inv.single
    · exact fun _ => same.trans landed
    · exact fun _ => rfl
    · exact inv.truthful_set (.of_eq rfl) trivial

lemma advance (here : s.calls[i]? = some call) {succeeds : Bool}
    (identified : Identified s (.move i succeeds)) {after : Runtime × Call}
    (moved : ServiceRuntime.advance s.runtime i succeeds call = some after) :
    Owned ⟨after.1, s.calls.set i after.2⟩ := by
  cases call with
  | connect =>
    cases moved
    exact inv.beginConnect here
  | connecting =>
    cases moved
    exact inv.endConnect here succeeds
  | connectReturns =>
    cases moved
    exact inv.restate here trivial id id
  | disconnect =>
    cases moved
    exact inv.beginDisconnect here
  | waitDone done =>
    cases done with
    | none =>
      cases moved
      exact inv.restate here trivial id id
    | some done =>
      simp only [ServiceRuntime.advance] at moved
      split_ifs at moved <;> cases moved
      · exact inv.restate here trivial id id
      · exact inv.restate here trivial id id
  | readSession =>
    cases moved
    exact inv.restate here inv.exist id id
  | stopSession sess =>
    cases sess with
    | none =>
      cases moved
      exact inv.restate here (by simp [Truthful, Stopped]) id id
    | some j =>
      simp only [ServiceRuntime.advance] at moved
      split_ifs at moved <;> cases moved
      · exact inv.stopSession here
      · exact inv.restate here trivial id id
  | closeEngine sess failed =>
    cases moved
    have honest := inv.truthful _ (mem_of_getElem? here)
    refine inv.restate here ?_ id id
    cases failed with
    | true => trivial
    | false =>
      cases succeeds with
      | true => exact honest
      | false => trivial
  | finishDisconnect sess failed =>
    cases moved
    apply inv.finishDisconnect here
    rintro rfl
    simpa only [Identified, here] using identified
  | returned => exact absurd moved (by simp [ServiceRuntime.advance])

lemma arrive (request : Call) (light : inFlight request = 0) (honest : Truthful s.runtime request) :
    Owned { s with calls := s.calls ++ [request] } := by
  have same : total inFlight (s.calls ++ [request]) = total inFlight s.calls :=
    total_snoc inFlight s.calls light
  constructor <;> dsimp only
  · exact inv.owner
  · exact inv.exist
  · rw [same]
    exact inv.single
  · rw [same]
    exact inv.settled
  · rw [same]
    exact inv.vacant
  · exact forall_snoc inv.truthful honest
end

lemma step {label t} (inv : Owned s) (identified : Identified s label)
    (moved : ServiceRuntime.step s label = some t) : Owned t := by
  cases label with
  | connect =>
    cases moved
    exact inv.arrive .connect rfl trivial
  | disconnect =>
    cases moved
    exact inv.arrive .disconnect rfl trivial
  | move i succeeds =>
    obtain ⟨call, after, here, advanced, rfl⟩ := moved_eq_some moved
    exact inv.advance here identified advanced
end Owned

/-- As long as every `Disconnect` that announces success does so with no `engine.Connect` in flight
and with the session that it has stopped, every session is stopped or is the session of the
runtime, so that at most one is running, and none is in the state `Disconnected`. -/
theorem session_owned {labels : List Label} {t : State}
    (identified : Meets step Identified State.initial labels)
    (arrive : run step State.initial labels = some t) :
    (∀ (j : Nat) (stopped : Bool), t.runtime.stopped[j]? = some stopped →
      stopped = true ∨ t.runtime.session = some j) ∧
    (∀ j k : Nat, t.runtime.stopped[j]? = some false → t.runtime.stopped[k]? = some false → j = k) ∧
    (t.runtime.state = .disconnected → ∀ stopped ∈ t.runtime.stopped, stopped = true) := by
  have inv := invariant_of_meets Owned.step Owned.initial identified arrive
  refine ⟨?_, ?_, ?_⟩
  · intro j stopped here
    cases stopped with
    | true => exact .inl rfl
    | false => exact .inr (inv.owner j here)
  · intro j k first second
    exact some.inj ((inv.owner j first).symm.trans (inv.owner k second))
  · intro idle stopped member
    obtain ⟨j, here⟩ := mem_iff_getElem?.mp member
    cases stopped with
    | true => rfl
    | false =>
      have owner := inv.owner j here
      rw [inv.vacant (.inl idle)] at owner
      exact absurd owner (by simp)

def disconnectsInTurn : List Label :=
  [Label.connect, .move 0 true, .move 0 true, .move 0 true,
    .disconnect, .move 1 true, .move 1 false, .move 1 true, .move 1 true,
    .disconnect, .move 2 true, .move 2 true, .move 2 true, .move 2 true,
    .connect, .move 3 true, .disconnect, .move 4 true, .move 3 true, .move 3 true,
    .move 4 true, .move 4 true, .move 4 true, .move 4 true, .move 4 true]

theorem session_owned_in_turn : ∃ t, run step State.initial disconnectsInTurn = some t ∧
      t.runtime.state = .disconnected ∧ t.runtime.stopped.length = 2 ∧
      ∀ stopped ∈ t.runtime.stopped, stopped = true := by
  refine exists_some_of (P := fun t => t.runtime.state = .disconnected ∧
    t.runtime.stopped.length = 2) (by decide +kernel) fun t arrive ⟨idle, two⟩ => ?_
  exact ⟨idle, two, (session_owned (by decide +kernel) arrive).2.2 idle⟩

def disconnectsTwice : List Label :=
  [Label.connect, .move 0 true, .disconnect, .move 1 true, .move 1 false, .move 1 true,
    .disconnect, .move 2 true, .move 2 true, .move 2 true, .move 2 true]

/-- The session that the engine returns late is running in the state `Disconnected` with no call
in progress, and the next `Connect` forgets it. -/
theorem late_session_lost :
    (∃ t, run step State.initial (disconnectsTwice ++ [.move 0 true, .move 0 true]) = some t ∧
      t.runtime.state = .disconnected ∧ (∀ call ∈ t.calls, call = .returned) ∧
      t.runtime.stopped = [false]) ∧
    ∃ t, run step State.initial (disconnectsTwice ++ [.move 0 true, .move 0 true, .connect,
        .move 3 true, .move 3 true, .move 3 true]) = some t ∧
      t.runtime.session = some 1 ∧ t.runtime.stopped = [false, false] := by decide +kernel
end Tamizdat.Svc.ServiceRuntime
