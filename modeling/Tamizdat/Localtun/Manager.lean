/- source: internal/localtun/manager.go
   digest: The manager of the local TUN, which owns one generation and has cleaned up the others. -/

import Tamizdat.Localtun.Policy

set_option autoImplicit false

open List Option
namespace Tamizdat.Localtun
open Machine Routing
section

/-- `Config`. The snapshot is a pointer, and configurations are compared by it. -/
structure Config where
  userID : Text := []
  userName : Text := []
  enabled : Bool := false
  outboundTag : Text := []
  fallbackTag : Text := []
  policy : Option Nat := none
  interface : Text := []
  tunName : Text := []
  tunAddress : Text := []
  mtu : Int := 0
  autoRoute : Bool := false
  bypassPrivate : Bool := false
  blockQUIC : Bool := false
  sniff : Bool := false
  failClosed : Bool := false
deriving DecidableEq

def defaultTunName : Text := "taml0".toList
def defaultTunAddress : Text := "198.18.0.1/24".toList
def defaultTunMTU : Int := 1280
def orDefault (text fallback : Text) : Text := if text = [] then fallback else text

def Config.normalized (c : Config) : Config :=
  { c with
    userID := trimSpace c.userID
    userName := trimSpace c.userName
    outboundTag := trimSpace c.outboundTag
    fallbackTag := orDefault (trimSpace c.fallbackTag) "direct".toList
    interface := trimSpace c.interface
    tunName := orDefault (trimSpace c.tunName) defaultTunName
    tunAddress := orDefault (trimSpace c.tunAddress) defaultTunAddress
    mtu := if c.mtu = 0 then defaultTunMTU else c.mtu }

inductive ManagerError
  | severalEnabled | identityRequired
  | tunName (name : Text)
  | mtuOutside (mtu : Int)
  | tunAddress (address : Text)
  | sourceInterface (name : Text)
  | sameInterface | noTunnelOutbound
  | policy (cause : PolicyError)
  | retryCleanup (cause : Text)
  | cleanupFailed (cause : Text)
  | shutdownTimedOut
deriving DecidableEq

def safeInterfaceName (name : Text) : Bool :=
  0 < name.length && name.length ≤ 15 &&
    name.all fun c => c.isAlphanum || c = '_' || c = '.' || c = ':' || c = '-'

variable (std : Stdlib) (snapshots : Nat → Snapshot)
def validateConfig (c : Config) : Except ManagerError Unit :=
  if c.userID = [] ∨ c.userName = [] then .error .identityRequired
  else if safeInterfaceName c.tunName = false then .error (.tunName c.tunName)
  else if c.mtu < 576 ∨ 9000 < c.mtu then .error (.mtuOutside c.mtu)
  else if (std.parsePrefix c.tunAddress).any (·.addr.is4) = false then
    .error (.tunAddress c.tunAddress)
  else if c.autoRoute then
    if safeInterfaceName c.interface = false then .error (.sourceInterface c.interface)
    else if c.interface = c.tunName then .error .sameInterface
    else .ok ()
  else .ok ()

def prepareEnabledConfig (c : Config) : Except ManagerError Config := do
  validateConfig std c
  match localTunnelOutbound std (c.policy.map snapshots) c.userName with
  | .error cause => .error (.policy cause)
  | .ok tunnelTag =>
    if tunnelTag = [] then
      let fallback := trimSpace c.fallbackTag
      if fallback = [] ∨ fallback = "direct".toList ∨ fallback = "block".toList then
        .error .noTunnelOutbound
      else .ok { c with outboundTag := fallback }
    else .ok { c with outboundTag := tunnelTag }

def selectConfig (configs : List Config) : Except ManagerError (Option Config) :=
  match (configs.map Config.normalized).filter (·.enabled) with
  | [] => .ok none
  | [cfg] => do
      let cfg ← prepareEnabledConfig std snapshots cfg
      if cfg.autoRoute then
        match buildIngressPolicy std (cfg.policy.map snapshots) cfg.userName with
        | .error cause => .error (.policy cause)
        | .ok _ => .ok (some cfg)
      else .ok (some cfg)
  | _ => .error .severalEnabled
end

inductive RunState
  | starting | running | error
deriving DecidableEq

structure Status where
  userID : Text
  userName : Text
  state : RunState
  interface : Text
  tunName : Text
  autoRoute : Bool
  failClosed : Bool
  outboundTag : Text
  fallbackTag : Text
  startedAt : Int
  error : Text
deriving DecidableEq

def statusFor (cfg : Config) (state : RunState) (errText : Text) (startedAt : Int) : Status where
  userID := cfg.userID
  userName := cfg.userName
  state := state
  interface := cfg.interface
  tunName := cfg.tunName
  autoRoute := cfg.autoRoute
  failClosed := cfg.failClosed
  outboundTag := cfg.outboundTag
  fallbackTag := cfg.fallbackTag
  startedAt := startedAt
  error := errText

inductive Live
  | disabled
  | shown (generation : Nat) (status : Status)
deriving DecidableEq

inductive After
  | up (startedAt : Int)
  | pause | loop
deriving DecidableEq

inductive Stage
  /-- Context and channel exist, the goroutine does not. -/
  | created | loop
  | runOnce (startedAt : Int)
  /-- `publish` before it loads the generation. -/
  | publish (status : Status) (after : After)
  /-- `publish` before it stores the status. -/
  | store (status : Status) (after : After)
  | up (startedAt : Int)
  /-- `runOnce` has returned. -/
  | ended (cause : Option Text) (startedAt : Int)
  | pause | cleanup
  /-- The channel `done` has got its result. -/
  | delivered (result : Option Text)
deriving DecidableEq

def After.stage : After → Stage
  | .up startedAt => .up startedAt
  | .pause => .pause
  | .loop => .loop

structure Generation where
  number : Nat
  cfg : Config
  cancelled : Bool
  stage : Stage
  taken : Bool
  /-- A cleanup of the stopped generation has succeeded. -/
  cleaned : Bool

namespace Generation
def create (number : Nat) (cfg : Config) : Generation where
  number := number
  cfg := cfg
  cancelled := false
  stage := .created
  taken := false
  cleaned := false

def started (g : Generation) : Bool := g.stage ≠ .created

def result (g : Generation) : Option (Option Text) :=
  match g.stage with
  | .delivered result => some result
  | _ => none

def delivered (g : Generation) : Bool := g.result.isSome
end Generation

/-- One line of at most 240 bytes, which are characters here. -/
def cleanError (text : Text) : Text :=
  (text.map fun c => if c = '\r' ∨ c = '\n' then ' ' else c).take 240

inductive Event
  | begins (now : Int)
  | tunUp | checks | stores
  | returns (cause : Option Text)
  | looks | wakes | timer
  | cleans (result : Option Text)

/-- The supervisor after an event. Only `stores` touches `liveStatus`. -/
def Generation.supervise (g : Generation) (current : Nat) : Event → Option Generation
  | .begins now => if g.stage = .loop then some { g with stage := .runOnce now } else none
  | .tunUp =>
    match g.stage with
    | .runOnce startedAt =>
      some { g with stage := .publish (statusFor g.cfg .running [] startedAt) (.up startedAt) }
    | _ => none
  | .checks =>
    match g.stage with
    | .publish status after =>
      some { g with stage := if current = g.number then .store status after else after.stage }
    | _ => none
  | .stores =>
    match g.stage with
    | .store _ after => some { g with stage := after.stage }
    | _ => none
  | .returns cause =>
    match g.stage with
    | .runOnce startedAt => some { g with stage := .ended cause startedAt }
    | .up startedAt => some { g with stage := .ended cause startedAt }
    | _ => none
  | .looks =>
    match g.stage with
    | .ended cause startedAt =>
      if g.cancelled then some { g with stage := .cleanup }
      else
        let clean := cleanError (cause.getD "local TUN stopped unexpectedly".toList)
        some { g with stage := .publish (statusFor g.cfg .error clean startedAt) .pause }
    | _ => none
  | .wakes => if g.stage = .pause ∧ g.cancelled then some { g with stage := .cleanup } else none
  | .timer =>
    if g.stage = .pause then
      some { g with stage := .publish (statusFor g.cfg .starting [] 0) .loop }
    else none
  | .cleans result =>
    if g.stage = .cleanup then
      some { g with stage := .delivered result, cleaned := g.cleaned || result.isNone }
    else none

def Generation.stored (g : Generation) (live : Live) : Event → Live
  | .stores =>
    match g.stage with
    | .store status _ => .shown g.number status
    | _ => live
  | _ => live

/-- A call of the manager: `Reconcile` with what it has selected, or `Close`. -/
inductive Op
  | reconcile (selected : Option Config)
  | close
deriving DecidableEq

/-- The fields of `Manager` that `mu` guards, with `generation`. The function `cancel` and the
channel `done` are named by their generation. -/
structure Manager where
  cancel : Option Nat
  done : Option Nat
  current : Config
  generation : Nat

inductive Work
  | stop
  /-- `stopLocked` repeats the cleanup of a generation whose result has been received. -/
  | retry
  /-- `stopLocked` waits for the channel or for 16 s. -/
  | await (done : Nat)
  | stopped
  | publish (gen : Nat)
  | store (gen : Nat)
  | spawn (generation : Nat)

inductive Call
  | ready (op : Op)
  /-- It holds `mu`. -/
  | inside
  | returned (op : Op) (err : Option ManagerError)
  /-- `Reconcile` has refused its configurations. -/
  | refused (err : ManagerError)
deriving DecidableEq

inductive Answer
  | proceeds
  | cleans (result : Option Text)
  | receives | timesOut

structure State where
  manager : Manager
  /-- The holder of `mu`, what it has been called for, and its next step. -/
  critical : Option (Nat × Op × Work)
  generations : List Generation
  live : Live
  /-- The last attempt to stop the generation that the manager owns has failed. -/
  stopFailed : Bool
  calls : List Call

def State.initial : State where
  manager := ⟨none, none, {}, 0⟩
  critical := none
  generations := []
  live := .disabled
  stopFailed := false
  calls := []

namespace State
variable (s : State)
section
variable (i : Nat)
variable (op : Op)
def leave (err : Option ManagerError) : State :=
  { s with critical := none, calls := s.calls.set i (.returned op err) }

def goOn (work : Work) : State := { s with critical := some (i, op, work) }

def lock : Option State :=
  match s.critical, s.calls[i]? with
  | none, some (.ready (.reconcile selected)) =>
    if selected = some s.manager.current ∧ s.manager.cancel.isSome then
      some (s.leave i (.reconcile selected) none)
    else
      some { s with
        critical := some (i, .reconcile selected, .stop), calls := s.calls.set i .inside }
  | none, some (.ready .close) =>
    some { s with
      manager := { s.manager with generation := s.manager.generation + 1 }
      critical := some (i, .close, .stop)
      calls := s.calls.set i .inside }
  | _, _ => none

def stop : State :=
  match s.manager.cancel, s.manager.done with
  | none, _ => s.goOn i op .stopped
  | some _, none => s.goOn i op .retry
  | some j, some done =>
    { s with generations := s.generations.modify j fun g => { g with cancelled := true } }.goOn
      i op (.await done)

/-- The end of the repeated cleanup. It is given the current configuration. -/
def retry : Option Text → State
  | some cause => { s with stopFailed := true }.leave i op (some (.retryCleanup cause))
  | none =>
    match s.manager.cancel with
    | none => s.goOn i op .stopped
    | some j =>
      { s with
        manager := { s.manager with cancel := none }
        generations := s.generations.modify j fun g =>
          { g with cleaned := g.cleaned || g.cfg = s.manager.current }
        stopFailed := false }.goOn i op .stopped

def receive (done : Nat) : Option State :=
  (s.generations[done]?).bind fun g =>
    g.result.map fun result =>
      let received :=
        { s with
          manager := { s.manager with done := none }
          generations := s.generations.set done { g with taken := true } }
      match if g.taken then none else result with
      | some cause => { received with stopFailed := true }.leave i op (some (.cleanupFailed cause))
      | none =>
        { received with
          manager := { s.manager with cancel := none, done := none }
          stopFailed := false }.goOn i op .stopped

def timeout : State := { s with stopFailed := true }.leave i op (some .shutdownTimedOut)

def stopped : Op → State
  | .reconcile selected =>
    { s with manager := { s.manager with generation := s.manager.generation + 1 } }.goOn i
      (.reconcile selected) (.publish (s.manager.generation + 1))
  | .close =>
    { s with manager := { s.manager with current := {} }, live := .disabled }.leave i .close none

def publish (i gen : Nat) : Option Config → State
  | none =>
    let reset := { s with manager := { s.manager with current := {} } }
    if s.manager.generation = gen then reset.goOn i (.reconcile none) (.store gen)
    else reset.leave i (.reconcile none) none
  | some cfg =>
    let j := s.generations.length
    { s with
      manager := { s.manager with cancel := some j, done := some j, current := cfg }
      generations := s.generations ++ [Generation.create gen cfg] }.goOn i (.reconcile (some cfg))
      (if s.manager.generation = gen then .store gen else .spawn j)

def store (i gen : Nat) : Option Config → State
  | none => { s with live := .disabled }.leave i (.reconcile none) none
  | some cfg =>
    { s with live := .shown gen (statusFor cfg .starting [] 0) }.goOn i (.reconcile (some cfg))
      (.spawn (s.generations.length - 1))

def spawn (j : Nat) : State :=
  { s with
    generations := s.generations.modify j fun g => { g with stage := .loop } }.leave i op none
end

def work (outcome : Answer) : Option State :=
  match s.critical with
  | none => none
  | some (i, op, work) =>
    match work, op, outcome with
    | .stop, op, .proceeds => some (s.stop i op)
    | .retry, op, .cleans result => some (s.retry i op result)
    | .await done, op, .receives => s.receive i op done
    | .await _, op, .timesOut => some (s.timeout i op)
    | .stopped, op, .proceeds => some (s.stopped i op)
    | .publish gen, .reconcile selected, .proceeds => some (s.publish i gen selected)
    | .store gen, .reconcile selected, .proceeds => some (s.store i gen selected)
    | .spawn j, op, .proceeds => some (s.spawn i op j)
    | _, _, _ => none

def supervise (j : Nat) (event : Event) : Option State :=
  (s.generations[j]?).bind fun g =>
    (g.supervise s.manager.generation event).map fun after =>
      { s with generations := s.generations.set j after, live := g.stored s.live event }
end State

inductive Label
  | reconcile (configs : List Config)
  | close
  | lock (call : Nat)
  | work (outcome : Answer)
  | supervise (generation : Nat) (event : Event)

variable (std : Stdlib) (snapshots : Nat → Snapshot)
def step (s : State) : Label → Option State
  | .reconcile configs =>
    match selectConfig std snapshots configs with
    | .error err => some { s with calls := s.calls ++ [.refused err] }
    | .ok selected => some { s with calls := s.calls ++ [.ready (.reconcile selected)] }
  | .close => some { s with calls := s.calls ++ [.ready .close] }
  | .lock i => s.lock i
  | .work outcome => s.work outcome
  | .supervise j event => s.supervise j event
end Tamizdat.Localtun
namespace Tamizdat.Localtun
open Machine Pool Machine.Runs Routing
open State (goOn leave)
open Generation (create stored)

/-- Stopped, and its cleanup has been delivered and has succeeded in the end. -/
structure Generation.Settled (g : Generation) : Prop where
  delivered : g.delivered = true
  cleaned : g.cleaned = true
  cancelled : g.cancelled = true

structure Generation.Moves (g after : Generation) : Prop where
  number : after.number = g.number
  cfg : after.cfg = g.cfg
  cancelled : after.cancelled = g.cancelled
  taken : after.taken = g.taken
  running : g.delivered = false
  started : g.stage ≠ .created
  remains : after.stage ≠ .created
  ends : after.stage = .cleanup ∨ after.delivered = true → g.cancelled = true ∨ g.stage = .cleanup
  clean : after.stage = .delivered none → after.cleaned = true

def Stage.GoesOn (stage : Stage) : Prop :=
  stage ≠ .created ∧ stage ≠ .cleanup ∧ ∀ result, stage ≠ .delivered result

lemma After.goesOn_stage (after : After) : after.stage.GoesOn := by
  cases after <;> simp [After.stage, Stage.GoesOn]

lemma Generation.delivered_eq_false {g : Generation}
    (silent : ∀ result, g.stage ≠ .delivered result) : g.delivered = false := by
  unfold delivered result
  split
  · next result stands => exact absurd stands (silent result)
  · rfl

lemma Generation.Moves.goesOn {g : Generation} {stage was : Stage} (stands : g.stage = was)
    (there : stage.GoesOn := by simp [Stage.GoesOn])
    (here : was.GoesOn := by simp [Stage.GoesOn]) : g.Moves { g with stage := stage } where
  number := rfl
  cfg := rfl
  cancelled := rfl
  taken := rfl
  running := Generation.delivered_eq_false (stands ▸ here.2.2)
  started := stands ▸ here.1
  remains := there.1
  ends := by
    rintro (cleaning | done)
    · exact absurd cleaning there.2.1
    · rw [Generation.delivered_eq_false there.2.2] at done
      cases done
  clean := fun done => absurd done (there.2.2 none)

lemma Generation.moves_supervise {event} {g after : Generation} {current : Nat}
    (moved : g.supervise current event = some after) : g.Moves after := by
  unfold Generation.supervise at moved
  cases event <;> dsimp only at moved
  case begins now | timer =>
    split_ifs at moved with stands
    cases moved
    exact .goesOn stands
  case tunUp =>
    split at moved
    · next stands =>
      cases moved
      exact .goesOn stands
    · cases moved
  case checks =>
    split at moved
    · next status next stands =>
      cases moved
      refine .goesOn stands ?_
      split_ifs
      · simp [Stage.GoesOn]
      · exact next.goesOn_stage
    · cases moved
  case stores =>
    split at moved
    · next status next stands =>
      cases moved
      exact .goesOn stands next.goesOn_stage
    · cases moved
  case returns cause =>
    split at moved
    · next stands =>
      cases moved
      exact .goesOn stands
    · next stands =>
      cases moved
      exact .goesOn stands
    · cases moved
  case looks =>
    split at moved
    · next stands =>
      split_ifs at moved with ctxDone <;> cases moved
      · constructor <;> simp [delivered, result, stands, ctxDone]
      · exact .goesOn stands
    · cases moved
  case wakes =>
    split_ifs at moved with stands
    cases moved
    constructor <;> simp [delivered, result, stands]
  case cleans result =>
    split_ifs at moved with stands
    cases moved
    constructor <;> simp [delivered, Generation.result, stands]
    exact .inr

def Live.generation : Live → Option Nat
  | .disabled => none
  | .shown generation _ => some generation

namespace State
variable (s : State)

/-- `Reconcile` has made a generation that it has not started yet. -/
def creating : Bool :=
  match s.critical with
  | some (_, .reconcile (some _), .store _) => true
  | some (_, _, .spawn _) => true
  | _ => false

def awaiting : Bool :=
  match s.critical with
  | some (_, _, .await _) => true
  | _ => false

def Fresh (gen : Nat) (cfg : Config) : Prop :=
  ∃ older, s.generations = older ++ [create gen cfg] ∧
    s.manager.cancel = some older.length ∧ (∀ g ∈ older, g.number < gen)
end State

def Work.Fits (s : State) (op : Op) : Work → Prop
  | .stop => True
  | .retry => s.manager.cancel.isSome ∧ s.manager.done = none
  | .await done => s.manager.cancel = some done ∧ s.manager.done = some done
  | .stopped => s.manager.cancel = none
  | .publish gen => s.manager.cancel = none ∧ s.manager.generation = gen ∧
      ∀ g ∈ s.generations, g.number < gen
  | .store gen => s.manager.generation = gen ∧
      match op with
      | .reconcile (some cfg) => s.Fresh gen cfg
      | _ => s.manager.cancel = none ∧ ∀ g ∈ s.generations, g.number < gen
  | .spawn j => ∃ gen cfg, op = .reconcile (some cfg) ∧ j + 1 = s.generations.length ∧
      s.Fresh gen cfg ∧ s.live.generation = some gen

structure Owns (s : State) (j : Nat) (g : Generation) : Prop where
  cfg : g.cfg = s.manager.current
  created : g.stage = .created ↔ s.creating = true
  channel : s.manager.done = some j ∧ g.taken = false ∨
    s.manager.done = none ∧ ∃ cause, g.stage = .delivered (some cause)
  ends : g.stage = .cleanup ∨ g.delivered = true → g.cancelled = true
  clean : g.stage = .delivered none → g.cleaned = true
  cancelled : g.cancelled = (s.stopFailed || s.awaiting)
  shown : g.stage ≠ .created → s.live.generation = some g.number

structure Sound (s : State) : Prop where
  settled : ∀ (j : Nat) g, s.generations[j]? = some g → s.manager.cancel ≠ some j → g.Settled
  owns : ∀ j : Nat, s.manager.cancel = some j → ∃ g, s.generations[j]? = some g ∧ Owns s j g
  released : s.manager.cancel = none → s.manager.done = none ∧ s.stopFailed = false
  numbers : ∀ g ∈ s.generations, g.number ≤ s.manager.generation
  live : ∀ n, s.live.generation = some n → n ≤ s.manager.generation
  fits : ∀ i op work, s.critical = some (i, op, work) → work.Fits s op

open State (awaiting creating)
namespace Sound
lemma initial : Sound State.initial where
  settled := by simp [State.initial]
  owns := by simp [State.initial]
  released := by simp [State.initial]
  numbers := by simp [State.initial]
  live := by simp [State.initial, Live.generation]
  fits := by simp [State.initial]

variable {s s' : State}
lemma pass (sound : Sound s) (cancel : s'.manager.cancel = s.manager.cancel)
    (done : s'.manager.done = s.manager.done) (current : s'.manager.current = s.manager.current)
    (later : s.manager.generation ≤ s'.manager.generation)
    (generations : s'.generations = s.generations) (live : s'.live = s.live)
    (creating : s'.creating = s.creating)
    (cancelled : s.manager.cancel ≠ none →
      (s'.stopFailed || s'.awaiting) = (s.stopFailed || s.awaiting))
    (released : s.manager.cancel = none → s'.stopFailed = false)
    (fits : ∀ i op work, s'.critical = some (i, op, work) → work.Fits s' op) : Sound s' where
  settled := by
    rw [generations, cancel]
    exact sound.settled
  owns := by
    intro j owner
    rw [cancel] at owner
    obtain ⟨g, here, owned⟩ := sound.owns j owner
    rw [generations]
    refine ⟨g, here, ?_, ?_, ?_, owned.ends, owned.clean, ?_, ?_⟩
    · rw [current]
      exact owned.cfg
    · rw [creating]
      exact owned.created
    · rw [done]
      exact owned.channel
    · rw [cancelled (by simp [owner])]
      exact owned.cancelled
    · rw [live]
      exact owned.shown
  released := by
    rw [cancel, done]
    exact fun vacant => ⟨(sound.released vacant).1, released vacant⟩
  numbers := by
    rw [generations]
    exact fun g member => (sound.numbers g member).trans later
  live := by
    rw [live]
    exact fun n shown => (sound.live n shown).trans later
  fits := fits

lemma vacant (cancel : s'.manager.cancel = none) (done : s'.manager.done = none)
    (failed : s'.stopFailed = false)
    (settled : ∀ (j : Nat) g, s'.generations[j]? = some g → g.Settled)
    (numbers : ∀ g ∈ s'.generations, g.number ≤ s'.manager.generation)
    (live : ∀ n, s'.live.generation = some n → n ≤ s'.manager.generation)
    (fits : ∀ i op work, s'.critical = some (i, op, work) → work.Fits s' op) : Sound s' where
  settled := fun j g here _ => settled j g here
  owns := by
    intro j owner
    rw [cancel] at owner
    cases owner
  released := fun _ => ⟨done, failed⟩
  numbers := numbers
  live := live
  fits := fits

section
variable (sound : Sound s)
include sound
lemma all_settled (cancel : s.manager.cancel = none) (j : Nat) (g : Generation)
    (here : s.generations[j]? = some g) : g.Settled :=
  sound.settled j g here (by simp [cancel])

lemma numbers_set {j g g'} (here : s.generations[j]? = some g) (number : g'.number = g.number) :
    ∀ h ∈ s.generations.set j g', h.number ≤ s.manager.generation :=
  forall_set sound.numbers (number ▸ sound.numbers g (mem_of_getElem? here))

variable {j : Nat} {g : Generation}
  (owner : s.manager.cancel = some j) (here : s.generations[j]? = some g)
include owner here
lemma others_settled {k g' h} (other : k ≠ j) (there : (s.generations.set j g')[k]? = some h) :
    h.Settled := by
  rw [getElem?_set_apply here, if_neg other] at there
  exact sound.settled k h there (by simp [owner, other.symm])

lemma keep {g'} (cancel : s'.manager.cancel = some j)
    (generations : s'.generations = s.generations.set j g') (number : g'.number = g.number)
    (same : s'.manager.generation = s.manager.generation) (owned : Owns s' j g')
    (live : ∀ n, s'.live.generation = some n → n ≤ s.manager.generation)
    (fits : ∀ i op work, s'.critical = some (i, op, work) → work.Fits s' op) : Sound s' where
  settled := by
    intro k h there other
    rw [generations] at there
    have elsewhere : k ≠ j := by
      rintro rfl
      exact other cancel
    exact sound.others_settled owner here elsewhere there
  owns := by
    intro k owner'
    rw [cancel] at owner'
    cases owner'
    refine ⟨g', ?_, owned⟩
    rw [generations, getElem?_set_apply here, if_pos rfl]
  released := by
    rw [cancel]
    exact nofun
  numbers := by
    rw [generations, same]
    exact sound.numbers_set here number
  live := by
    rw [same]
    exact live
  fits := fits

lemma giveUp {g'} (cancel : s'.manager.cancel = none) (done : s'.manager.done = none)
    (failed : s'.stopFailed = false) (generations : s'.generations = s.generations.set j g')
    (number : g'.number = g.number) (same : s'.manager.generation = s.manager.generation)
    (live : s'.live = s.live) (settled : g'.Settled)
    (fits : ∀ i op work, s'.critical = some (i, op, work) → work.Fits s' op) :
    Sound s' := by
  refine vacant cancel done failed ?_ ?_ ?_ fits
  · intro k h there
    rw [generations] at there
    by_cases mine : k = j
    · rw [mine, getElem?_set_apply here, if_pos rfl, some.injEq] at there
      exact there ▸ settled
    · exact sound.others_settled owner here mine there
  · rw [generations, same]
    exact sound.numbers_set here number
  · rw [live, same]
    exact sound.live
end

lemma modify_eq_set {j g} {l : List Generation} {f : Generation → Generation}
    (here : l[j]? = some g) :
    l.modify j f = l.set j (f g) := by
  rw [modify_eq_set_getElem?, here]
  rfl

lemma supervise {j event} (sound : Sound s) (moved : s.supervise j event = some s') : Sound s' := by
  obtain ⟨g, after, here, goes, rfl⟩ := moved_eq_some moved
  have moves := Generation.moves_supervise goes
  have owner : s.manager.cancel = some j := by
    by_contra other
    have settled := (sound.settled j g here other).delivered
    rw [moves.running] at settled
    cases settled
  obtain ⟨g₀, here₀, owned⟩ := sound.owns j owner
  cases here.symm.trans here₀
  have idle : s.creating = false := by
    rw [Bool.eq_false_iff, Ne, ← owned.created]
    exact moves.started
  have live : (g.stored s.live event).generation = some g.number := by
    unfold stored
    split
    · split
      · rfl
      · exact owned.shown moves.started
    · exact owned.shown moves.started
  refine sound.keep owner here owner rfl moves.number rfl ?_ ?_ ?_
  · refine ⟨?_, ?_, ?_, ?_, moves.clean, ?_, ?_⟩
    · exact moves.cfg.trans owned.cfg
    · exact iff_of_false moves.remains (Bool.eq_false_iff.mp idle)
    · rcases owned.channel with waits | ⟨-, cause, ended⟩
      · exact .inl ⟨waits.1, moves.taken.trans waits.2⟩
      · have running := moves.running
        simp [Generation.delivered, Generation.result, ended] at running
    · intro ends
      rw [moves.cancelled]
      rcases moves.ends ends with ctxDone | cleaning
      · exact ctxDone
      · exact owned.ends (.inl cleaning)
    · exact moves.cancelled.trans owned.cancelled
    · intro _
      rw [moves.number]
      exact live
  · intro n shown
    rw [live, some.injEq] at shown
    exact shown ▸ sound.numbers g (mem_of_getElem? here)
  · intro i op work holds
    have fits := sound.fits i op work holds
    cases work with
    | stop => trivial
    | retry | await done | stopped => exact fits
    | publish gen =>
      rw [fits.1] at owner
      cases owner
    | store gen =>
      cases op with
      | close =>
        rw [fits.2.1] at owner
        cases owner
      | reconcile selected =>
        cases selected with
        | none =>
          rw [fits.2.1] at owner
          cases owner
        | some cfg =>
          dsimp only at holds
          simp [creating, holds] at idle
    | spawn k =>
      dsimp only at holds
      simp [creating, holds] at idle

section
variable (sound : Sound s)
include sound
variable {i : Nat}
lemma lock (moved : s.lock i = some s') : Sound s' := by
  unfold State.lock at moved
  split at moved
  · next selected free waits =>
    split_ifs at moved <;> cases moved
    · apply sound.pass <;> simp [leave, creating, awaiting, free]
      exact fun vacant => (sound.released vacant).2
    · apply sound.pass <;> simp [creating, awaiting, free, Work.Fits]
      exact fun vacant => (sound.released vacant).2
  · next free waits =>
    cases moved
    apply sound.pass <;> simp [creating, awaiting, free, Work.Fits]
    exact fun vacant => (sound.released vacant).2
  · cases moved

variable {op : Op}
lemma stop (holds : s.critical = some (i, op, .stop)) : Sound (s.stop i op) := by
  unfold State.stop
  split
  · next vacant =>
    apply sound.pass <;> simp [goOn, creating, awaiting, holds, Work.Fits, vacant]
    exact (sound.released vacant).2
  · next j owner closed =>
    apply sound.pass <;>
      simp [goOn, creating, awaiting, holds, Work.Fits, owner, closed]
  · next j done owner channel =>
    obtain ⟨g, here, owned⟩ := sound.owns j owner
    have own : s.manager.done = some j ∧ g.taken = false := by
      rcases owned.channel with waits | ⟨closed, -⟩
      · exact waits
      · rw [closed] at channel
        cases channel
    cases channel.symm.trans own.1
    have idle : s.creating = false := by simp [creating, holds]
    refine sound.keep owner here owner (modify_eq_set here) rfl rfl ?_ sound.live ?_
    · refine ⟨owned.cfg, ?_, .inl own, fun _ => rfl, owned.clean, ?_, owned.shown⟩
      · rw [owned.created, idle]
        simp [goOn, creating]
      · simp [goOn, awaiting]
    · simp [goOn, Work.Fits, owner, channel]

lemma retry (holds : s.critical = some (i, op, .retry)) (result : Option Text) :
    Sound (s.retry i op result) := by
  obtain ⟨kept, closed⟩ := sound.fits i op .retry holds
  obtain ⟨j, owner⟩ := isSome_iff_exists.mp kept
  obtain ⟨g, here, owned⟩ := sound.owns j owner
  obtain ⟨cause, ended⟩ : ∃ cause, g.stage = .delivered (some cause) := by
    rcases owned.channel with ⟨waits, -⟩ | ⟨-, ended⟩
    · rw [closed] at waits
      cases waits
    · exact ended
  have done : g.delivered = true := by simp [Generation.delivered, Generation.result, ended]
  have cancelled := owned.ends (.inr done)
  unfold State.retry
  cases result with
  | some cause =>
    have failed : s.stopFailed = true := by
      simpa [awaiting, holds, cancelled] using owned.cancelled
    apply sound.pass <;> simp [leave, creating, awaiting, holds, owner, failed]
  | none =>
    dsimp only
    split
    · next vacant =>
      rw [owner] at vacant
      cases vacant
    · next k owner' =>
      cases owner.symm.trans owner'
      refine sound.giveUp owner here rfl closed rfl (modify_eq_set here) rfl rfl rfl ?_ ?_
      · exact ⟨done, by simp [owned.cfg], cancelled⟩
      · simp [goOn, Work.Fits]

lemma receive {done} (holds : s.critical = some (i, op, .await done))
    (moved : s.receive i op done = some s') : Sound s' := by
  obtain ⟨owner, channel⟩ := sound.fits i op (.await done) holds
  obtain ⟨g, here, owned⟩ := sound.owns done owner
  have fresh : g.taken = false := by
    rcases owned.channel with ⟨-, fresh⟩ | ⟨closed, -⟩
    · exact fresh
    · rw [closed] at channel
      cases channel
  unfold State.receive at moved
  rw [here, bind_some] at moved
  obtain ⟨result, found, moved⟩ := map_eq_some_iff.mp moved
  have ended : g.stage = .delivered result := by
    unfold Generation.result at found
    split at found
    · next stands =>
      cases found
      exact stands
    · cases found
  have delivered : g.delivered = true := by rw [Generation.delivered, found]; rfl
  have cancelled := owned.ends (.inr delivered)
  rw [fresh] at moved
  cases result with
  | some cause =>
    cases moved
    refine sound.keep owner here owner rfl rfl rfl ?_ sound.live ?_
    · refine ⟨owned.cfg, ?_, .inr ⟨rfl, cause, ended⟩, fun _ => cancelled, owned.clean, ?_,
        owned.shown⟩
      · simp [leave, creating, ended]
      · simp [leave, cancelled]
    · simp [leave]
  | none =>
    cases moved
    refine sound.giveUp owner here rfl rfl rfl rfl rfl rfl rfl ?_ ?_
    · exact ⟨delivered, owned.clean ended, cancelled⟩
    · simp [goOn, Work.Fits]

lemma timeout {done} (holds : s.critical = some (i, op, .await done)) : Sound (s.timeout i op) := by
  obtain ⟨owner, -⟩ := sound.fits i op (.await done) holds
  apply sound.pass <;>
    simp [State.timeout, leave, creating, awaiting, holds, owner]

lemma stopped (holds : s.critical = some (i, op, .stopped)) : Sound (s.stopped i op) := by
  have free : s.manager.cancel = none := sound.fits i op .stopped holds
  obtain ⟨closed, failed⟩ := sound.released free
  cases op with
  | reconcile selected =>
    refine vacant free closed failed (sound.all_settled free) ?_ ?_ ?_
    · exact fun g member => (sound.numbers g member).trans (Nat.le_succ _)
    · exact fun n shown => (sound.live n shown).trans (Nat.le_succ _)
    · intro i' op' work' at'
      cases at'
      exact ⟨free, rfl, fun g member => Nat.lt_succ_of_le (sound.numbers g member)⟩
  | close =>
    refine vacant free closed failed (sound.all_settled free) sound.numbers ?_ ?_
    · simp [State.stopped, leave, Live.generation]
    · simp [State.stopped, leave]

lemma publish {selected gen} (holds : s.critical = some (i, .reconcile selected, .publish gen)) :
    Sound (s.publish i gen selected) := by
  obtain ⟨free, now, older⟩ := sound.fits i _ (.publish gen) holds
  obtain ⟨closed, failed⟩ := sound.released free
  unfold State.publish
  cases selected with
  | none =>
    rw [if_pos now]
    refine vacant free closed failed (sound.all_settled free) sound.numbers sound.live ?_
    intro i' op' work' at'
    cases at'
    exact ⟨now, free, older⟩
  | some cfg =>
    dsimp only
    rw [if_pos now]
    have last := getElem?_snoc s.generations (create gen cfg)
    refine ⟨?_, ?_, ?_, ?_, sound.live, ?_⟩
    · intro k h there other
      simp only [goOn, last, ne_eq, some.injEq] at there other
      rw [if_neg fun mine => other mine.symm] at there
      exact sound.all_settled free k h there
    · intro k owner
      cases owner
      refine ⟨create gen cfg, (last _).trans (if_pos rfl), ?_⟩
      constructor <;> simp [goOn, create, creating, awaiting, failed,
        Generation.delivered, Generation.result]
    · exact nofun
    · exact forall_snoc sound.numbers now.ge
    · intro i' op' work' at'
      cases at'
      exact ⟨now, s.generations, rfl, rfl, older⟩

lemma store {selected gen} (holds : s.critical = some (i, .reconcile selected, .store gen)) :
    Sound (s.store i gen selected) := by
  have fits := sound.fits i _ (.store gen) holds
  cases selected with
  | none =>
    have free : s.manager.cancel = none := fits.2.1
    obtain ⟨closed, failed⟩ := sound.released free
    refine vacant free closed failed (sound.all_settled free) sound.numbers ?_ ?_
    · simp [State.store, leave, Live.generation]
    · simp [State.store, leave]
  | some cfg =>
    obtain ⟨now, older, whole, owner, before⟩ := fits
    have making : s.creating = true := by simp [creating, holds]
    have quiet : s.awaiting = false := by simp [awaiting, holds]
    refine { sound with owns := ?_, live := ?_, fits := ?_ }
    · intro j owner'
      obtain ⟨g, here, owned⟩ := sound.owns j owner'
      refine ⟨g, here, owned.cfg, ?_, owned.channel, owned.ends, owned.clean, ?_, ?_⟩
      · rw [owned.created, making]
        rfl
      · rw [owned.cancelled, quiet]
        rfl
      · exact fun begun => absurd (owned.created.mpr making) begun
    · intro n shown
      cases shown
      exact now.ge
    · intro i' op' work' at'
      cases at'
      refine ⟨gen, cfg, rfl, ?_, ⟨older, whole, owner, before⟩, rfl⟩
      simp [State.store, goOn, whole]

lemma spawn {j : Nat} (holds : s.critical = some (i, op, .spawn j)) : Sound (s.spawn i op j) := by
  obtain ⟨gen, cfg, rfl, last, ⟨older, whole, owner, -⟩, shown⟩ := sound.fits i op (.spawn j) holds
  have mine : j = older.length := by simpa [whole] using last
  subst mine
  have here : s.generations[older.length]? = some (create gen cfg) := by simp [whole]
  obtain ⟨g, here', owned⟩ := sound.owns _ owner
  cases here.symm.trans here'
  have settled : s.stopFailed = false := by
    simpa [create, awaiting, holds] using owned.cancelled
  have waits : s.manager.done = some older.length := by
    rcases owned.channel with ⟨waits, -⟩ | ⟨-, cause, ended⟩
    · exact waits
    · cases ended
  refine sound.keep owner here owner (modify_eq_set here) rfl rfl ?_ sound.live ?_
  · constructor <;> simp [State.spawn, leave, create, creating,
      awaiting, settled, waits, shown, Generation.delivered, Generation.result]
    exact owned.cfg
  · simp [State.spawn, leave]

lemma work {outcome} (moved : s.work outcome = some s') : Sound s' := by
  unfold State.work at moved
  split at moved
  · cases moved
  · next i op work holds =>
    split at moved
    · cases moved
      exact sound.stop holds
    · cases moved
      exact sound.retry holds _
    · exact sound.receive holds moved
    · cases moved
      exact sound.timeout holds
    · cases moved
      exact sound.stopped holds
    · cases moved
      exact sound.publish holds
    · cases moved
      exact sound.store holds
    · cases moved
      exact sound.spawn holds
    · cases moved
end

lemma joins (sound : Sound s) (call : Call) : Sound { s with calls := s.calls ++ [call] } :=
  sound.pass rfl rfl rfl le_rfl rfl rfl rfl (fun _ => rfl) (fun free => (sound.released free).2)
    sound.fits

lemma step {std snapshots label} (sound : Sound s) (moved : step std snapshots s label = some s') :
    Sound s' := by
  cases label with
  | reconcile configs =>
    dsimp only [Localtun.step] at moved
    split at moved <;> cases moved <;> exact sound.joins _
  | close =>
    cases moved
    exact sound.joins _
  | lock i => exact sound.lock moved
  | work outcome => exact sound.work moved
  | supervise j event => exact sound.supervise moved

lemma of_run {std snapshots labels}
    (reached : run (Localtun.step std snapshots) State.initial labels = some s) :
    Sound s :=
  run_invariant Sound.step Sound.initial reached
end Sound
end Tamizdat.Localtun
