/- source: internal/wgturn/bond.go, internal/wgturn/server.go, internal/wgturn/conn.go
   digest: The server of the bonds, and what its actions do to a call and the shared maps. -/

import Tamizdat.Wgturn.Devices
import Mathlib.Logic.Relation

set_option autoImplicit false

open Option
namespace Tamizdat.Wgturn.Bonds
open Machine.Maps Wgturn.BondWorkers Wgturn.Devices

structure BondKey where
  deviceID : String
  runID : String
  deriving DecidableEq

structure ClientIdentity where
  shortIDHex : String := ""
  userID : String := ""
  userName : String := ""
  sessionID : String := ""
  deriving DecidableEq

/-- A parsed BIND. `localPort` is what `localPortString` makes of the raw field. -/
structure BondBind where
  deviceID : String
  runID : String
  token : String
  room : Int
  worker : Int
  localPort : Option String
  wantConfig : Bool
  password : String

def BondBind.key (bind : BondBind) : BondKey := ⟨bind.deviceID, bind.runID⟩

inductive BondFrameType where
  | bind | bindWait | bindOK | bindConfig | data | keepalive | error
  deriving DecidableEq

/-- What `acquireBond` returns. A bond is named by the call that created it. -/
structure Answer where
  bond : Option Nat
  type : BondFrameType
  payload : Option String
  deriving DecidableEq

/-- The configuration that the bond code reads. `authenticate` and `onIdentityDone` say whether
the hook is set. -/
structure Config where
  wg : WGConfig
  password : String
  authenticate : Bool
  onIdentityDone : Bool

def bondMaxActiveAndClaims : Nat := 512
def bondMaxRunsPerDevice : Nat := 1
def bondTokenMatches (a b : String) : Bool := a == b

variable (cfg : Config)

/-- `hook` is what the authentication hook answers, should it be asked. -/
def authenticateClient (hook : ClientIdentity × String) (password : String) :
    ClientIdentity × String :=
  if cfg.password ≠ "" ∧ password = cfg.password then ({}, "")
  else if cfg.authenticate then if hook.2 = "" then (hook.1, "") else ({}, hook.2)
  else ({}, "wrong_password")

/-- The body of `close` under `closeOnce`, one stage for each thing it does. Whoever comes
second waits for `done`. -/
inductive CloseOnce where
  | fresh | cancelling | closingSocket | locking | notifying | done
  deriving DecidableEq

def CloseOnce.socketClosed : CloseOnce → Bool
  | .locking | .notifying | .done => true
  | _ => false

inductive Watcher where
  | absent | waiting | closing | finished
  deriving DecidableEq

/-- The bond object. Its key, token, identity, device, config and socket are those of the call
that created it. -/
structure ServerBond where
  closing : Bool := false
  closeOnce : CloseOnce := .fresh
  cancelled : Bool := false
  workers : Workers := {}
  watcher : Watcher := .absent

def ServerBond.startClose (bond : ServerBond) : ServerBond :=
  { bond with
    closing := true
    closeOnce := if bond.closeOnce = .fresh then .cancelling else bond.closeOnce }

inductive Stage where
  | entry | lookup
  | matched (bond : Nat)
  | authenticating | authenticated | takeover
  | retiring (todo : List Nat) (current : Option Nat)
  | provisioning | provisioned | dialing | dialed | discarding | committing
  | failing (text : String)
  | lost (winner : Option Nat)
  | lostClosing (winner : Option Nat)
  | lostClosed (winner : Option Nat)
  | arming | publishing | spawning | settling
  | unwinding (answer : Answer)
  | returned (answer : Answer)
  deriving DecidableEq

inductive Attachment where
  | outside | attached | detached

/-- One call of `acquireBond` with its local variables, and the bond it created. The variable
`identityNeedsClose` is set when its deferred function is. `doneCalls` counts the calls of
`OnIdentityDone` with this identity, `published` records `setIdentityForIP`. -/
structure Call where
  bind : BondBind
  stage : Stage := .entry
  ctxDone : Bool := false
  identity : ClientIdentity := {}
  identityNeedsClose : Option Bool := none
  device : Option ClientDevice := none
  config : String := ""
  wgOpen : Bool := false
  bond : Option ServerBond := none
  attachment : Attachment := .outside
  published : Bool := false
  doneCalls : Nat := 0

inductive Shutdown where
  | stored
  | closing (todo : List Nat) (current : Option Nat)
  | returned

structure State where
  bondClosed : Bool := false
  bonds : GoMap BondKey Nat := ∅
  bondClaims : GoMap BondKey String := ∅
  store : DeviceStore := {}
  identitiesByIP : GoMap String ClientIdentity := ∅
  calls : List Call := []
  shutdowns : List Shutdown := []

def Call.key (call : Call) : BondKey := call.bind.key
def Config.notifies (call : Call) : Bool := cfg.onIdentityDone && call.identity.sessionID != ""

/-- One more call of `OnIdentityDone`, where the configuration and the identity ask for it. -/
def Call.notify (call : Call) : Call :=
  { call with doneCalls := call.doneCalls + if cfg.notifies call then 1 else 0 }

namespace State
def modify (s : State) (c : Nat) (f : Call → Call) : State := { s with calls := s.calls.modify c f }

def goto (s : State) (c : Nat) (stage : Stage) : State :=
  s.modify c fun call => { call with stage := stage }

def modifyBond (s : State) (b : Nat) (f : ServerBond → ServerBond) : State :=
  s.modify b fun call => { call with bond := call.bond.map f }

def bondAt (s : State) (b : Nat) : Option ServerBond := (s.calls[b]?).bind (·.bond)

def startClose (s : State) (b : Nat) : Option State :=
  (s.bondAt b).map fun _ => s.modifyBond b ServerBond.startClose

def closeDone (s : State) (b : Nat) : Bool := (s.bondAt b).any fun bond => bond.closeOnce == .done
def stopping (s : State) (call : Call) : Bool := s.bondClosed || call.ctxDone
def errorAnswer (text : String) : Answer := ⟨none, .error, some text⟩

def claimsForDevice (s : State) (deviceID : String) : Nat :=
  s.bondClaims.keys.countP fun key => decide (key.deviceID = deviceID)

def lookupSection (s : State) (c : Nat) (call : Call) : State :=
  match s.bonds.lookup call.key with
  | some b => s.goto c (.matched b)
  | none =>
    match s.bondClaims.lookup call.key with
    | some token =>
      if bondTokenMatches token call.bind.token then
        s.goto c (.unwinding ⟨none, .bindWait, none⟩)
      else s.goto c (.unwinding (errorAnswer "token_mismatch"))
    | none =>
      if !call.bind.wantConfig then s.goto c (.unwinding ⟨none, .bindWait, none⟩)
      else if size s.bonds + size s.bondClaims ≥ bondMaxActiveAndClaims then
        s.goto c (.unwinding (errorAnswer "bond_capacity"))
      else if s.claimsForDevice call.bind.deviceID ≥ bondMaxRunsPerDevice then
        s.goto c (.unwinding ⟨none, .bindWait, some "bond_device_busy"⟩)
      else
        { s.goto c .authenticating with
          bondClaims := s.bondClaims.insert call.key call.bind.token }

def joinAnswer (bind : BondBind) (b : Nat) (owner : Call) (bond : ServerBond) : Answer :=
  if !bondTokenMatches owner.bind.token bind.token then errorAnswer "token_mismatch"
  else if bond.closing then ⟨none, .bindWait, some "bond_device_busy"⟩
  else if bind.wantConfig then ⟨some b, .bindConfig, some owner.config⟩
  else ⟨some b, .bindOK, none⟩

def authenticate (cfg : Config) (s : State) (c : Nat) (call : Call)
    (hook : ClientIdentity × String) : State :=
  let answer := authenticateClient cfg hook call.bind.password
  if answer.2 ≠ "" then s.goto c (.failing ("denied:" ++ answer.2))
  else s.modify c fun call =>
    { call with stage := .authenticated, identity := answer.1, identityNeedsClose := some true }

def retiredKeys (s : State) (keep : BondKey) : List BondKey :=
  s.bonds.keys.filter fun key => decide (key.deviceID = keep.deviceID ∧ key ≠ keep)

/-- The section of `retireDeviceBonds`. The bonds it collects are closed after unlocking. -/
def retireSection (s : State) (c : Nat) (keep : BondKey) : State :=
  let retired := valuesAt s.bonds (s.retiredKeys keep)
  { (retired.foldl (fun t b => t.modifyBond b fun bond => { bond with closing := true }) s).goto c
      (.retiring retired none) with
    bonds := eraseAll s.bonds (s.retiredKeys keep) }

def provision (cfg : Config) (s : State) (c : Nat) (call : Call) (env : Provisioning) : State :=
  match call.bind.localPort with
  | none => s.goto c (.failing "invalid_bind")
  | some port =>
    let result := provisionBondDevice cfg.wg s.store port call.bind.deviceID env
    match result.2 with
    | .error _ => { s.goto c (.failing "provision_failed") with store := result.1 }
    | .ok (dev, config) =>
      { s.modify c fun call =>
          { call with stage := .provisioned, device := some dev, config := config } with
        store := result.1 }

def dropClaim (s : State) (key : BondKey) : State := { s with bondClaims := s.bondClaims.erase key }

def create (s : State) (c : Nat) (stage : Stage) : State :=
  s.modify c fun call => { call with bond := some {}, stage := stage }

def finishBondClaim (s : State) (c : Nat) (call : Call) : State :=
  if s.bondClosed then (s.create c (.lost none)).dropClaim call.key
  else
    match s.bonds.lookup call.key with
    | some existing => (s.create c (.lost (some existing))).dropClaim call.key
    | none => { (s.create c .arming).dropClaim call.key with bonds := s.bonds.insert call.key c }

def lostAnswer (s : State) (call : Call) (winner : Option Nat) : Answer :=
  if s.bondClosed then errorAnswer "server_shutdown"
  else
    match winner.bind fun w => (s.calls[w]?).map fun owner => (w, owner) with
    | some (w, owner) =>
      if bondTokenMatches owner.bind.token call.bind.token then
        ⟨some w, .bindConfig, some owner.config⟩
      else errorAnswer "bond_race"
    | none => errorAnswer "bond_race"

def publish (s : State) (c : Nat) (call : Call) (dev : ClientDevice) : State :=
  let marked := s.modify c fun call => { call with stage := .spawning, published := true }
  if blank dev.ip then marked
  else { marked with identitiesByIP := s.identitiesByIP.insert dev.ip call.identity }

def deleteSection (s : State) (b : Nat) (key : BondKey) : State :=
  if s.bonds.lookup key = some b then { s with bonds := s.bonds.erase key } else s
end State

/-- What the outside decides in one action of `acquireBond`: the hook's answer, the tunnel
device's answers, whether the dial works, which retired bond is closed next. -/
inductive Input where
  | go
  | hook (identity : ClientIdentity) (reason : String)
  | provisioning (env : Provisioning)
  | dial (ok : Bool)
  | pick (b : Nat)

variable (s : State)
def advance (c : Nat) (call : Call) : Stage → Input → Option State
  | .entry, .go =>
    some (s.goto c
      (if s.stopping call then .unwinding (State.errorAnswer "server_shutdown") else .lookup))
  | .lookup, .go => some (s.lookupSection c call)
  | .matched b, .go =>
    (s.calls[b]?).bind fun owner => owner.bond.map fun bond =>
      s.goto c (.unwinding (State.joinAnswer call.bind b owner bond))
  | .authenticating, .hook identity reason => some (s.authenticate cfg c call (identity, reason))
  | .authenticated, .go =>
    some (s.goto c (if s.stopping call then .failing "server_shutdown" else .takeover))
  | .takeover, .go => some (s.retireSection c call.key)
  | .retiring [] none, .go => some (s.goto c .provisioning)
  | .retiring todo none, .pick b =>
    if b ∈ todo then
      (s.startClose b).map fun t => t.goto c (.retiring (todo.erase b) (some b))
    else none
  | .retiring todo (some b), .go =>
    if s.closeDone b then some (s.goto c (.retiring todo none)) else none
  | .provisioning, .provisioning env => some (s.provision cfg c call env)
  | .provisioned, .go =>
    some (s.goto c (if s.stopping call then .failing "server_shutdown" else .dialing))
  | .dialing, .dial ok =>
    if ok then some (s.modify c fun call => { call with stage := .dialed, wgOpen := true })
    else some (s.goto c (.failing "wg_unavailable"))
  | .dialed, .go => some (s.goto c (if s.stopping call then .discarding else .committing))
  | .discarding, .go =>
    some (s.modify c fun call => { call with stage := .failing "server_shutdown", wgOpen := false })
  | .committing, .go => some (s.finishBondClaim c call)
  | .failing text, .go => some ((s.goto c (.unwinding (State.errorAnswer text))).dropClaim call.key)
  | .lost winner, .go => (s.startClose c).map fun t => t.goto c (.lostClosing winner)
  | .lostClosing winner, .go => if s.closeDone c then some (s.goto c (.lostClosed winner)) else none
  | .lostClosed winner, .go => some (s.goto c (.unwinding (s.lostAnswer call winner)))
  | .arming, .go =>
    some ((s.modifyBond c fun bond =>
      { bond with workers := bond.workers.armEmptyCleanupLocked }).goto c .publishing)
  | .publishing, .go => call.device.map fun dev => s.publish c call dev
  | .spawning, .go =>
    some ((s.modifyBond c fun bond => { bond with watcher := .waiting }).goto c .settling)
  | .settling, .go =>
    some (s.modify c fun call =>
      { call with
        stage := .unwinding ⟨some c, .bindConfig, some call.config⟩
        identityNeedsClose := some false })
  | .unwinding answer, .go =>
    some (s.modify c fun call =>
      { if call.identityNeedsClose = some true then call.notify cfg else call with
        stage := .returned answer })
  | _, _ => none

def Call.closeStep (call : Call) (bond : ServerBond) : Option Call :=
  match bond.closeOnce with
  | .fresh => none
  | .cancelling =>
    some { call with bond := some { bond with cancelled := true, closeOnce := .closingSocket } }
  | .closingSocket =>
    some { call with wgOpen := false, bond := some { bond with closeOnce := .locking } }
  | .locking =>
    some { call with
      bond := some { bond with workers := bond.workers.stopCleanup, closeOnce := .notifying } }
  | .notifying => some ({ call with bond := some { bond with closeOnce := .done } }.notify cfg)
  | .done => none

/-- Actions of a bond's own goroutines and timers. `fails` is an error of its reader or
writer. -/
inductive BondLabel where
  | closeStep | fails | watch | watchRemove
  | fire (i : Nat)
  | check (i : Nat)
  | timerClose (i : Nat)
  | timerRemove (i : Nat)

def bondStep (b : Nat) (call : Call) (bond : ServerBond) : BondLabel → Option State
  | .closeStep => (call.closeStep cfg bond).map fun next => s.modify b fun _ => next
  | .fails =>
    if bond.watcher = .absent then none
    else some (s.modifyBond b fun bond => { bond with cancelled := true })
  | .watch =>
    if bond.watcher = .waiting ∧ (bond.cancelled ∨ call.ctxDone) then
      some (s.modifyBond b fun bond => { bond.startClose with watcher := .closing })
    else none
  | .watchRemove =>
    if bond.watcher = .closing ∧ bond.closeOnce = .done then
      some ((s.modifyBond b fun bond => { bond with watcher := .finished }).deleteSection b
        call.key)
    else none
  | .fire i =>
    if bond.workers.timerPhase i = some .armed then
      some (s.modifyBond b fun bond => { bond with workers := bond.workers.setTimer i .fired })
    else none
  | .check i =>
    match bond.workers.timers[i]? with
    | some t =>
      if t.phase = .fired then
        some (s.modifyBond b fun bond => { bond with workers := bond.workers.checkEmpty i t })
      else none
    | none => none
  | .timerClose i =>
    if bond.workers.timerPhase i = some .confirmed then
      some (s.modifyBond b fun bond =>
        { bond.startClose with workers := bond.workers.setTimer i .closing })
    else none
  | .timerRemove i =>
    if bond.workers.timerPhase i = some .closing ∧ bond.closeOnce = .done then
      some ((s.modifyBond b fun bond =>
        { bond with workers := bond.workers.setTimer i .finished }).deleteSection b call.key)
    else none

inductive ShutdownLabel where
  | clear
  | pick (b : Nat)
  | next | finish

def shutdownStep (j : Nat) : Shutdown → ShutdownLabel → Option State
  | .stored, .clear =>
    some { s with
      bonds := ∅
      bondClaims := ∅
      shutdowns := s.shutdowns.set j (.closing (valuesAt s.bonds s.bonds.keys) none) }
  | .closing todo none, .pick b =>
    if b ∈ todo then
      (s.startClose b).map fun t =>
        { t with shutdowns := s.shutdowns.set j (.closing (todo.erase b) (some b)) }
    else none
  | .closing todo (some b), .next =>
    if s.closeDone b then
      some { s with shutdowns := s.shutdowns.set j (.closing todo none) }
    else none
  | .closing [] none, .finish => some { s with shutdowns := s.shutdowns.set j .returned }
  | _, _ => none

inductive Label where
  | acquire (bind : BondBind)
  | cancel (c : Nat)
  | advance (c : Nat) (input : Input)
  | addWorker (c : Nat)
  | removeWorker (c : Nat)
  | bond (b : Nat) (l : BondLabel)
  | shutdown
  | shutdownStep (j : Nat) (l : ShutdownLabel)

def attachStep (c : Nat) (call : Call) : Option State :=
  match call.stage, call.attachment with
  | .returned ⟨some b, _, _⟩, .outside =>
    (s.bondAt b).map fun _ =>
      (s.modifyBond b fun bond =>
        { bond with
          workers := bond.workers.addWorker call.bind.room call.bind.worker c }).modify c
        fun call => { call with attachment := .attached }
  | _, _ => none

def detachStep (c : Nat) (call : Call) : Option State :=
  match call.stage, call.attachment with
  | .returned ⟨some b, _, _⟩, .attached =>
    (s.bondAt b).map fun _ =>
      (s.modifyBond b fun bond =>
        { bond with
          workers := bond.workers.removeWorker call.bind.room call.bind.worker c }).modify c
        fun call => { call with attachment := .detached }
  | _, _ => none

def step : Label → Option State
  | .acquire bind => some { s with calls := s.calls ++ [{ bind := bind }] }
  | .cancel c => some (s.modify c fun call => { call with ctxDone := true })
  | .advance c input => (s.calls[c]?).bind fun call => advance cfg s c call call.stage input
  | .addWorker c => (s.calls[c]?).bind fun call => attachStep s c call
  | .removeWorker c => (s.calls[c]?).bind fun call => detachStep s c call
  | .bond b l =>
    (s.calls[b]?).bind fun call => call.bond.bind fun bond => bondStep cfg s b call bond l
  | .shutdown => some { s with bondClosed := true, shutdowns := s.shutdowns ++ [.stored] }
  | .shutdownStep j l => (s.shutdowns[j]?).bind fun shutdown => shutdownStep s j shutdown l

variable {cfg s}
namespace Stage
def pending : Stage → Bool
  | .entry | .lookup | .matched _ | .authenticating | .authenticated | .takeover
  | .retiring _ _ | .provisioning | .provisioned | .dialing | .dialed | .discarding
  | .committing | .failing _ => true
  | _ => false

def dialled : Stage → Bool
  | .dialed | .discarding | .committing => true
  | _ => false

def live : Stage → Bool
  | .arming | .publishing | .spawning | .settling => true
  | _ => false

def defeated : Stage → Bool
  | .lost _ | .lostClosing _ | .lostClosed _ => true
  | _ => false

def leaving : Stage → Bool
  | .unwinding _ => true
  | _ => false

def ended : Stage → Bool
  | .unwinding _ | .returned _ => true
  | _ => false

variable {stage : Stage}
lemma not_ended_of_pending (h : stage.pending = true) : stage.ended = false := by
  cases stage <;> simp_all [pending, ended]

lemma not_ended_of_defeated (h : stage.defeated = true) : stage.ended = false := by
  cases stage <;> simp_all [defeated, ended]

lemma not_pending_of_defeated (h : stage.defeated = true) : stage.pending = false := by
  cases stage <;> simp_all [defeated, pending]

lemma not_pending_of_leaving (h : stage.leaving = true) : stage.pending = false := by
  cases stage <;> simp_all [leaving, pending]
end Stage
variable {call : Call}
lemma Call.closeStep_frame {next} {bond : ServerBond}
    (moved : call.closeStep cfg bond = some next) :
    next.bind = call.bind ∧ next.stage = call.stage ∧
      next.identityNeedsClose = call.identityNeedsClose ∧ next.identity = call.identity ∧
      next.device = call.device ∧ next.published = call.published := by
  unfold Call.closeStep at moved
  split at moved
  · cases moved
  all_goals first
    | (cases moved; exact ⟨rfl, rfl, rfl, rfl, rfl, rfl⟩)
    | cases moved

/-- What an action does to the workers of a bond. Only `addWorker` depends on who acts. -/
inductive PoolStep (s : State) (l : Label) (b : Nat) (bond : ServerBond) : Workers → Prop where
  | same : PoolStep s l b bond bond.workers
  | arm : PoolStep s l b bond bond.workers.armEmptyCleanupLocked
  | add (c : Nat) (call : Call) (label : l = .addWorker c) (caller : s.calls[c]? = some call)
      (target : ∃ type payload, call.stage = .returned ⟨some b, type, payload⟩)
      (found : s.bondAt b = some bond) (room worker : Int) :
      PoolStep s l b bond (bond.workers.addWorker room worker c)
  | remove (room worker : Int) (id : Nat) :
      PoolStep s l b bond (bond.workers.removeWorker room worker id)
  | fire (i : Nat) : PoolStep s l b bond (bond.workers.setTimer i .fired)
  | check (i : Nat) (t : CleanupTimer) : PoolStep s l b bond (bond.workers.checkEmpty i t)
  | close (i : Nat) (confirmed : bond.workers.timerPhase i = some .confirmed) :
      PoolStep s l b bond (bond.workers.setTimer i .closing)
  | finish (i : Nat) : PoolStep s l b bond (bond.workers.setTimer i .finished)

structure Touches (s : State) (l : Label) (b : Nat) (bond next : ServerBond) : Prop where
  once : next.closeOnce = bond.closeOnce ∨ (bond.closeOnce = .fresh ∧ next.closeOnce = .cancelling)
  pool : PoolStep s l b bond next.workers

inductive Changes (cfg : Config) (s : State) (l : Label) (i : Nat) : Call → Call → Prop where
  | move (call : Call) (stage : Stage) (before : call.stage.pending = true)
      (after : stage.pending = true ∨ stage.leaving = true)
      (socket : call.stage.dialled = stage.dialled) :
      Changes cfg s l i call { call with stage := stage }
  | identify (call : Call) (identity : ClientIdentity) (before : call.stage = .authenticating) :
      Changes cfg s l i call
        { call with
          stage := .authenticated, identity := identity, identityNeedsClose := some true }
  | equip (call : Call) (dev : ClientDevice) (config : String) (env : Provisioning)
      (before : call.stage = .provisioning) (label : l = .advance i (.provisioning env))
      (recorded : s.calls[i]? = some call) :
      Changes cfg s l i call
        { call with stage := .provisioned, device := some dev, config := config }
  | dial (call : Call) (before : call.stage = .dialing) :
      Changes cfg s l i call { call with stage := .dialed, wgOpen := true }
  | discard (call : Call) (text : String) (before : call.stage = .discarding) :
      Changes cfg s l i call { call with stage := .failing text, wgOpen := false }
  | commit (call : Call) (before : call.stage = .committing) (label : l = .advance i .go)
      (working : s.bondClosed = false) (absent : s.bonds.lookup call.key = none) :
      Changes cfg s l i call { call with bond := some {}, stage := .arming }
  | lose (call : Call) (winner : Option Nat) (before : call.stage = .committing)
      (label : l = .advance i .go) (recorded : s.calls[i]? = some call)
      (late : s.bondClosed = true ∨ s.bonds.lookup call.key ≠ none) :
      Changes cfg s l i call { call with bond := some {}, stage := .lost winner }
  | concede (call : Call) (stage : Stage) (before : call.stage.defeated = true)
      (after : stage.defeated = true ∨ stage.leaving = true) :
      Changes cfg s l i call { call with stage := stage }
  | arm (call : Call) (before : call.stage = .arming) :
      Changes cfg s l i call { call with stage := .publishing }
  | publish (call : Call) (dev : ClientDevice) (before : call.stage = .publishing)
      (label : l = .advance i .go) (recorded : s.calls[i]? = some call)
      (device : call.device = some dev) :
      Changes cfg s l i call { call with stage := .spawning, published := true }
  | spawn (call : Call) (before : call.stage = .spawning) :
      Changes cfg s l i call { call with stage := .settling }
  | settle (call : Call) (before : call.stage = .settling) : Changes cfg s l i call
        { call with
          stage := .unwinding ⟨some i, .bindConfig, some call.config⟩
          identityNeedsClose := some false }
  | unwind (call : Call) (answer : Answer) (before : call.stage = .unwinding answer) :
      Changes cfg s l i call
        { if call.identityNeedsClose = some true then call.notify cfg else call with
          stage := .returned answer }
  | touch (call : Call) (bond next : ServerBond) (found : call.bond = some bond)
      (touches : Touches s l i bond next) :
      Changes cfg s l i call { call with bond := some next }
  | closeStep (call next : Call) (bond : ServerBond) (found : call.bond = some bond)
      (moved : call.closeStep cfg bond = some next) : Changes cfg s l i call next
  | cancel (call : Call) : Changes cfg s l i call { call with ctxDone := true }
  | attach (call : Call) (attachment : Attachment) :
      Changes cfg s l i call { call with attachment := attachment }

structure Evolves (cfg : Config) (s : State) (l : Label) (t : State) : Prop where
  length : t.calls.length = s.calls.length
  path : ∀ i call, s.calls[i]? = some call →
    ∃ call', t.calls[i]? = some call' ∧ Relation.ReflTransGen (Changes cfg s l i) call call'

variable {t : State} {l : Label}
lemma State.calls_modify (s : State) (c i : Nat) (f : Call → Call) :
    (s.modify c f).calls[i]? = (s.calls[i]?).map fun call => if c = i then f call else call := by
  rw [State.modify, List.getElem?_modify]
  split_ifs with same
  · rfl
  · simp

variable {c : Nat}
lemma State.calls_modify_self (f : Call → Call) (found : s.calls[c]? = some call) :
    (s.modify c f).calls[c]? = some (f call) := by
  simp [State.calls_modify, found]

namespace Evolves
lemma refl : Evolves cfg s l s := ⟨rfl, fun _ call found => ⟨call, found, .refl⟩⟩

lemma congr {t'} (h : Evolves cfg s l t) (calls : t'.calls = t.calls) : Evolves cfg s l t' := by
  refine ⟨by rw [calls, h.length], ?_⟩
  intro i call found
  rw [calls]
  exact h.path i call found

lemma modify {f} (h : Evolves cfg s l t)
    (changes : ∀ call, t.calls[c]? = some call → Changes cfg s l c call (f call)) :
    Evolves cfg s l (t.modify c f) := by
  refine ⟨by rw [State.modify, List.length_modify, h.length], ?_⟩
  intro i call found
  obtain ⟨call', found', path⟩ := h.path i call found
  rw [State.calls_modify, found', map_some]
  refine ⟨_, rfl, ?_⟩
  split_ifs with same
  · subst same
    exact path.tail (changes call' found')
  · exact path

lemma alter {f} (found : s.calls[c]? = some call) (changes : Changes cfg s l c call (f call)) :
    Evolves cfg s l (s.modify c f) := by
  refine refl.modify ?_
  intro call' found'
  rw [found] at found'
  cases found'
  exact changes

lemma modifyBond {b f} (h : Evolves cfg s l t)
    (touches : ∀ bond, t.bondAt b = some bond → Touches s l b bond (f bond)) :
    Evolves cfg s l (t.modifyBond b f) := by
  refine ⟨by rw [State.modifyBond, State.modify, List.length_modify, h.length], ?_⟩
  intro i call found
  obtain ⟨call', found', path⟩ := h.path i call found
  rw [State.modifyBond, State.calls_modify, found', map_some]
  refine ⟨_, rfl, ?_⟩
  split_ifs with same
  · subst same
    cases present : call'.bond with
    | none =>
      have unchanged : { call' with bond := Option.map f none } = call' := by
        rw [map_none, ← present]
      rw [unchanged]
      exact path
    | some bond =>
      have touched := touches bond (by simp [State.bondAt, found', present])
      exact path.tail (.touch call' bond (f bond) present touched)
  · exact path
end Evolves

lemma State.modifyBond_found (b : Nat) (f : ServerBond → ServerBond)
    (found : s.calls[c]? = some call) :
    ∃ call', (s.modifyBond b f).calls[c]? = some call' ∧ call'.stage = call.stage := by
  rw [State.modifyBond, State.calls_modify, found, map_some]
  refine ⟨_, rfl, ?_⟩
  split_ifs <;> rfl

lemma State.mark_found (retired : List Nat) (found : s.calls[c]? = some call) :
    ∃ call', (retired.foldl (fun t b => t.modifyBond b fun bond =>
      { bond with closing := true }) s).calls[c]? = some call' ∧ call'.stage = call.stage := by
  induction retired generalizing s call with
  | nil => exact ⟨call, found, rfl⟩
  | cons b rest ih =>
    obtain ⟨middle, between, stage⟩ :=
      State.modifyBond_found b (fun bond => { bond with closing := true }) found
    obtain ⟨call', found', stage'⟩ := ih between
    exact ⟨call', found', stage'.trans stage⟩

variable {b : Nat}
lemma Evolves.modifyBond_alter {f g} (found : s.calls[c]? = some call)
    (touches : ∀ bond, s.bondAt b = some bond → Touches s l b bond (f bond))
    (changes : ∀ call', call'.stage = call.stage → Changes cfg s l c call' (g call')) :
    Evolves cfg s l ((s.modifyBond b f).modify c g) := by
  refine (Evolves.refl.modifyBond touches).modify ?_
  obtain ⟨moved, located, same⟩ := State.modifyBond_found b f found
  intro call' found'
  rw [located] at found'
  cases found'
  exact changes moved same

lemma touches_startClose (bond : ServerBond) : Touches s l b bond bond.startClose := by
  refine ⟨?_, .same⟩
  unfold ServerBond.startClose
  split_ifs with fresh
  · exact .inr ⟨fresh, rfl⟩
  · exact .inl rfl

lemma State.startClose_eq (moved : s.startClose b = some t) :
    t = s.modifyBond b ServerBond.startClose := by
  obtain ⟨-, -, rfl⟩ := map_eq_some_iff.mp moved
  rfl

lemma Evolves.startClose (moved : s.startClose b = some t) : Evolves cfg s l t := by
  rw [State.startClose_eq moved]
  exact Evolves.refl.modifyBond fun bond _ => touches_startClose bond

lemma Evolves.mark (h : Evolves cfg s l t) (retired : List Nat) :
    Evolves cfg s l (retired.foldl (fun t b => t.modifyBond b fun bond =>
      { bond with closing := true }) t) := by
  induction retired generalizing t with
  | nil => exact h
  | cons b rest ih => exact ih (h.modifyBond fun bond _ => ⟨.inl rfl, .same⟩)

section
variable (found : s.calls[c]? = some call)
include found
lemma Evolves.goto {stage} (before : call.stage.pending = true)
    (after : stage.pending = true ∨ stage.leaving = true)
    (socket : call.stage.dialled = stage.dialled) : Evolves cfg s l (s.goto c stage) :=
  .alter found (.move call stage before after socket)

lemma lookupSection_evolves (stage : call.stage = .lookup) :
    Evolves cfg s l (s.lookupSection c call) := by
  have move : ∀ next : Stage, next.pending = true ∨ next.leaving = true →
      next.dialled = false → Evolves cfg s l (s.goto c next) := by
    intro next after socket
    exact .goto found (by rw [stage]; rfl) after (by rw [stage, socket]; rfl)
  unfold State.lookupSection
  split
  · exact move _ (.inl rfl) rfl
  · split
    · split_ifs <;> exact move _ (.inr rfl) rfl
    · split_ifs
      · exact move _ (.inr rfl) rfl
      · exact move _ (.inr rfl) rfl
      · exact move _ (.inr rfl) rfl
      · exact (move .authenticating (.inl rfl) rfl).congr rfl

lemma finishBondClaim_evolves (stage : call.stage = .committing) :
    Evolves cfg s (.advance c .go) (s.finishBondClaim c call) := by
  have loses : ∀ winner, (s.bondClosed = true ∨ s.bonds.lookup call.key ≠ none) →
      Evolves cfg s (.advance c .go) (s.create c (.lost winner)) := fun winner late =>
    .alter found (.lose call winner stage rfl found late)
  unfold State.finishBondClaim
  split_ifs with closed
  · exact (loses none (.inl closed)).congr rfl
  · split
    · rename_i existing present
      exact (loses (some existing) (.inr (by simp [present]))).congr rfl
    · rename_i absent
      have wins : Evolves cfg s (.advance c .go) (s.create c .arming) :=
        .alter found (.commit call stage rfl (by simpa using closed) absent)
      exact wins.congr rfl

lemma authenticate_evolves (hook : ClientIdentity × String)
    (stage : call.stage = .authenticating) :
    Evolves cfg s l (s.authenticate cfg c call hook) := by
  unfold State.authenticate
  simp only
  split_ifs
  · exact .goto found (by rw [stage]; rfl) (.inl rfl) (by rw [stage]; rfl)
  · exact .alter found (.identify call _ stage)

lemma provision_evolves (env : Provisioning) (stage : call.stage = .provisioning) :
    Evolves cfg s (.advance c (.provisioning env)) (s.provision cfg c call env) := by
  have fails : ∀ text,
      Evolves cfg s (.advance c (.provisioning env)) (s.goto c (.failing text)) := fun text =>
    .goto found (by rw [stage]; rfl) (.inl rfl) (by rw [stage]; rfl)
  unfold State.provision
  split
  · exact fails _
  · simp only
    split
    · exact (fails _).congr rfl
    · rename_i dev config granted
      have equips : Evolves cfg s (.advance c (.provisioning env)) (s.modify c fun call =>
          { call with stage := .provisioned, device := some dev, config := config }) :=
        .alter found (.equip call dev config env stage rfl found)
      exact equips.congr rfl

lemma retireSection_evolves (keep : BondKey) (stage : call.stage = .takeover) :
    Evolves cfg s l (s.retireSection c keep) := by
  refine Evolves.congr ((Evolves.refl.mark _).modify ?_) rfl
  obtain ⟨moved, located, same⟩ := State.mark_found (valuesAt s.bonds (s.retiredKeys keep)) found
  intro call' found'
  rw [located] at found'
  cases found'
  exact .move moved _ (by rw [same, stage]; rfl) (.inl rfl) (by rw [same, stage]; rfl)

lemma publish_evolves {dev} (stage : call.stage = .publishing)
    (device : call.device = some dev) : Evolves cfg s (.advance c .go) (s.publish c call dev) := by
  have marked : Evolves cfg s (.advance c .go)
      (s.modify c fun call => { call with stage := .spawning, published := true }) :=
    .alter found (.publish call dev stage rfl found device)
  unfold State.publish
  split_ifs
  · exact marked
  · exact marked.congr rfl

lemma advance_evolves {input} (moved : advance cfg s c call call.stage input = some t) :
    Evolves cfg s (.advance c input) t := by
  have goto : ∀ {was next : Stage}, call.stage = was → was.pending = true →
      next.pending = true ∨ next.leaving = true → was.dialled = next.dialled →
        Evolves cfg s (.advance c input) (s.goto c next) := by
    rintro _ next rfl before after socket
    exact .goto found before after socket
  unfold advance at moved
  split at moved
  · rename_i stage
    cases moved
    refine goto stage rfl ?_ ?_
    · split_ifs
      · exact .inr rfl
      · exact .inl rfl
    · split_ifs <;> rfl
  · rename_i stage
    cases moved
    exact lookupSection_evolves found stage
  · rename_i b stage
    obtain ⟨owner, -, rest⟩ := bind_eq_some_iff.mp moved
    obtain ⟨bond, -, rfl⟩ := map_eq_some_iff.mp rest
    exact goto stage rfl (.inr rfl) rfl
  · rename_i identity reason stage
    cases moved
    exact authenticate_evolves found _ stage
  · rename_i stage
    cases moved
    refine goto stage rfl (.inl ?_) ?_ <;> split_ifs <;> rfl
  · rename_i stage
    cases moved
    exact retireSection_evolves found _ stage
  · rename_i stage
    cases moved
    exact goto stage rfl (.inl rfl) rfl
  · rename_i todo b stage
    split_ifs at moved
    obtain ⟨u, started, rfl⟩ := map_eq_some_iff.mp moved
    rw [State.startClose_eq started]
    refine .modifyBond_alter found (fun bond _ => touches_startClose bond) ?_
    intro call' same
    exact .move call' _ (by rw [same, stage]; rfl) (.inl rfl) (by rw [same, stage]; rfl)
  · rename_i todo b stage
    split_ifs at moved
    cases moved
    exact goto stage rfl (.inl rfl) rfl
  · rename_i env stage
    cases moved
    exact provision_evolves found env stage
  · rename_i stage
    cases moved
    refine goto stage rfl (.inl ?_) ?_ <;> split_ifs <;> rfl
  · rename_i ok stage
    split_ifs at moved <;> cases moved
    · exact .alter found (.dial call stage)
    · exact goto stage rfl (.inl rfl) rfl
  · rename_i stage
    cases moved
    refine goto stage rfl (.inl ?_) ?_ <;> split_ifs <;> rfl
  · rename_i stage
    cases moved
    exact .alter found (.discard call _ stage)
  · rename_i stage
    cases moved
    exact finishBondClaim_evolves found stage
  · rename_i text stage
    cases moved
    have unwinds : Evolves cfg s (.advance c .go)
        (s.goto c (.unwinding (State.errorAnswer text))) :=
      goto stage rfl (.inr rfl) rfl
    exact unwinds.congr rfl
  · rename_i winner stage
    obtain ⟨u, started, rfl⟩ := map_eq_some_iff.mp moved
    rw [State.startClose_eq started]
    refine .modifyBond_alter found (fun bond _ => touches_startClose bond) ?_
    intro call' same
    exact .concede call' _ (by rw [same, stage]; rfl) (.inl rfl)
  · rename_i winner stage
    split_ifs at moved
    cases moved
    exact .alter found (.concede call _ (by rw [stage]; rfl) (.inl rfl))
  · rename_i winner stage
    cases moved
    exact .alter found (.concede call _ (by rw [stage]; rfl) (.inr rfl))
  · rename_i stage
    cases moved
    exact .modifyBond_alter found (fun bond _ => ⟨.inl rfl, .arm⟩)
      fun call' same => .arm call' (same.trans stage)
  · rename_i stage
    obtain ⟨dev, device, rfl⟩ := map_eq_some_iff.mp moved
    exact publish_evolves found stage device
  · rename_i stage
    cases moved
    exact .modifyBond_alter found (fun bond _ => ⟨.inl rfl, .same⟩)
      fun call' same => .spawn call' (same.trans stage)
  · rename_i stage
    cases moved
    exact .alter found (.settle call stage)
  · rename_i answer stage
    cases moved
    exact .alter found (.unwind call answer stage)
  · cases moved

lemma attachStep_evolves
    (moved : attachStep s c call = some t) : Evolves cfg s (.addWorker c) t := by
  unfold attachStep at moved
  split at moved
  · rename_i b type payload stage attachment
    obtain ⟨bond, present, rfl⟩ := map_eq_some_iff.mp moved
    refine Evolves.modify (Evolves.modifyBond .refl ?_) fun call' _ => .attach call' .attached
    intro bond' present'
    rw [present] at present'
    cases present'
    exact ⟨.inl rfl, .add c call rfl found ⟨type, payload, stage⟩ present _ _⟩
  · cases moved
end

lemma detachStep_evolves (moved : detachStep s c call = some t) : Evolves cfg s l t := by
  unfold detachStep at moved
  split at moved
  · obtain ⟨bond, -, rfl⟩ := map_eq_some_iff.mp moved
    refine Evolves.modify (Evolves.modifyBond .refl ?_) fun call' _ => .attach call' .detached
    intro bond' _
    exact ⟨.inl rfl, .remove _ _ _⟩
  · cases moved

lemma State.deleteSection_calls (s : State) (b : Nat) (key : BondKey) :
    (s.deleteSection b key).calls = s.calls := by
  unfold State.deleteSection
  split_ifs <;> rfl

lemma bondStep_evolves {bond k} (found : s.calls[b]? = some call) (present : call.bond = some bond)
    (moved : bondStep cfg s b call bond k = some t) : Evolves cfg s l t := by
  have touch : ∀ {f : ServerBond → ServerBond}, Touches s l b bond (f bond) →
      Evolves cfg s l (s.modifyBond b f) := by
    intro f touches
    refine Evolves.refl.modifyBond ?_
    intro bond' present'
    simp only [State.bondAt, found, bind_some, present] at present'
    cases present'
    exact touches
  cases k <;> simp only [bondStep] at moved
  case closeStep =>
    obtain ⟨next, stepped, rfl⟩ := map_eq_some_iff.mp moved
    exact .alter found (.closeStep call next bond present stepped)
  case fails =>
    split_ifs at moved
    cases moved
    exact touch ⟨.inl rfl, .same⟩
  case watch =>
    split_ifs at moved
    cases moved
    exact touch ⟨(touches_startClose (s := s) (l := l) (b := b) bond).once, .same⟩
  case watchRemove =>
    split_ifs at moved
    cases moved
    exact (touch (f := fun bond => { bond with watcher := .finished })
      ⟨.inl rfl, .same⟩).congr (State.deleteSection_calls _ _ _)
  case fire i =>
    split_ifs at moved
    cases moved
    exact touch ⟨.inl rfl, .fire i⟩
  case check i =>
    split at moved
    · rename_i timer _
      split_ifs at moved
      cases moved
      exact touch ⟨.inl rfl, .check i timer⟩
    · cases moved
  case timerClose i =>
    split_ifs at moved with confirmed
    cases moved
    exact touch ⟨(touches_startClose (s := s) (l := l) (b := b) bond).once, .close i confirmed⟩
  case timerRemove i =>
    split_ifs at moved
    cases moved
    exact (touch (f := fun bond => { bond with workers := bond.workers.setTimer i .finished })
      ⟨.inl rfl, .finish i⟩).congr (State.deleteSection_calls _ _ _)

lemma shutdownStep_evolves {j shutdown k} (moved : shutdownStep s j shutdown k = some t) :
    Evolves cfg s l t := by
  unfold shutdownStep at moved
  split at moved
  · cases moved
    exact Evolves.refl.congr rfl
  · split_ifs at moved
    obtain ⟨u, started, rfl⟩ := map_eq_some_iff.mp moved
    exact (Evolves.startClose started).congr rfl
  · split_ifs at moved
    cases moved
    exact Evolves.refl.congr rfl
  · cases moved
    exact Evolves.refl.congr rfl
  · cases moved

section
variable (moved : step cfg s l = some t)
include moved
lemma step_evolves :
    (∃ bind, l = .acquire bind ∧ t = { s with calls := s.calls ++ [{ bind := bind }] }) ∨
      Evolves cfg s l t := by
  cases l with
  | acquire bind =>
    cases moved
    exact .inl ⟨bind, rfl, rfl⟩
  | cancel c =>
    cases moved
    exact .inr (Evolves.refl.modify fun call _ => .cancel call)
  | advance c input =>
    obtain ⟨call, found, moved⟩ := bind_eq_some_iff.mp moved
    exact .inr (advance_evolves found moved)
  | addWorker c =>
    obtain ⟨call, found, moved⟩ := bind_eq_some_iff.mp moved
    exact .inr (attachStep_evolves found moved)
  | removeWorker c =>
    obtain ⟨call, found, moved⟩ := bind_eq_some_iff.mp moved
    exact .inr (detachStep_evolves moved)
  | bond b k =>
    obtain ⟨call, found, rest⟩ := bind_eq_some_iff.mp moved
    obtain ⟨bond, present, moved⟩ := bind_eq_some_iff.mp rest
    exact .inr (bondStep_evolves found present moved)
  | shutdown =>
    cases moved
    exact .inr (Evolves.refl.congr rfl)
  | shutdownStep j k =>
    obtain ⟨shutdown, found, moved⟩ := bind_eq_some_iff.mp moved
    exact .inr (shutdownStep_evolves moved)

lemma step_call {i call'} (found : t.calls[i]? = some call') :
    (s.calls[i]? = none ∧ ∃ bind, call' = { bind := bind }) ∨ ∃ call, s.calls[i]? = some call ∧
        Relation.ReflTransGen (Changes cfg s l i) call call' := by
  rcases step_evolves moved with ⟨bind, -, rfl⟩ | evolves
  · rw [List.getElem?_append] at found
    split_ifs at found with inside
    · exact .inr ⟨call', found, .refl⟩
    · refine .inl ⟨List.getElem?_eq_none (by omega), bind, ?_⟩
      rw [List.getElem?_singleton] at found
      split_ifs at found
      exact (some.inj found).symm
  · have inside := (List.getElem?_eq_some_iff.mp found).1
    rw [evolves.length] at inside
    obtain ⟨call'', found', path⟩ := evolves.path i _ (List.getElem?_eq_getElem inside)
    rw [found] at found'
    cases found'
    exact .inr ⟨_, List.getElem?_eq_getElem inside, path⟩

lemma calls_invariant {P : Nat → Call → Prop} (fresh : ∀ i bind, P i { bind := bind })
    (keeps : ∀ i call call', Changes cfg s l i call call' → P i call → P i call')
    (h : ∀ i call, s.calls[i]? = some call → P i call) :
    ∀ i call, t.calls[i]? = some call → P i call := by
  intro i call' found
  rcases step_call moved found with ⟨-, bind, rfl⟩ | ⟨call, before, path⟩
  · exact fresh i bind
  · have start := h i call before
    clear found before
    induction path with
    | refl => exact start
    | tail _ last ih => exact keeps i _ _ last ih
end

structure Shares (cfg : Config) (s : State) (c : Nat) (call : Call) (t : State) : Prop where
  shutdowns : t.shutdowns = s.shutdowns
  bondClosed : t.bondClosed = s.bondClosed
  bonds : ∀ key x, t.bonds.lookup key = some x → s.bonds.lookup key = some x ∨
    (x = c ∧ key = call.key ∧ call.stage = .committing)
  identities : t.identitiesByIP = s.identitiesByIP ∨ ∃ dev, call.stage = .publishing ∧
    call.device = some dev ∧ t.identitiesByIP = s.identitiesByIP.insert dev.ip call.identity
  store : t.store = s.store ∨ ∃ port env, call.stage = .provisioning ∧
    t.store = (provisionBondDevice cfg.wg s.store port call.bind.deviceID env).1

namespace Shares
lemma quiet
    (bonds : ∀ key x, t.bonds.lookup key = some x → s.bonds.lookup key = some x :=
      by exact fun _ _ => id)
    (shutdowns : t.shutdowns = s.shutdowns := by rfl)
    (closed : t.bondClosed = s.bondClosed := by rfl)
    (identities : t.identitiesByIP = s.identitiesByIP := by rfl)
    (store : t.store = s.store := by rfl) : Shares cfg s c call t :=
  ⟨shutdowns, closed, fun key x found => .inl (bonds key x found), .inl identities, .inl store⟩

lemma modify (b : Nat) (f : Call → Call) : Shares cfg s c call (s.modify b f) :=
  quiet

lemma startClose {f} (moved : s.startClose b = some t) (d : Nat) :
    Shares cfg s c call (t.modify d f) := by
  rw [State.startClose_eq moved]
  exact quiet

lemma lookupSection : Shares cfg s c call (s.lookupSection c call) := by
  unfold State.lookupSection
  split
  · exact modify _ _
  · split
    · split_ifs <;> exact modify _ _
    · split_ifs
      · exact modify _ _
      · exact modify _ _
      · exact modify _ _
      · exact quiet

lemma authenticate (hook : ClientIdentity × String) :
    Shares cfg s c call (s.authenticate cfg c call hook) := by
  unfold State.authenticate
  simp only
  split_ifs <;> exact modify _ _

lemma mark_shared (retired : List Nat) :
    let marked := retired.foldl (fun t b => t.modifyBond b fun bond =>
      { bond with closing := true }) s
    marked.shutdowns = s.shutdowns ∧ marked.bondClosed = s.bondClosed ∧
      marked.identitiesByIP = s.identitiesByIP ∧ marked.store = s.store := by
  induction retired generalizing s with
  | nil => exact ⟨rfl, rfl, rfl, rfl⟩
  | cons b rest ih => exact ih (s := s.modifyBond b fun bond => { bond with closing := true })

lemma retireSection (keep : BondKey) : Shares cfg s c call (s.retireSection c keep) := by
  obtain ⟨shutdowns, closed, identities, store⟩ :=
    mark_shared (s := s) (valuesAt s.bonds (s.retiredKeys keep))
  refine quiet ?_ shutdowns closed identities store
  intro key x found
  have found : (eraseAll s.bonds (s.retiredKeys keep)).lookup key = some x := found
  rw [lookup_eraseAll] at found
  split_ifs at found
  exact found

lemma provision (env : Provisioning) (stage : call.stage = .provisioning) :
    Shares cfg s c call (s.provision cfg c call env) := by
  unfold State.provision
  split
  · exact modify _ _
  · rename_i port _
    simp only
    split <;> exact ⟨rfl, rfl, fun _ _ => .inl, .inl rfl, .inr ⟨port, env, stage, rfl⟩⟩

lemma finishBondClaim (stage : call.stage = .committing) :
    Shares cfg s c call (s.finishBondClaim c call) := by
  unfold State.finishBondClaim
  split_ifs
  · exact quiet
  · split
    · exact quiet
    · refine ⟨rfl, rfl, ?_, .inl rfl, .inl rfl⟩
      intro key x found
      rw [lookup_insert] at found
      split_ifs at found with same
      · exact .inr ⟨(some.inj found).symm, same, stage⟩
      · exact .inl found

lemma publish {dev} (stage : call.stage = .publishing) (device : call.device = some dev) :
    Shares cfg s c call (s.publish c call dev) := by
  unfold State.publish
  split_ifs
  · exact modify _ _
  · exact ⟨rfl, rfl, fun _ _ => .inl, .inr ⟨dev, stage, device, rfl⟩, .inl rfl⟩
end Shares

lemma advance_shares {input} (moved : advance cfg s c call call.stage input = some t) :
    Shares cfg s c call t := by
  unfold advance at moved
  split at moved
  · cases moved
    exact .modify _ _
  · cases moved
    exact .lookupSection
  · obtain ⟨owner, -, rest⟩ := bind_eq_some_iff.mp moved
    obtain ⟨bond, -, rfl⟩ := map_eq_some_iff.mp rest
    exact .modify _ _
  · cases moved
    exact .authenticate _
  · cases moved
    exact .modify _ _
  · cases moved
    exact .retireSection _
  · cases moved
    exact .modify _ _
  · split_ifs at moved
    obtain ⟨u, started, rfl⟩ := map_eq_some_iff.mp moved
    exact .startClose started _
  · split_ifs at moved
    cases moved
    exact .modify _ _
  · rename_i env stage
    cases moved
    exact .provision env stage
  · cases moved
    exact .modify _ _
  · split_ifs at moved <;> cases moved <;> exact .modify _ _
  · cases moved
    exact .modify _ _
  · cases moved
    exact .modify _ _
  · rename_i stage
    cases moved
    exact .finishBondClaim stage
  · cases moved
    exact .quiet
  · obtain ⟨u, started, rfl⟩ := map_eq_some_iff.mp moved
    exact .startClose started _
  · split_ifs at moved
    cases moved
    exact .modify _ _
  · cases moved
    exact .modify _ _
  · cases moved
    exact .quiet
  · rename_i stage
    obtain ⟨dev, device, rfl⟩ := map_eq_some_iff.mp moved
    exact .publish stage device
  · cases moved
    exact .quiet
  · cases moved
    exact .modify _ _
  · cases moved
    exact .modify _ _
  · cases moved

/-- The actions of everybody else leave the identities and the devices alone, and put nothing
into the map of bonds. -/
structure Outside (s t : State) : Prop where
  bonds : ∀ key x, t.bonds.lookup key = some x → s.bonds.lookup key = some x
  identities : t.identitiesByIP = s.identitiesByIP
  store : t.store = s.store
  closing : (s.shutdowns ≠ [] → s.bondClosed = true) → t.shutdowns ≠ [] → t.bondClosed = true

namespace Outside
lemma quiet (shutdowns : t.shutdowns = s.shutdowns := by rfl)
    (closed : t.bondClosed = s.bondClosed := by rfl) (bonds : t.bonds = s.bonds := by rfl)
    (identities : t.identitiesByIP = s.identitiesByIP := by rfl)
    (store : t.store = s.store := by rfl) : Outside s t := by
  refine ⟨by simp [bonds], identities, store, ?_⟩
  rw [shutdowns, closed]
  exact id

lemma attachStep (moved : Bonds.attachStep s c call = some t) : Outside s t := by
  unfold Bonds.attachStep at moved
  split at moved
  · obtain ⟨bond, -, rfl⟩ := map_eq_some_iff.mp moved
    exact quiet
  · cases moved

lemma detachStep (moved : Bonds.detachStep s c call = some t) : Outside s t := by
  unfold Bonds.detachStep at moved
  split at moved
  · obtain ⟨bond, -, rfl⟩ := map_eq_some_iff.mp moved
    exact quiet
  · cases moved

lemma deleteSection {u key} (h : Outside s u) : Outside s (u.deleteSection b key) := by
  unfold State.deleteSection
  split_ifs
  · refine { h with bonds := ?_ }
    intro key' x found
    exact h.bonds key' x (lookup_of_erase found)
  · exact h

lemma bondStep {bond k} (moved : Bonds.bondStep cfg s b call bond k = some t) : Outside s t := by
  cases k <;> simp only [Bonds.bondStep] at moved
  case closeStep =>
    obtain ⟨next, -, rfl⟩ := map_eq_some_iff.mp moved
    exact quiet
  case check i =>
    split at moved
    · split_ifs at moved
      cases moved
      exact quiet
    · cases moved
  case watchRemove | timerRemove i =>
    split_ifs at moved
    cases moved
    exact deleteSection quiet
  case fails | watch | fire i | timerClose i =>
    split_ifs at moved
    cases moved
    exact quiet

lemma shutdownStep {j shutdown k} (found : s.shutdowns[j]? = some shutdown)
    (moved : Bonds.shutdownStep s j shutdown k = some t) : Outside s t := by
  have running : s.shutdowns ≠ [] := List.ne_nil_of_mem (List.mem_of_getElem? found)
  unfold Bonds.shutdownStep at moved
  split at moved
  · cases moved
    exact ⟨by simp, rfl, rfl, fun closing _ => closing running⟩
  · split_ifs at moved
    obtain ⟨u, started, rfl⟩ := map_eq_some_iff.mp moved
    rw [State.startClose_eq started]
    exact ⟨fun _ _ => id, rfl, rfl, fun closing _ => closing running⟩
  · split_ifs at moved
    cases moved
    exact ⟨fun _ _ => id, rfl, rfl, fun closing _ => closing running⟩
  · cases moved
    exact ⟨fun _ _ => id, rfl, rfl, fun closing _ => closing running⟩
  · cases moved
end Outside

lemma step_shares (moved : step cfg s l = some t) : Outside s t ∨
    ∃ c input call, l = .advance c input ∧ s.calls[c]? = some call ∧ Shares cfg s c call t := by
  cases l with
  | acquire bind | cancel c =>
    cases moved
    exact .inl .quiet
  | advance c input =>
    obtain ⟨call, found, moved⟩ := bind_eq_some_iff.mp moved
    exact .inr ⟨c, input, call, rfl, found, advance_shares moved⟩
  | addWorker c =>
    obtain ⟨call, found, moved⟩ := bind_eq_some_iff.mp moved
    exact .inl (.attachStep moved)
  | removeWorker c =>
    obtain ⟨call, found, moved⟩ := bind_eq_some_iff.mp moved
    exact .inl (.detachStep moved)
  | bond b k =>
    obtain ⟨call, found, rest⟩ := bind_eq_some_iff.mp moved
    obtain ⟨bond, present, moved⟩ := bind_eq_some_iff.mp rest
    exact .inl (.bondStep moved)
  | shutdown =>
    cases moved
    exact .inl ⟨fun _ _ => id, rfl, rfl, fun _ _ => rfl⟩
  | shutdownStep j k =>
    obtain ⟨shutdown, found, moved⟩ := bind_eq_some_iff.mp moved
    exact .inl (.shutdownStep found moved)

lemma closing_step (h : s.shutdowns ≠ [] → s.bondClosed = true)
    (moved : step cfg s l = some t) : t.shutdowns ≠ [] → t.bondClosed = true := by
  rcases step_shares moved with outside | ⟨c, input, call, -, -, shares⟩
  · exact outside.closing h
  · rw [shares.shutdowns, shares.bondClosed]
    exact h
end Tamizdat.Wgturn.Bonds
