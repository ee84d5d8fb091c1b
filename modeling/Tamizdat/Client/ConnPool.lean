/- source: pkg/tamizdat/connpool.go, h2transport.go, client.go, streamconn.go
   digest: The pool of transports, the slots reserved on them, and the calls that use them. -/

import Tamizdat.Machine.Runs

set_option autoImplicit false

open List Option
namespace Tamizdat.Client
namespace ConnPool

structure Transport where
  activeStreams : Int := 0
  closed : Bool := false
  draining : Bool := false
deriving DecidableEq

/-- `connPool`. A transport is named by the order in which the transports were dialed. -/
structure Pool where
  transports : List Nat
  maxStreams : Int
  minTransports : Int
  maxTransports : Int
  creating : Int
  rotationOverlapAllowance : Int
  roundRobin : Nat
  closed : Bool
  locked : Bool
deriving DecidableEq

def newConnPool (maxStreams minTransports maxTransports rotationOverlapAllowance : Int)
    (softCapped : Bool) : Pool :=
  let min := if minTransports < 1 then 1 else minTransports
  let max := if maxTransports = 0 ∨ maxTransports < min then min else maxTransports
  { transports := [], maxStreams := maxStreams, minTransports := min, maxTransports := max,
    creating := 0,
    rotationOverlapAllowance :=
      if rotationOverlapAllowance < 0 then if max = 1 ∧ softCapped then 1 else 0
      else rotationOverlapAllowance,
    roundRobin := 0, closed := false, locked := false }

/-- `h2StreamRWC`: open, closed with its goroutine still draining the body, or gone. -/
inductive TunnelState
  | opened | closing | gone
deriving DecidableEq

structure Tunnel where
  transport : Nat
  state : TunnelState
deriving DecidableEq

/-- What the calls share: the client's pool, every transport ever dialed, every tunnel ever
opened. -/
structure Shared where
  pool : Pool
  transports : List Transport
  tunnels : List Tunnel
  clientClosed : Bool
deriving DecidableEq

namespace Shared
variable (m : Shared)
def onTransport (t : Nat) (change : Transport → Transport) : Shared :=
  { m with transports := m.transports.modify t change }

def addStreams (t : Nat) (n : Int) : Shared :=
  m.onTransport t fun tr => { tr with activeStreams := tr.activeStreams + n }

def close (t : Nat) : Shared := m.onTransport t fun tr => { tr with closed := true }
def markDraining (t : Nat) : Shared := m.onTransport t fun tr => { tr with draining := true }

def hasDrainingLocked : Bool :=
  m.pool.transports.any fun t => (m.transports[t]?.map (·.draining)).getD false

def capacity : Int :=
  if 0 < m.pool.rotationOverlapAllowance ∧ m.hasDrainingLocked then
    m.pool.maxTransports + m.pool.rotationOverlapAllowance
  else m.pool.maxTransports

def setPool (pool : Pool) : Shared := { m with pool := pool }
def unlock : Shared := m.setPool { m.pool with locked := false }

/-- A successful `createFunc`: its bundle fetch, if it starts one, holds no slot. -/
def dial : Shared := { m with transports := m.transports ++ [{}] }

/-- The end of a tunnel: the slot is given back, and the last one closes a draining transport. -/
def releaseTunnel (t : Nat) : Shared :=
  (m.addStreams t (-1)).onTransport t fun tr =>
    { tr with closed := tr.closed || (tr.activeStreams == 0 && tr.draining) }
end Shared

inductive Choice
  | plain
  /-- The dial or the round trip fails; `dead` says that the outer connection is gone. -/
  | fails (dead : Bool)
  /-- The transport has been idle for longer than `IdleTimeout`. -/
  | idle
deriving DecidableEq

inductive ReserveStage
  | check | add | load
  | cas (cur : Int)
deriving DecidableEq

inductive Reservation
  | runs (stage : ReserveStage)
  | answers (reserved : Bool)

section
variable (m : Shared)
def reserveStreamSlot (t : Nat) : ReserveStage → Option (Shared × Reservation)
  | .check =>
    m.transports[t]?.map fun tr =>
      (m, if tr.closed || tr.draining then .answers false
        else .runs (if m.pool.maxStreams ≤ 0 then .add else .load))
  | .add => m.transports[t]?.map fun _ => (m.addStreams t 1, .answers true)
  | .load =>
    m.transports[t]?.map fun tr =>
      (m, if m.pool.maxStreams ≤ tr.activeStreams then .answers false
        else .runs (.cas tr.activeStreams))
  | .cas cur =>
    m.transports[t]?.map fun tr =>
      if tr.activeStreams = cur then (m.addStreams t 1, .answers true)
      else (m, .runs .check)

inductive Purpose
  | dialContext | dialUDP | bundleRefresh
deriving DecidableEq

inductive GetStage
  | clientOpen | lock
  | scan (start tried : Nat)
  | reserve (start tried t : Nat) (stage : ReserveStage)
  | full
  | prune (todo alive : List Nat) (capacity : Int)
  | wait | create
  | created (dialed : Option Nat)
  | fresh (t : Nat) (stage : ReserveStage)
  | enlist (t : Nat)
  | got (t : Nat)
  | roundTrip (t : Nat)
  | release (t : Nat)
deriving DecidableEq

inductive TopUpStage
  | check | create
  | created (dialed : Option Nat)
  | enlist (t : Nat)
deriving DecidableEq

inductive CleanupStage
  | lock
  | sweep (todo alive : List Nat)
deriving DecidableEq

inductive ResizeStage
  | lock (newMin newMax : Int)
  | enforce (usable : Int) (todo alive : List Nat) (grows : Bool)
deriving DecidableEq

inductive Call
  | get (purpose : Purpose) (stage : GetStage)
  | topUp (stage : TopUpStage)
  | cleanup (stage : CleanupStage)
  | resize (stage : ResizeStage)
  | done
deriving DecidableEq

structure State where
  shared : Shared
  calls : List Call

def advanceScan (purpose : Purpose) (start tried : Nat) : Option (Shared × Call) :=
  if m.pool.transports.length ≤ tried then some (m, .get purpose .full)
  else
    m.pool.transports[(start + tried) % m.pool.transports.length]?.map fun t =>
      (m, .get purpose (.reserve start tried t .check))

def advanceFull (purpose : Purpose) : Shared × Call :=
  if m.capacity ≤ m.pool.transports.length + m.pool.creating then
    if 0 < m.pool.creating then (m.unlock, .get purpose .wait)
    else if m.pool.maxTransports ≠ 1 then (m.unlock, .done)
    else (m, .get purpose (.prune m.pool.transports [] m.capacity))
  else
    (m.setPool { m.pool with creating := m.pool.creating + 1, locked := false },
      .get purpose .create)

def advanceGet (purpose : Purpose) (choice : Choice) : GetStage → Option (Shared × Call)
  | .clientOpen => some (m, if m.clientClosed then .done else .get purpose .lock)
  | .lock =>
    if m.pool.locked then none
    else if m.pool.closed then some (m, .done)
    else
      some (m.setPool { m.pool with locked := true },
        .get purpose (if m.pool.transports = [] then .full
          else .scan (m.pool.roundRobin % m.pool.transports.length) 0))
  | .scan start tried => advanceScan m purpose start tried
  | .reserve start tried t stage =>
    (reserveStreamSlot m t stage).map fun after =>
      match after.2 with
      | .runs stage => (after.1, .get purpose (.reserve start tried t stage))
      | .answers false => (after.1, .get purpose (.scan start (tried + 1)))
      | .answers true =>
        (after.1.setPool
            { m.pool with
              roundRobin := ((start + tried) % m.pool.transports.length + 1) %
                m.pool.transports.length,
              locked := false },
          .get purpose (.got t))
  | .full => some (advanceFull m purpose)
  | .prune (t :: todo) alive capacity =>
    m.transports[t]?.map fun tr =>
      if tr.closed then (m, .get purpose (.prune todo alive capacity))
      else if tr.draining ∧ tr.activeStreams = 0 then
        (m.close t, .get purpose (.prune todo alive capacity))
      else (m, .get purpose (.prune todo (alive ++ [t]) capacity))
  | .prune [] alive capacity =>
    if alive.length ≠ m.pool.transports.length then
      some (m.setPool { m.pool with transports := alive, locked := false },
        if (alive.length : Int) + m.pool.creating < capacity then .get purpose .lock else .done)
    else some (m.unlock, .done)
  | .wait =>
    some (m, match choice with
      | .fails _ => .done
      | _ => .get purpose .lock)
  | .create =>
    match choice with
    | .fails _ => some (m, .get purpose (.created none))
    | _ => some (m.dial, .get purpose (.created (some m.transports.length)))
  | .created dialed =>
    if m.pool.locked then none
    else some (m.setPool { m.pool with creating := m.pool.creating - 1 },
      match dialed with
      | none => .done
      | some t => .get purpose (.fresh t .check))
  | .fresh t stage =>
    (reserveStreamSlot m t stage).map fun after =>
      match after.2 with
      | .runs stage => (after.1, .get purpose (.fresh t stage))
      | .answers false => (after.1.close t, .done)
      | .answers true => (after.1, .get purpose (.enlist t))
  | .enlist t =>
    if m.pool.locked then none
    else if m.pool.closed then some (m.close t, .done)
    else if m.capacity ≤ m.pool.transports.length then some (m.close t, .get purpose .lock)
    else
      some (m.setPool { m.pool with transports := m.pool.transports ++ [t] }, .get purpose (.got t))
  | .got t =>
    match purpose with
    -- `fetchAndApplyBundle` uses the transport, and nobody gives the slot back.
    | .bundleRefresh => some (m, .done)
    | _ =>
      m.transports[t]?.map fun tr =>
        (m, .get purpose (if tr.closed || tr.draining then .release t else .roundTrip t))
  | .roundTrip t =>
    match choice with
    | .fails dead => some (if dead then m.close t else m, .get purpose (.release t))
    | _ => some ({ m with tunnels := m.tunnels ++ [⟨t, .opened⟩] }, .done)
  | .release t => some (m.addStreams t (-1), .done)

def Shared.alive : Nat :=
  (m.pool.transports.filter fun t =>
    (m.transports[t]?.map fun tr => !tr.closed && !tr.draining).getD false).length

def advanceTopUp (choice : Choice) : TopUpStage → Option (Shared × Call)
  | .check =>
    if m.pool.locked then none
    else if m.pool.closed ∨ m.pool.minTransports ≤ m.alive ∨
        m.capacity ≤ m.pool.transports.length + m.pool.creating then some (m, .done)
    else some (m.setPool { m.pool with creating := m.pool.creating + 1 }, .topUp .create)
  | .create =>
    match choice with
    | .fails _ => some (m, .topUp (.created none))
    | _ => some (m.dial, .topUp (.created (some m.transports.length)))
  | .created dialed =>
    if m.pool.locked then none
    else some (m.setPool { m.pool with creating := m.pool.creating - 1 },
      match dialed with
      | none => .done
      | some t => .topUp (.enlist t))
  | .enlist t =>
    if m.pool.locked then none
    else if m.pool.closed ∨ m.capacity ≤ m.pool.transports.length then some (m.close t, .done)
    else some (m.setPool { m.pool with transports := m.pool.transports ++ [t] }, .topUp .check)

def advanceCleanup (choice : Choice) : CleanupStage → Option (Shared × Call)
  | .lock =>
    if m.pool.locked then none
    else some (m.setPool { m.pool with locked := true }, .cleanup (.sweep m.pool.transports []))
  | .sweep (t :: todo) alive =>
    m.transports[t]?.map fun tr =>
      if tr.closed then (m, .cleanup (.sweep todo alive))
      else if tr.draining ∧ tr.activeStreams = 0 then (m.close t, .cleanup (.sweep todo alive))
      else if tr.activeStreams = 0 ∧ choice = .idle then
        (m.close t, .cleanup (.sweep todo alive))
      else (m, .cleanup (.sweep todo (alive ++ [t])))
  | .sweep [] alive => some (m.setPool { m.pool with transports := alive, locked := false }, .done)

def advanceResize : ResizeStage → Option (Shared × Call)
  | .lock newMin newMax =>
    if m.pool.locked then none
    else if m.pool.minTransports = newMin ∧ m.pool.maxTransports = newMax then some (m, .done)
    else
      some (m.setPool
          { m.pool with minTransports := newMin, maxTransports := newMax, locked := true },
        .resize (.enforce 0 (if newMax < m.pool.maxTransports then m.pool.transports else [])
          (if newMax < m.pool.maxTransports then [] else m.pool.transports)
          (m.pool.minTransports < newMin ∨ m.pool.maxTransports < newMax)))
  | .enforce usable (t :: todo) alive grows =>
    m.transports[t]?.map fun tr =>
      if tr.closed then (m, .resize (.enforce usable todo alive grows))
      else if tr.draining then (m, .resize (.enforce usable todo (alive ++ [t]) grows))
      else if usable < m.pool.maxTransports then
        (m, .resize (.enforce (usable + 1) todo (alive ++ [t]) grows))
      else if tr.activeStreams = 0 then
        (m.close t, .resize (.enforce usable todo alive grows))
      else (m.markDraining t, .resize (.enforce usable todo (alive ++ [t]) grows))
  | .enforce _ [] alive grows =>
    some (m.setPool { m.pool with transports := alive, locked := false },
      if grows then .topUp .check else .done)

def advance (choice : Choice) : Call → Option (Shared × Call)
  | .get purpose stage => advanceGet m purpose choice stage
  | .topUp stage => advanceTopUp m choice stage
  | .cleanup stage => advanceCleanup m choice stage
  | .resize stage => advanceResize m stage
  | .done => none

inductive Label
  /-- A call of `DialContext` or `DialUDP`, or a tick of `bundleRefreshLoop`. -/
  | get (purpose : Purpose)
  | topUp | cleanup
  | resize (newMin newMax : Int)
  | move (call : Nat) (choice : Choice)
  | drain (t : Nat)
  | closeTunnel (tunnel : Nat)
  | drained (tunnel : Nat)
  | fastClose (tunnel : Nat)
  | closeClient

def started : Label → Option Call
  | .get .bundleRefresh => some (.get .bundleRefresh .lock)
  | .get purpose => some (.get purpose .clientOpen)
  | .topUp => some (.topUp .check)
  | .cleanup => some (.cleanup .lock)
  | .resize newMin newMax => some (.resize (.lock (max newMin 1) (max newMax (max newMin 1))))
  | _ => none

def Shared.moveTunnel (j : Nat) (old new : TunnelState) : Option Shared :=
  m.tunnels[j]?.bind fun tunnel =>
    if tunnel.state = old then
      let moved := { m with tunnels := m.tunnels.set j { tunnel with state := new } }
      some (if new = .gone then moved.releaseTunnel tunnel.transport else moved)
    else none
end

def step (s : State) : Label → Option State
  | .move i choice =>
    s.calls[i]?.bind fun call =>
      (advance s.shared choice call).map fun after => ⟨after.1, s.calls.set i after.2⟩
  | .drain t => some { s with shared := s.shared.markDraining t }
  | .closeTunnel j => (s.shared.moveTunnel j .opened .closing).map fun m => { s with shared := m }
  | .drained j => (s.shared.moveTunnel j .closing .gone).map fun m => { s with shared := m }
  | .fastClose j => (s.shared.moveTunnel j .opened .gone).map fun m => { s with shared := m }
  | .closeClient =>
    if s.shared.pool.locked then none
    else
      let closed := s.shared.pool.transports.foldl Shared.close s.shared
      some { s with
        shared := { closed.setPool { s.shared.pool with closed := true, transports := [] } with
          clientClosed := true } }
  | label => (started label).map fun call => { s with calls := s.calls ++ [call] }

def State.Quiescent (s : State) : Prop :=
  (∀ call ∈ s.calls, call = .done) ∧ ∀ tunnel ∈ s.shared.tunnels, tunnel.state ≠ .closing
deriving Decidable

def State.initial (pool : Pool) : State := ⟨⟨pool, [], [], false⟩, []⟩
end ConnPool
namespace StreamSlots
open Machine Client.ConnPool
def streamCount (m : Shared) (t : Nat) : Int := (m.transports[t]?.map (·.activeStreams)).getD 0

/-- The slot that a call has reserved and not passed on: for whom, and on which transport. -/
def slotOf : Call → Option (Purpose × Nat)
  | .get purpose (.enlist t) => some (purpose, t)
  | .get purpose (.got t) => some (purpose, t)
  | .get purpose (.roundTrip t) => some (purpose, t)
  | .get purpose (.release t) => some (purpose, t)
  | _ => none

section
variable {m : Shared} {t : Nat}
lemma transports_onTransport (u : Nat) (change : Transport → Transport) :
    (m.onTransport u change).transports[t]? =
      if u = t then m.transports[t]?.map change else m.transports[t]? := by
  rw [Shared.onTransport, getElem?_modify]
  split_ifs <;> simp

lemma streamCount_onTransport {change} (u : Nat)
    (kept : ∀ tr, (change tr).activeStreams = tr.activeStreams) :
    streamCount (m.onTransport u change) t = streamCount m t := by
  rw [streamCount, streamCount, transports_onTransport]
  split_ifs
  · rw [Option.map_map]
    congr 2
    funext tr
    exact kept tr
  · rfl

lemma streamCount_addStreams {u} (present : u < m.transports.length) (n : Int) :
    streamCount (m.addStreams u n) t = streamCount m t + if u = t then n else 0 := by
  rw [streamCount, streamCount, Shared.addStreams, transports_onTransport]
  split_ifs with same
  · subst same
    rw [getElem?_eq_getElem present]
    rfl
  · exact (add_zero _).symm

lemma streamCount_close (u : Nat) : streamCount (m.close u) t = streamCount m t :=
  streamCount_onTransport u fun _ => rfl

lemma streamCount_markDraining (u : Nat) : streamCount (m.markDraining u) t = streamCount m t :=
  streamCount_onTransport u fun _ => rfl

lemma streamCount_dial : streamCount m.dial t = streamCount m t := by
  simp only [streamCount, Shared.dial, Pool.getElem?_snoc]
  split_ifs with fresh
  · rw [fresh, getElem?_eq_none le_rfl]
    rfl
  · rfl

lemma length_onTransport (u : Nat) (change : Transport → Transport) :
    (m.onTransport u change).transports.length = m.transports.length :=
  length_modify _ _ _
end

/-- The condition on a step of a call: a bundle refresh does not get a slot, and a transport that
was dialed for a call finds the pool open and with room for it. -/
def Admits (m : Shared) : Call → Prop
  | .get .bundleRefresh (.reserve _ _ _ .add) => False
  | .get .bundleRefresh (.reserve _ _ t (.cas cur)) => streamCount m t ≠ cur
  | .get .bundleRefresh (.fresh _ .add) => False
  | .get .bundleRefresh (.fresh t (.cas cur)) => streamCount m t ≠ cur
  | .get _ (.enlist _) => m.pool.closed = false ∧ (m.pool.transports.length : Int) < m.capacity
  | _ => True

instance (m : Shared) (call : Call) : Decidable (Admits m call) := by
  unfold Admits
  split <;> infer_instance

inductive Moves (m : Shared) (call : Call) (after : Shared × Call) : Prop
  | keeps (counts : ∀ t, streamCount after.1 t = streamCount m t)
      (tunnels : after.1.tunnels = m.tunnels) (slot : slotOf after.2 = slotOf call)
      (grows : m.transports.length ≤ after.1.transports.length)
  | reserves (purpose : Purpose) (u : Nat) (entitled : purpose ≠ .bundleRefresh)
      (present : u < m.transports.length)
      (counts : ∀ t, streamCount after.1 t = streamCount m t + if u = t then 1 else 0)
      (tunnels : after.1.tunnels = m.tunnels) (free : slotOf call = none)
      (slot : slotOf after.2 = some (purpose, u))
      (grows : m.transports.length ≤ after.1.transports.length)
  | releases (purpose : Purpose) (u : Nat)
      (counts : u < m.transports.length →
        ∀ t, streamCount after.1 t = streamCount m t + if u = t then -1 else 0)
      (tunnels : after.1.tunnels = m.tunnels) (slot : slotOf call = some (purpose, u))
      (free : slotOf after.2 = none) (grows : m.transports.length ≤ after.1.transports.length)
  | opens (purpose : Purpose) (u : Nat) (counts : ∀ t, streamCount after.1 t = streamCount m t)
      (tunnels : after.1.tunnels = m.tunnels ++ [⟨u, .opened⟩])
      (slot : slotOf call = some (purpose, u)) (free : slotOf after.2 = none)
      (grows : m.transports.length ≤ after.1.transports.length)

def Slotless (call : Call) : Prop := ∀ t, slotOf call ≠ some (.bundleRefresh, t)

lemma reserve_counts {m t stage m' result}
    (moved : reserveStreamSlot m t stage = some (m', result)) :
    (result ≠ .answers true ∧ m' = m) ∨
      (result = .answers true ∧ m' = m.addStreams t 1 ∧ t < m.transports.length ∧
        (stage = .add ∨ stage = .cas (streamCount m t))) := by
  obtain ⟨tr, found⟩ : ∃ tr, m.transports[t]? = some tr := by
    cases stage <;> obtain ⟨tr, found, -⟩ := map_eq_some_iff.mp moved <;> exact ⟨tr, found⟩
  have present : t < m.transports.length := lt_of_getElem? found
  cases stage with
  | check | load =>
    simp only [reserveStreamSlot, found, map_some] at moved
    cases moved
    split_ifs <;> simp
  | add =>
    simp only [reserveStreamSlot, found, map_some] at moved
    cases moved
    exact .inr ⟨rfl, rfl, present, .inl rfl⟩
  | cas cur =>
    have counted : streamCount m t = tr.activeStreams := by
      rw [streamCount, found]
      rfl
    simp only [reserveStreamSlot, found, map_some, some.injEq] at moved
    split_ifs at moved with unchanged <;> obtain ⟨rfl, rfl⟩ := Prod.mk.inj moved
    · exact .inr ⟨rfl, rfl, present, .inr (by rw [counted, unchanged])⟩
    · exact .inl ⟨by simp, rfl⟩

lemma moves_of_reserved {purpose t call m} {after : Shared × Call}
    (entitled : purpose ≠ .bundleRefresh)
    (present : t < m.transports.length)
    (transports : after.1.transports = (m.addStreams t 1).transports)
    (tunnels : after.1.tunnels = m.tunnels) (free : slotOf call = none)
    (slot : slotOf after.2 = some (purpose, t)) : Moves m call after := by
  refine .reserves purpose t entitled present ?_ tunnels free slot ?_
  · intro u
    rw [streamCount, transports]
    exact streamCount_addStreams present 1
  · rw [transports]
    exact (length_onTransport _ _).ge
end StreamSlots
end Tamizdat.Client
