/- source: pkg/tamizdat/fragpoc_dynports.go
   digest: The dynamic ports of FragPoC: opened by load and by the requests of clients. -/

import Tamizdat.Machine.Maps
import Tamizdat.Machine.Runs

set_option autoImplicit false

open List Option
namespace Tamizdat.Server.DynPorts
open Machine.Maps Machine.Runs
def fragPoCSessionsPerPort : Int := 4
def fragPoCScaleDownTicks : Nat := 6
def fragPoCRandomLo : Int := 40000
def fragPoCRandomHi : Int := 60000
def fragPoCListenAttempts : Nat := 8

inductive Mode
  | list | random
deriving DecidableEq

structure Config where
  enabled : Bool
  maxPorts : Int
  mode : Mode
  pool : List Int
  basePort : Int

def Config.candidates (cfg : Config) : List Int :=
  if cfg.mode ≠ .list ∧ cfg.pool = [] then
    (List.range (fragPoCRandomHi - fragPoCRandomLo + 1).toNat).map fun i => fragPoCRandomLo + i
  else cfg.pool

/-- What a running call has still to do: each task starts with its critical section. -/
inductive Task
  | openFixedPort (port : Int)
  | scaleUp (attempted : List Int) (attempts : Nat)
  | scaleDown

/-- `FragPoCPortManager` with the calls of `reconcileOnce`, `RequestPorts`, `scaleUp` and
`scaleDown` that are running. The listeners themselves carry no data here. -/
structure Manager where
  listeners : GoMap Int Unit
  openOrder : List Int
  lowTicks : Nat
  calls : List (List Task)

def NewFragPoCPortManager : Manager where
  listeners := ∅
  openOrder := []
  lowTicks := 0
  calls := []

def ceilDiv (n d : Int) : Int := if n ≤ 0 ∨ d ≤ 0 then 0 else (n + d - 1).tdiv d

def clamp (n lo hi : Int) : Int :=
  if hi < lo then lo else if n < lo then lo else if hi < n then hi else n

def desiredDynamicPorts (sessions max : Int) : Int :=
  if max ≤ 0 then 0 else clamp (ceilDiv sessions fragPoCSessionsPerPort - 1) 0 max

namespace Manager
variable (m : Manager)
def isOpen (port : Int) : Bool := (m.listeners.lookup port).isSome

def opened (port : Int) : Manager :=
  { m with listeners := m.listeners.insert port (), openOrder := m.openOrder ++ [port] }

def openFixedPort (cfg : Config) (m : Manager) (port : Int) (bound : Bool) : Manager :=
  if port = cfg.basePort then m
  else if m.isOpen port then m
  else if bound then m.opened port
  else m

def availableCandidatesLocked (cfg : Config) (m : Manager) (attempted : List Int) : List Int :=
  cfg.candidates.filter fun p => decide (p ≠ cfg.basePort) && !m.isOpen p && !decide (p ∈ attempted)

def scaleUpCandidateLocked (cfg : Config) (m : Manager) (attempted : List Int) (pick : Nat) :
    Option Int :=
  if cfg.maxPorts ≤ 0 ∨ cfg.maxPorts ≤ size m.listeners then none
  else
    match cfg.mode with
    | .list => (m.availableCandidatesLocked cfg attempted).head?
    | .random =>
      (m.availableCandidatesLocked cfg attempted)[
        pick % (m.availableCandidatesLocked cfg attempted).length]?

def scaleUp (cfg : Config) (m : Manager) (attempted : List Int) (attempts pick : Nat)
    (bound : Bool) : Manager × List Task :=
  if attempts < fragPoCListenAttempts then
    match m.scaleUpCandidateLocked cfg attempted pick with
    | none => (m, [])
    | some port =>
      if bound then (m.opened port, []) else (m, [.scaleUp (port :: attempted) (attempts + 1)])
  else (m, [])

def scaleDown : Manager :=
  match m.openOrder.getLast? with
  | none => m
  | some port => { m with listeners := m.listeners.erase port, openOrder := m.openOrder.dropLast }

def reconcileOnce (cfg : Config) (m : Manager) (sessions : Int) : Manager × List Task :=
  let desired := desiredDynamicPorts sessions cfg.maxPorts
  let current : Int := size m.listeners
  if current < desired then
    ({ m with lowTicks := 0 }, List.replicate (desired - current).toNat (.scaleUp [] 0))
  else if desired < current then
    if fragPoCScaleDownTicks ≤ m.lowTicks + 1 then
      ({ m with lowTicks := 0 }, List.replicate (current - desired).toNat .scaleDown)
    else ({ m with lowTicks := m.lowTicks + 1 }, [])
  else ({ m with lowTicks := 0 }, [])

def requestPorts (cfg : Config) (requested : List Int) : List Task :=
  if cfg.enabled then
    (requested.filter fun p => !decide (p < 1 ∨ 65535 < p ∨ p = cfg.basePort)).map .openFixedPort
  else []

def stop : Manager := { m with listeners := ∅, openOrder := [], lowTicks := 0 }

def perform (cfg : Config) (m : Manager) (pick : Nat) (bound : Bool) : Task → Manager × List Task
  | .openFixedPort port => (m.openFixedPort cfg port bound, [])
  | .scaleUp attempted attempts => m.scaleUp cfg attempted attempts pick bound
  | .scaleDown => (m.scaleDown, [])
end Manager

inductive Label
  | reconcileOnce (sessions : Int)
  | requestPorts (requested : List Int)
  | scaleUp | scaleDown
  | act (i pick : Nat) (bound : Bool)
  | stop

def step (cfg : Config) (m : Manager) : Label → Option Manager
  | .reconcileOnce sessions =>
    some { (m.reconcileOnce cfg sessions).1 with
      calls := m.calls ++ [(m.reconcileOnce cfg sessions).2] }
  | .requestPorts requested =>
    some { m with calls := m.calls ++ [Manager.requestPorts cfg requested] }
  | .scaleUp => some { m with calls := m.calls ++ [[.scaleUp [] 0]] }
  | .scaleDown => some { m with calls := m.calls ++ [[.scaleDown]] }
  | .act i pick bound =>
    match m.calls[i]? with
    | some (task :: rest) =>
      some { (m.perform cfg pick bound task).1 with
        calls := m.calls.set i ((m.perform cfg pick bound task).2 ++ rest) }
    | _ => none
  | .stop => some m.stop

/-! ### The policy -/

/-- The open ports as the configuration allows them, and the order list as a list of them. -/
structure Policy (cfg : Config) (m : Manager) : Prop where
  count : size m.listeners ≤ cfg.maxPorts
  pool : ∀ p, m.isOpen p = true → p ∈ cfg.candidates ∧ p ≠ cfg.basePort
  nodup : m.openOrder.Nodup
  order : ∀ p, p ∈ m.openOrder ↔ m.isOpen p = true

/-- A requested port is opened only from the pool and below the cap. -/
def WithinPolicy (cfg : Config) (m : Manager) : Label → Prop
  | .act i _ bound =>
    match m.calls[i]? with
    | some (.openFixedPort port :: _) =>
      port = cfg.basePort ∨ m.isOpen port = true ∨ bound = false ∨
        (port ∈ cfg.candidates ∧ size m.listeners < cfg.maxPorts)
    | _ => True
  | _ => True

instance (cfg : Config) (m : Manager) (l : Label) : Decidable (WithinPolicy cfg m l) := by
  unfold WithinPolicy
  split
  · split <;> infer_instance
  · infer_instance

open Manager (isOpen)

@[simp] lemma isOpen_opened (m : Manager) (port p : Int) :
    (m.opened port).isOpen p = (decide (p = port) || m.isOpen p) := by
  rw [isOpen, Manager.opened, lookup_insert]
  by_cases same : p = port <;> simp [same, isOpen]

variable {cfg : Config} {m m' : Manager} {port : Int}
lemma policy_opened (policy : Policy cfg m) (closed : m.isOpen port = false)
    (allowed : port ∈ cfg.candidates) (apart : port ≠ cfg.basePort)
    (room : size m.listeners < cfg.maxPorts) :
    Policy cfg (m.opened port) where
  count := by
    have absent : m.listeners.lookup port = none := by
      simpa [isOpen] using closed
    rw [Manager.opened, size_insert_of_lookup () absent]
    push_cast
    omega
  pool p found := by
    rw [isOpen_opened, Bool.or_eq_true, decide_eq_true_eq] at found
    rcases found with rfl | old
    · exact ⟨allowed, apart⟩
    · exact policy.pool p old
  nodup := by
    have fresh : port ∉ m.openOrder := fun listed => by
      rw [policy.order, closed] at listed
      cases listed
    exact nodup_append.mpr ⟨policy.nodup, nodup_singleton port,
      fun a old b new same => fresh (by rw [← mem_singleton.mp new, ← same]; exact old)⟩
  order p := by
    rw [isOpen_opened, Bool.or_eq_true, decide_eq_true_eq, ← policy.order]
    simp [Manager.opened, or_comm]

lemma policy_openFixedPort {bound} (policy : Policy cfg m)
    (within : port = cfg.basePort ∨ m.isOpen port = true ∨ bound = false ∨
      (port ∈ cfg.candidates ∧ size m.listeners < cfg.maxPorts)) :
    Policy cfg (m.openFixedPort cfg port bound) := by
  unfold Manager.openFixedPort
  split_ifs with base already binds
  · exact policy
  · exact policy
  · have allowed := ((within.resolve_left base).resolve_left already).resolve_left (by simp [binds])
    exact policy_opened policy (by simpa using already) allowed.1 base allowed.2
  · exact policy

lemma candidate_spec {attempted pick}
    (chosen : m.scaleUpCandidateLocked cfg attempted pick = some port) :
    m.isOpen port = false ∧ port ∈ cfg.candidates ∧ port ≠ cfg.basePort ∧
      size m.listeners < cfg.maxPorts := by
  unfold Manager.scaleUpCandidateLocked at chosen
  split at chosen
  · cases chosen
  · rename_i room
    have member : port ∈ m.availableCandidatesLocked cfg attempted := by
      split at chosen
      · exact mem_of_head? chosen
      · exact mem_of_getElem? chosen
    rw [Manager.availableCandidatesLocked, mem_filter] at member
    simp only [Bool.and_eq_true, decide_eq_true_eq, Bool.not_eq_true'] at member
    exact ⟨member.2.1.2, member.1, member.2.1.1, by omega⟩

lemma policy_scaleUp (policy : Policy cfg m) (attempted : List Int) (attempts pick : Nat)
    (bound : Bool) : Policy cfg (m.scaleUp cfg attempted attempts pick bound).1 := by
  unfold Manager.scaleUp
  split
  · split
    · exact policy
    · rename_i port chosen
      obtain ⟨closed, allowed, apart, room⟩ := candidate_spec chosen
      split
      · exact policy_opened policy closed allowed apart room
      · exact policy
  · exact policy

lemma policy_scaleDown (policy : Policy cfg m) : Policy cfg m.scaleDown := by
  unfold Manager.scaleDown
  split
  · exact policy
  · rename_i port last
    obtain ⟨front, split⟩ := getLast?_eq_some_iff.mp last
    have distinct := policy.nodup
    rw [split, nodup_append] at distinct
    have absent : port ∉ front := fun listed => distinct.2.2 port listed port mem_cons_self rfl
    have isOpen : ∀ p, ({ m with
        listeners := m.listeners.erase port
        openOrder := m.openOrder.dropLast } : Manager).isOpen p =
          (!decide (p = port) && m.isOpen p) := by
      intro p
      rw [Manager.isOpen, lookup_erase]
      by_cases same : p = port <;> simp [same, Manager.isOpen]
    constructor
    · have fewer := size_erase_le m.listeners port
      have count := policy.count
      show (size (m.listeners.erase port) : Int) ≤ cfg.maxPorts
      omega
    · intro p found
      rw [isOpen, Bool.and_eq_true] at found
      exact policy.pool p found.2
    · show m.openOrder.dropLast.Nodup
      rw [split, dropLast_concat]
      exact distinct.1
    · intro p
      have order := policy.order p
      rw [split, mem_append, mem_singleton] at order
      rw [isOpen, Bool.and_eq_true, Bool.not_eq_true', decide_eq_false_iff_not, ← order]
      simp only [split, dropLast_concat]
      constructor
      · exact fun listed => ⟨fun same => absent (same ▸ listed), .inl listed⟩
      · rintro ⟨other, listed | same⟩
        · exact listed
        · exact absurd same other

lemma policy_stop (cap : 0 < cfg.maxPorts) : Policy cfg m.stop where
  count := cap.le
  pool p found := by simp [Manager.stop, isOpen] at found
  nodup := nodup_nil
  order p := by simp [Manager.stop, isOpen]

lemma Policy.of_same (policy : Policy cfg m) (listeners : m'.listeners = m.listeners)
    (order : m'.openOrder = m.openOrder) : Policy cfg m' := by
  have isOpen : ∀ p, m'.isOpen p = m.isOpen p := fun p => by
    rw [Manager.isOpen, Manager.isOpen, listeners]
  constructor
  · rw [listeners]
    exact policy.count
  · intro p found
    exact policy.pool p (isOpen p ▸ found)
  · rw [order]
    exact policy.nodup
  · intro p
    rw [order, isOpen]
    exact policy.order p

lemma reconcileOnce_same (cfg : Config) (m : Manager) (sessions : Int) :
    (m.reconcileOnce cfg sessions).1.listeners = m.listeners ∧
      (m.reconcileOnce cfg sessions).1.openOrder = m.openOrder := by
  dsimp only [Manager.reconcileOnce]
  split_ifs <;> exact ⟨rfl, rfl⟩

lemma policy_step {l} (cap : 0 < cfg.maxPorts) (policy : Policy cfg m)
    (within : WithinPolicy cfg m l) (moved : step cfg m l = some m') : Policy cfg m' := by
  cases l with
  | reconcileOnce sessions =>
    rw [← some.inj moved]
    obtain ⟨listeners, order⟩ := reconcileOnce_same cfg m sessions
    exact policy.of_same listeners order
  | requestPorts requested | scaleUp | scaleDown =>
    rw [← some.inj moved]
    exact policy.of_same rfl rfl
  | act i pick bound =>
    simp only [step] at moved
    split at moved
    · rename_i task rest running
      rw [← some.inj moved]
      refine Policy.of_same (m := (m.perform cfg pick bound task).1) ?_ rfl rfl
      cases task with
      | openFixedPort port =>
        simp only [WithinPolicy, running] at within
        exact policy_openFixedPort policy within
      | scaleUp attempted attempts => exact policy_scaleUp policy attempted attempts pick bound
      | scaleDown => exact policy_scaleDown policy
    · cases moved
  | stop =>
    rw [← some.inj moved]
    exact policy_stop cap

/-- While every requested port is opened from the pool and below the cap only, the open ports stay
within the policy. -/
theorem ports_within_policy {cfg : Config} (cap : 0 < cfg.maxPorts) {ls : List Label}
    {m : Manager} (arrive : run (step cfg) NewFragPoCPortManager ls = some m)
    (within : Meets (step cfg) (WithinPolicy cfg) NewFragPoCPortManager ls) : Policy cfg m := by
  have start : Policy cfg NewFragPoCPortManager := policy_stop (m := NewFragPoCPortManager) cap
  exact invariant_of_meets (policy_step cap) start within arrive

def onePort : Config where
  enabled := true
  maxPorts := 1
  mode := .random
  pool := [41000, 41001]
  basePort := 40000

theorem onePort_within_policy : ∃ m, run (step onePort) NewFragPoCPortManager
        [.reconcileOnce 9, .act 0 1 true, .requestPorts [41001, 22, 40000], .act 1 0 true,
          .act 1 0 false] = some m ∧ m.openOrder = [41001] ∧ Policy onePort m := by
  refine exists_some_and (by decide +kernel) fun m arrive order => ?_
  exact ports_within_policy (by decide) arrive (by decide +kernel)

theorem requested_ports_unchecked :
    (run (step onePort) NewFragPoCPortManager
        [.requestPorts [22, 23], .act 0 0 true, .act 0 0 true]).map
      (fun m => (m.openOrder, decide ((size m.listeners : Int) ≤ onePort.maxPorts),
        decide (22 ∈ onePort.candidates))) = some ([22, 23], false, false) := by
  decide +kernel
end Tamizdat.Server.DynPorts
