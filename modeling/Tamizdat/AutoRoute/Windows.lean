/- source: internal/routing/windows.go
   digest: The host routes of a run, the goroutine that refreshes them, and the cleanup. -/

import Tamizdat.Machine.Runs
import Tamizdat.Routing.Rules

set_option autoImplicit false

open List Option
namespace Tamizdat.AutoRoute
open Machine.Runs (run Meets invariant_of_meets)
open Routing (Text trimSpace)
abbrev Ip := Text

structure Route where
  dest : Ip
  gateway : Ip
deriving DecidableEq

/-- The map of installed routes (nothing when it is nil), the /32 routes this run has added that
are in the table, and whether a write to a nil map has ended the process. -/
structure Routes where
  map : Option (List Ip)
  table : List Route
  panicked : Bool

/-- Which commands of `route.exe` succeed; one that fails changes nothing. -/
structure Outcomes where
  add : Ip → Bool := fun _ => true
  delete : Ip → Bool := fun _ => true

def routeDelete (out : Outcomes) (ip : Ip) (table : List Route) : List Route :=
  if out.delete ip then table.filter fun route => route.dest ≠ ip else table

/-- `refresh` says whether the interval is positive, and `parse` is `net.ParseIP` with `To4`:
nothing for a name, an inner nothing for an IPv6 literal. -/
structure Config where
  selective : Bool
  hosts : List Text
  serverIP : Ip
  serverIPs : List Ip
  tunGateway : Ip
  origGateway : Ip
  refresh : Bool
  parse : Text → Option (Option Ip)
  serverIP_ne : serverIP ≠ []

section
variable (c : Config)
def Config.active : Bool := c.selective || !c.hosts.isEmpty

def Config.gateway : Ip :=
  if c.selective then c.tunGateway else c.origGateway

abbrev Lookup := Text → Option (List Ip)

def insertNew (ip : Ip) (ips : List Ip) : List Ip :=
  if ip ∈ ips then ips else ips ++ [ip]

def addresses (lookup : Lookup) (found : List Ip) (host : Text) : List Ip :=
  let h := trimSpace host
  if h = [] then found
  else match c.parse h with
    | some (some ip) => insertNew ip found
    | some none => found
    | none =>
      match lookup h with
      | none => found
      | some ips =>
        ips.foldl (fun found ip => if ip ∈ c.serverIPs then found else insertNew ip found) found

/-- The loop over the hosts that `refreshSelectiveRoutes` and `refreshBypassRoutes` share. -/
def desired (lookup : Lookup) : List Ip := c.hosts.foldl (addresses c lookup) []

/-- Go reads a nil map as an empty one and panics on a write, here after the route has been added.
-/
def addMissing (out : Outcomes) (gateway : Ip) : List Ip → Routes → Routes
  | [], s => s
  | ip :: rest, s =>
    if ip ∈ s.map.getD [] ∨ out.add ip = false then addMissing out gateway rest s
    else
      match s.map with
      | none => { s with table := ⟨ip, gateway⟩ :: s.table, panicked := true }
      | some installed =>
        addMissing out gateway rest
          { s with map := some (installed ++ [ip]), table := ⟨ip, gateway⟩ :: s.table }

def dropStale (out : Outcomes) (wanted : List Ip) : List Ip → Routes → Routes
  | [], s => s
  | ip :: rest, s =>
    if ip ∈ wanted ∨ out.delete ip = false then dropStale out wanted rest s
    else
      dropStale out wanted rest
        { s with map := s.map.map fun installed => installed.filter (· ≠ ip)
                 table := routeDelete out ip s.table }

def reconcile (out : Outcomes) (gateway : Ip) (wanted : List Ip) (s : Routes) : Routes :=
  let added := addMissing out gateway wanted s
  if added.panicked then added else dropStale out wanted (added.map.getD []) added

structure Round where
  lookup : Lookup
  out : Outcomes := {}

def refresh (s : Routes) (round : Round) : Routes :=
  reconcile round.out c.gateway (desired c round.lookup) s

inductive Refresher
  | waiting | resolving
  | locking (wanted : List Ip)
  | ended
deriving DecidableEq

inductive Cleanup
  | notCalled | awaiting | locking | returned
deriving DecidableEq

/-- `stopMade` says that `selectiveStop` is not nil, `stopped` that it is closed. `defaults` are
the gateways of the default routes. -/
structure State where
  routes : Routes
  refresher : Refresher
  cleanup : Cleanup
  stopMade : Bool
  stopped : Bool
  addedHostRoute : Bool
  addedDefaultRoute : Bool
  defaults : List Ip

/-- What `ConfigureAutoRouting` leaves behind, with its own host route unless one was there before.
-/
def configured (ownsHostRoute : Bool) (first : Round) : State where
  routes :=
    refresh c
      { map := if c.active then some [] else none
        table := if ownsHostRoute then [⟨c.serverIP, c.origGateway⟩] else []
        panicked := false } first
  refresher := if c.refresh && c.active then .waiting else .ended
  cleanup := .notCalled
  stopMade := c.selective || (c.refresh && c.active)
  stopped := false
  addedHostRoute := ownsHostRoute
  addedDefaultRoute := !c.selective
  defaults := if c.selective then [c.origGateway] else [c.origGateway, c.tunGateway]

/-- `cleanup` deletes what the map lists; it sets the map to nil only if there was something. -/
def clearMap (out : Outcomes) (s : Routes) : Routes :=
  match s.map with
  | some (ip :: rest) =>
    { s with map := none
             table := (ip :: rest).foldl (fun table ip => routeDelete out ip table) s.table }
  | _ => s

def anywhere : Ip := "0.0.0.0".toList

def restoreDefaults (out : Outcomes) (defaults : List Ip) : List Ip :=
  let left := if c.tunGateway ≠ [] ∧ out.delete anywhere then defaults.filter (· ≠ c.tunGateway)
    else defaults
  if c.origGateway ≠ [] ∧ c.origGateway ∉ left ∧ out.add anywhere then c.origGateway :: left
  else left

def sweep (out : Outcomes) (st : State) : State :=
  let cleared := clearMap out st.routes
  let table :=
    if st.addedHostRoute ∧ c.serverIP ≠ [] then routeDelete out c.serverIP cleared.table
    else cleared.table
  { st with
    routes := { cleared with table := table }
    cleanup := .returned
    addedHostRoute := if c.serverIP ≠ [] then false else st.addedHostRoute
    addedDefaultRoute := false
    defaults := if st.addedDefaultRoute then restoreDefaults c out st.defaults else st.defaults }

inductive Label
  | tick | stopSeen
  | resolved (lookup : Lookup)
  | reconcile (out : Outcomes := {})
  | callCleanup | doneSeen | timeout
  | sweep (out : Outcomes := {})

/-- Each part that holds the lock is one step. A tick is taken even when the stop channel is
closed, since Go's `select` may choose either. -/
def step (st : State) (l : Label) : Option State :=
  if st.routes.panicked then none
  else match l with
    | .tick => if st.refresher = .waiting then some { st with refresher := .resolving } else none
    | .stopSeen =>
      if st.refresher = .waiting ∧ st.stopped then some { st with refresher := .ended } else none
    | .resolved lookup =>
      if st.refresher = .resolving then
        some { st with refresher := .locking (desired c lookup) }
      else none
    | .reconcile out =>
      match st.refresher with
      | .locking wanted =>
        some { st with
          routes := AutoRoute.reconcile out c.gateway wanted st.routes, refresher := .waiting }
      | _ => none
    | .callCleanup =>
      if st.cleanup = .notCalled then
        some (if st.stopMade then { st with stopped := true, cleanup := .awaiting }
          else { st with cleanup := .locking })
      else none
    | .doneSeen =>
      if st.cleanup = .awaiting ∧ st.refresher = .ended then some { st with cleanup := .locking }
      else none
    | .timeout => if st.cleanup = .awaiting then some { st with cleanup := .locking } else none
    | .sweep out => if st.cleanup = .locking then some (AutoRoute.sweep c out st) else none
end

/-- No refresh takes the lock after the cleanup has held it, and the deletes of the cleanup
succeed. -/
def InTime (st : State) : Label → Prop
  | .reconcile _ => st.cleanup ≠ .returned
  | .sweep out => ∀ route ∈ st.routes.table, out.delete route.dest = true
  | _ => True

instance (st : State) (l : Label) : Decidable (InTime st l) := by
  cases l <;> unfold InTime <;> infer_instance

structure Routes.Covered (own : Ip → Prop) (s : Routes) : Prop where
  calm : s.panicked = false
  made : s.map.isSome
  known : ∀ route ∈ s.table, route.dest ∈ s.map.getD [] ∨ own route.dest

section
variable {c : Config} {s : Routes} {out : Outcomes} {gateway ip : Ip} {wanted : List Ip}
  {lookup : Lookup} {route : Route} {round : Round}

/-- What `dropStale` leaves when it has visited the keys. -/
def stays (out : Outcomes) (wanted keys : List Ip) (ip : Ip) : Bool :=
  ip ∉ keys ∨ ip ∈ wanted ∨ out.delete ip = false

lemma dropStale_eq (keys : List Ip) : dropStale out wanted keys s =
    { s with map := s.map.map (filter (stays out wanted keys))
             table := s.table.filter fun route => stays out wanted keys route.dest } := by
  induction keys generalizing s with
  | nil =>
    have all : filter (stays out wanted []) = id := by funext ips; simp [stays]
    simp [dropStale, all, stays]
  | cons ip rest ih =>
    have visit : stays out wanted (ip :: rest) = fun other =>
        stays out wanted rest other && (other ≠ ip || (ip ∈ wanted ∨ out.delete ip = false)) := by
      funext other
      by_cases visited : other = ip
      · simpa [stays, visited] using .inr
      · simp [stays, visited]
    rw [dropStale, visit]
    split_ifs with skip
    · simp [ih, skip]
    · obtain ⟨stale, works⟩ := not_or.mp skip
      simp [ih, routeDelete, stale, works, List.filter_filter, Function.comp_def]

namespace Routes.Covered
variable {own : Ip → Prop}
lemma addMissing (out : Outcomes) (gateway : Ip) (wanted : List Ip) (covered : s.Covered own) :
    (addMissing out gateway wanted s).Covered own := by
  induction wanted generalizing s with
  | nil => exact covered
  | cons ip rest ih =>
    obtain ⟨installed, made⟩ := isSome_iff_exists.mp covered.made
    have known := covered.known
    rw [made, getD_some] at known
    simp only [AutoRoute.addMissing, made, getD_some]
    split_ifs with skip
    · exact ih covered
    · refine ih ⟨covered.calm, rfl, ?_⟩
      intro route listed
      simp only [getD_some, mem_append, mem_singleton]
      rcases mem_cons.mp listed with rfl | old
      · exact .inl (.inr rfl)
      · exact (known route old).imp .inl id

lemma dropStale (out : Outcomes) (wanted keys : List Ip) (covered : s.Covered own) :
    (dropStale out wanted keys s).Covered own := by
  obtain ⟨installed, made⟩ := isSome_iff_exists.mp covered.made
  rw [dropStale_eq]
  refine ⟨covered.calm, by simp [made], ?_⟩
  intro route left
  obtain ⟨old, kept⟩ := mem_filter.mp left
  have before := covered.known route old
  rw [made, getD_some] at before
  rw [made, map_some, getD_some]
  exact before.imp_left fun inside => mem_filter.mpr ⟨inside, kept⟩

lemma reconcile (out : Outcomes) (gateway : Ip) (wanted : List Ip) (covered : s.Covered own) :
    (reconcile out gateway wanted s).Covered own := by
  have added := covered.addMissing out gateway wanted
  simp only [AutoRoute.reconcile, added.calm, Bool.false_eq_true, if_false]
  exact added.dropStale out wanted _
end Routes.Covered

lemma mem_deleteAll {ips : List Ip} {table : List Route} :
    route ∈ ips.foldl (fun table ip => routeDelete out ip table) table ↔
      route ∈ table ∧ (route.dest ∈ ips → out.delete route.dest = false) := by
  induction ips generalizing table with
  | nil => simp
  | cons ip rest ih =>
    rw [foldl_cons, ih, routeDelete]
    split_ifs with works
    · rw [mem_filter, decide_eq_true_iff]
      grind
    · grind

lemma mem_clearMap : route ∈ (clearMap out s).table ↔
    route ∈ s.table ∧ (route.dest ∈ s.map.getD [] → out.delete route.dest = false) := by
  rw [← mem_deleteAll]
  rcases made : s.map with _ | _ | ⟨ip, rest⟩ <;> simp [clearMap, made]

lemma clearMap_known {own : Ip → Prop}
    (known : ∀ route ∈ s.table, route.dest ∈ s.map.getD [] ∨ own route.dest)
    (works : ∀ route ∈ s.table, out.delete route.dest = true) :
    ∀ route ∈ (clearMap out s).table, route ∈ s.table ∧ own route.dest := by
  intro route listed
  obtain ⟨old, other⟩ := mem_clearMap.mp listed
  refine ⟨old, (known route old).resolve_left fun inside => ?_⟩
  have lost := other inside
  rw [works route old] at lost
  cases lost

lemma clearMap_panicked (out : Outcomes) (s : Routes) :
    (clearMap out s).panicked = s.panicked := by
  unfold clearMap
  split <;> rfl

def OwnHost (c : Config) (st : State) (ip : Ip) : Prop := st.addedHostRoute = true ∧ ip = c.serverIP

structure Tidy (c : Config) (st : State) : Prop where
  calm : st.routes.panicked = false
  made : st.cleanup ≠ .returned → st.routes.map.isSome ∨ st.refresher = .ended
  known : ∀ route ∈ st.routes.table, route.dest ∈ st.routes.map.getD [] ∨ OwnHost c st route.dest
  swept : st.cleanup = .returned → st.routes.table = []

namespace Tidy
variable {st t : State} {l : Label}
lemma configured (c : Config) (ownsHostRoute : Bool) (round : Round) :
    Tidy c (configured c ownsHostRoute round) := by
  -- what the run starts from, before its first refresh
  let first : Routes :=
    { map := if c.active then some [] else none
      table := if ownsHostRoute then [⟨c.serverIP, c.origGateway⟩] else []
      panicked := false }
  have own : ∀ route ∈ first.table, ownsHostRoute = true ∧ route.dest = c.serverIP := by
    intro route listed
    cases ownsHostRoute with
    | true => exact ⟨rfl, by rw [mem_singleton.mp listed]⟩
    | false => cases listed
  cases running : c.active with
  | true =>
    have covered : first.Covered (fun ip => ownsHostRoute = true ∧ ip = c.serverIP) :=
      ⟨rfl, by simp [first, running], fun route listed => .inr (own route listed)⟩
    have after := covered.reconcile round.out c.gateway (desired c round.lookup)
    exact ⟨after.calm, fun _ => .inl after.made, after.known, nofun⟩
  | false =>
    have nobody : c.hosts = [] := by
      simp only [Config.active, Bool.or_eq_false_iff, Bool.not_eq_false',
        List.isEmpty_iff] at running
      exact running.2
    have routes : (AutoRoute.configured c ownsHostRoute round).routes = first := by
      change refresh c first round = first
      simp [refresh, AutoRoute.reconcile, desired, nobody, addMissing, dropStale, first, running]
    refine ⟨by rw [routes], fun _ => .inr ?_, ?_, nofun⟩
    · simp [AutoRoute.configured, running]
    · rw [routes]
      exact fun route listed => .inr (own route listed)

lemma of_frame (tidy : Tidy c st) (routes : t.routes = st.routes)
    (own : t.addedHostRoute = st.addedHostRoute)
    (ended : st.refresher = .ended → t.refresher = .ended)
    (returned : t.cleanup = .returned ↔ st.cleanup = .returned) : Tidy c t := by
  refine ⟨?_, ?_, ?_, ?_⟩
  · rw [routes]
    exact tidy.calm
  · intro early
    rw [routes]
    exact (tidy.made (fun back => early (returned.mpr back))).imp id ended
  · intro route listed
    rw [routes] at listed ⊢
    have known := tidy.known route listed
    unfold OwnHost at known ⊢
    rwa [own]
  · intro back
    rw [routes]
    exact tidy.swept (returned.mp back)

lemma reconcile (tidy : Tidy c st) (inTime : st.cleanup ≠ .returned)
    (going : st.refresher ≠ .ended) :
    Tidy c { st with
      routes := reconcile out c.gateway wanted st.routes, refresher := .waiting } := by
  have made := (tidy.made inTime).resolve_right going
  have before : st.routes.Covered (OwnHost c st) := ⟨tidy.calm, made, tidy.known⟩
  have after := before.reconcile out c.gateway wanted
  exact ⟨after.calm, fun _ => .inl after.made, after.known, fun back => absurd back inTime⟩

lemma sweep (tidy : Tidy c st)
    (works : ∀ route ∈ st.routes.table, out.delete route.dest = true) :
    Tidy c (sweep c out st) := by
  have left := clearMap_known tidy.known works
  have swept : (AutoRoute.sweep c out st).routes.table = [] := by
    rw [eq_nil_iff_forall_not_mem]
    intro route listed
    simp only [AutoRoute.sweep] at listed
    split_ifs at listed with owned
    · have remains : route ∈ [c.serverIP].foldl (fun table ip => routeDelete out ip table)
          (clearMap out st.routes).table := listed
      obtain ⟨kept, other⟩ := mem_deleteAll.mp remains
      obtain ⟨old, -, same⟩ := left route kept
      have lost := other (mem_singleton.mpr same)
      rw [works route old] at lost
      cases lost
    · exact owned ⟨(left route listed).2.1, c.serverIP_ne⟩
  refine ⟨?_, fun early => absurd rfl early, ?_, fun _ => swept⟩
  · exact (clearMap_panicked out st.routes).trans tidy.calm
  · intro route listed
    rw [swept] at listed
    cases listed

lemma step (tidy : Tidy c st) (inTime : InTime st l) (moved : AutoRoute.step c st l = some t) :
    Tidy c t := by
  have moved := (if_neg (Bool.eq_false_iff.mp tidy.calm)).symm.trans moved
  cases l with
  | tick =>
    obtain ⟨waiting, ⟨⟩⟩ := ite_none_right_eq_some.mp moved
    exact tidy.of_frame rfl rfl (fun ended => by rw [waiting] at ended; cases ended) Iff.rfl
  | stopSeen =>
    obtain ⟨-, ⟨⟩⟩ := ite_none_right_eq_some.mp moved
    exact tidy.of_frame rfl rfl (fun _ => rfl) Iff.rfl
  | resolved lookup =>
    obtain ⟨resolving, ⟨⟩⟩ := ite_none_right_eq_some.mp moved
    exact tidy.of_frame rfl rfl (fun ended => by rw [resolving] at ended; cases ended) Iff.rfl
  | reconcile out =>
    dsimp only at moved
    split at moved
    case h_1 wanted locking =>
        obtain ⟨⟩ := moved
        exact tidy.reconcile inTime (by rw [locking]; nofun)
    case h_2 => cases moved
  | callCleanup =>
    obtain ⟨notCalled, ⟨⟩⟩ := ite_none_right_eq_some.mp moved
    split_ifs <;> exact tidy.of_frame rfl rfl id (by simp [notCalled])
  | doneSeen =>
    obtain ⟨⟨awaiting, -⟩, ⟨⟩⟩ := ite_none_right_eq_some.mp moved
    exact tidy.of_frame rfl rfl id (by simp [awaiting])
  | timeout =>
    obtain ⟨awaiting, ⟨⟩⟩ := ite_none_right_eq_some.mp moved
    exact tidy.of_frame rfl rfl id (by simp [awaiting])
  | sweep out =>
    obtain ⟨-, ⟨⟩⟩ := ite_none_right_eq_some.mp moved
    exact tidy.sweep inTime
end Tidy

/-- If no refresh takes the lock after the cleanup, whose deletes succeed, no step writes to a nil
map, and no host route is left once the cleanup has returned. -/
theorem cleanup_final (c : Config) (ownsHostRoute : Bool) (first : Round) (ls : List Label)
    (t : State) (inTime : Meets (step c) InTime (configured c ownsHostRoute first) ls)
    (arrive : run (step c) (configured c ownsHostRoute first) ls = some t) :
    t.routes.panicked = false ∧
      (t.cleanup = .returned → t.refresher = .ended → t.routes.table = []) := by
  have tidy : Tidy c t :=
    invariant_of_meets Tidy.step (Tidy.configured c ownsHostRoute first) inTime arrive
  exact ⟨tidy.calm, fun returned _ => tidy.swept returned⟩

def oneHost : Config where
  selective := true
  hosts := [['h']]
  serverIP := ['s']
  serverIPs := [['s']]
  tunGateway := ['t']
  origGateway := ['g']
  refresh := true
  parse := fun _ => none
  serverIP_ne := by decide

def resolvesTo (ips : List Ip) : Lookup := fun _ => some ips

theorem cleanup_final_refresh_in_time :
    ∃ t, run (step oneHost) (configured oneHost true ⟨resolvesTo [['a']], {}⟩)
        [.tick, .callCleanup, .resolved (resolvesTo [['b']]), .reconcile, .stopSeen, .doneSeen,
          .sweep] = some t ∧
      t.cleanup = .returned ∧ t.refresher = .ended ∧ t.routes.table = [] := by
  refine Machine.Runs.exists_some_of (P := fun t => t.cleanup = .returned ∧ t.refresher = .ended)
    (by decide +kernel) fun t arrive ⟨returned, ended⟩ => ?_
  have final := cleanup_final oneHost true ⟨resolvesTo [['a']], {}⟩ _ t (by decide +kernel) arrive
  exact ⟨returned, ended, final.2 returned ended⟩

/-- A refresh that still resolves when the wait times out writes to the nil map; if the map was
empty, it installs a route that nobody removes. -/
theorem late_refresh_escapes_cleanup :
    (∃ t, run (step oneHost) (configured oneHost false ⟨resolvesTo [['a']], {}⟩)
        [.tick, .callCleanup, .timeout, .sweep, .resolved (resolvesTo [['b']]), .reconcile] =
          some t ∧ t.routes.panicked = true) ∧
    ∃ t, run (step oneHost) (configured oneHost false ⟨fun _ => none, {}⟩)
        [.tick, .callCleanup, .timeout, .sweep, .resolved (resolvesTo [['b']]), .reconcile,
          .stopSeen] = some t ∧
      t.cleanup = .returned ∧ t.refresher = .ended ∧ t.routes.table = [⟨['b'], ['t']⟩] := by
  decide +kernel

/-- An address of the server is only taken from a literal. -/
def Supplies (c : Config) (lookup : Lookup) (ip : Ip) (host : Text) : Prop :=
  trimSpace host ≠ [] ∧ (c.parse (trimSpace host) = some (some ip) ∨
    c.parse (trimSpace host) = none ∧
      ∃ ips, lookup (trimSpace host) = some ips ∧ ip ∈ ips ∧ ip ∉ c.serverIPs)

lemma mem_insertNew {new : Ip} {found : List Ip} :
    ip ∈ insertNew new found ↔ ip ∈ found ∨ ip = new := by
  unfold insertNew
  split_ifs with there
  · exact ⟨.inl, fun either => either.elim id fun same => same ▸ there⟩
  · rw [mem_append, mem_singleton]

lemma mem_resolved {ips found : List Ip} :
    ip ∈ ips.foldl (fun found ip => if ip ∈ c.serverIPs then found else insertNew ip found) found ↔
      ip ∈ found ∨ ip ∈ ips ∧ ip ∉ c.serverIPs := by
  induction ips generalizing found with
  | nil => simp
  | cons new rest ih =>
    rw [foldl_cons, ih, mem_cons]
    split_ifs with served
    · grind
    · rw [mem_insertNew]
      grind

lemma mem_addresses {found : List Ip} {host : Text} :
    ip ∈ addresses c lookup found host ↔ ip ∈ found ∨ Supplies c lookup ip host := by
  unfold addresses Supplies
  by_cases empty : trimSpace host = []
  · simp [empty]
  · simp only [ne_eq, empty, not_false_eq_true, true_and, if_false]
    cases c.parse (trimSpace host) with
    | some literal =>
      cases literal with
      | some new => simp [mem_insertNew, eq_comm]
      | none => simp
    | none =>
      cases lookup (trimSpace host) with
      | none => simp
      | some ips => simp [mem_resolved]

lemma mem_desired : ip ∈ desired c lookup ↔ ∃ host ∈ c.hosts, Supplies c lookup ip host := by
  suffices general : ∀ found : List Ip, ip ∈ c.hosts.foldl (addresses c lookup) found ↔
      ip ∈ found ∨ ∃ host ∈ c.hosts, Supplies c lookup ip host by
    exact (general []).trans (or_iff_right not_mem_nil)
  induction c.hosts with
  | nil => simp
  | cons host rest ih =>
    intro found
    rw [foldl_cons, ih, mem_addresses, exists_mem_cons_iff]
    exact or_assoc

structure Installed (route : Route) (s : Routes) : Prop where
  calm : s.panicked = false
  there : route ∈ s.table
  listed : route.dest ∈ s.map.getD []

namespace Installed
lemma addMissing (here : Installed route s) :
    Installed route (addMissing out gateway wanted s) := by
  induction wanted generalizing s with
  | nil => exact here
  | cons ip rest ih =>
    obtain ⟨calm, there, listed⟩ := here
    unfold AutoRoute.addMissing
    split_ifs with skip
    · exact ih ⟨calm, there, listed⟩
    · cases made : s.map with
      | none => simp [made] at listed
      | some installed =>
        rw [made, getD_some] at listed
        exact ih ⟨calm, mem_cons_of_mem _ there, mem_append_left _ listed⟩

lemma dropStale (here : Installed route s)
    (keep : route.dest ∈ wanted ∨ out.delete route.dest = false) (keys : List Ip) :
    Installed route (dropStale out wanted keys s) := by
  obtain ⟨calm, there, listed⟩ := here
  have kept : stays out wanted keys route.dest = true := by simp [stays, keep]
  rw [dropStale_eq]
  refine ⟨calm, mem_filter.mpr ⟨there, kept⟩, ?_⟩
  cases made : s.map with
  | none => simp [made] at listed
  | some installed =>
    rw [made, getD_some] at listed
    exact mem_filter.mpr ⟨listed, kept⟩
end Installed

lemma routeDelete_subset (ip : Ip) (table : List Route) : routeDelete out ip table ⊆ table := by
  unfold routeDelete
  split_ifs
  · exact fun _ => mem_of_mem_filter
  · exact Subset.refl _

lemma Installed.refresh (c : Config) (round : Round) (here : Installed route s) :
    (round.out.delete route.dest = false ∨ route.dest ∈ desired c round.lookup →
      Installed route (refresh c s round)) ∧
    (¬(round.out.delete route.dest = false ∨ route.dest ∈ desired c round.lookup) →
      route ∉ (refresh c s round).table) := by
  have added : Installed route
      (AutoRoute.addMissing round.out c.gateway (desired c round.lookup) s) := here.addMissing
  unfold AutoRoute.refresh reconcile
  rw [if_neg (by simp [added.calm])]
  refine ⟨fun keep => added.dropStale keep.symm _, fun drop => ?_⟩
  obtain ⟨works, stale⟩ := not_or.mp drop
  rw [dropStale_eq]
  intro left
  have kept := (mem_filter.mp left).2
  simp [stays, added.listed, stale, works] at kept

/-- While the lookup of a name fails, an installed route stays if and only if in each refresh
another host of the list supplies its address, or the delete of the route fails. -/
theorem outage_keeps_iff (c : Config) {h : Text} {rounds : List Round}
    (name : c.parse (trimSpace h) = none) (here : Installed route s)
    (outage : ∀ round ∈ rounds, round.lookup (trimSpace h) = none) :
    (∀ part, part <+: rounds → route ∈ (part.foldl (refresh c) s).table) ↔
      ∀ round ∈ rounds, round.out.delete route.dest = false ∨
        ∃ host ∈ c.hosts, trimSpace host ≠ trimSpace h ∧
          Supplies c round.lookup route.dest host := by
  induction rounds generalizing s with
  | nil => simp [here.there]
  | cons round rest ih =>
    obtain ⟨fails, outage⟩ := forall_mem_cons.mp outage
    -- the name itself supplies nothing
    have others : (∃ host ∈ c.hosts, Supplies c round.lookup route.dest host) ↔
        ∃ host ∈ c.hosts, trimSpace host ≠ trimSpace h ∧
          Supplies c round.lookup route.dest host := by
      refine exists_congr fun host => and_congr_right fun _ => (and_iff_right_of_imp ?_).symm
      rintro ⟨-, supplied⟩ same
      simp [same, name, fails] at supplied
    obtain ⟨keep, drop⟩ := here.refresh c round
    rw [mem_desired, others] at keep drop
    rw [forall_mem_cons]
    constructor
    · intro stays
      have kept := not_imp_not.mp drop (stays [round] (by simp))
      refine ⟨kept, (ih (keep kept) outage).mp fun part inside => ?_⟩
      exact stays (round :: part) ((prefix_cons_inj round).mpr inside)
    · rintro ⟨kept, later⟩ part inside
      rcases prefix_cons_iff.mp inside with rfl | ⟨part, rfl, onward⟩
      · exact here.there
      · exact (ih (keep kept) outage).mpr later part onward

def twoHosts : Config := { oneHost with hosts := [['h'], ['g']] }

def onlyFirstFails (other : Ip) : Round where
  lookup := fun h => if h = ['h'] then none else some [['a'], other]

def sharedRoutes : Routes := (configured twoHosts false ⟨resolvesTo [['a']], {}⟩).routes

theorem outage_keeps_iff_shared :
    ⟨['a'], ['t']⟩ ∈ (refresh twoHosts sharedRoutes (onlyFirstFails ['b'])).table ∧
      ⟨['a'], ['t']⟩ ∈ ([onlyFirstFails ['b'], onlyFirstFails ['c']].foldl (refresh twoHosts)
        sharedRoutes).table := by
  have installed : Installed ⟨['a'], ['t']⟩ sharedRoutes := by constructor <;> decide +kernel
  have stays := (outage_keeps_iff twoHosts (h := ['h']) rfl installed
    (by decide +kernel : ∀ round ∈ [onlyFirstFails ['b'], onlyFirstFails ['c']], _)).mpr ?_
  · exact ⟨stays [onlyFirstFails ['b']] (by simp), stays _ prefix_rfl⟩
  · intro round member
    refine .inr ⟨['g'], by decide, by decide, by decide, .inr ⟨rfl, ?_⟩⟩
    fin_cases member <;> exact ⟨_, rfl, by decide, by decide⟩

theorem failed_lookup_drops :
    (configured oneHost false ⟨resolvesTo [['a']], {}⟩).routes.map = some [['a']] ∧
      ∃ t, run (step oneHost) (configured oneHost false ⟨resolvesTo [['a']], {}⟩)
          [.tick, .resolved fun _ => none, .reconcile] = some t ∧ t.routes.table = [] := by
  decide +kernel

/-- The server's own host route is the only route to one of its addresses. -/
def Pinned (c : Config) (table : List Route) : Prop :=
  ∀ route ∈ table, route.dest ∈ c.serverIPs → route = ⟨c.serverIP, c.origGateway⟩

structure Apart (c : Config) (st : State) : Prop where
  pinned : Pinned c st.routes.table
  wanted : ∀ wanted, st.refresher = .locking wanted → ∀ ip ∈ wanted, ip ∉ c.serverIPs

lemma forall_addMissing {P : Route → Prop} (all : ∀ route ∈ s.table, P route)
    (fresh : ∀ ip ∈ wanted, P ⟨ip, gateway⟩) :
    ∀ route ∈ (addMissing out gateway wanted s).table, P route := by
  induction wanted generalizing s with
  | nil => exact all
  | cons ip rest ih =>
    obtain ⟨new, fresh⟩ := forall_mem_cons.mp fresh
    have both := forall_mem_cons.mpr ⟨new, all⟩
    unfold addMissing
    split_ifs with skip
    · exact ih all fresh
    · split
      · exact both
      · exact ih both fresh

lemma pinned_reconcile (clear : ∀ ip ∈ wanted, ip ∉ c.serverIPs) (pinned : Pinned c s.table) :
    Pinned c (reconcile out gateway wanted s).table := by
  have added : Pinned c (addMissing out gateway wanted s).table :=
    forall_addMissing pinned fun ip member served => absurd served (clear ip member)
  unfold reconcile
  dsimp only
  split_ifs
  · exact added
  · rw [dropStale_eq]
    exact fun route left => added route (mem_of_mem_filter left)

lemma sweep_subset (c : Config) (out : Outcomes) (st : State) :
    (sweep c out st).routes.table ⊆ st.routes.table := by
  have cleared : (clearMap out st.routes).table ⊆ st.routes.table :=
    fun route left => (mem_clearMap.mp left).1
  unfold sweep
  dsimp only
  split_ifs
  · exact fun route left => cleared (routeDelete_subset _ _ left)
  · exact cleared

section
variable {st t : State} {l : Label}
  (literals : ∀ host ∈ c.hosts, ∀ ip ∈ c.serverIPs, c.parse (trimSpace host) ≠ some (some ip))
include literals
lemma desired_clear : ∀ ip ∈ desired c lookup, ip ∉ c.serverIPs := by
  intro ip wanted served
  obtain ⟨host, member, -, literal | ⟨-, ips, -, -, clear⟩⟩ := mem_desired.mp wanted
  · exact literals host member ip served literal
  · exact clear served

lemma apart_step (apart : Apart c st) (moved : step c st l = some t) : Apart c t := by
  obtain ⟨pinned, wanted⟩ := apart
  obtain ⟨-, moved⟩ := ite_none_left_eq_some.mp moved
  cases l with
  | sweep out =>
    obtain ⟨-, ⟨⟩⟩ := ite_none_right_eq_some.mp moved
    exact ⟨fun route left => pinned route (sweep_subset c out st left), wanted⟩
  | resolved lookup =>
    obtain ⟨-, ⟨⟩⟩ := ite_none_right_eq_some.mp moved
    refine ⟨pinned, ?_⟩
    rintro _ ⟨⟩
    exact desired_clear literals
  | reconcile out =>
    dsimp only at moved
    split at moved
    case h_1 found locking =>
        obtain ⟨⟩ := moved
        exact ⟨pinned_reconcile (wanted found locking) pinned, nofun⟩
    case h_2 => cases moved
  | callCleanup =>
    obtain ⟨-, ⟨⟩⟩ := ite_none_right_eq_some.mp moved
    split_ifs <;> exact ⟨pinned, wanted⟩
  | tick | stopSeen =>
    obtain ⟨-, ⟨⟩⟩ := ite_none_right_eq_some.mp moved
    exact ⟨pinned, nofun⟩
  | doneSeen | timeout =>
    obtain ⟨-, ⟨⟩⟩ := ite_none_right_eq_some.mp moved
    exact ⟨pinned, wanted⟩

/-- If no literal of the list is an address of the server, no refresh puts such an address into
the tunnel, whichever commands fail. -/
theorem server_not_tunnelled (ownsHostRoute : Bool) (first : Round) (ls : List Label) (t : State)
    (arrive : run (step c) (configured c ownsHostRoute first) ls = some t) :
    Pinned c t.routes.table := by
  have start : Apart c (configured c ownsHostRoute first) := by
    refine ⟨pinned_reconcile (desired_clear literals) ?_, ?_⟩
    · cases ownsHostRoute <;> simp [Pinned]
    · intro wanted locking
      simp only [configured] at locking
      split_ifs at locking
  exact (Machine.Runs.run_invariant (apart_step literals) start arrive).pinned
end

theorem server_not_tunnelled_resolved :
    ∃ t, run (step oneHost) (configured oneHost true ⟨resolvesTo [['s'], ['a']], {}⟩)
        [.tick, .resolved (resolvesTo [['s'], ['b']]), .reconcile] = some t ∧
      t.routes.map = some [['b']] ∧ Pinned oneHost t.routes.table := by
  refine Machine.Runs.exists_some_of (P := fun t => t.routes.map = some [['b']])
    (by decide +kernel) fun t arrive listed => ⟨listed, ?_⟩
  exact server_not_tunnelled (by simp [oneHost]) true ⟨resolvesTo [['s'], ['a']], {}⟩ _ t arrive

theorem server_literal_tunnelled : ⟨['s'], oneHost.tunGateway⟩ ∈ (configured { oneHost with
      hosts := [['s']], parse := fun h => some (some h) } true
        ⟨fun _ => none, {}⟩).routes.table := by
  decide +kernel
end
end Tamizdat.AutoRoute
