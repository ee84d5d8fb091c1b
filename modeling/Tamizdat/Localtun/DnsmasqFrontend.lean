/- source: internal/localtun/selective_linux.go
   digest: The settings of dnsmasq across installs of the frontend and their restore. -/

import Tamizdat.Routing.Rules

set_option autoImplicit false

open List
namespace Tamizdat.Localtun.DnsmasqFrontend
open Routing (Text trimSpace)

/-- `StrictOrder` together with `StrictOrderSet`. -/
structure Snapshot where
  servers : List Text
  strictOrder : Option Text
deriving DecidableEq

/-- What `uci get` shows, and the file `localDNSState`. -/
structure Router where
  servers : List Text
  strictorder : Option Text
  state : Option Snapshot := none
deriving DecidableEq

def address (port : String) : Text := ("127.0.0.1#" ++ port).toList
def managed : List Text := [address "5335", address "65353"]

def uniqueStrings (values : List Text) : List Text :=
  (values.map trimSpace).foldl (fun out value =>
    if value = [] ∨ value ∈ out then out else out ++ [value]) []

def cleanDNSMasqSnapshot (snapshot : Snapshot) : Snapshot :=
  let servers := (uniqueStrings snapshot.servers).filter (· ∉ managed)
  { snapshot with servers := if servers = [] then [address "5053", address "5054"] else servers }

inductive Command
  | writeState (snapshot : Snapshot)
  | deleteServers
  | addServer (server : Text)
  | setStrictorder (value : Text)
  | deleteStrictorder
  | commit | restart | removeState
deriving DecidableEq

namespace Command
def apply (r : Router) : Command → Router
  | .writeState snapshot => { r with state := some snapshot }
  | .deleteServers => { r with servers := [] }
  | .addServer server => { r with servers := r.servers ++ [server] }
  | .setStrictorder value => { r with strictorder := some value }
  | .deleteStrictorder => { r with strictorder := none }
  | .commit | .restart => r
  | .removeState => { r with state := none }

/-- The error of an `optionalCommandOutput` is ignored. -/
def optional : Command → Bool
  | .deleteServers | .deleteStrictorder => true
  | _ => false

end Command

/-- A command that fails, by its timeout for one, may still have been carried out. -/
inductive Outcome
  | done
  | failed (applied : Bool)
deriving DecidableEq

def Outcome.run (o : Outcome) (r : Router) (command : Command) : Router :=
  if o = .failed false then r else command.apply r

/-- Whether the two `uci get`, whose errors are ignored, and the read of the state file succeed,
and what becomes of each command; at the first one with no outcome the install is interrupted. -/
structure Install where
  serversRead : Bool := true
  strictRead : Bool := true
  stateRead : Bool := true
  outcome : Command → Option Outcome

def Install.Reads (i : Install) : Prop := i.serversRead ∧ i.strictRead ∧ i.stateRead

def fields (s : Text) : List Text := (s.splitOnP Machine.Text.isSpace).filter (· ≠ [])

/-- The snapshot that is saved: of the settings, or the one that an interrupted install left.
`uci get` shows a list with blanks between its entries. -/
def taken (r : Router) (i : Install) : Snapshot :=
  cleanDNSMasqSnapshot ((r.state.filter fun saved => i.stateRead ∧ saved.servers ≠ []).getD
    { servers := if i.serversRead then r.servers.flatMap fields else []
      strictOrder := if i.strictRead then r.strictorder.map trimSpace else none })

def perform (outcome : Command → Option Outcome) : List Command → Router → Router
  | [], r => r
  | command :: rest, r =>
    match outcome command with
    | none => r
    | some o =>
      if o = .done ∨ command.optional then perform outcome rest (o.run r command)
      else o.run r command

def installDNSMasqFrontend (r : Router) (i : Install) : Router :=
  perform i.outcome [.writeState (taken r i), .deleteServers, .addServer (address "5335"),
    .setStrictorder ['1'], .commit, .restart] r

inductive RestoreError
  | readState | noUpstreamServers
  /-- The errors of these commands, joined. -/
  | commands (failed : List Command)
  | removeState
deriving DecidableEq

def restoreCommands (snapshot : Snapshot) : List Command :=
  .deleteServers :: (uniqueStrings snapshot.servers).map .addServer ++
    [(snapshot.strictOrder.map .setStrictorder).getD .deleteStrictorder, .commit, .restart]

def restoreDNSMasqFrontend (stateRead : Bool) (outcome : Command → Outcome) (r : Router) :
    Router × Option RestoreError :=
  match r.state with
  | none => (r, none)
  | some saved =>
    let snapshot := cleanDNSMasqSnapshot saved
    if stateRead = false then (r, some .readState)
    else if snapshot.servers = [] then (r, some .noUpstreamServers)
    else
      let commands := restoreCommands snapshot
      let written := commands.foldl (fun r command => (outcome command).run r command) r
      let failed := commands.filter fun command => !command.optional && outcome command ≠ .done
      if failed ≠ [] then (written, some (.commands failed))
      else ((outcome .removeState).run written .removeState,
        if outcome .removeState = .done then none else some .removeState)

abbrev IsWord (s : Text) : Prop := s ≠ [] ∧ s.any Machine.Text.isSpace = false

/-- Servers that survive the snapshot: at least one, all of them distinct words that are not the
addresses of the frontend. -/
structure Plain (servers : List Text) : Prop where
  some : servers ≠ []
  distinct : servers.Nodup
  words : ∀ server ∈ servers, IsWord server
  foreign : ∀ server ∈ servers, server ∉ managed

section
variable {servers : List Text} {strictorder : Option Text} {r : Router} {i : Install}
  {outcome : Command → Outcome}

lemma map_trimSpace (words : ∀ server ∈ servers, IsWord server) :
    servers.map trimSpace = servers :=
  (map_congr_left fun server member => Machine.Text.trim_solid (words server member).2).trans
    (map_id' servers)

lemma flatMap_fields (words : ∀ server ∈ servers, IsWord server) :
    servers.flatMap fields = servers := by
  have split : ∀ server ∈ servers, fields server = [server] := fun server member => by
    rw [fields, splitOnP_eq_singleton (by simpa using (words server member).2)]
    simp [(words server member).1]
  rw [flatMap_congr split, flatMap_singleton']

lemma isWord_of_mem_fields {s word : Text} (member : word ∈ fields s) : IsWord word := by
  obtain ⟨part, some⟩ := mem_filter.mp member
  refine ⟨by simpa using some, ?_⟩
  clear member some
  induction s generalizing word with
  | nil => simp_all
  | cons c s ih =>
    obtain ⟨first, rest, parts⟩ := exists_cons_of_ne_nil (splitOnP_ne_nil Machine.Text.isSpace s)
    rw [splitOnP_cons_eq_if_modifyHead, parts, modifyHead_cons] at part
    rw [parts] at ih
    split_ifs at part with blank
    · rcases mem_cons.mp part with rfl | later
      · rfl
      · exact ih later
    · rcases mem_cons.mp part with rfl | later
      · rw [any_cons, ih mem_cons_self, Bool.or_false]
        simpa using blank
      · exact ih (mem_cons_of_mem _ later)

lemma uniqueStrings_eq (distinct : servers.Nodup) (words : ∀ server ∈ servers, IsWord server) :
    uniqueStrings servers = servers := by
  rw [uniqueStrings, map_trimSpace words]
  suffices general : ∀ out, (out ++ servers).Nodup → servers.foldl (fun out value =>
        if value = [] ∨ value ∈ out then out else out ++ [value]) out = out ++ servers from
    general [] distinct
  clear distinct
  induction servers with
  | nil => exact fun out _ => (append_nil out).symm
  | cons server rest ih =>
    intro out distinct
    obtain ⟨⟨some, -⟩, others⟩ := forall_mem_cons.mp words
    have fresh : server ∉ out := fun old => (disjoint_of_nodup_append distinct) old mem_cons_self
    rw [foldl_cons, if_neg (by simp [some, fresh]), ih others _ (by simpa using distinct)]
    simp

lemma Plain.clean (plain : Plain servers) :
    cleanDNSMasqSnapshot ⟨servers, strictorder⟩ = ⟨servers, strictorder⟩ := by
  have kept : servers.filter (· ∉ managed) = servers :=
    filter_eq_self.mpr fun server member => by simpa using plain.foreign server member
  simp only [cleanDNSMasqSnapshot, uniqueStrings_eq plain.distinct plain.words, kept,
    if_neg plain.some]

lemma plain_clean {snapshot : Snapshot} (words : ∀ server ∈ snapshot.servers, IsWord server) :
    Plain (cleanDNSMasqSnapshot snapshot).servers := by
  have unique : (uniqueStrings snapshot.servers).Nodup ∧
      ∀ server ∈ uniqueStrings snapshot.servers, IsWord server := by
    rw [uniqueStrings, map_trimSpace words]
    refine foldlRecOn (motive := fun out : List Text => out.Nodup ∧ ∀ s ∈ out, IsWord s) _ _
      ⟨nodup_nil, forall_mem_nil _⟩ ?_
    rintro out ⟨distinct, plain⟩ server member
    split_ifs with old
    · exact ⟨distinct, plain⟩
    · have fresh : server ∉ out := fun earlier => old (.inr earlier)
      exact ⟨nodup_append_comm.mp (nodup_cons.mpr ⟨fresh, distinct⟩),
        forall_mem_append.mpr ⟨plain, forall_mem_singleton.mpr (words server member)⟩⟩
  unfold cleanDNSMasqSnapshot
  dsimp only
  split_ifs with none
  · constructor <;> decide +kernel
  · exact ⟨none, unique.1.filter _, fun server member => unique.2 server (mem_filter.mp member).1,
      fun server member => by simpa using (mem_filter.mp member).2⟩

/-- Nothing has been written yet, or the initial settings are in the state file. -/
def Saved (servers : List Text) (strictorder : Option Text) (r : Router) : Prop :=
  r = ⟨servers, strictorder, none⟩ ∨ r.state = some ⟨servers, strictorder⟩

lemma Saved.taken (plain : Plain servers) (order : strictorder.map trimSpace = strictorder)
    (saved : Saved servers strictorder r) (read : i.Reads) :
    taken r i = ⟨servers, strictorder⟩ := by
  obtain ⟨readServers, readStrict, readState⟩ := read
  rcases saved with rfl | saved
  · simp only [DnsmasqFrontend.taken, Option.filter_none, Option.getD_none, if_pos readServers,
      if_pos readStrict, flatMap_fields plain.words, order, plain.clean]
  · rw [DnsmasqFrontend.taken, saved, Option.filter_some,
      if_pos (by simpa using ⟨readState, plain.some⟩), Option.getD_some, plain.clean]

lemma perform_state {outcome : Command → Option Outcome} {commands : List Command}
    (frame : ∀ command ∈ commands, ∀ r, (command.apply r).state = r.state) (r : Router) :
    (perform outcome commands r).state = r.state := by
  induction commands generalizing r with
  | nil => rfl
  | cons command rest ih =>
    obtain ⟨first, others⟩ := forall_mem_cons.mp frame
    have one (o : Outcome) : (o.run r command).state = r.state := by
      unfold Outcome.run
      split_ifs
      · rfl
      · exact first r
    unfold perform
    split
    case h_1 => rfl
    case h_2 o _ =>
      split_ifs
      · exact (ih others _).trans (one o)
      · exact one o

/-- Only the first command of an install touches the state file. -/
lemma Saved.install (plain : Plain servers) (order : strictorder.map trimSpace = strictorder)
    (saved : Saved servers strictorder r) (read : i.Reads) :
    Saved servers strictorder (installDNSMasqFrontend r i) := by
  rw [installDNSMasqFrontend, saved.taken plain order read, perform]
  split
  case h_1 => exact saved
  case h_2 o _ =>
    cases o with
    | done => exact .inr (perform_state (by simp [Command.apply]) _)
    | failed applied =>
      cases applied with
      | false => exact saved
      | true => exact .inr rfl

lemma foldl_addServer {added : List Text}
    (done : ∀ server ∈ added, outcome (.addServer server) = .done) (r : Router) :
    (added.map Command.addServer).foldl (fun r command => (outcome command).run r command) r =
      { r with servers := r.servers ++ added } := by
  induction added generalizing r with
  | nil => simp
  | cons server rest ih =>
    obtain ⟨first, others⟩ := forall_mem_cons.mp done
    rw [map_cons, foldl_cons, ih others, first]
    simp [Outcome.run, Command.apply]

/-- Each of the two deletes whose errors a restore ignores is carried out, or there is nothing for
it to delete. -/
def Deletes (strictorder : Option Text) (outcome : Command → Outcome) (r : Router) : Prop :=
  (outcome .deleteServers = .failed false → r.servers = []) ∧
    (strictorder = none → outcome .deleteStrictorder = .failed false → r.strictorder = none)

lemma of_restore_nil {saved : Snapshot} (here : r.state = some saved) {stateRead : Bool}
    {after : Router} (returned : restoreDNSMasqFrontend stateRead outcome r = (after, none)) :
    (∀ command ∈ restoreCommands (cleanDNSMasqSnapshot saved),
      command.optional = false → outcome command = .done) ∧
    after = Command.removeState.apply ((restoreCommands (cleanDNSMasqSnapshot saved)).foldl
      (fun r command => (outcome command).run r command) r) := by
  simp only [restoreDNSMasqFrontend, here] at returned
  split_ifs at returned with unread empty failed removed
  · cases returned
  · cases returned
  · cases returned
  · refine ⟨by simpa [filter_eq_nil_iff] using failed, ?_⟩
    rw [removed] at returned
    exact (Prod.mk.inj returned).1.symm
  · cases returned

lemma restore_saved (plain : Plain servers)
    (saved : r.state = some ⟨servers, strictorder⟩) {stateRead : Bool} {after : Router}
    (returned : restoreDNSMasqFrontend stateRead outcome r = (after, none)) :
    after.state = none ∧ (after.servers = servers ∧ after.strictorder = strictorder ↔
      Deletes strictorder outcome r) := by
  obtain ⟨done, rfl⟩ := of_restore_nil saved returned
  rw [plain.clean] at done ⊢
  have unique := uniqueStrings_eq plain.distinct plain.words
  have added : ∀ server ∈ servers, outcome (.addServer server) = .done := fun server member =>
    done (.addServer server) (by simp [restoreCommands, unique, member]) rfl
  have order : ∀ value, strictorder = some value → outcome (.setStrictorder value) = .done :=
    fun value same => done _ (by simp [restoreCommands, same]) rfl
  simp only [restoreCommands, unique, cons_append, foldl_cons, foldl_append, foldl_nil,
    foldl_addServer added]
  refine ⟨rfl, and_congr ?_ ?_⟩
  · -- what is left of the old servers stands before the restored ones
    have kept : ((outcome .deleteServers).run r .deleteServers).servers = [] ↔
        (outcome .deleteServers = .failed false → r.servers = []) := by
      unfold Outcome.run
      split_ifs with lost <;> simp [lost, Command.apply]
    rw [← kept]
    cases strictorder <;> simp [Outcome.run, Command.apply, apply_ite Router.servers]
  · cases strictorder with
    | none =>
      by_cases lost : outcome .deleteStrictorder = .failed false <;>
        simp [Outcome.run, Command.apply, apply_ite Router.strictorder, lost]
    | some value => simp [Outcome.run, Command.apply, order value rfl]

def complete : Install := { outcome := fun _ => some .done }

/-- The initial settings are plain if and only if after any installs, each of which may fail or be
interrupted in any of its commands, a restore that returns nil removes the state file, and brings
the settings back exactly if what it has to delete is gone. -/
theorem restore_iff_plain (servers : List Text) (strictorder : Option Text) :
    Plain servers ∧ strictorder.map trimSpace = strictorder ↔
      ∀ (installs : List Install) (stateRead : Bool) (outcome : Command → Outcome)
        (r after : Router), (∀ i ∈ installs, i.Reads) →
        installs.foldl installDNSMasqFrontend ⟨servers, strictorder, none⟩ = r →
        restoreDNSMasqFrontend stateRead outcome r = (after, none) →
        after.state = none ∧ (after.servers = servers ∧ after.strictorder = strictorder ↔
          r.state = none ∨ Deletes strictorder outcome r) := by
  constructor
  · rintro ⟨plain, order⟩ installs stateRead outcome r after read before returned
    have saved : Saved servers strictorder r := by
      rw [← before]
      refine foldlRecOn installs _ (.inl rfl) ?_
      exact fun r saved i member => saved.install plain order (read i member)
    rcases saved with rfl | saved
    · cases returned
      simp
    · rw [saved]
      simpa using restore_saved plain saved returned
  · -- one complete install and a restore without an error bring back what was saved
    intro all
    let r := installDNSMasqFrontend ⟨servers, strictorder, none⟩ complete
    have saved : r.state = some (taken ⟨servers, strictorder, none⟩ complete) := rfl
    have plain : Plain (taken ⟨servers, strictorder, none⟩ complete).servers :=
      plain_clean fun server member => by
        obtain ⟨line, -, word⟩ := mem_flatMap.mp member
        exact isWord_of_mem_fields word
    obtain ⟨after, returned⟩ : ∃ after,
        restoreDNSMasqFrontend true (fun _ => .done) r = (after, none) := by
      simp [restoreDNSMasqFrontend, saved, plain.clean, plain.some]
    have deletes (order : Option Text) : Deletes order (fun _ => .done) r := by simp [Deletes]
    obtain ⟨sameServers, sameOrder⟩ := (restore_saved plain saved returned).2.mpr (deletes _)
    obtain ⟨backServers, backOrder⟩ := (all [complete] true _ r after
      (by simp [Install.Reads, complete]) rfl returned).2.mpr (.inr (deletes _))
    exact ⟨sameServers.symm.trans backServers ▸ plain, sameOrder.symm.trans backOrder⟩
end

def unlisted (listed : Option Outcome) : Install where
  outcome := fun c => if c = .addServer (address "5335") then listed else some .done

theorem restore_iff_plain_interrupted : ∃ after,
    restoreDNSMasqFrontend true (fun _ => .done)
        ([unlisted none, unlisted (some (.failed false))].foldl installDNSMasqFrontend
          ⟨[address "53", address "5053"], some ['0'], none⟩) = (after, none) ∧
      after.servers = [address "53", address "5053"] ∧ after.strictorder = some ['0'] := by
  have plain : Plain [address "53", address "5053"] := by
    constructor <;> decide +kernel
  obtain ⟨after, returned⟩ : ∃ after, restoreDNSMasqFrontend true (fun _ => .done)
      ([unlisted none, unlisted (some (.failed false))].foldl installDNSMasqFrontend
        ⟨[address "53", address "5053"], some ['0'], none⟩) = (after, none) :=
    ⟨⟨[address "53", address "5053"], some ['0'], none⟩, by decide +kernel⟩
  refine ⟨after, returned, ((restore_iff_plain _ _).mp ⟨plain, by decide⟩ _ _ _ _ _ ?_ rfl
    returned).2.mpr ?_⟩
  · simp [Install.Reads, unlisted]
  · simp [Deletes]

/-- After one complete install each: no servers, a server twice, and a server of the user's own at
port 5335; then an install that ends before it has read the order; and a restore whose deletes are
not carried out. -/
theorem restore_loses :
    let restored := restoreDNSMasqFrontend true fun _ => .done
    restored (installDNSMasqFrontend ⟨[], none, none⟩ complete) =
        (⟨[address "5053", address "5054"], none, none⟩, none) ∧
      restored (installDNSMasqFrontend ⟨[address "53", address "53"], none, none⟩ complete) =
        (⟨[address "53"], none, none⟩, none) ∧
      restored (installDNSMasqFrontend ⟨[address "5335", address "53"], none, none⟩ complete) =
        (⟨[address "53"], none, none⟩, none) ∧
      restored (installDNSMasqFrontend ⟨[address "53"], some ['1'], none⟩
        { strictRead := false, outcome := fun c => if c.optional then none else some .done }) =
          (⟨[address "53"], none, none⟩, none) ∧
      restoreDNSMasqFrontend true (fun c => if c.optional then .failed false else .done)
        (installDNSMasqFrontend ⟨[address "53"], none, none⟩ complete) =
          (⟨[address "5335", address "53"], some ['1'], none⟩, none) := by
  decide +kernel
end Tamizdat.Localtun.DnsmasqFrontend
