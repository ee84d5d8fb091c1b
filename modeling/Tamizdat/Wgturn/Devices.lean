/- source: internal/wgturn/server.go, internal/wgturn/bond.go, internal/wgturn/conn.go
   digest: The workers of a bond, the device table, and how a bond provisions a device. -/

import Tamizdat.Machine.Maps
import Tamizdat.Machine.Bytes
import Tamizdat.Machine.Text

set_option autoImplicit false

namespace Tamizdat.Wgturn
open Machine.Maps
namespace BondWorkers
open Machine.Word (addW)

/-- The workers of one room. A worker object is named by the connection that created it. -/
structure BondRoom where
  workers : GoMap Int Nat := ∅
  workerOrder : List Int := []

/-- Puts a worker in a slot. The order lists a slot once, when it is first taken. -/
def BondRoom.seat (r : BondRoom) (worker : Int) (id : Nat) : BondRoom where
  workers := r.workers.insert worker id
  workerOrder :=
    if (r.workers.lookup worker).isSome then r.workerOrder
    else (r.workerOrder ++ [worker]).insertionSort (· ≤ ·)

/-- A cleanup timer, from `time.AfterFunc` to the end of its callback. The callback reads the
bond under its lock and calls `removeBond` after unlocking, so `confirmed` is a place where
other goroutines run. -/
inductive TimerPhase where
  | armed | stopped | fired | confirmed | closing | finished
  deriving DecidableEq

structure CleanupTimer where
  gen : Nat
  phase : TimerPhase

/-- The part of `serverBond` that `b.mu` guards and the cleanup reads. -/
structure Workers where
  rooms : GoMap Int BondRoom := ∅
  roomOrder : List Int := []
  workers : Int := 0
  emptyGen : Nat := 0
  timers : List CleanupTimer := []
  cleanupTimer : Option Nat := none

def CleanupTimer.stop (t : CleanupTimer) : CleanupTimer :=
  if t.phase = .armed then { t with phase := .stopped } else t

lemma BondRoom.size_seat (r : BondRoom) (worker : Int) (id : Nat) :
    size (r.seat worker id).workers =
      if (r.workers.lookup worker).isSome then size r.workers else size r.workers + 1 := by
  unfold BondRoom.seat
  split_ifs with taken
  · obtain ⟨old, present⟩ := Option.isSome_iff_exists.mp taken
    exact size_insert_present id present
  · exact size_insert_of_lookup id (by simpa using taken)

namespace Workers
section
variable (w : Workers)
def stopCleanup : Workers :=
  match w.cleanupTimer with
  | none => w
  | some i => { w with timers := w.timers.modify i CleanupTimer.stop, cleanupTimer := none }

def armEmptyCleanupLocked : Workers :=
  if w.workers ≠ 0 then w
  else
    { w.stopCleanup with
      emptyGen := addW 64 w.emptyGen 1
      timers := w.stopCleanup.timers ++ [⟨addW 64 w.emptyGen 1, .armed⟩]
      cleanupTimer := some w.stopCleanup.timers.length }

def openRoom (room : Int) : BondRoom × List Int :=
  match w.rooms.lookup room with
  | some found => (found, w.roomOrder)
  | none => ({}, (w.roomOrder ++ [room]).insertionSort (· ≤ ·))

def addWorker (room worker : Int) (id : Nat) : Workers :=
  { w.stopCleanup with
    rooms := w.rooms.insert room ((w.openRoom room).1.seat worker id)
    roomOrder := (w.openRoom room).2
    workers :=
      if ((w.openRoom room).1.workers.lookup worker).isSome then w.workers else w.workers + 1
    emptyGen := addW 64 w.emptyGen 1 }

def vacate (room worker : Int) (found : BondRoom) : Workers :=
  { w with
    rooms := w.rooms.insert room ⟨found.workers.erase worker, found.workerOrder.erase worker⟩
    workers := w.workers - 1 }

def removeWorker (room worker : Int) (id : Nat) : Workers :=
  match w.rooms.lookup room with
  | none => w
  | some found =>
    if found.workers.lookup worker = some id then
      if (w.vacate room worker found).workers = 0 then
        (w.vacate room worker found).armEmptyCleanupLocked
      else w.vacate room worker found
    else w

def setTimer (i : Nat) (phase : TimerPhase) : Workers :=
  { w with timers := w.timers.modify i fun t => { t with phase := phase } }

def timerPhase (i : Nat) : Option TimerPhase := (w.timers[i]?).map (·.phase)

def checkEmpty (i : Nat) (t : CleanupTimer) : Workers :=
  if w.workers = 0 ∧ w.emptyGen = t.gen then
    { w.setTimer i .confirmed with cleanupTimer := none }
  else w.setTimer i .finished

def Attached : Prop :=
  ∃ room found worker id, w.rooms.lookup room = some found ∧ found.workers.lookup worker = some id

def Counted : Prop := w.workers = (total (fun room => size room.workers) w.rooms : Nat)

lemma counted_empty : Counted {} := rfl

@[simp] lemma stopCleanup_rooms : w.stopCleanup.rooms = w.rooms := by
  unfold stopCleanup
  split <;> rfl

@[simp] lemma stopCleanup_workers : w.stopCleanup.workers = w.workers := by
  unfold stopCleanup
  split <;> rfl

@[simp] lemma armEmptyCleanupLocked_rooms : w.armEmptyCleanupLocked.rooms = w.rooms := by
  unfold armEmptyCleanupLocked
  split_ifs
  · rfl
  · simp

@[simp] lemma armEmptyCleanupLocked_workers : w.armEmptyCleanupLocked.workers = w.workers := by
  unfold armEmptyCleanupLocked
  split_ifs
  · rfl
  · simp
end

lemma Counted.congr {w w'} (h : Counted w) (rooms : w'.rooms = w.rooms)
    (workers : w'.workers = w.workers) : Counted w' := by
  rw [Counted, rooms, workers]
  exact h

lemma size_openRoom (w : Workers) (room : Int) : size (w.openRoom room).1.workers =
      ((w.rooms.lookup room).map fun found => size found.workers).getD 0 := by
  unfold openRoom
  split <;> simp_all

lemma Counted.addWorker {w} (h : Counted w) (room worker : Int) (id : Nat) :
    Counted (w.addWorker room worker id) := by
  have opened := size_openRoom w room
  have counted : w.workers = (total (fun room => size room.workers) w.rooms : Nat) := h
  have added := total_insert (fun room : BondRoom => size room.workers) w.rooms room
    ((w.openRoom room).1.seat worker id)
  have seated := BondRoom.size_seat (w.openRoom room).1 worker id
  simp only [Workers.addWorker, Counted]
  split_ifs at seated ⊢ <;> omega

lemma Counted.vacate {w : Workers} (h : Counted w) {room worker : Int} {id : Nat}
    {found : BondRoom} (located : w.rooms.lookup room = some found)
    (occupied : found.workers.lookup worker = some id) :
    Counted (w.vacate room worker found) := by
  have counted : w.workers = (total (fun room => size room.workers) w.rooms : Nat) := h
  have removed := total_insert (fun room : BondRoom => size room.workers) w.rooms room
    ⟨found.workers.erase worker, found.workerOrder.erase worker⟩
  have fewer := size_erase_of_lookup occupied
  rw [located] at removed
  simp only [Option.map_some, Option.getD_some] at removed
  simp only [Counted, Workers.vacate]
  omega

lemma Counted.not_attached {w} (h : Counted w) (zero : w.workers = 0) : ¬ w.Attached := by
  rintro ⟨room, found, worker, id, located, occupied⟩
  have counted : w.workers = (total (fun room => size room.workers) w.rooms : Nat) := h
  have inside := weight_le_total (fun room : BondRoom => size room.workers) w.rooms located
  have some_ : 0 < size found.workers := by
    have fewer := size_erase_of_lookup occupied
    omega
  omega
end Workers
end BondWorkers
namespace Devices

structure ClientDevice where
  deviceID : String
  ip : String
  privKey : String
  pubKey : String
  deriving DecidableEq

def blank (text : String) : Bool := text.toList.all Machine.Text.isSpace

def splitIPPrefix (ip : String) : String :=
  match ip.toList.reverse.dropWhile (· ≠ '.') with
  | [] => ip
  | _ :: rest => String.ofList rest.reverse

def candidateIPs (serverIP : String) : List String :=
  (List.range 249).map fun i => splitIPPrefix serverIP ++ "." ++ toString (i + 2)

def usedIPs (devices : GoMap String ClientDevice) : List String :=
  devices.entries.map fun entry => entry.2.ip

def getNextIP (serverIP : String) (devices : GoMap String ClientDevice) : String :=
  ((candidateIPs serverIP).find? fun ip => decide (ip ∉ usedIPs devices)).getD ""

def buildClientConfig (serverPublic clientPrivate clientIP clientPort : String) : String :=
  "[Interface]\nPrivateKey = " ++ clientPrivate ++ "\nAddress = " ++ clientIP ++
    "/32\nDNS = 1.1.1.1\nMTU = 1280\n\n[Peer]\nPublicKey = " ++ serverPublic ++
    "\nAllowedIPs = 0.0.0.0/0\nEndpoint = 127.0.0.1:" ++ clientPort ++
    "\nPersistentKeepalive = 25"

/-- How `os.WriteFile` ends: with the whole list in the file, before the file was opened, or
after it was truncated. The caller only logs the difference. -/
inductive WriteOutcome where
  | whole | refused | cut

abbrev DevicesFile := Option (GoMap String ClientDevice)

/-- `ipcRequests` records the requests the tunnel device has accepted. -/
structure DeviceStore where
  devices : GoMap String ClientDevice := ∅
  devicesFile : DevicesFile := none
  ipcRequests : List String := []

/-- What the key generator, the disk and the tunnel device answer during one call. -/
structure Provisioning where
  keyPair : Except String (String × String)
  wgDev : Bool
  pubHex : Except String String
  ipcSet : Except String Unit
  write : WriteOutcome

structure WGConfig where
  serverIP : String
  serverPublic : String

def saveDevices (write : WriteOutcome) (devices : GoMap String ClientDevice)
    (file : DevicesFile) : DevicesFile :=
  match write with
  | .whole => some devices
  | .refused => file
  | .cut => none

def peerRequest (pubHex ip : String) : String :=
  "public_key=" ++ pubHex ++ "\nallowed_ip=" ++ ip ++ "/32\n"

section
variable (cfg : WGConfig) (s : DeviceStore) (localPort deviceID : String) (env : Provisioning)
def newDevice (keys : String × String) : ClientDevice :=
  ⟨deviceID, getNextIP cfg.serverIP s.devices, keys.1, keys.2⟩

def recorded (keys : String × String) : DeviceStore :=
  let devices := s.devices.insert deviceID (newDevice cfg s deviceID keys)
  { s with devices := devices, devicesFile := saveDevices env.write devices s.devicesFile }

def configOf (dev : ClientDevice) : String :=
  buildClientConfig cfg.serverPublic dev.privKey dev.ip localPort

def provisionBondDevice : DeviceStore × Except String (ClientDevice × String) :=
  match s.devices.lookup deviceID with
  | some dev => (s, .ok (dev, configOf cfg localPort dev))
  | none =>
    match env.keyPair with
    | .error _ => (s, .error "device provisioning failed")
    | .ok keys =>
      let dev := newDevice cfg s deviceID keys
      let recorded := recorded cfg s deviceID env keys
      if dev.ip = "" then (s, .error "device provisioning failed")
      else if env.wgDev = false then
        ({ recorded with devices := recorded.devices.erase deviceID },
          .error "WireGuard device unavailable")
      else
        match env.pubHex with
        | .error text => (recorded, .error text)
        | .ok pubHex =>
          match env.ipcSet with
          | .error text => (recorded, .error text)
          | .ok _ =>
            ({ recorded with ipcRequests := recorded.ipcRequests ++ [peerRequest pubHex dev.ip] },
              .ok (dev, configOf cfg localPort dev))

def FailsEarly : Prop :=
  (∃ text, env.keyPair = .error text) ∨ getNextIP cfg.serverIP s.devices = ""

/-- What one call does: the device is known, the call fails before it writes, the tunnel device
is missing, or the new device is recorded and its peer is then refused or installed. -/
inductive Provisions : DeviceStore × Except String (ClientDevice × String) → Prop
  | known (dev : ClientDevice) (found : s.devices.lookup deviceID = some dev) :
      Provisions (s, .ok (dev, configOf cfg localPort dev))
  | early (absent : s.devices.lookup deviceID = none) (before : FailsEarly cfg s env) :
      Provisions (s, .error "device provisioning failed")
  | noTunnel (keys : String × String) (absent : s.devices.lookup deviceID = none)
      (late : ¬ FailsEarly cfg s env) (made : env.keyPair = .ok keys) (down : env.wgDev = false) :
      Provisions ({ recorded cfg s deviceID env keys with
          devices := (recorded cfg s deviceID env keys).devices.erase deviceID },
        .error "WireGuard device unavailable")
  | notInstalled (keys : String × String) (text : String)
      (absent : s.devices.lookup deviceID = none) (late : ¬ FailsEarly cfg s env)
      (made : env.keyPair = .ok keys) (up : env.wgDev = true) :
      Provisions (recorded cfg s deviceID env keys, .error text)
  | installed (keys : String × String) (pubHex : String)
      (absent : s.devices.lookup deviceID = none) (late : ¬ FailsEarly cfg s env) :
      Provisions ({ recorded cfg s deviceID env keys with
          ipcRequests := s.ipcRequests ++ [peerRequest pubHex (newDevice cfg s deviceID keys).ip] },
        .ok (newDevice cfg s deviceID keys, configOf cfg localPort (newDevice cfg s deviceID keys)))

lemma provisionBondDevice_provisions :
    Provisions cfg s localPort deviceID env (provisionBondDevice cfg s localPort deviceID env) := by
  unfold provisionBondDevice
  cases found : s.devices.lookup deviceID with
  | some dev => exact .known dev found
  | none =>
    cases made : env.keyPair with
    | error reason => exact .early found (.inl ⟨reason, made⟩)
    | ok keys =>
      dsimp only
      by_cases pool : (newDevice cfg s deviceID keys).ip = ""
      · rw [if_pos pool]
        exact .early found (.inr pool)
      · have late : ¬ FailsEarly cfg s env := by
          rintro (⟨reason, broken⟩ | exhausted)
          · rw [made] at broken
            cases broken
          · exact pool exhausted
        rw [if_neg pool]
        cases up : env.wgDev with
        | false => exact .noTunnel keys found late made up
        | true =>
          cases env.pubHex with
          | error reason => exact .notInstalled keys reason found late made up
          | ok pubHex =>
            cases env.ipcSet with
            | error reason => exact .notInstalled keys reason found late made up
            | ok _ => exact .installed keys pubHex found late
end

/-- Every device has an address of its own that the identity table accepts. -/
structure Addressed (devices : GoMap String ClientDevice) : Prop where
  usable : ∀ id dev, devices.lookup id = some dev → blank dev.ip = false
  distinct : ∀ id id' dev dev', devices.lookup id = some dev → devices.lookup id' = some dev' →
    dev.ip = dev'.ip → id = id'

lemma addressed_empty : Addressed ∅ := by
  constructor <;> simp

variable {devices : GoMap String ClientDevice} {id : String} {dev : ClientDevice}
lemma mem_usedIPs (found : devices.lookup id = some dev) : dev.ip ∈ usedIPs devices := by
  have member : (⟨id, dev⟩ : Sigma fun _ : String => ClientDevice) ∈ devices.entries :=
    AList.mem_lookup_iff.mp found
  exact List.mem_map.mpr ⟨_, member, rfl⟩

lemma blank_candidate {serverIP ip} (candidate : ip ∈ candidateIPs serverIP) :
    blank ip = false := by
  obtain ⟨i, -, rfl⟩ := List.mem_map.mp candidate
  have dotted : '.' ∈ (splitIPPrefix serverIP ++ "." ++ toString (i + 2)).toList := by
    simp
  rw [blank, List.all_eq_false]
  exact ⟨'.', dotted, by decide⟩

lemma getNextIP_fresh {serverIP} (found : getNextIP serverIP devices ≠ "") :
    getNextIP serverIP devices ∉ usedIPs devices ∧ blank (getNextIP serverIP devices) = false := by
  unfold getNextIP at found ⊢
  cases choice : (candidateIPs serverIP).find? fun ip => decide (ip ∉ usedIPs devices) with
  | none =>
    rw [choice] at found
    exact absurd rfl found
  | some ip =>
    have unused := List.find?_some choice
    exact ⟨of_decide_eq_true unused, blank_candidate (List.mem_of_find?_eq_some choice)⟩

lemma Addressed.insert (h : Addressed devices) (fresh : dev.ip ∉ usedIPs devices)
    (usable : blank dev.ip = false) : Addressed (devices.insert id dev) := by
  have others : ∀ {id' dev'}, devices.lookup id' = some dev' → dev'.ip ≠ dev.ip := by
    intro id' dev' found same
    exact fresh (same ▸ mem_usedIPs found)
  constructor
  · intro id' dev' found
    rw [lookup_insert] at found
    split_ifs at found
    · cases found
      exact usable
    · exact h.usable id' dev' found
  · intro id' id'' dev' dev'' left right same
    rw [lookup_insert] at left right
    split_ifs at left right with ours ours'
    · rw [ours, ours']
    · cases left
      exact absurd same.symm (others right)
    · cases right
      exact absurd same (others left)
    · exact h.distinct id' id'' dev' dev'' left right same

variable {deviceID : String}
lemma lookup_taken_back {s} (cfg : WGConfig) (env : Provisioning) (keys : String × String)
    (absent : s.devices.lookup deviceID = none) (id : String) :
    ((recorded cfg s deviceID env keys).devices.erase deviceID).lookup id =
      s.devices.lookup id := by
  rw [lookup_erase, recorded, lookup_insert]
  split_ifs with same
  · rw [same, absent]
  · rfl

lemma lookup_recorded {cfg s keys} (env : Provisioning) (absent : s.devices.lookup deviceID = none)
    (found : s.devices.lookup id = some dev) :
    (recorded cfg s deviceID env keys).devices.lookup id = some dev := by
  rw [recorded, lookup_insert, if_neg]
  · exact found
  · rintro rfl
    rw [absent] at found
    cases found

lemma Addressed.recorded {cfg s env keys} (h : Addressed s.devices)
    (late : ¬ FailsEarly cfg s env) :
    Addressed (recorded cfg s deviceID env keys).devices := by
  obtain ⟨fresh, usable⟩ := getNextIP_fresh fun full => late (.inr full)
  exact h.insert fresh usable

lemma provisionBondDevice_spec (cfg : WGConfig) (s : DeviceStore)
    (localPort deviceID : String) (env : Provisioning) (h : Addressed s.devices) :
    Addressed (provisionBondDevice cfg s localPort deviceID env).1.devices ∧
      (∀ id dev, s.devices.lookup id = some dev →
        (provisionBondDevice cfg s localPort deviceID env).1.devices.lookup id = some dev) ∧
      ∀ dev config, (provisionBondDevice cfg s localPort deviceID env).2 = .ok (dev, config) →
        (provisionBondDevice cfg s localPort deviceID env).1.devices.lookup deviceID =
          some dev := by
  have call := provisionBondDevice_provisions cfg s localPort deviceID env
  generalize provisionBondDevice cfg s localPort deviceID env = result at call
  cases call with
  | known dev found =>
    refine ⟨h, fun _ _ => id, ?_⟩
    rintro _ _ ⟨⟩
    exact found
  | early absent before => exact ⟨h, fun _ _ => id, by simp⟩
  | noTunnel keys absent late made down =>
    have same := lookup_taken_back cfg env keys absent
    refine ⟨⟨?_, ?_⟩, fun id dev found => (same id).trans found, by simp⟩
    · exact fun id dev found => h.usable id dev ((same id).symm.trans found)
    · exact fun id id' dev dev' left right =>
        h.distinct id id' dev dev' ((same id).symm.trans left) ((same id').symm.trans right)
  | notInstalled keys text absent late made up =>
    exact ⟨h.recorded late, fun _ _ => lookup_recorded env absent, by simp⟩
  | installed keys pubHex absent late =>
    refine ⟨h.recorded late, fun _ _ => lookup_recorded env absent, ?_⟩
    rintro _ _ ⟨⟩
    exact AList.lookup_insert _
end Devices
namespace Provisioning
open Wgturn.Devices
def persisted (file : DevicesFile) (id : String) : Option ClientDevice := (file.getD ∅).lookup id

structure Unchanged (s t : DeviceStore) : Prop where
  devices : ∀ id, t.devices.lookup id = s.devices.lookup id
  persisted : ∀ id, persisted t.devicesFile id = persisted s.devicesFile id

/-- Whatever a later call for the device meets, it hands out a configuration only together with
a request that installs the peer. -/
def RetryInstalls (cfg : WGConfig) (t : DeviceStore) (deviceID : String) : Prop :=
  ∀ localPort env dev config, (provisionBondDevice cfg t localPort deviceID env).2 =
      .ok (dev, config) →
    ∃ request, (provisionBondDevice cfg t localPort deviceID env).1.ipcRequests =
      t.ipcRequests ++ [request]

lemma retryInstalls_iff (cfg : WGConfig) (t : DeviceStore) (deviceID : String) :
    RetryInstalls cfg t deviceID ↔ t.devices.lookup deviceID = none := by
  constructor
  · intro installs
    cases found : t.devices.lookup deviceID with
    | none => rfl
    | some dev =>
      let env : Provisioning := ⟨.error "", false, .error "", .error "", .whole⟩
      have served : provisionBondDevice cfg t "" deviceID env =
          (t, .ok (dev, configOf cfg "" dev)) := by
        rw [provisionBondDevice, found]
      obtain ⟨request, grown⟩ := installs "" env dev _ (by rw [served])
      rw [served] at grown
      exact absurd (congrArg List.length grown) (by simp)
  · intro absent localPort env dev config granted
    have call := provisionBondDevice_provisions cfg t localPort deviceID env
    generalize provisionBondDevice cfg t localPort deviceID env = result at call granted
    cases call with
    | known dev found =>
      rw [absent] at found
      cases found
    | early | noTunnel | notInstalled => cases granted
    | installed keys pubHex => exact ⟨_, rfl⟩

/-- Writing the table with the new device leaves what can be read from the file as it was: the
write is refused, or it cuts a file in which nothing was, or the file had the new table already. -/
def WriteKeeps (cfg : WGConfig) (s : DeviceStore) (deviceID : String) (env : Provisioning) : Prop :=
  match env.write with
  | .refused => True
  | .cut => ∀ id, persisted s.devicesFile id = none
  | .whole => ∀ keys, env.keyPair = .ok keys → ∀ id, persisted s.devicesFile id =
      if id = deviceID then some (newDevice cfg s deviceID keys) else s.devices.lookup id

lemma writeKeeps_iff {cfg s deviceID env keys} (made : env.keyPair = .ok keys) :
    WriteKeeps cfg s deviceID env ↔
    ∀ id, persisted (recorded cfg s deviceID env keys).devicesFile id =
      persisted s.devicesFile id := by
  unfold WriteKeeps recorded
  cases env.write with
  | refused => exact iff_of_true trivial fun _ => rfl
  | cut => exact forall_congr' fun id => eq_comm
  | whole =>
    have table : ∀ id, persisted (some (s.devices.insert deviceID
        (newDevice cfg s deviceID keys))) id =
        if id = deviceID then some (newDevice cfg s deviceID keys) else s.devices.lookup id :=
      fun id => lookup_insert ..
    simp only [saveDevices, table, made, Except.ok.injEq, forall_eq']
    exact forall_congr' fun id => eq_comm

/-- A failed call leaves memory and file as they were exactly if it failed before writing, or for
want of a tunnel device while the write left the file as it was; a retry installs the peer exactly
if the tunnel device was missing or the call failed before writing. -/
theorem failed_provisioning_iff (cfg : WGConfig) (s : DeviceStore) (localPort deviceID : String)
    (env : Provisioning) {text : String}
    (failed : (provisionBondDevice cfg s localPort deviceID env).2 = .error text) :
    (Unchanged s (provisionBondDevice cfg s localPort deviceID env).1 ↔
      FailsEarly cfg s env ∨ (env.wgDev = false ∧ WriteKeeps cfg s deviceID env)) ∧
    (RetryInstalls cfg (provisionBondDevice cfg s localPort deviceID env).1 deviceID ↔
      FailsEarly cfg s env ∨ env.wgDev = false) := by
  rw [retryInstalls_iff]
  have call := provisionBondDevice_provisions cfg s localPort deviceID env
  generalize provisionBondDevice cfg s localPort deviceID env = result at call failed
  cases call with
  | known | installed => cases failed
  | early absent before =>
    exact ⟨iff_of_true ⟨fun _ => rfl, fun _ => rfl⟩ (.inl before), iff_of_true absent (.inl before)⟩
  | noTunnel keys absent late made down =>
    have undone := lookup_taken_back cfg env keys absent
    refine ⟨?_, iff_of_true ((undone deviceID).trans absent) (.inr down)⟩
    rw [or_iff_right late, and_iff_right down, writeKeeps_iff made]
    exact ⟨Unchanged.persisted, fun same => ⟨undone, same⟩⟩
  | notInstalled keys text absent late made up =>
    have there : (recorded cfg s deviceID env keys).devices.lookup deviceID ≠ none := by
      rw [recorded, AList.lookup_insert]
      simp
    have present : ¬ env.wgDev = false := by simp [up]
    constructor
    · refine iff_of_false (fun unchanged => there ?_) ?_
      · exact (unchanged.devices deviceID).trans absent
      · exact not_or.mpr ⟨late, fun missing => present missing.1⟩
    · exact iff_of_false there (not_or.mpr ⟨late, present⟩)

def allWell : Provisioning := ⟨.ok ("priv", "pub"), true, .ok "hex", .ok (), .whole⟩
def tunnelRefuses : Provisioning := { allWell with ipcSet := .error "denied" }
def noTunnelNorDisk : Provisioning := { allWell with wgDev := false, write := .refused }
def sampleConfig : WGConfig := ⟨"10.66.66.1", "server"⟩

/-- A server with a device in memory and in the file, which neither writes the file nor has a
tunnel device, provisions a second one. -/
theorem failed_provisioning_no_tunnel :
    let devices := (∅ : GoMap String ClientDevice).insert "tablet"
      ⟨"tablet", "10.66.66.2", "p", "q"⟩
    let failed := provisionBondDevice sampleConfig ⟨devices, some devices, []⟩ "9000" "phone"
      noTunnelNorDisk
    Unchanged ⟨devices, some devices, []⟩ failed.1 ∧
      RetryInstalls sampleConfig failed.1 "phone" := by
  intro devices failed
  have refused : failed.2 = .error "WireGuard device unavailable" := by decide +kernel
  obtain ⟨unchanged, retry⟩ := failed_provisioning_iff sampleConfig ⟨devices, some devices, []⟩
    "9000" "phone" noTunnelNorDisk refused
  exact ⟨unchanged.mpr (.inr ⟨rfl, trivial⟩), retry.mpr (.inr rfl)⟩

/-- After a refusal of the tunnel device the new device stays in memory and in the file, and a
retry gets its configuration although no peer was ever installed. -/
theorem refused_peer_stays : ∃ t dev config,
    provisionBondDevice sampleConfig {} "9000" "phone" tunnelRefuses = (t, .error "denied") ∧
      t.devices.lookup "phone" = some dev ∧ persisted t.devicesFile "phone" = some dev ∧
      provisionBondDevice sampleConfig t "9000" "phone" allWell = (t, .ok (dev, config)) ∧
      t.ipcRequests = [] := by
  generalize call : provisionBondDevice sampleConfig {} "9000" "phone" tunnelRefuses = outcome
  have evaluated : outcome.2 = .error "denied" ∧
      outcome.1.devices.lookup "phone" = some ⟨"phone", "10.66.66.2", "priv", "pub"⟩ ∧
      persisted outcome.1.devicesFile "phone" = some ⟨"phone", "10.66.66.2", "priv", "pub"⟩ ∧
      outcome.1.ipcRequests = [] := by
    rw [← call]
    decide +kernel
  obtain ⟨t, result⟩ := outcome
  obtain ⟨refused, found, saved, none⟩ := evaluated
  refine ⟨t, ⟨"phone", "10.66.66.2", "priv", "pub"⟩,
    buildClientConfig "server" "priv" "10.66.66.2" "9000", Prod.ext rfl refused, found, saved, ?_,
    none⟩
  rw [provisionBondDevice, found]
  rfl
end Provisioning
end Tamizdat.Wgturn
