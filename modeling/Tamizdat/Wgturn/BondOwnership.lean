/- source: internal/wgturn/bond.go, internal/wgturn/server.go
   digest: One bond and one open socket for a device, and when a timer closes a bond. -/

import Tamizdat.Machine.Runs
import Tamizdat.Wgturn.BondBook

set_option autoImplicit false

open List Option
namespace Tamizdat.Wgturn.Bonds
open Machine.Maps Machine.Runs Machine.Takeover Wgturn.Devices
def State.initial (store : DeviceStore) (identities : GoMap String ClientIdentity) : State where
  store := store
  identitiesByIP := identities

namespace Stage
def claims : Stage → Bool
  | .authenticating | .authenticated | .takeover | .retiring _ _ | .provisioning | .provisioned
  | .dialing | .dialed | .discarding | .committing | .failing _ => true
  | _ => false

/-- Between the check after authentication and `finishBondClaim`, on the way to a bond. -/
def replaces : Stage → Bool
  | .takeover | .retiring _ _ | .provisioning | .provisioned | .dialing | .dialed | .discarding
  | .committing => true
  | _ => false

lemma phase_claiming (needs : Option Bool) (stage : Stage) :
    (stage.phase needs).claiming = stage.claims := by
  cases stage <;> first | rfl | (simp only [phase]; split_ifs <;> rfl)

lemma phase_exclusive (needs : Option Bool) (stage : Stage) :
    (stage.phase needs).exclusive = stage.replaces := by
  cases stage <;> first | rfl | (simp only [phase]; split_ifs <;> rfl)
end Stage

structure Owned (s : State) : Prop where
  proper : s.Proper
  closing : s.shutdowns ≠ [] → s.bondClosed = true
  sound : Sound BondKey.deviceID s.book
  bounded : size s.bonds + size s.bondClaims ≤ bondMaxActiveAndClaims

lemma Owned.initial (store : DeviceStore) (identities : GoMap String ClientIdentity) :
    Owned (State.initial store identities) where
  proper := by
    intro i call found
    simp [State.initial] at found
  closing := by simp [State.initial]
  sound := Sound.blank BondKey.deviceID ⟨"", ""⟩
  bounded := Nat.zero_le _

variable {s : State}
lemma Simulates.sound {t} (h : Simulates s t) (sound : Sound BondKey.deviceID s.book)
    (bounded : size s.bonds + size s.bondClaims ≤ bondMaxActiveAndClaims) :
    Sound BondKey.deviceID t.book ∧ size t.bonds + size t.bondClaims ≤ bondMaxActiveAndClaims := by
  have along : ∀ b : Book BondKey String, Relation.ReflTransGen BookMove s.book b →
      Sound BondKey.deviceID b ∧ size b.committed + size b.claims ≤ bondMaxActiveAndClaims := by
    intro b path
    induction path with
    | refl => exact ⟨sound, bounded⟩
    | tail _ last ih => exact ⟨ih.1.move last, size_le_of_move ih.1 ih.2 last⟩
  exact along t.book h

variable {cfg : Config}
lemma Owned.step {l t} (h : Owned s) (moved : Bonds.step cfg s l = some t) : Owned t := by
  obtain ⟨sound, bounded⟩ := (step_simulates h.proper h.closing moved).sound h.sound h.bounded
  exact ⟨h.proper.step moved, closing_step h.closing moved, sound, bounded⟩

lemma Owned.run {ls t} (h : Owned s) (moved : Machine.Runs.run (Bonds.step cfg) s ls = some t) :
    Owned t :=
  run_invariant Owned.step h moved

lemma Owned.simulates_run {ls t} (h : Owned s)
    (moved : Machine.Runs.run (Bonds.step cfg) s ls = some t) : Simulates s t := by
  induction ls generalizing s with
  | nil =>
    cases moved
    exact .refl
  | cons l ls ih =>
    obtain ⟨m, first, rest⟩ := run_cons_some moved
    exact (step_simulates h.proper h.closing first).trans (ih (h.step first) rest)

namespace Owned
variable {i j : Nat} {call call' : Call}
lemma owner_busy (found : s.calls[i]? = some call) (busy : call.phase ≠ .idle) : s.book.owner i =
      ⟨call.key, call.phase, call.stage.retirees, call.wgOpen, call.shut⟩ := by
  rw [State.owner_of_found found, Call.owner_of_busy busy]

section
variable (h : Owned s)
include h
lemma busy_of_open (found : s.calls[i]? = some call)
    (opened : call.wgOpen = true) : call.phase ≠ .idle := by
  intro idle
  obtain ⟨pending, undialled⟩ := Stage.idle_stage idle
  simp [(h.proper i call found).socket pending undialled] at opened

variable {key : BondKey}
lemma committed_unique {x key' y} (left : s.bonds.lookup key = some x)
    (right : s.bonds.lookup key' = some y) (same : key.deviceID = key'.deviceID) :
    key = key' ∧ x = y := by
  have keys : key = key' := h.sound.committed_unique left right same
  subst keys
  rw [left] at right
  exact ⟨rfl, Option.some.inj right⟩

lemma call_of_committed (committed : s.bonds.lookup key = some i) :
    ∃ call, s.calls[i]? = some call := by
  cases found : s.calls[i]? with
  | some call => exact ⟨call, rfl⟩
  | none =>
    have settled := (h.sound.committed key i committed).2
    simp [State.book, found, unwritten] at settled

lemma of_committed (committed : s.bonds.lookup key = some i)
    (found : s.calls[i]? = some call) : call.key = key ∧ call.phase = .committed := by
  obtain ⟨keyed, settled⟩ := h.sound.committed key i committed
  have busy : call.phase ≠ .idle := by
    intro idle
    rw [State.owner_of_found found, Call.owner, if_pos idle] at settled
    simp [unwritten] at settled
  rw [owner_busy found busy] at keyed settled
  exact ⟨keyed, settled⟩

lemma claims_unique {key'} (left : (s.bondClaims.lookup key).isSome)
    (right : (s.bondClaims.lookup key').isSome) (same : key.deviceID = key'.deviceID) :
    key = key' :=
  h.sound.claims key key' left right same

lemma absent_of_committing (found : s.calls[i]? = some call)
    (before : call.stage = .committing) : s.bonds.lookup call.key = none := by
  have engaged : call.phase.claiming = true := by rw [Call.phase, before]; rfl
  have owner := owner_busy found (Phase.not_idle_of_claiming engaged)
  have absent := h.sound.absent i (by rw [owner]; exact engaged)
  rwa [owner] at absent
end

lemma unique_of {P : Owner BondKey → Prop}
    (unique : ∀ x y, P (s.book.owner x) → P (s.book.owner y) →
      (s.book.owner x).key.deviceID = (s.book.owner y).key.deviceID → x = y)
    (found : s.calls[i]? = some call) (found' : s.calls[j]? = some call')
    (busy : call.phase ≠ .idle) (busy' : call'.phase ≠ .idle) (left : P call.owner)
    (right : P call'.owner) (same : call.bind.deviceID = call'.bind.deviceID) : i = j := by
  refine unique i j ?_ ?_ ?_
  · rwa [State.owner_of_found found]
  · rwa [State.owner_of_found found']
  · rw [owner_busy found busy, owner_busy found' busy']
    exact same

lemma claimants_unique (h : Owned s) (working : s.bondClosed = false)
    (found : s.calls[i]? = some call) (found' : s.calls[j]? = some call')
    (left : call.stage.claims = true) (right : call'.stage.claims = true)
    (same : call.bind.deviceID = call'.bind.deviceID) : i = j := by
  rw [← Stage.phase_claiming call.identityNeedsClose] at left
  rw [← Stage.phase_claiming call'.identityNeedsClose] at right
  have busy : call.phase ≠ .idle := Phase.not_idle_of_claiming left
  have busy' : call'.phase ≠ .idle := Phase.not_idle_of_claiming right
  refine unique_of (P := fun o => o.phase.claiming = true) (h.sound.claimants working) found found'
    busy busy' ?_ ?_ same
  · rwa [Call.owner_of_busy busy]
  · rwa [Call.owner_of_busy busy']

section
variable (h : Owned s) (found : s.calls[i]? = some call) (found' : s.calls[j]? = some call')
include h found found'
lemma replacers_unique (left : call.stage.replaces = true) (right : call'.stage.replaces = true)
    (same : call.bind.deviceID = call'.bind.deviceID) : i = j := by
  rw [← Stage.phase_exclusive call.identityNeedsClose] at left
  rw [← Stage.phase_exclusive call'.identityNeedsClose] at right
  have busy : call.phase ≠ .idle := Phase.not_idle_of_claiming (Phase.claiming_of_exclusive left)
  have busy' : call'.phase ≠ .idle := Phase.not_idle_of_claiming (Phase.claiming_of_exclusive right)
  refine unique_of (P := fun o => o.phase.exclusive = true) h.sound.exclusive found found'
    busy busy' ?_ ?_ same
  · rwa [Call.owner_of_busy busy]
  · rwa [Call.owner_of_busy busy']

lemma sockets_unique (left : call.wgOpen = true) (right : call'.wgOpen = true)
    (same : call.bind.deviceID = call'.bind.deviceID) : i = j := by
  have busy := h.busy_of_open found left
  have busy' := h.busy_of_open found' right
  refine unique_of (P := fun o => o.isOpen = true) (fun _ _ => h.sound.open_unique) found found'
    busy busy' ?_ ?_ same
  · rwa [Call.owner_of_busy busy]
  · rwa [Call.owner_of_busy busy']

lemma closed_before_dial (dialing : call.stage = .dialing)
    (same : call'.bind.deviceID = call.bind.deviceID) : call'.wgOpen = false := by
  have engaged : call.phase = .engaged := by rw [Call.phase, dialing]; rfl
  by_cases apart : j = i
  · subst apart
    rw [found] at found'
    cases found'
    exact (h.proper j call found).socket (by rw [dialing]; rfl) (by rw [dialing]; rfl)
  · by_contra opened
    have opened : call'.wgOpen = true := by simpa using opened
    have owner := owner_busy found (by rw [engaged]; simp)
    have owner' := owner_busy found' (h.busy_of_open found' opened)
    have shut := h.sound.shut_of_engaged (i := i) (x := j) (by rw [owner]; exact engaged) apart
      (by rw [owner, owner']; exact same)
    rw [owner'] at shut
    simp [opened] at shut
end

lemma empty_after_shutdown (h : Owned s) (returned : s.shutdowns[j]? = some .returned)
    (key : BondKey) : s.bonds.lookup key = none :=
  (h.sound.emptied (List.any_eq_true.mpr ⟨.returned, List.mem_of_getElem? returned, rfl⟩)).2 key
end Owned

/-- Ownership of a device under every schedule of calls, cleanups, cancellations and
shutdowns: one committed bond, one claim, one call on the way to a bond, one open socket, none
open when the next one is dialled, a bounded book, and no bond once `Shutdown` has returned. -/
theorem single_ownership (cfg : Config) (store : DeviceStore)
    (identities : GoMap String ClientIdentity) (ls : List Label) (s : State)
    (reached : run (step cfg) (State.initial store identities) ls = some s) :
    (∀ key key' x y, s.bonds.lookup key = some x → s.bonds.lookup key' = some y →
      key.deviceID = key'.deviceID → key = key' ∧ x = y) ∧
    (∀ key key', (s.bondClaims.lookup key).isSome → (s.bondClaims.lookup key').isSome →
      key.deviceID = key'.deviceID → key = key') ∧
    (∀ (i j : Nat) (call call' : Call), s.calls[i]? = some call → s.calls[j]? = some call' →
      call.bind.deviceID = call'.bind.deviceID →
        (s.bondClosed = false → call.stage.claims = true → call'.stage.claims = true → i = j) ∧
        (call.stage.replaces = true → call'.stage.replaces = true → i = j) ∧
        (call.wgOpen = true → call'.wgOpen = true → i = j) ∧
        (call.stage = .dialing → call'.wgOpen = false)) ∧
    size s.bonds + size s.bondClaims ≤ 512 ∧
    (∀ j : Nat, s.shutdowns[j]? = some .returned → ∀ key, s.bonds.lookup key = none) := by
  have owned := (Owned.initial store identities).run reached
  refine ⟨?_, ?_, ?_, owned.bounded, ?_⟩
  · intro key key' x y left right same
    exact owned.committed_unique left right same
  · intro key key' left right same
    exact owned.claims_unique left right same
  · intro i j call call' found found' same
    refine ⟨?_, ?_, ?_, ?_⟩
    · intro working left right
      exact owned.claimants_unique working found found' left right same
    · intro left right
      exact owned.replacers_unique found found' left right same
    · intro left right
      exact owned.sockets_unique found found' left right same
    · intro dialing
      exact owned.closed_before_dial found found' dialing same.symm
  · intro j returned key
    exact owned.empty_after_shutdown returned key

def hooked : Config := ⟨⟨"10.66.66.1", "server-key"⟩, "", true, true⟩

def twoDevices : DeviceStore where
  devices := ((∅ : GoMap String ClientDevice).insert "phone"
    ⟨"phone", "10.66.66.2", "priv", "pub"⟩).insert "tablet" ⟨"tablet", "10.66.66.3", "p", "q"⟩

def claimant (device run : String) : BondBind :=
  ⟨device, run, "token-" ++ run, 0, 1, some "9000", true, "secret"⟩

def session (id : String) : ClientIdentity := { userID := "user", sessionID := id }
def responding : Provisioning := ⟨.ok ("priv", "pub"), true, .ok "", .ok (), .whole⟩

def authenticates (c : Nat) (identity : ClientIdentity) : List Label :=
  [.advance c .go, .advance c .go, .advance c (.hook identity ""), .advance c .go, .advance c .go]

def dials (c : Nat) : List Label :=
  [.advance c .go, .advance c (.provisioning responding), .advance c .go, .advance c (.dial true),
    .advance c .go]

def closes (b : Nat) : List Label := List.replicate 4 (.bond b .closeStep)

def takeover : List Label :=
  .acquire (claimant "phone" "first") :: authenticates 0 (session "one") ++ dials 0 ++
    [.advance 0 .go, .acquire (claimant "phone" "second")] ++ authenticates 1 (session "two") ++
    [.advance 1 (.pick 0)] ++ closes 0 ++ [.advance 1 .go] ++ dials 1 ++ [.advance 1 .go]

theorem single_ownership_takeover : ∃ s,
    run (step hooked) (State.initial twoDevices ∅) takeover = some s ∧
      s.bonds.lookup ⟨"phone", "second"⟩ = some 1 ∧
      ∀ key x, s.bonds.lookup key = some x → key.deviceID = "phone" → x = 1 := by
  refine exists_some_and (by decide +kernel) fun s reached committed => ?_
  have owned := single_ownership hooked twoDevices ∅ takeover s reached
  exact fun key x found device => (owned.1 key _ x 1 found committed device).2

open Wgturn.BondWorkers
open State (initial)

/-- The callback has found the bond empty, and the `close` it calls for that has not returned.
`once` is how far `close` has come. -/
def Condemns (once : CloseOnce) (phase : TimerPhase) : Prop :=
  phase = .confirmed ∨ (phase = .closing ∧ once ≠ .done)
deriving Decidable

structure Tended (once : CloseOnce) (w : Workers) : Prop where
  counted : w.Counted
  empty : ∀ t ∈ w.timers, Condemns once t.phase → w.workers = 0

namespace Tended
variable {once once' : CloseOnce} {w : Workers}
lemma fresh : Tended .fresh {} := ⟨Workers.counted_empty, by simp⟩

lemma mono (h : Tended once w) (later : once' ≠ .done → once ≠ .done) : Tended once' w := by
  refine ⟨h.counted, ?_⟩
  rintro t member (confirmed | ⟨closing, running⟩)
  · exact h.empty t member (.inl confirmed)
  · exact h.empty t member (.inr ⟨closing, later running⟩)

lemma mem_stopCleanup {t} (member : t ∈ w.stopCleanup.timers) (condemns : Condemns once t.phase) :
    t ∈ w.timers := by
  unfold Workers.stopCleanup at member
  split at member
  · exact member
  · rename_i i _
    obtain ⟨j, located⟩ := mem_iff_getElem?.mp member
    rw [getElem?_modify] at located
    obtain ⟨old, before, rfl⟩ := map_eq_some_iff.mp located
    split_ifs at condemns ⊢
    · unfold CleanupTimer.stop at condemns ⊢
      split_ifs at condemns ⊢ with armed
      · simp [Condemns] at condemns
      · exact mem_of_getElem? before
    · exact mem_of_getElem? before

variable (h : Tended once w)
include h
lemma stop : Tended once w.stopCleanup := by
  refine ⟨h.counted.congr (by simp) (by simp), ?_⟩
  intro t member condemns
  rw [Workers.stopCleanup_workers]
  exact h.empty t (mem_stopCleanup member condemns) condemns

lemma arm : Tended once w.armEmptyCleanupLocked := by
  refine ⟨h.counted.congr (by simp) (by simp), ?_⟩
  intro t member condemns
  rw [Workers.armEmptyCleanupLocked_workers]
  unfold Workers.armEmptyCleanupLocked at member
  split_ifs at member with busy
  · exact h.empty t member condemns
  · rcases mem_append.mp member with old | new
    · exact h.empty t (mem_stopCleanup old condemns) condemns
    · rw [mem_singleton.mp new] at condemns
      simp [Condemns] at condemns

lemma add (spared : ∀ t ∈ w.timers, ¬ Condemns once t.phase) (room worker : Int) (id : Nat) :
    Tended once (w.addWorker room worker id) := by
  refine ⟨h.counted.addWorker room worker id, ?_⟩
  intro t member condemns
  exact absurd condemns (spared t (mem_stopCleanup member condemns))

lemma remove (room worker : Int) (id : Nat) : Tended once (w.removeWorker room worker id) := by
  unfold Workers.removeWorker
  split
  · exact h
  · rename_i found located
    by_cases occupied : found.workers.lookup worker = some id
    · have rest : Tended once (w.vacate room worker found) := by
        refine ⟨h.counted.vacate located occupied, ?_⟩
        intro t member condemns
        exact absurd ⟨room, found, worker, id, located, occupied⟩
          (h.counted.not_attached (h.empty t member condemns))
      rw [if_pos occupied]
      split_ifs
      · exact rest.arm
      · exact rest
    · rw [if_neg occupied]
      exact h

lemma setTimer {phase i} (allowed : Condemns once phase → w.workers = 0) :
    Tended once (w.setTimer i phase) := by
  refine ⟨h.counted.congr rfl rfl, ?_⟩
  intro t member condemns
  obtain ⟨j, located⟩ := mem_iff_getElem?.mp member
  simp only [Workers.setTimer, getElem?_modify] at located
  obtain ⟨old, before, rfl⟩ := map_eq_some_iff.mp located
  split_ifs at condemns
  · exact allowed condemns
  · exact h.empty old (mem_of_getElem? before) condemns

lemma check (i : Nat) (t : CleanupTimer) : Tended once (w.checkEmpty i t) := by
  unfold Workers.checkEmpty
  split_ifs with empty
  · have set : Tended once (w.setTimer i .confirmed) := h.setTimer fun _ => empty.1
    exact ⟨set.counted.congr rfl rfl, set.empty⟩
  · exact h.setTimer (by simp [Condemns])

lemma close {i} (confirmed : w.timerPhase i = some .confirmed) :
    Tended once (w.setTimer i .closing) := by
  refine h.setTimer fun _ => ?_
  obtain ⟨t, located, phase⟩ := map_eq_some_iff.mp confirmed
  exact h.empty t (mem_of_getElem? located) (.inl phase)
end Tended

def Stage.granted : Stage → Option Nat
  | .returned answer => answer.bond
  | _ => none

/-- No worker joins a bond that its cleanup timer is about to close. -/
def Undisturbed (s : State) : Label → Prop
  | .addWorker c => ∀ call ∈ s.calls[c]?, ∀ b ∈ call.stage.granted, ∀ bond ∈ s.bondAt b,
    ∀ t ∈ bond.workers.timers, ¬ Condemns bond.closeOnce t.phase
  | _ => True

instance (s : State) (l : Label) : Decidable (Undisturbed s l) := by
  rcases l with ⟨⟩ <;> unfold Undisturbed <;> infer_instance

def Call.Tended (call : Call) : Prop :=
  ∀ bond, call.bond = some bond → Bonds.Tended bond.closeOnce bond.workers

variable {l : Label} {b i : Nat} {bond : ServerBond}
lemma PoolStep.tended {w} (undisturbed : Undisturbed s l) (pool : PoolStep s l b bond w)
    (h : Tended bond.closeOnce bond.workers) : Tended bond.closeOnce w := by
  cases pool with
  | same => exact h
  | arm => exact h.arm
  | add c call label caller target found room worker =>
    subst label
    obtain ⟨type, payload, stage⟩ := target
    exact h.add (undisturbed call caller b (by rw [stage]; rfl) bond found) room worker c
  | remove room worker id => exact h.remove room worker id
  | fire i | finish i => exact h.setTimer (by simp [Condemns])
  | check i t => exact h.check i t
  | close i confirmed => exact h.close confirmed

lemma Call.Tended.changes {call call'} (undisturbed : Undisturbed s l)
    (changes : Changes cfg s l i call call')
    (h : call.Tended) : call'.Tended := by
  have created : ∀ bond, some ({} : ServerBond) = some bond →
      Bonds.Tended bond.closeOnce bond.workers := by
    intro bond present
    cases present
    exact .fresh
  cases changes with
  | commit before label working absent | lose winner before label recorded late => exact created
  | unwind answer before =>
    split_ifs <;> exact h
  | touch bond next found touches =>
    intro bond' present
    cases present
    refine (touches.pool.tended undisturbed (h bond found)).mono ?_
    intro running
    rcases touches.once with same | ⟨fresh, -⟩
    · rwa [← same]
    · simp [fresh]
  | closeStep next bond found moved =>
    have tended := h bond found
    unfold Call.closeStep at moved
    split at moved
    · cases moved
    · rename_i once
      cases moved
      rintro bond' ⟨⟩
      exact tended.mono (by simp [once])
    · rename_i once
      cases moved
      rintro bond' ⟨⟩
      exact tended.mono (by simp [once])
    · rename_i once
      cases moved
      rintro bond' ⟨⟩
      exact tended.stop.mono (by simp [once])
    · rename_i once
      cases moved
      rintro bond' ⟨⟩
      exact tended.mono (by simp)
    · cases moved
  | _ => exact h

def State.Tended (s : State) : Prop :=
  ∀ (i : Nat) (call : Call), s.calls[i]? = some call → call.Tended

lemma State.Tended.step {t} (h : s.Tended) (undisturbed : Undisturbed s l)
    (moved : Bonds.step cfg s l = some t) : t.Tended := by
  refine calls_invariant (P := fun _ => Call.Tended) moved ?_ ?_ h
  · intro i bind bond present
    cases present
  · intro i call call' changes kept
    exact kept.changes undisturbed changes

lemma State.Tended.not_attached {phase} (h : s.Tended) (found : s.bondAt b = some bond)
    (timer : bond.workers.timerPhase i = some phase) (condemns : Condemns bond.closeOnce phase) :
    ¬ bond.workers.Attached := by
  obtain ⟨call, located, present⟩ := bind_eq_some_iff.mp found
  obtain ⟨t, member, rfl⟩ := map_eq_some_iff.mp timer
  have tended := h b call located bond present
  exact tended.counted.not_attached (tended.empty t (mem_of_getElem? member) condemns)

/-- When no worker joins in between, the cleanup timer calls `close` and `close` returns
while no worker is attached. -/
theorem timer_spares_workers (cfg : Config) (store : DeviceStore)
    (identities : GoMap String ClientIdentity) (ls : List Label) (s : State)
    (admitted : Meets (step cfg) Undisturbed (initial store identities) ls)
    (reached : run (step cfg) (initial store identities) ls = some s)
    (b i : Nat) (bond : ServerBond) (found : s.bondAt b = some bond) :
    (∀ t, step cfg s (.bond b (.timerClose i)) = some t → ¬ bond.workers.Attached) ∧
      (bond.workers.timerPhase i = some .closing → bond.closeOnce ≠ .done →
        ¬ bond.workers.Attached) := by
  have tended : s.Tended := by
    refine invariant_of_meets State.Tended.step ?_ admitted reached
    intro j call located
    simp [initial] at located
  refine ⟨?_, ?_⟩
  · intro t moved
    obtain ⟨call, located, present⟩ := bind_eq_some_iff.mp found
    simp only [step, located, present, bind_some, bondStep] at moved
    split_ifs at moved with confirmed
    exact tended.not_attached found confirmed (.inl rfl)
  · intro closing running
    exact tended.not_attached found closing (.inr ⟨rfl, running⟩)

def emptied : List Label :=
  .acquire (claimant "phone" "first") :: authenticates 0 (session "one") ++ dials 0 ++
    List.replicate 6 (.advance 0 .go) ++
    [.addWorker 0, .removeWorker 0, .bond 0 (.fire 1), .bond 0 (.check 1)]

theorem timer_spares_workers_emptied : ∃ s t bond,
    run (step hooked) (initial twoDevices ∅) emptied = some s ∧
      s.bondAt 0 = some bond ∧ step hooked s (.bond 0 (.timerClose 1)) = some t ∧
      ¬ bond.workers.Attached := by
  have admitted : Meets (step hooked) Undisturbed (initial twoDevices ∅) emptied := by
    decide +kernel
  obtain ⟨s, reached, ⟨bond, found, -⟩, t, closes, -⟩ : ∃ s,
      run (step hooked) (initial twoDevices ∅) emptied = some s ∧
        (∃ bond, s.bondAt 0 = some bond ∧ True) ∧
        ∃ t, step hooked s (.bond 0 (.timerClose 1)) = some t ∧ True := by decide +kernel
  have spared := timer_spares_workers hooked twoDevices ∅ emptied s admitted reached 0 1 bond found
  exact ⟨s, t, bond, reached, found, closes, spared.1 t closes⟩

def joiner (device run : String) : BondBind :=
  { claimant device run with worker := 2, wantConfig := false, password := "" }

/-- The timer finds the bond empty. Before it calls `removeBond`, a second connection finds the
bond open, joins it and attaches its worker. -/
def joinsInBetween : List Label :=
  .acquire (claimant "phone" "first") :: authenticates 0 (session "one") ++ dials 0 ++
    List.replicate 6 (.advance 0 .go) ++
    [.bond 0 (.fire 0), .bond 0 (.check 0), .acquire (joiner "phone" "first")] ++
    List.replicate 4 (.advance 1 .go) ++ [.addWorker 1]

theorem timer_closes_attached : ∃ s t bond,
    run (step hooked) (initial twoDevices ∅) joinsInBetween = some s ∧
      s.bondAt 0 = some bond ∧ bond.workers.Attached ∧
      run (step hooked) s (.bond 0 (.timerClose 0) :: closes 0) = some t ∧
      (t.calls[0]?).map (·.wgOpen) = some false := by
  obtain ⟨s, reached, bond, found, ⟨room, located, occupied⟩, t, closed, socket⟩ : ∃ s,
      run (step hooked) (initial twoDevices ∅) joinsInBetween = some s ∧
        ∃ bond, s.bondAt 0 = some bond ∧
          (∃ room, bond.workers.rooms.lookup 0 = some room ∧ room.workers.lookup 2 = some 1) ∧
          ∃ t, run (step hooked) s (.bond 0 (.timerClose 0) :: closes 0) = some t ∧
            (t.calls[0]?).map (·.wgOpen) = some false := by decide +kernel
  exact ⟨s, t, bond, reached, found, ⟨0, room, 2, 1, located, occupied⟩, closed, socket⟩
end Tamizdat.Wgturn.Bonds
