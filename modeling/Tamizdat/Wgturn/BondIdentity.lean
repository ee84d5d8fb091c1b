/- source: internal/wgturn/bond.go, internal/wgturn/server.go
   digest: Which identity stands behind an address, and how often OnIdentityDone runs for it. -/

import Tamizdat.Wgturn.BondOwnership

set_option autoImplicit false

open Option
namespace Tamizdat.Wgturn.Bonds
open Machine.Maps Machine.Runs Wgturn.Devices
open Call (notify)
open Stage (pending)
variable {cfg : Config} {s t : State} {l : Label} {i c : Nat} {call call' : Call}

structure Call.Marked (call : Call) : Prop where
  late : call.published = true → call.stage.pending = false ∧ call.stage ≠ .arming ∧
    call.stage ≠ .publishing
  equipped : call.published = true → call.device ≠ none
  marked : call.stage = .spawning ∨ call.stage = .settling ∨
    call.identityNeedsClose = some false → call.published = true

namespace Call.Marked
lemma fresh (bind : BondBind) : Call.Marked { bind := bind } := by
  constructor <;> simp

lemma keep (h : call.Marked) (published : call'.published = call.published)
    (device : call'.device = call.device)
    (late : call.published = true → call'.stage.pending = false ∧ call'.stage ≠ .arming ∧
      call'.stage ≠ .publishing)
    (marked : call'.stage = .spawning ∨ call'.stage = .settling ∨
      call'.identityNeedsClose = some false → call.published = true) : call'.Marked := by
  refine ⟨?_, ?_, ?_⟩
  · rw [published]
    exact late
  · rw [published, device]
    exact h.equipped
  · rw [published]
    exact marked

lemma unpublished (h : call.Marked) (pending : call.stage.pending = true) :
    call.published = false := by
  by_contra published
  simp [(h.late (by simpa using published)).1] at pending

lemma early (h : call.Marked) (before : call.stage.pending = true)
    (published : call'.published = call.published) (spawning : call'.stage ≠ .spawning)
    (settling : call'.stage ≠ .settling) (undecided : call'.identityNeedsClose ≠ some false) :
    call'.Marked := by
  have fresh : call'.published = false := published.trans (h.unpublished before)
  refine ⟨by simp [fresh], by simp [fresh], ?_⟩
  rintro (here | here | decided)
  · exact absurd here spawning
  · exact absurd here settling
  · exact absurd decided undecided

lemma changes (proper : call.Proper) (h : call.Marked) (changes : Changes cfg s l i call call') :
    call'.Marked := by
  cases changes with
  | move stage before after socket =>
    have undecided := proper.undecided (Stage.not_ended_of_pending before)
    refine h.early before rfl ?_ ?_ undecided
    · rintro rfl
      simp [pending, Stage.leaving] at after
    · rintro rfl
      simp [pending, Stage.leaving] at after
  | identify identity before =>
    exact h.early (by rw [before]; rfl) rfl (by simp) (by simp) (by simp)
  | equip dev config env before label recorded | dial before | discard text before
  | commit before label working absent | lose winner before label recorded late =>
    have undecided := proper.undecided (by rw [before]; rfl)
    exact h.early (by rw [before]; rfl) rfl (by simp) (by simp) undecided
  | concede stage before after =>
    have undecided := proper.undecided (Stage.not_ended_of_defeated before)
    refine h.keep rfl rfl ?_ ?_
    · intro _
      cases stage <;> simp_all [pending, Stage.defeated, Stage.leaving]
    · rintro (spawning | settling | decided)
      · have spawning : stage = .spawning := spawning
        simp [spawning, Stage.defeated, Stage.leaving] at after
      · have settling : stage = .settling := settling
        simp [settling, Stage.defeated, Stage.leaving] at after
      · exact absurd decided undecided
  | arm before =>
    have undecided := proper.undecided (by rw [before]; rfl)
    refine h.keep rfl rfl ?_ (by simp [undecided])
    intro published
    exact absurd before (h.late published).2.1
  | publish dev before label recorded device => constructor <;> simp [device, pending]
  | spawn before =>
    have published := h.marked (.inl before)
    exact h.keep rfl rfl (by simp [pending]) fun _ => published
  | settle before =>
    have published := h.marked (.inr (.inl before))
    exact h.keep rfl rfl (by simp [pending]) fun _ => published
  | unwind answer before =>
    have decided : call.identityNeedsClose = some false → call.published = true := fun d =>
      h.marked (.inr (.inr d))
    split_ifs
    · exact h.keep rfl rfl (by simp [pending]) (by simpa [notify] using decided)
    · exact h.keep rfl rfl (by simp [pending]) (by simpa using decided)
  | touch bond next found touches => exact h.keep rfl rfl h.late h.marked
  | closeStep next bond found moved =>
    obtain ⟨-, stage, needs, -, device, published⟩ := Call.closeStep_frame moved
    refine h.keep published device ?_ ?_
    · rw [stage]
      exact h.late
    · rw [stage, needs]
      exact h.marked
  | cancel | attach attachment => exact h.keep rfl rfl h.late h.marked
end Call.Marked

/-- What one action may do to the identity, the device and the publication of call `i`, which
was `old` before it. -/
structure Follows (s : State) (l : Label) (i : Nat) (old call : Call) : Prop where
  bind : call.bind = old.bind
  device : call.device = old.device ∨
    ∃ env, l = .advance i (.provisioning env) ∧ old.stage = .provisioning
  identity : call.published = true → call.identity = old.identity ∧ call.device = old.device ∧
    (old.published = true ∨ (l = .advance i .go ∧ old.stage = .publishing))

namespace Follows
variable {old : Call}
lemma refl : Follows s l i old old := ⟨rfl, .inl rfl, fun published => ⟨rfl, rfl, .inl published⟩⟩

lemma same (h : Follows s l i old call) (bind : call'.bind = call.bind)
    (device : call'.device = call.device) (identity : call'.identity = call.identity)
    (published : call'.published = call.published) : Follows s l i old call' := by
  refine ⟨bind.trans h.bind, ?_, ?_⟩
  · rw [device]
    exact h.device
  · rw [published, identity, device]
    exact h.identity

lemma changes (h : Follows s l i old call) (found : s.calls[i]? = some old)
    (marked : call.Marked) (changes : Changes cfg s l i call call') :
    Follows s l i old call' := by
  have same : call'.bind = call.bind → call'.device = call.device →
      call'.identity = call.identity → call'.published = call.published →
        Follows s l i old call' := h.same
  cases changes with
  | identify identity before =>
    have fresh := marked.unpublished (by rw [before]; rfl)
    exact ⟨h.bind, h.device, by simp [fresh]⟩
  | equip dev config env before label recorded =>
    rw [found] at recorded
    cases recorded
    have fresh := marked.unpublished (by rw [before]; rfl)
    exact ⟨rfl, .inr ⟨env, label, before⟩, by simp [fresh]⟩
  | publish dev before label recorded device =>
    rw [found] at recorded
    cases recorded
    exact ⟨rfl, .inl rfl, fun _ => ⟨rfl, rfl, .inr ⟨label, before⟩⟩⟩
  | unwind answer before => split_ifs at same ⊢ <;> exact same rfl rfl rfl rfl
  | closeStep next bond present moved =>
    obtain ⟨bind, -, -, identity, device, published⟩ := Call.closeStep_frame moved
    exact same bind device identity published
  | _ => exact same rfl rfl rfl rfl
end Follows

lemma step_follows (proper : s.Proper)
    (marked : ∀ (i : Nat) (call : Call), s.calls[i]? = some call → call.Marked)
    (moved : step cfg s l = some t) (found : t.calls[i]? = some call') :
    (∃ bind, call' = { bind := bind }) ∨
      ∃ old, s.calls[i]? = some old ∧ Follows s l i old call' := by
  rcases step_call moved found with ⟨-, fresh⟩ | ⟨old, before, path⟩
  · exact .inl fresh
  · refine .inr ⟨old, before, ?_⟩
    have along : call'.Proper ∧ call'.Marked ∧ Follows s l i old call' := by
      clear found
      induction path with
      | refl => exact ⟨proper i old before, marked i old before, .refl⟩
      | tail _ last ih =>
        exact ⟨ih.1.changes last, ih.2.1.changes ih.1 last, ih.2.2.changes before ih.2.1 last⟩
    exact along.2.2

/-- A call publishes its identity only while no other committed bond of its device has
published one. -/
def InTurn (s : State) : Label → Prop
  | .advance c _ => ∀ call ∈ s.calls[c]?, call.stage = .publishing →
    ∀ key ∈ s.bonds.keys, key.deviceID = call.bind.deviceID → ∀ x ∈ s.bonds.lookup key, x ≠ c →
      ∀ other ∈ s.calls[x]?, other.published = false
  | _ => True

structure Attributed (s : State) : Prop where
  owned : Owned s
  marked : ∀ (i : Nat) (call : Call), s.calls[i]? = some call → call.Marked
  addressed : Addressed s.store.devices
  device : ∀ (i : Nat) (call : Call) (dev : ClientDevice), s.calls[i]? = some call →
    call.device = some dev → s.store.devices.lookup call.bind.deviceID = some dev
  current : ∀ (key : BondKey) (x : Nat) (call : Call) (dev : ClientDevice),
    s.bonds.lookup key = some x → s.calls[x]? = some call → call.published = true →
      call.device = some dev → s.identitiesByIP.lookup dev.ip = some call.identity

lemma Attributed.initial {store} (addressed : Addressed store.devices)
    (identities : GoMap String ClientIdentity) : Attributed (State.initial store identities) := by
  refine ⟨.initial store identities, ?_, addressed, ?_, ?_⟩
  · intro i call found
    simp [State.initial] at found
  · intro i call dev found
    simp [State.initial] at found
  · intro key x call dev committed found
    simp [State.initial] at found

namespace Attributed
lemma store_step (h : Attributed s) (moved : Bonds.step cfg s l = some t) :
    Addressed t.store.devices ∧ ∀ id dev, s.store.devices.lookup id = some dev →
      t.store.devices.lookup id = some dev := by
  rcases step_shares moved with outside | ⟨c, input, call, -, -, shares⟩
  · rw [outside.store]
    exact ⟨h.addressed, fun _ _ => id⟩
  · rcases shares.store with same | ⟨port, env, -, changed⟩
    · rw [same]
      exact ⟨h.addressed, fun _ _ => id⟩
    · rw [changed]
      obtain ⟨addressed, kept, -⟩ := provisionBondDevice_spec cfg.wg s.store port
        call.bind.deviceID env h.addressed
      exact ⟨addressed, kept⟩

variable {dev : ClientDevice} {key : BondKey} {x : Nat}
variable (h : Attributed s)
include h
lemma provision_device {old env} (found : s.calls[i]? = some old)
    (found' : (s.provision cfg i old env).calls[i]? = some call) (device : call.device = some dev) :
    (s.provision cfg i old env).store.devices.lookup old.bind.deviceID = some dev := by
  have fails : ∀ text, (s.goto i (.failing text)).calls[i]? = some call →
      old.device = some dev := by
    intro text located
    rw [State.goto, State.calls_modify_self _ found] at located
    cases located
    exact device
  unfold State.provision at found' ⊢
  split at found'
  · exact h.device i old dev found (fails _ found')
  · rename_i port _
    obtain ⟨-, kept, granted⟩ := provisionBondDevice_spec cfg.wg s.store port old.bind.deviceID env
      h.addressed
    simp only at found' ⊢
    split at found'
    · exact kept _ _ (h.device i old dev found (fails _ found'))
    · rename_i dev' config answer
      have located := State.calls_modify_self (fun call : Call =>
        { call with stage := .provisioned, device := some dev', config := config }) found
      have same := located.symm.trans found'
      cases same
      cases device
      exact granted dev config answer

lemma device_step (moved : Bonds.step cfg s l = some t) {i : Nat}
    {call : Call} (found : t.calls[i]? = some call) (device : call.device = some dev) :
    t.store.devices.lookup call.bind.deviceID = some dev := by
  rcases step_follows h.owned.proper h.marked moved found with ⟨bind, rfl⟩ | ⟨old, before, follows⟩
  · simp at device
  · rw [follows.bind]
    rcases follows.device with same | ⟨env, rfl, stage⟩
    · rw [same] at device
      exact (h.store_step moved).2 _ _ (h.device i old dev before device)
    · have provisioned : s.provision cfg i old env = t := by
        obtain ⟨call', found', stepped⟩ := bind_eq_some_iff.mp moved
        rw [before] at found'
        cases found'
        rw [stage] at stepped
        exact some.inj stepped
      rw [← provisioned] at found ⊢
      exact h.provision_device before found device

lemma publish_lookup (found : s.calls[c]? = some call)
    (device : call.device = some dev) (stage : call.stage = .publishing)
    (moved : Bonds.step cfg s (.advance c .go) = some t) :
    t.identitiesByIP.lookup dev.ip = some call.identity := by
  obtain ⟨call', found', stepped⟩ := bind_eq_some_iff.mp moved
  rw [found] at found'
  cases found'
  rw [stage] at stepped
  obtain ⟨dev', device', rfl⟩ := map_eq_some_iff.mp stepped
  rw [device] at device'
  cases device'
  have usable := h.addressed.usable _ _ (h.device c call dev found device)
  simp only [State.publish, usable, Bool.false_eq_true, if_false]
  rw [lookup_insert, if_pos rfl]

lemma other_address {input other dev'} (inTurn : InTurn s (.advance c input))
    (found : s.calls[c]? = some call) (stage : call.stage = .publishing)
    (device : call.device = some dev) (committed : s.bonds.lookup key = some x)
    (found' : s.calls[x]? = some other) (published : other.published = true)
    (device' : other.device = some dev') : dev'.ip ≠ dev.ip := by
  intro shared
  have apart : x ≠ c := by
    rintro rfl
    rw [found] at found'
    cases found'
    exact ((h.marked x call found).late published).2.2 stage
  have keyed := (h.owned.of_committed committed found').1
  have same : other.bind.deviceID = call.bind.deviceID :=
    h.addressed.distinct _ _ _ _ (h.device x other dev' found' device')
      (h.device c call dev found device) shared
  have unpublished := inTurn call found stage key (mem_keys_iff.mpr ⟨x, committed⟩)
    (by rw [← keyed]; exact same) x committed apart other found'
  simp [published] at unpublished

lemma current_step (inTurn : InTurn s l) (moved : Bonds.step cfg s l = some t)
    (committed : t.bonds.lookup key = some x) (found : t.calls[x]? = some call)
    (published : call.published = true) (device : call.device = some dev) :
    t.identitiesByIP.lookup dev.ip = some call.identity := by
  rcases step_follows h.owned.proper h.marked moved found with ⟨bind, rfl⟩ | ⟨old, before, follows⟩
  · simp at published
  obtain ⟨identity, sameDevice, since⟩ := follows.identity published
  rw [identity]
  rw [sameDevice] at device
  rcases since with earlier | ⟨rfl, stage⟩
  · have notPending := ((h.marked x old before).late earlier).1
    rcases step_shares moved with outside | ⟨c, input, actor, rfl, acting, shares⟩
    · rw [outside.identities]
      exact h.current key x old dev (outside.bonds key x committed) before earlier device
    · have already : s.bonds.lookup key = some x := by
        rcases shares.bonds key x committed with already | ⟨rfl, -, stage⟩
        · exact already
        · rw [before] at acting
          cases acting
          simp [stage, pending] at notPending
      have kept := h.current key x old dev already before earlier device
      rcases shares.identities with same | ⟨dev', stage, device', inserted⟩
      · rw [same]
        exact kept
      · rw [inserted, lookup_insert, if_neg]
        · exact kept
        · exact h.other_address inTurn acting stage device' already before earlier device
  · exact h.publish_lookup before device stage moved

lemma step (inTurn : InTurn s l) (moved : Bonds.step cfg s l = some t) : Attributed t := by
  refine ⟨h.owned.step moved, ?_, (h.store_step moved).1, ?_, ?_⟩
  · have both : ∀ (i : Nat) (call : Call), t.calls[i]? = some call → call.Proper ∧ call.Marked := by
      refine calls_invariant moved (fun _ bind => ⟨.fresh bind, .fresh bind⟩) ?_
        fun i call found => ⟨h.owned.proper i call found, h.marked i call found⟩
      intro i call call' changes kept
      exact ⟨kept.1.changes changes, kept.2.changes kept.1 changes⟩
    exact fun i call found => (both i call found).2
  · intro i call dev found device
    exact h.device_step moved found device
  · intro key x call dev committed found published device
    exact h.current_step inTurn moved committed found published device
end Attributed

def Stage.isReturned : Stage → Bool
  | .returned _ => true
  | _ => false

def State.Quiet (s : State) : Prop := ∀ call ∈ s.calls, call.stage.isReturned = true
deriving Decidable

instance (s : State) (l : Label) : Decidable (InTurn s l) := by
  cases l <;> unfold InTurn <;> infer_instance

/-- When every call publishes in turn, the address of a device with a committed bond leads to
the identity of that bond as soon as no call is running. -/
theorem identity_attributed (cfg : Config) (store : DeviceStore)
    (identities : GoMap String ClientIdentity) (ls : List Label) (s : State)
    (addressed : Addressed store.devices)
    (admitted : Meets (step cfg) InTurn (State.initial store identities) ls)
    (reached : run (step cfg) (State.initial store identities) ls = some s)
    (quiet : s.Quiet) (key : BondKey) (x : Nat) (committed : s.bonds.lookup key = some x) :
    ∃ call dev, s.calls[x]? = some call ∧ call.key = key ∧
      s.store.devices.lookup key.deviceID = some dev ∧
      s.identitiesByIP.lookup dev.ip = some call.identity := by
  have h : Attributed s := invariant_of_meets Attributed.step
    (.initial addressed identities) admitted reached
  obtain ⟨call, found⟩ := h.owned.call_of_committed committed
  obtain ⟨keyed, settled⟩ := h.owned.of_committed committed found
  have returned := quiet call (List.mem_of_getElem? found)
  have decided : call.identityNeedsClose = some false := by
    unfold Call.phase at settled
    cases stage : call.stage <;> simp_all [Stage.isReturned, Stage.phase]
  have published := (h.marked x call found).marked (.inr (.inr decided))
  obtain ⟨dev, device⟩ := ne_none_iff_exists'.mp ((h.marked x call found).equipped published)
  refine ⟨call, dev, found, keyed, ?_, h.current key x call dev committed found published device⟩
  rw [← keyed]
  exact h.device x call dev found device

def settles (c : Nat) : List Label := List.replicate 5 (.advance c .go)

def inOrder : List Label :=
  .acquire (claimant "phone" "first") :: authenticates 0 (session "one") ++ dials 0 ++
    [.advance 0 .go] ++ settles 0 ++ [.acquire (claimant "phone" "second")] ++
    authenticates 1 (session "two") ++ [.advance 1 (.pick 0)] ++ closes 0 ++ [.advance 1 .go] ++
    dials 1 ++ [.advance 1 .go] ++ settles 1

lemma twoDevices_addressed : Addressed twoDevices.devices := by
  have fresh : Addressed ((∅ : GoMap String ClientDevice).insert "phone"
      ⟨"phone", "10.66.66.2", "priv", "pub"⟩) :=
    addressed_empty.insert (by decide) (by decide)
  exact fresh.insert (by decide) (by decide)

theorem identity_attributed_in_order : ∃ s,
    run (step hooked) (State.initial twoDevices ∅) inOrder = some s ∧
      s.bonds.lookup ⟨"phone", "second"⟩ = some 1 ∧
      ∃ call dev, s.calls[1]? = some call ∧ call.key = ⟨"phone", "second"⟩ ∧
        s.store.devices.lookup "phone" = some dev ∧
        s.identitiesByIP.lookup dev.ip = some call.identity := by
  have admitted : Meets (step hooked) InTurn (State.initial twoDevices ∅) inOrder := by
    decide +kernel
  obtain ⟨s, reached, committed, quiet⟩ : ∃ s,
      run (step hooked) (State.initial twoDevices ∅) inOrder = some s ∧
        s.bonds.lookup ⟨"phone", "second"⟩ = some 1 ∧ s.Quiet := by decide +kernel
  exact ⟨s, reached, committed, identity_attributed hooked twoDevices ∅ inOrder s
    twoDevices_addressed admitted reached quiet ⟨"phone", "second"⟩ 1 committed⟩

/-- The first call is slow after its commit. The second one takes over, publishes and returns
before the first one publishes. -/
def slowLoser : List Label := takeover ++ settles 1 ++ settles 0

/-- The identity of a retired run stays behind the address. -/
theorem slow_loser_overwrites : ∃ s call,
    run (step hooked) (State.initial twoDevices ∅) slowLoser = some s ∧ s.Quiet ∧
      s.bonds.lookup ⟨"phone", "second"⟩ = some 1 ∧ s.calls[1]? = some call ∧
      call.identity = session "two" ∧
      s.identitiesByIP.lookup "10.66.66.2" = some (session "one") := by decide +kernel

namespace Call

/-- The run of an authenticated call has ended: its bond is closed, or it returned without
one of its own. -/
def runEnded (call : Call) : Bool :=
  match call.bond with
  | some bond => bond.closeOnce == .done
  | none =>
    match call.stage with
    | .returned _ => call.identityNeedsClose == some true
    | _ => false

lemma runEnded_of_running {call : Call} (unbound : call.bond = none)
    (running : ∀ answer, call.stage ≠ .returned answer) : call.runEnded = false := by
  unfold runEnded
  rw [unbound]
  cases stage : call.stage with
  | returned answer => exact absurd stage (running answer)
  | _ => rfl

structure Accounted (cfg : Config) (i : Nat) (call : Call) : Prop where
  proper : call.Proper
  count : call.doneCalls = if cfg.notifies call && call.runEnded then 1 else 0
  bound : cfg.notifies call = true → call.bond ≠ none →
    call.stage.live = true ∨ call.identityNeedsClose = some false
  unbound : call.bond = none → call.stage.live = false ∧ call.stage.defeated = false ∧
    call.identityNeedsClose ≠ some false ∧ (call.wgOpen = true → call.stage.dialled = true)
  socket : ∀ bond, call.bond = some bond → bond.closeOnce.socketClosed = true → call.wgOpen = false
  own : call.identityNeedsClose = some false → ∃ answer, answer.bond = some i ∧
    (call.stage = .unwinding answer ∨ call.stage = .returned answer)

namespace Accounted
lemma fresh (bind : BondBind) : Accounted cfg i { bind := bind } where
  proper := .fresh bind
  count := by simp [runEnded]
  bound := by simp
  unbound := by simp [Stage.live, Stage.defeated]
  socket := by simp
  own := by simp

section
variable (h : Accounted cfg i call)
include h
lemma uncounted (unbound : call.bond = none) (running : ∀ answer, call.stage ≠ .returned answer) :
    call.doneCalls = 0 := by
  simpa [runEnded_of_running unbound running] using h.count

lemma setup {was : Stage} (before : call.stage = was) (pending : was.pending = true := by rfl) :
    call.bond = none ∧ call.doneCalls = 0 ∧ call.identityNeedsClose ≠ some false := by
  subst before
  have unbound := h.proper.unbound pending
  refine ⟨unbound, h.uncounted unbound ?_, (h.unbound unbound).2.2.1⟩
  intro answer returned
  simp [returned, Stage.pending] at pending

lemma unopened {was : Stage} (unbound : call.bond = none) (before : call.stage = was)
    (early : was.dialled = false := by rfl) : call.wgOpen = false := by
  subst before
  by_contra opened
  have dialled := (h.unbound unbound).2.2.2 (by simpa using opened)
  simp [early] at dialled
end

lemma early (proper : call'.Proper) (unbound : call'.bond = none) (zero : call'.doneCalls = 0)
    (running : ∀ answer, call'.stage ≠ .returned answer)
    (stage : call'.stage.live = false ∧ call'.stage.defeated = false)
    (undecided : call'.identityNeedsClose ≠ some false)
    (socket : call'.wgOpen = true → call'.stage.dialled = true) : Accounted cfg i call' where
  proper := proper
  count := by simp [zero, runEnded_of_running unbound running]
  bound := by simp [unbound]
  unbound := fun _ => ⟨stage.1, stage.2, undecided, socket⟩
  socket := by simp [unbound]
  own := fun decided => absurd decided undecided

lemma late (bond : ServerBond) (proper : call'.Proper) (present : call'.bond = some bond)
    (count : call'.doneCalls = if cfg.notifies call' && (bond.closeOnce == .done) then 1 else 0)
    (bound : cfg.notifies call' = true →
      call'.stage.live = true ∨ call'.identityNeedsClose = some false)
    (socket : bond.closeOnce.socketClosed = true → call'.wgOpen = false)
    (own : call'.identityNeedsClose = some false → ∃ answer, answer.bond = some i ∧
      (call'.stage = .unwinding answer ∨ call'.stage = .returned answer)) :
    Accounted cfg i call' where
  proper := proper
  count := by
    unfold runEnded
    rw [present]
    exact count
  bound := fun notifies _ => bound notifies
  unbound := by simp [present]
  socket := by
    intro bond' present'
    rw [present] at present'
    cases present'
    exact socket
  own := own

lemma unasked (bond : ServerBond) (proper : call'.Proper) (present : call'.bond = some bond)
    (silent : cfg.notifies call' = false) (zero : call'.doneCalls = 0)
    (socket : bond.closeOnce.socketClosed = true → call'.wgOpen = false)
    (undecided : call'.identityNeedsClose ≠ some false) : Accounted cfg i call' := by
  refine late bond proper present ?_ ?_ socket fun decided => absurd decided undecided
  · simp [silent, zero]
  · intro notifies
    simp [silent] at notifies

variable (h : Accounted cfg i call)
include h
lemma count_of_bond {bond : ServerBond} (present : call.bond = some bond) :
    call.doneCalls = if cfg.notifies call && (bond.closeOnce == .done) then 1 else 0 := by
  have count := h.count
  unfold runEnded at count
  rw [present] at count
  exact count

lemma silent_of_defeated (defeated : call.stage.defeated = true) :
    cfg.notifies call = false ∧ ∃ bond, call.bond = some bond := by
  have running := Stage.not_ended_of_defeated defeated
  cases present : call.bond with
  | none => simp [(h.unbound present).2.1] at defeated
  | some bond =>
    refine ⟨?_, bond, rfl⟩
    by_contra notifies
    rcases h.bound (by simpa using notifies) (by simp [present]) with live | decided
    · cases stage : call.stage <;> simp_all [Stage.live, Stage.defeated]
    · exact h.proper.undecided running decided

lemma bond_of_live (live : call.stage.live = true) : ∃ bond, call.bond = some bond := by
  cases present : call.bond with
  | none => simp [(h.unbound present).1] at live
  | some bond => exact ⟨bond, rfl⟩

lemma onward (live : call.stage.live = true) (proper : call'.Proper)
    (live' : call'.stage.live = true) (bond : call'.bond = call.bond)
    (identity : call'.identity = call.identity) (count : call'.doneCalls = call.doneCalls)
    (socket : call'.wgOpen = call.wgOpen)
    (needs : call'.identityNeedsClose = call.identityNeedsClose) : Accounted cfg i call' := by
  obtain ⟨bond', present⟩ := h.bond_of_live live
  have running : call.stage.ended = false := by
    cases stage : call.stage <;> simp_all [Stage.live, Stage.ended]
  refine late bond' proper (bond.trans present) ?_ (fun _ => .inl live') ?_ ?_
  · rw [count, h.count_of_bond present, Config.notifies, Config.notifies, identity]
  · rw [socket]
    exact h.socket bond' present
  · intro decided
    rw [needs] at decided
    exact absurd decided (h.proper.undecided running)
end Accounted
end Call
namespace Stage
lemma plain_of_next {stage : Stage} (h : stage.pending = true ∨ stage.leaving = true) :
    (∀ answer, stage ≠ .returned answer) ∧ stage.live = false ∧ stage.defeated = false := by
  cases stage <;> simp_all [pending, leaving, live, defeated]
end Stage

/-- If call `c` calls `finishBondClaim` with its bond, and its identity is accountable, the
server has not been closed. -/
def InTime (cfg : Config) (c : Nat) (s : State) : Label → Prop
  | .advance i _ => i = c → ∀ call ∈ s.calls[c]?, call.stage = .committing →
    cfg.notifies call = true → s.bondClosed = false
  | _ => True

lemma Call.Accounted.unwind {answer : Answer} (h : Accounted cfg i call)
    (before : call.stage = .unwinding answer)
    (proper : Call.Proper
      { if call.identityNeedsClose = some true then call.notify cfg else call with
        stage := .returned answer }) :
    Accounted cfg i
      { if call.identityNeedsClose = some true then call.notify cfg else call with
        stage := .returned answer } := by
  cases present : call.bond with
  | none =>
    have undecided := (h.unbound present).2.2.1
    have zero := h.uncounted present (by simp [before])
    have closed := h.unopened present before
    by_cases failed : call.identityNeedsClose = some true
    · simp only [failed, if_true] at proper ⊢
      refine ⟨proper, ?_, ?_, ?_, ?_, ?_⟩
      · simp [notify, Call.runEnded, present, failed, zero, Config.notifies]
      · simp [notify, present]
      · simp [notify, Stage.live, Stage.defeated, failed, closed]
      · simp [notify, present]
      · simp [notify, failed]
    · simp only [failed, if_false] at proper ⊢
      refine ⟨proper, ?_, ?_, ?_, ?_, ?_⟩
      · simp [Call.runEnded, present, failed, zero]
      · simp [present]
      · simp [Stage.live, Stage.defeated, undecided, closed]
      · simp [present]
      · exact fun decided => absurd decided undecided
  | some bond =>
    have count := h.count_of_bond present
    by_cases failed : call.identityNeedsClose = some true
    · have silent : cfg.notifies call = false := by
        by_contra notifies
        rcases h.bound (by simpa using notifies) (by simp [present]) with live | decided
        · simp [before, Stage.live] at live
        · simp [failed] at decided
      have quiet : call.notify cfg = call := by
        unfold notify
        rw [silent]
        rfl
      have zero : call.doneCalls = 0 := by simpa [silent] using count
      simp only [failed, if_true, quiet] at proper ⊢
      exact .unasked bond proper present silent zero (h.socket bond present) (by simp)
    · simp only [failed, if_false] at proper ⊢
      refine .late bond proper present count ?_ (h.socket bond present) ?_
      · intro notifies
        rcases h.bound notifies (by simp [present]) with live | decided
        · simp [before, Stage.live] at live
        · exact .inr decided
      · intro decided
        obtain ⟨answer', own, stage⟩ := h.own decided
        refine ⟨answer, ?_, .inr rfl⟩
        rcases stage with unwinding | returned
        · rw [before] at unwinding
          cases unwinding
          exact own
        · simp [before] at returned

lemma Call.Accounted.closeStep {bond : ServerBond} {next : Call}
    (h : Accounted cfg i call) (present : call.bond = some bond)
    (moved : call.closeStep cfg bond = some next)
    (proper : next.Proper) : Accounted cfg i next := by
  have count := h.count_of_bond present
  have bound := fun notifies => h.bound notifies (by simp [present])
  unfold Call.closeStep at moved
  split at moved
  · cases moved
  · rename_i once
    cases moved
    refine .late _ proper rfl ?_ bound ?_ h.own
    · simpa [once] using count
    · simp [CloseOnce.socketClosed]
  · rename_i once
    cases moved
    refine .late _ proper rfl ?_ bound (fun _ => rfl) h.own
    simpa [once] using count
  · rename_i once
    cases moved
    refine .late _ proper rfl ?_ bound ?_ h.own
    · simpa [once] using count
    · exact fun _ => h.socket bond present (by rw [once]; rfl)
  · rename_i once
    cases moved
    refine .late { bond with closeOnce := .done } proper rfl ?_ bound ?_ h.own
    · rw [once] at count
      simpa [notify, Config.notifies] using count
    · exact fun _ => h.socket bond present (by rw [once]; rfl)
  · cases moved

open Call in
lemma Call.Accounted.changes {call call' : Call} (owned : Owned s) (inTime : InTime cfg i s l)
    (changes : Changes cfg s l i call call') (h : Accounted cfg i call) :
    Accounted cfg i call' := by
  have proper := h.proper.changes changes
  cases changes with
  | move stage before after socket =>
    obtain ⟨running, plain⟩ := Stage.plain_of_next after
    obtain ⟨unbound, zero, undecided⟩ := h.setup rfl before
    refine .early proper unbound zero running plain undecided ?_
    intro opened
    show stage.dialled = true
    rw [← socket]
    exact (h.unbound unbound).2.2.2 opened
  | identify identity before =>
    obtain ⟨unbound, zero, -⟩ := h.setup before
    have closed := h.unopened unbound before
    exact .early proper unbound zero (by simp) ⟨rfl, rfl⟩ (by simp) (by simp [closed])
  | equip dev config env before label recorded =>
    obtain ⟨unbound, zero, undecided⟩ := h.setup before
    have closed := h.unopened unbound before
    exact .early proper unbound zero (by simp) ⟨rfl, rfl⟩ undecided (by simp [closed])
  | dial before =>
    obtain ⟨unbound, zero, undecided⟩ := h.setup before
    exact .early proper unbound zero (by simp) ⟨rfl, rfl⟩ undecided fun _ => rfl
  | discard text before =>
    obtain ⟨unbound, zero, undecided⟩ := h.setup before
    exact .early proper unbound zero (by simp) ⟨rfl, rfl⟩ undecided (by simp)
  | commit before label working absent =>
    obtain ⟨-, zero, undecided⟩ := h.setup before
    refine .late {} proper rfl ?_ (fun _ => .inl rfl) ?_ fun decided => absurd decided undecided
    · simpa using zero
    · simp [CloseOnce.socketClosed]
  | lose winner before label recorded late =>
    obtain ⟨-, zero, undecided⟩ := h.setup before
    -- The key is free, so only a closed server withholds the commit.
    have silent : cfg.notifies call = false := by
      by_contra notifies
      subst label
      have working := inTime rfl call recorded before (by simpa using notifies)
      rcases late with closed | present
      · simp [working] at closed
      · exact present (owned.absent_of_committing recorded before)
    exact .unasked {} proper rfl silent zero (by simp [CloseOnce.socketClosed]) undecided
  | concede stage before after =>
    obtain ⟨silent, bond, present⟩ := h.silent_of_defeated before
    have zero : call.doneCalls = 0 := by simpa [silent] using h.count_of_bond present
    exact .unasked bond proper present silent zero (h.socket bond present)
      (h.proper.undecided (Stage.not_ended_of_defeated before))
  | arm before | spawn before => exact h.onward (by rw [before]; rfl) proper rfl rfl rfl rfl rfl rfl
  | publish dev before label recorded device =>
    exact h.onward (by rw [before]; rfl) proper rfl rfl rfl rfl rfl rfl
  | settle before =>
    obtain ⟨bond, present⟩ := h.bond_of_live (by rw [before]; rfl)
    exact .late bond proper present (h.count_of_bond present) (fun _ => .inr rfl)
      (h.socket bond present) fun _ => ⟨_, rfl, .inl rfl⟩
  | unwind answer before => exact h.unwind before proper
  | touch bond next found touches =>
    have done : (next.closeOnce == .done) = (bond.closeOnce == .done) := by
      rcases touches.once with same | ⟨fresh, started⟩
      · rw [same]
      · rw [fresh, started]
        rfl
    refine .late next proper rfl ?_ ?_ ?_ h.own
    · rw [done]
      exact h.count_of_bond found
    · intro notifies
      exact h.bound notifies (by simp [found])
    · intro closed
      refine h.socket bond found ?_
      rcases touches.once with same | ⟨-, started⟩
      · rwa [same] at closed
      · simp [started, CloseOnce.socketClosed] at closed
  | closeStep next bond found moved => exact h.closeStep found moved proper
  | cancel | attach attachment => exact { h with proper := proper }

instance (cfg : Config) (c : Nat) (s : State) (l : Label) : Decidable (InTime cfg c s l) := by
  rcases l with ⟨⟩ <;> unfold InTime <;> infer_instance

/-- The run of the call's identity is over: `acquireBond` returned without a bond of its own, or
its bond has been closed. -/
def Call.RunOver (c : Nat) (call : Call) : Prop :=
  (∃ answer, call.stage = .returned answer ∧ answer.bond ≠ some c) ∨
    ∃ bond, call.bond = some bond ∧ bond.closeOnce = .done

lemma Call.Accounted.runEnded (h : Accounted cfg c call) (notifies : cfg.notifies call = true)
    (authenticated : call.identityNeedsClose ≠ none) (ended : call.RunOver c) :
    call.runEnded = true := by
  rcases ended with ⟨answer, returned, foreign⟩ | ⟨bond, present, done⟩
  · have undecided : call.identityNeedsClose ≠ some false := by
      intro decided
      obtain ⟨answer', own, unwinding | returned'⟩ := h.own decided
      · simp [returned] at unwinding
      · rw [returned] at returned'
        cases returned'
        exact foreign own
    have failed : call.identityNeedsClose = some true := by
      cases needs : call.identityNeedsClose with
      | none => exact absurd needs authenticated
      | some flag => cases flag <;> simp_all
    cases present : call.bond with
    | none => simp [Call.runEnded, present, returned, failed]
    | some bond =>
      rcases h.bound notifies (by simp [present]) with live | decided
      · simp [returned, Stage.live] at live
      · exact absurd decided undecided
  · simp [Call.runEnded, present, done]

lemma Call.Accounted.running_of_open (h : Accounted cfg c call) (opened : call.wgOpen = true) :
    call.runEnded = false := by
  cases present : call.bond with
  | none =>
    have dialled := (h.unbound present).2.2.2 opened
    cases stage : call.stage <;> simp_all [Call.runEnded, Stage.dialled]
  | some bond =>
    by_contra ended
    have done : bond.closeOnce = .done := by simpa [Call.runEnded, present] using ended
    simp [h.socket bond present (by rw [done]; rfl)] at opened

structure Accounts (cfg : Config) (c : Nat) (s : State) : Prop where
  owned : Owned s
  call : ∀ (i : Nat) (call : Call), s.calls[i]? = some call → i = c → call.Accounted cfg i

lemma Accounts.initial (store : DeviceStore) (identities : GoMap String ClientIdentity) :
    Accounts cfg c (State.initial store identities) := by
  refine ⟨.initial store identities, ?_⟩
  intro i call found
  simp [State.initial] at found

lemma Accounts.step (h : Accounts cfg c s) (inTime : InTime cfg c s l)
    (moved : Bonds.step cfg s l = some t) : Accounts cfg c t := by
  refine ⟨h.owned.step moved, calls_invariant moved (fun _ bind _ => .fresh bind) ?_ h.call⟩
  rintro i call call' changes kept rfl
  exact (kept rfl).changes h.owned inTime changes

/-- Unless a call commits after the server was closed, `OnIdentityDone` runs once for its
identity when its run is over, and not while its bond is committed and open. -/
theorem identity_done_once (cfg : Config) (store : DeviceStore)
    (identities : GoMap String ClientIdentity) (ls : List Label) (s : State)
    (hook : cfg.onIdentityDone = true) (c : Nat)
    (admitted : Meets (step cfg) (InTime cfg c) (State.initial store identities) ls)
    (reached : run (step cfg) (State.initial store identities) ls = some s)
    (call : Call) (found : s.calls[c]? = some call)
    (authenticated : call.identityNeedsClose ≠ none) (session : call.identity.sessionID ≠ "") :
    call.doneCalls ≤ 1 ∧ (call.RunOver c → call.doneCalls = 1) ∧
      (s.bonds.lookup call.key = some c → call.wgOpen = true → call.doneCalls = 0) := by
  have accounts : Accounts cfg c s :=
    invariant_of_meets Accounts.step (.initial store identities) admitted reached
  have h := accounts.call c call found rfl
  have notifies : cfg.notifies call = true := by simp [Config.notifies, hook, session]
  have count : call.doneCalls = if call.runEnded then 1 else 0 := by
    simpa [notifies] using h.count
  refine ⟨?_, ?_, ?_⟩
  · rw [count]
    split_ifs <;> omega
  · intro ended
    simp [count, h.runEnded notifies authenticated ended]
  · intro _ opened
    simp [count, h.running_of_open opened]

theorem identity_done_once_takeover : ∃ s call,
    run (step hooked) (State.initial twoDevices ∅) takeover = some s ∧
      s.calls[0]? = some call ∧ call.identity = session "one" ∧ call.doneCalls = 1 := by
  have admitted : Meets (step hooked) (InTime hooked 0) (State.initial twoDevices ∅) takeover := by
    decide +kernel
  refine Machine.Runs.exists_two_of (P := fun _ call => call.identity = session "one" ∧
    call.identityNeedsClose ≠ none ∧ ∃ bond, call.bond = some bond ∧ bond.closeOnce = .done)
    (by decide +kernel) ?_
  rintro s call reached found ⟨identity, authenticated, bond, present, done⟩
  have once := identity_done_once hooked twoDevices ∅ takeover s rfl 0 admitted reached call found
    authenticated (by rw [identity]; decide)
  exact ⟨identity, once.2.1 (.inr ⟨bond, present, done⟩)⟩

def lostCommit : List Label :=
  .acquire (claimant "phone" "first") :: authenticates 0 (session "one") ++ dials 0 ++
    [.shutdown, .advance 0 .go, .advance 0 .go] ++ closes 0 ++
    [.advance 0 .go, .advance 0 .go, .advance 0 .go]

/-- The bond that was not committed reports its identity when it is closed, and the deferred
function of the call reports it again. -/
theorem lost_commit_reports_twice : ∃ s call,
    run (step hooked) (State.initial twoDevices ∅) lostCommit = some s ∧
      s.calls[0]? = some call ∧ call.identity = session "one" ∧
      call.stage = .returned (State.errorAnswer "server_shutdown") ∧ call.doneCalls = 2 := by
  decide +kernel
end Tamizdat.Wgturn.Bonds
