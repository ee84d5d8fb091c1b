/- source: internal/outbounds/balancer.go, internal/outbounds/registry.go
   digest: The outbounds of the server: cooldowns, dialers, leases, reloads, and their steps. -/

import Tamizdat.Machine.Runs
import Tamizdat.Machine.Maps
import Tamizdat.Routing.Rules

set_option autoImplicit false

open List Option
namespace Tamizdat.Outbounds
open Machine Pool
namespace Cooldowns
open Machine.Runs

inductive Stage
  | choose
  | attempt (member : Nat)
  /-- The attempt has failed; `live` says whether the caller's context was live then. -/
  | note (member : Nat) (live : Bool)
  | check | ended

structure Call where
  live : Bool := true
  todo : List Nat
  stage : Stage := .choose

structure Blame where
  member : Nat
  live : Bool
deriving DecidableEq

structure Balancer where
  aliveCooldown : Int
  cooldowns : List Int
  calls : List Call := []
  /-- Who set the cooldowns, the last first. -/
  blames : List Blame := []

def newBalancerDialer (members : Nat) (aliveCooldown : Int) : Balancer :=
  { aliveCooldown := aliveCooldown, cooldowns := List.replicate members 0 }

namespace Balancer
variable (b : Balancer)
def noteFailure (member : Nat) (live : Bool) (now : Int) : Balancer :=
  if b.aliveCooldown ≤ 0 ∨ b.cooldowns.length ≤ member then b
  else { b with
    cooldowns := b.cooldowns.set member (now + b.aliveCooldown)
    blames := ⟨member, live⟩ :: b.blames }

def noteSuccess (member : Nat) : Balancer := { b with cooldowns := b.cooldowns.set member 0 }

/-- The loop over the ordered members. `succeeds` is the answer of the member, and the context is
looked at only after the failure is noted. -/
def advance (call : Call) (succeeds : Bool) (now : Int) : Option (Balancer × Call) :=
  match call.stage with
  | .choose =>
    some (match call.todo with
      | [] => (b, { call with stage := .ended })
      | member :: todo => (b, { call with todo := todo, stage := .attempt member }))
  | .attempt member =>
    some (if succeeds then (b.noteSuccess member, { call with stage := .ended })
      else (b, { call with stage := .note member call.live }))
  | .note member live => some (b.noteFailure member live now, { call with stage := .check })
  | .check => some (b, { call with stage := if call.live then .choose else .ended })
  | .ended => none

inductive Label
  /-- A dial, with the order in which `orderedMembers` lists the members. -/
  | dial (order : List Nat)
  /-- The caller cancels, or its deadline passes. -/
  | cancel (call : Nat)
  | move (call : Nat) (succeeds : Bool) (now : Int)

def step : Label → Option Balancer
  | .dial order => some { b with calls := b.calls ++ [{ todo := order }] }
  | .cancel i =>
    b.calls[i]?.map fun call => { b with calls := b.calls.set i { call with live := false } }
  | .move i succeeds now =>
    b.calls[i]?.bind fun call =>
      (b.advance call succeeds now).map fun after => { after.1 with calls := b.calls.set i after.2 }

/-- No caller's context ends while a member is being tried, or chosen, for it. -/
def Patient : Label → Prop
  | .cancel i => ∀ call ∈ b.calls[i]?, call.stage ≠ .choose ∧ ∀ member, call.stage ≠ .attempt member
  | _ => True
end Balancer

/-- A caller whose member is chosen, tried or about to be blamed was live up to then. -/
def Call.Own (call : Call) : Prop :=
  match call.stage with
  | .choose | .attempt _ => call.live = true
  | .note _ live => live = true
  | .check | .ended => True

structure Fair (b : Balancer) : Prop where
  own : ∀ call ∈ b.calls, call.Own
  live : ∀ blame ∈ b.blames, blame.live = true
  owed : ∀ member t, b.cooldowns[member]? = some t → t ≠ 0 →
    ∃ blame ∈ b.blames, blame.member = member

namespace Fair
variable {b b' : Balancer} {call : Call}
lemma noteFailure (h : Fair b) (member : Nat) (now : Int) :
    Fair (b.noteFailure member true now) := by
  unfold Balancer.noteFailure
  split_ifs with ignored
  · exact h
  · refine ⟨h.own, forall_mem_cons.mpr ⟨rfl, h.live⟩, ?_⟩
    intro other t found lasting
    by_cases same : other = member
    · exact ⟨_, mem_cons_self, same.symm⟩
    · rw [getElem?_set_ne (Ne.symm same)] at found
      obtain ⟨blame, listed, whose⟩ := h.owed other t found lasting
      exact ⟨blame, mem_cons_of_mem _ listed, whose⟩

lemma noteSuccess (h : Fair b) (member : Nat) : Fair (b.noteSuccess member) := by
  refine ⟨h.own, h.live, fun other t found lasting => ?_⟩
  rw [Balancer.noteSuccess, getElem?_set] at found
  split_ifs at found
  · exact absurd (some.inj found).symm lasting
  · exact h.owed other t found lasting

lemma advance (h : Fair b) (own : call.Own) {succeeds : Bool} {now : Int} {after : Balancer × Call}
    (moved : b.advance call succeeds now = some after) : Fair after.1 ∧ after.2.Own := by
  obtain ⟨live, todo, stage⟩ := call
  cases stage with
  | choose =>
    cases moved
    cases todo with
    | nil => exact ⟨h, trivial⟩
    | cons member todo => exact ⟨h, own⟩
  | attempt member =>
    cases moved
    cases succeeds with
    | true => exact ⟨h.noteSuccess member, trivial⟩
    | false => exact ⟨h, own⟩
  | note member live =>
    cases moved
    cases own
    exact ⟨h.noteFailure member now, trivial⟩
  | check =>
    cases moved
    refine ⟨h, ?_⟩
    cases live <;> simp [Call.Own]
  | ended => cases moved

lemma step {l} (h : Fair b) (patient : b.Patient l) (moved : b.step l = some b') : Fair b' := by
  cases l with
  | dial order =>
    cases moved
    exact ⟨forall_snoc h.own rfl, h.live, h.owed⟩
  | cancel i =>
    obtain ⟨call, here, rfl⟩ := map_eq_some_iff.mp moved
    refine ⟨forall_set h.own ?_, h.live, h.owed⟩
    obtain ⟨unchosen, untried⟩ := patient call here
    have own := h.own call (mem_of_getElem? here)
    obtain ⟨live, todo, stage⟩ := call
    cases stage with
    | choose => exact absurd rfl unchosen
    | attempt member => exact absurd rfl (untried member)
    | note member live => exact own
    | check | ended => trivial
  | move i succeeds now =>
    obtain ⟨call, after, here, advanced, rfl⟩ := moved_eq_some moved
    obtain ⟨fair, own⟩ := h.advance (h.own call (mem_of_getElem? here)) advanced
    exact ⟨forall_set h.own own, fair.live, fair.owed⟩
end Fair

/-- If no caller's context ends while a member is chosen or tried for it, then in every
interleaving of dials each cooldown is owed to an attempt that failed under a live caller. -/
theorem cooldown_owed_to_own_failure {members : Nat} {aliveCooldown : Int}
    {labels : List Balancer.Label} {b : Balancer}
    (patient : Meets Balancer.step Balancer.Patient (newBalancerDialer members aliveCooldown)
      labels)
    (arrive : run Balancer.step (newBalancerDialer members aliveCooldown) labels = some b) :
    (∀ blame ∈ b.blames, blame.live = true) ∧ ∀ member t, b.cooldowns[member]? = some t → t ≠ 0 →
        ∃ blame ∈ b.blames, blame.member = member := by
  have start : Fair (newBalancerDialer members aliveCooldown) := by
    refine ⟨by simp [newBalancerDialer], by simp [newBalancerDialer], ?_⟩
    intro member t found lasting
    rw [newBalancerDialer, getElem?_replicate] at found
    split_ifs at found
    exact absurd (some.inj found).symm lasting
  have fair := invariant_of_meets Fair.step start patient arrive
  exact ⟨fair.live, fair.owed⟩

def failover : List Balancer.Label :=
  [.dial [0, 1], .move 0 true 0, .move 0 false 1, .move 0 false 2, .move 0 false 3, .move 0 false 4,
    .move 0 true 5]

theorem failover_owed_to_first : ∃ b,
    run Balancer.step (newBalancerDialer 2 30) failover = some b ∧ b.cooldowns = [32, 0] ∧
      ∃ blame ∈ b.blames, blame.member = 0 := by
  refine exists_some_and (by decide) fun b arrive cooldowns => ?_
  refine (cooldown_owed_to_own_failure ?_ arrive).2 0 32 ?_ (by decide)
  · simp [Meets, failover, Balancer.Patient]
  · rw [cooldowns]
    rfl

/-- The caller gives up while the first member is tried, and the member is passed over for it. -/
theorem cancelled_dial_blames_member : ∃ b,
    run Balancer.step (newBalancerDialer 2 30) [.dial [0, 1], .move 0 true 0, .cancel 0,
      .move 0 false 1, .move 0 false 2] = some b ∧ b.cooldowns = [32, 0] ∧
      b.blames = [⟨0, false⟩] := by
  decide
end Cooldowns
open Machine.Maps (GoMap)
open Routing (Text trimSpace)

/-- The dialers that a registry holds. The members of a balancer are tracked dialers, and a
tracked dialer is named by the order of its creation. -/
inductive Dialer
  | direct | tamizdat | blackhole
  | balancer (members : List Nat)
deriving DecidableEq

def Dialer.members : Dialer → List Nat
  | .balancer members => members
  | _ => []

def Dialer.isBalancer : Dialer → Bool
  | .balancer _ => true
  | _ => false

/-- `trackedDialer`. Each of its methods is one critical section of `mu`; a method that decides
to close the dialer calls `Close` only after it has given `mu` back. -/
structure TrackedDialer where
  tag : Text
  dialer : Dialer
  active : Nat
  retired : Bool
  closed : Bool
  /-- How often `Close` of the dialer has been called. -/
  closes : Nat

def newTrackedDialer (tag : Text) (d : Dialer) : TrackedDialer := ⟨tag, d, 0, false, false, 0⟩

namespace TrackedDialer
variable (t : TrackedDialer)
def acquire : TrackedDialer := { t with active := t.active + 1 }

/-- The second component says that the caller goes on to call `Close`. -/
def retire : TrackedDialer × Bool :=
  if t.retired then (t, false)
  else if 0 < t.active ∨ t.closed then ({ t with retired := true }, false)
  else ({ t with retired := true, closed := true }, true)

def release : TrackedDialer × Bool :=
  if !t.retired ∨ 0 < t.active - 1 ∨ t.closed then ({ t with active := t.active - 1 }, false)
  else ({ t with active := t.active - 1, closed := true }, true)

def close : TrackedDialer := { t with closes := t.closes + 1 }
end TrackedDialer

/-- Who answers for a lease. `closing` and `released` are the two halves of `once.Do`. -/
inductive Hold
  | caller
  | dialing
  | conn | closing | released
deriving DecidableEq

structure Lease where
  dialer : Nat
  hold : Hold
  /-- Was the lease acquired before the dialer was marked closed? -/
  early : Bool

structure Heap where
  dialers : List TrackedDialer
  leases : List Lease

def Heap.acquire (h : Heap) (d : Nat) (t : TrackedDialer) (hold : Hold) : Heap where
  dialers := h.dialers.set d t.acquire
  leases := h.leases ++ [⟨d, hold, !t.closed⟩]

def Heap.release (h : Heap) (l : Nat) (lease : Lease) (t : TrackedDialer) : Heap where
  dialers := h.dialers.set lease.dialer t.release.1
  leases := h.leases.set l { lease with hold := .released }

inductive Thread
  /-- `Reload` or `Close` of the registry, with what is left of the loop over the old map. -/
  | retire (todo : List Nat)
  | retireClose (d : Nat) (todo : List Nat)
  | release (lease : Nat)
  | releaseClose (d : Nat)
  | dial (lease : Nat)
  | forward (lease : Nat)
  /-- The loop of a balancer over its members. -/
  | members (lease : Nat) (todo : List Nat)
  | attempt (lease inner : Nat) (todo : List Nat)
  | memberForward (lease inner : Nat) (todo : List Nat)
  | giveBack (lease inner : Nat) (todo : List Nat)
  | giveBackClose (lease d : Nat) (todo : List Nat)
  /-- The dial has succeeded through `via`, which had (not) been closed by then. -/
  | connected (lease via : Nat) (unclosed : Bool)
  | failed (lease : Nat)
  | returned
deriving DecidableEq

inductive Choice
  | go
  | pick (d : Nat)
  | order (members : List Nat)
  /-- The dial fails although its dialer has been asked. -/
  | fails
  | expired
deriving DecidableEq

namespace Heap
variable (h : Heap)
def retireNext (todo : List Nat) (d : Nat) : Option (Heap × Thread) :=
  if d ∈ todo then
    h.dialers[d]?.map fun t =>
      ({ h with dialers := h.dialers.set d t.retire.1 },
        if t.retire.2 then .retireClose d (todo.erase d) else .retire (todo.erase d))
  else none

def closeDialer (d : Nat) (next : Thread) : Option (Heap × Thread) :=
  h.dialers[d]?.map fun t => ({ h with dialers := h.dialers.set d t.close }, next)

/-- `release` of the dialer of a lease; `closes` is where the caller goes on if it has to close
the dialer. -/
def releaseLease (l : Nat) (closes : Nat → Thread) (next : Thread) : Option (Heap × Thread) :=
  h.leases[l]?.bind fun lease => h.dialers[lease.dialer]?.map fun t =>
    (h.release l lease t, if t.release.2 then closes lease.dialer else next)

def beginDial (l : Nat) (choice : Choice) : Option (Heap × Thread) :=
  h.leases[l]?.bind fun lease => h.dialers[lease.dialer]?.bind fun t =>
    if t.closed then some (h, .failed l)
    else match t.dialer, choice with
      | .balancer members, .order ordered =>
        if ordered.Perm members then some (h, .members l ordered) else none
      | .balancer _, _ => none
      | _, _ => some (h, .forward l)

def forwardDial (l : Nat) (choice : Choice) : Option (Heap × Thread) :=
  if choice = .fails then some (h, .failed l)
  else h.leases[l]?.bind fun lease => h.dialers[lease.dialer]?.map fun t =>
    (h, .connected l lease.dialer (t.closes = 0))

def nextMember (l : Nat) : List Nat → Option (Heap × Thread)
  | [] => some (h, .failed l)
  | d :: todo =>
    h.dialers[d]?.map fun t => (h.acquire d t .dialing, .attempt l h.leases.length todo)

def attemptMember (l inner : Nat) (todo : List Nat) : Option (Heap × Thread) :=
  h.leases[inner]?.bind fun lease => h.dialers[lease.dialer]?.map fun t =>
    (h, if t.closed then .giveBack l inner todo else .memberForward l inner todo)

def forwardMember (l inner : Nat) (todo : List Nat) (choice : Choice) : Option (Heap × Thread) :=
  if choice = .fails then some (h, .giveBack l inner todo)
  else h.leases[inner]?.bind fun lease => h.dialers[lease.dialer]?.map fun t =>
    ({ h with leases := h.leases.set inner { lease with hold := .conn } },
      .connected l lease.dialer (t.closes = 0))

def advance (choice : Choice) : Thread → Option (Heap × Thread)
  | .retire todo =>
    match choice with
    | .pick d => h.retireNext todo d
    | _ => none
  | .retireClose d todo => h.closeDialer d (.retire todo)
  | .release l => h.releaseLease l .releaseClose .returned
  | .releaseClose d => h.closeDialer d .returned
  | .dial l => h.beginDial l choice
  | .forward l => h.forwardDial l choice
  | .members l todo => h.nextMember l todo
  | .attempt l inner todo => h.attemptMember l inner todo
  | .memberForward l inner todo => h.forwardMember l inner todo choice
  | .giveBack l inner todo =>
    -- After the lease is back, an ended context breaks the loop.
    let left := if choice = .expired then [] else todo
    h.releaseLease inner (fun d => .giveBackClose l d left) (.members l left)
  | .giveBackClose l d todo => h.closeDialer d (.members l todo)
  | .connected .. => none
  | .failed _ => none
  | .returned => none
end Heap

/-- The kind of a row of the table `outbounds`, with what becomes of its `uri`: whether
`NewTamizdatDialer` succeeds, and the member tags that `ParseBalancerConfig` returns. -/
inductive RowKind
  | direct
  | tamizdat (made : Bool)
  | blackhole
  | balancer (outbounds : Option (List Text))
  | unsupported
deriving DecidableEq

structure OutboundRow where
  tag : Text
  kind : RowKind
deriving DecidableEq

def directTag : Text := "direct".toList

structure Build where
  next : GoMap Text Nat
  dialers : List TrackedDialer

namespace Build
variable (b : Build)
def add (tag : Text) (d : Dialer) : Build where
  next := b.next.insert tag b.dialers.length
  dialers := b.dialers ++ [newTrackedDialer tag d]

def addPlain (row : OutboundRow) : Option Build :=
  let tag := trimSpace row.tag
  if tag = [] then none
  else match row.kind with
    | .direct => if tag = directTag then some (b.add tag .direct) else none
    | .tamizdat made => if made then some (b.add tag .tamizdat) else none
    | .blackhole => some (b.add tag .blackhole)
    | .balancer _ => some b
    | .unsupported => none

def member (tag memberTag : Text) : Option Nat :=
  if memberTag = tag then none
  else (b.next.lookup memberTag).bind fun d => b.dialers[d]?.bind fun t =>
    if t.dialer.isBalancer then none else some d

def newBalancerDialer (tag : Text) (outbounds : List Text) : Option Dialer :=
  let memberTags := (outbounds.map trimSpace).filter (· ≠ [])
  if memberTags = [] then none
  else (memberTags.mapM (b.member tag)).map .balancer

def addBalancer (row : OutboundRow) : Option Build :=
  let tag := trimSpace row.tag
  match row.kind with
  | .balancer none => none
  | .balancer (some outbounds) => (b.newBalancerDialer tag outbounds).map (b.add tag)
  | _ => some b
end Build

/-- `Reload` up to its critical section: the new dialers, the new map and the new default tag, or
an error. -/
def loadRows (dialers : List TrackedDialer) (rows : List OutboundRow) (setting : Text) :
    Option (Build × Text) :=
  (Runs.run Build.addPlain ⟨∅, dialers⟩ rows).bind fun plain =>
    (Runs.run Build.addBalancer plain rows).bind fun b =>
      let tag := if trimSpace setting = [] then directTag else trimSpace setting
      if (b.next.lookup directTag).isSome ∧ (b.next.lookup tag).isSome then some (b, tag)
      else none

structure State where
  heap : Heap
  byTag : GoMap Text Nat
  defaultTag : Text
  threads : List Thread
  /-- The dialers that the map has ever held. -/
  published : List Nat

def State.old (s : State) : List Nat := Maps.valuesAt s.byTag s.byTag.keys

def State.initial : State where
  heap := ⟨[newTrackedDialer directTag .direct], []⟩
  byTag := (∅ : GoMap Text Nat).insert directTag 0
  defaultTag := directTag
  threads := []
  published := [0]

namespace State
variable (s : State)
def swap (next : GoMap Text Nat) (dialers : List TrackedDialer) (tag : Text) : State where
  heap := { s.heap with dialers := dialers }
  byTag := next
  defaultTag := tag
  threads := s.threads ++ [.retire s.old]
  published := s.published ++ Maps.valuesAt next next.keys

def reload (rows : List OutboundRow) (setting : Text) : State :=
  match loadRows s.heap.dialers rows setting with
  | none => s
  | some (b, tag) => s.swap b.next b.dialers tag

def close : State := s.swap ∅ s.heap.dialers directTag

def resolveFresh : State :=
  let t := newTrackedDialer directTag .direct
  let made := { s.heap with dialers := s.heap.dialers ++ [t] }
  { s with heap := made.acquire s.heap.dialers.length t .caller }

def lease (d : Nat) : Option State :=
  s.heap.dialers[d]?.map fun t => { s with heap := s.heap.acquire d t .caller }

def lookup (tag : Text) : Option Nat :=
  let resolved := if trimSpace tag = [] then s.defaultTag else trimSpace tag
  (s.byTag.lookup resolved).or (s.byTag.lookup directTag)

def resolve (tag : Text) : Option State :=
  match s.lookup tag with
  | none => some s.resolveFresh
  | some d => s.lease d

def resolveExact (tag : Text) : Option State :=
  if trimSpace tag = [] then some s
  else match s.byTag.lookup (trimSpace tag) with
    | none => some s
    | some d => s.lease d

/-- `Close` of a lease enters `once.Do`. Only the first call gets in. -/
def closeLease (l : Nat) : Option State :=
  s.heap.leases[l]?.bind fun lease =>
    match lease.hold with
    | .caller | .conn =>
      some { s with
        heap := { s.heap with leases := s.heap.leases.set l { lease with hold := .closing } }
        threads := s.threads ++ [.release l] }
    | .dialing => none
    | .closing | .released => some s

def dial (l : Nat) : Option State :=
  s.heap.leases[l]?.bind fun lease =>
    match lease.hold with
    | .dialing | .conn => none
    | _ => some { s with threads := s.threads ++ [.dial l] }
end State

inductive Label
  | resolve (tag : Text)
  | resolveExact (tag : Text)
  | reload (rows : List OutboundRow) (setting : Text)
  | close
  | closeLease (lease : Nat)
  | dial (lease : Nat)
  | move (thread : Nat) (choice : Choice)
deriving DecidableEq

def step (s : State) : Label → Option State
  | .resolve tag => s.resolve tag
  | .resolveExact tag => s.resolveExact tag
  | .reload rows setting => some (s.reload rows setting)
  | .close => some s.close
  | .closeLease l => s.closeLease l
  | .dial l => s.dial l
  | .move i choice =>
    s.threads[i]?.bind fun thread => (s.heap.advance choice thread).map fun after =>
      { s with heap := after.1, threads := s.threads.set i after.2 }

namespace TrackedDialer
variable {t : TrackedDialer}
lemma retire_of_retired (before : t.retired = true) : t.retire = (t, false) := by
  rw [retire, if_pos before]

lemma retire_of_busy (live : t.retired = false) (busy : 0 < t.active ∨ t.closed = true) :
    t.retire = ({ t with retired := true }, false) := by
  rw [retire, if_neg (by simp [live]), if_pos busy]

lemma retire_of_idle (live : t.retired = false) (idle : t.active = 0)
    (unclosed : t.closed = false) :
    t.retire = ({ t with retired := true, closed := true }, true) := by
  rw [retire, if_neg (by simp [live]), if_neg (by simp [idle, unclosed])]

lemma release_of_needed (needed : t.retired = false ∨ 1 < t.active ∨ t.closed = true) :
    t.release = ({ t with active := t.active - 1 }, false) := by
  rw [release, if_pos]
  rcases needed with live | busy | closed
  · exact .inl (by simp [live])
  · exact .inr (.inl (Nat.sub_pos_of_lt busy))
  · exact .inr (.inr closed)

lemma release_of_last (gone : t.retired = true) (last : t.active ≤ 1)
    (unclosed : t.closed = false) :
    t.release = ({ t with active := t.active - 1, closed := true }, true) := by
  rw [release, if_neg]
  rw [gone, unclosed]
  have none : ¬ 0 < t.active - 1 := by omega
  simp [none]
end TrackedDialer

/-- What is true of a tracked dialer with `held` leases out, `pins` of them acquired before it was
marked closed, `late` leases ever acquired after that, and `closers` goroutines about to call its
`Close`. -/
structure TrackedDialer.Fits (t : TrackedDialer) (held pins late closers : Nat) : Prop where
  active : t.active = held
  pinned : t.closed = true → pins = 0
  punctual : t.closed = false → late = 0
  drained : t.retired = true → t.active = 0 → t.closed = true
  retired : t.closed = true → t.retired = true
  once : t.closes + closers = if t.closed then 1 else 0

namespace TrackedDialer.Fits
variable {t : TrackedDialer} {held pins late closers : Nat}
lemma fresh (tag : Text) (d : Dialer) : (newTrackedDialer tag d).Fits 0 0 0 0 := by
  constructor <;> simp [newTrackedDialer]

lemma acquire (fits : t.Fits held pins late closers) :
    t.acquire.Fits (held + 1) (pins + if t.closed then 0 else 1)
      (late + if t.closed then 1 else 0) closers where
  active := by rw [← fits.active]; rfl
  pinned := by
    intro closed
    have already : t.closed = true := closed
    rw [fits.pinned already, if_pos already]
  punctual := by
    intro unclosed
    have still : t.closed = false := unclosed
    simp [fits.punctual still, still]
  drained := by
    intro _ none
    exact absurd none (Nat.succ_ne_zero _)
  retired := fits.retired
  once := fits.once

lemma retire (fits : t.Fits held pins late closers) (fewer : pins ≤ held) :
    t.retire.1.Fits held pins late (closers + if t.retire.2 then 1 else 0) := by
  by_cases before : t.retired = true
  · rw [retire_of_retired before]
    exact fits
  rw [Bool.not_eq_true] at before
  by_cases busy : 0 < t.active ∨ t.closed = true
  · rw [retire_of_busy before busy]
    refine { fits with drained := ?_, retired := fun _ => rfl }
    intro _ none
    rcases busy with held | closed
    · exact absurd none (Nat.pos_iff_ne_zero.mp held)
    · exact closed
  · rw [not_or, Nat.not_lt, Nat.le_zero, Bool.not_eq_true] at busy
    obtain ⟨idle, unclosed⟩ := busy
    rw [retire_of_idle before idle unclosed]
    have active := fits.active
    have once := fits.once
    rw [unclosed] at once
    refine ⟨active, ?_, by simp, fun _ _ => rfl, fun _ => rfl, ?_⟩
    · intro _
      omega
    · show t.closes + (closers + 1) = 1
      rw [← Nat.add_assoc, once]
      rfl

lemma release {early : Bool} (fits : t.Fits (held + 1) (pins + if early then 1 else 0) late closers)
    (fewer : pins ≤ held) :
    t.release.1.Fits held pins late (closers + if t.release.2 then 1 else 0) := by
  have active := fits.active
  by_cases needed : t.retired = false ∨ 1 < t.active ∨ t.closed = true
  · rw [release_of_needed needed]
    refine ⟨?_, ?_, fits.punctual, ?_, fits.retired, fits.once⟩
    · show t.active - 1 = held
      omega
    · intro closed
      have none := fits.pinned closed
      omega
    · intro retired idle
      have gone : t.retired = true := retired
      have none : t.active - 1 = 0 := idle
      rcases needed with live | busy | closed
      · exact absurd (gone.symm.trans live) (by decide)
      · omega
      · exact closed
  · rw [not_or, not_or, Bool.not_eq_false, Nat.not_lt, Bool.not_eq_true] at needed
    obtain ⟨gone, last, unclosed⟩ := needed
    rw [release_of_last gone last unclosed]
    have once := fits.once
    rw [unclosed] at once
    refine ⟨?_, ?_, by simp, fun _ _ => rfl, fun _ => gone, ?_⟩
    · show t.active - 1 = held
      omega
    · intro _
      omega
    · show t.closes + (closers + 1) = 1
      rw [← Nat.add_assoc, once]
      rfl

lemma close (fits : t.Fits held pins late (closers + 1)) : t.close.Fits held pins late closers := by
  refine { fits with once := ?_ }
  have once := fits.once
  show t.closes + 1 + closers = _
  rw [Nat.add_right_comm, Nat.add_assoc]
  exact once
end TrackedDialer.Fits

structure TrackedDialer.Grows (t after : TrackedDialer) : Prop where
  dialer : after.dialer = t.dialer
  retired : t.retired = true → after.retired = true
  closed : t.closed = true → after.closed = true

namespace TrackedDialer
variable (t : TrackedDialer)
lemma Grows.refl : t.Grows t := ⟨rfl, id, id⟩

lemma grows_acquire : t.Grows t.acquire := ⟨rfl, id, id⟩

lemma grows_close : t.Grows t.close := ⟨rfl, id, id⟩

lemma grows_retire : t.Grows t.retire.1 := by
  unfold retire
  split_ifs
  · exact Grows.refl t
  · exact ⟨rfl, fun _ => rfl, id⟩
  · exact ⟨rfl, fun _ => rfl, fun _ => rfl⟩

lemma grows_release : t.Grows t.release.1 := by
  unfold release
  split_ifs
  · exact ⟨rfl, id, id⟩
  · exact ⟨rfl, id, fun _ => rfl⟩

lemma retire_retired : t.retire.1.retired = true := by
  unfold retire
  split_ifs with before
  · exact before
  · rfl
  · rfl

lemma release_retired : t.release.1.retired = t.retired := by
  unfold release
  split_ifs <;> rfl
end TrackedDialer
namespace Lease
variable (d : Nat)
variable (lease : Lease)
def holds : Nat :=
  if lease.dialer = d ∧ lease.hold ≠ .released then 1 else 0

def pins : Nat :=
  if lease.dialer = d ∧ lease.hold ≠ .released ∧ lease.early = true then 1 else 0

def late : Nat :=
  if lease.dialer = d ∧ lease.early = false then 1 else 0

def busy : Nat :=
  if lease.hold = .dialing ∨ lease.hold = .closing then 1 else 0

lemma pins_le_holds : lease.pins d ≤ lease.holds d := by
  unfold pins holds
  split_ifs <;> grind

lemma holds_le : lease.holds d ≤ lease.pins d + lease.late d := by
  unfold pins holds late
  split_ifs <;> grind
end Lease
namespace Thread
def closing : Thread → Option Nat
  | .retireClose d _ => some d
  | .releaseClose d => some d
  | .giveBackClose _ d _ => some d
  | _ => none

def owes : Thread → Option Nat
  | .release l => some l
  | .attempt _ inner _ => some inner
  | .memberForward _ inner _ => some inner
  | .giveBack _ inner _ => some inner
  | _ => none

def todo : Thread → List Nat
  | .retire todo => todo
  | .retireClose _ todo => todo
  | _ => []

def closer (d : Nat) (thread : Thread) : Nat := if thread.closing = some d then 1 else 0
def debtor (l : Nat) (thread : Thread) : Nat := if thread.owes = some l then 1 else 0
end Thread

/-- The kinds of steps of a goroutine, by what they do to the heap and to its obligations. -/
inductive Effect (h : Heap) (a : Thread) : Heap → Thread → Prop
  | quiet {b : Thread} (closing : b.closing = a.closing) (owes : b.owes = a.owes)
      (todo : b.todo = a.todo) : Effect h a h b
  | retires {b : Thread} {d : Nat} {t : TrackedDialer} (found : h.dialers[d]? = some t)
      (listed : d ∈ a.todo) (before : a.closing = none)
      (closing : b.closing = if t.retire.2 then some d else none) (owes : b.owes = a.owes)
      (todo : b.todo = a.todo.erase d) :
      Effect h a { h with dialers := h.dialers.set d t.retire.1 } b
  | closes {b : Thread} {d : Nat} {t : TrackedDialer} (found : h.dialers[d]? = some t)
      (before : a.closing = some d) (closing : b.closing = none) (owes : b.owes = a.owes)
      (todo : b.todo = a.todo) : Effect h a { h with dialers := h.dialers.set d t.close } b
  | releases {b : Thread} {l : Nat} {lease : Lease} {t : TrackedDialer}
      (here : h.leases[l]? = some lease) (found : h.dialers[lease.dialer]? = some t)
      (owed : a.owes = some l) (owes : b.owes = none) (before : a.closing = none)
      (closing : b.closing = if t.release.2 then some lease.dialer else none)
      (todo : b.todo = a.todo) : Effect h a (h.release l lease t) b
  | acquires {b : Thread} {d : Nat} {t : TrackedDialer} (found : h.dialers[d]? = some t)
      (free : a.owes = none) (owes : b.owes = some h.leases.length)
      (closing : b.closing = a.closing) (todo : b.todo = a.todo) :
      Effect h a (h.acquire d t .dialing) b
  | keeps {b : Thread} {l : Nat} {lease : Lease} (here : h.leases[l]? = some lease)
      (owed : a.owes = some l) (owes : b.owes = none) (closing : b.closing = a.closing)
      (todo : b.todo = a.todo) :
      Effect h a { h with leases := h.leases.set l { lease with hold := .conn } } b

variable {h after : Heap} {a b : Thread}
namespace Heap
variable {choice : Choice}
lemma effect_closeDialer {d : Nat} {next : Thread}
    (moved : h.closeDialer d next = some (after, b)) (before : a.closing = some d)
    (closing : next.closing = none) (owes : next.owes = a.owes) (todo : next.todo = a.todo) :
    Effect h a after b := by
  obtain ⟨t, found, same⟩ := map_eq_some_iff.mp moved
  cases same
  exact .closes found before closing owes todo

variable {l : Nat}
lemma effect_releaseLease {closes back} (owed : a.owes = some l) (before : a.closing = none)
    (idle : a.todo = [])
    (closing : ∀ d, (closes d).closing = some d ∧ (closes d).owes = none ∧ (closes d).todo = [])
    (quiet : back.closing = none ∧ back.owes = none ∧ back.todo = [])
    (moved : h.releaseLease l closes back = some (after, b)) : Effect h a after b := by
  obtain ⟨lease, t, here, found, same⟩ := moved_eq_some moved
  cases same
  refine .releases here found owed ?_ before ?_ ?_
  all_goals split_ifs
  · exact (closing _).2.1
  · exact quiet.2.1
  · exact (closing _).1
  · exact quiet.1
  · rw [(closing _).2.2, idle]
  · rw [quiet.2.2, idle]

lemma effect_beginDial (moved : h.beginDial l choice = some (after, b)) :
    Effect h (.dial l) after b := by
  obtain ⟨lease, -, moved⟩ := bind_eq_some_iff.mp moved
  obtain ⟨t, -, moved⟩ := bind_eq_some_iff.mp moved
  split_ifs at moved
  · cases moved
    exact .quiet rfl rfl rfl
  · split at moved
    · split_ifs at moved
      cases moved
      exact .quiet rfl rfl rfl
    · cases moved
    · cases moved
      exact .quiet rfl rfl rfl

lemma effect_forwardDial (moved : h.forwardDial l choice = some (after, b)) :
    Effect h (.forward l) after b := by
  unfold forwardDial at moved
  split_ifs at moved
  · cases moved
    exact .quiet rfl rfl rfl
  · obtain ⟨lease, t, -, -, same⟩ := moved_eq_some moved
    cases same
    exact .quiet rfl rfl rfl

lemma effect_nextMember {todo} (moved : h.nextMember l todo = some (after, b)) :
    Effect h (.members l todo) after b := by
  cases todo with
  | nil =>
    cases moved
    exact .quiet rfl rfl rfl
  | cons d todo =>
    obtain ⟨t, found, same⟩ := map_eq_some_iff.mp moved
    cases same
    exact .acquires found rfl rfl rfl rfl

lemma effect_attemptMember {inner : Nat} {todo : List Nat}
    (moved : h.attemptMember l inner todo = some (after, b)) :
    Effect h (.attempt l inner todo) after b := by
  obtain ⟨lease, t, -, -, same⟩ := moved_eq_some moved
  cases same
  split_ifs <;> exact .quiet rfl rfl rfl

lemma effect_forwardMember {inner : Nat} {todo : List Nat}
    (moved : h.forwardMember l inner todo choice = some (after, b)) :
    Effect h (.memberForward l inner todo) after b := by
  unfold forwardMember at moved
  split_ifs at moved
  · cases moved
    exact .quiet rfl rfl rfl
  · obtain ⟨lease, t, here, -, same⟩ := moved_eq_some moved
    cases same
    exact .keeps here rfl rfl rfl rfl

lemma effect_of_advance (moved : h.advance choice a = some (after, b)) : Effect h a after b := by
  cases a with
  | retire todo =>
    simp only [advance] at moved
    split at moved
    · unfold retireNext at moved
      split_ifs at moved with listed
      obtain ⟨t, found, same⟩ := map_eq_some_iff.mp moved
      cases same
      refine .retires found listed rfl ?_ ?_ ?_
      all_goals split_ifs <;> rfl
    · cases moved
  | retireClose d todo =>
    have closed : h.closeDialer d (.retire todo) = some (after, b) := moved
    exact effect_closeDialer closed rfl rfl rfl rfl
  | release l =>
    exact effect_releaseLease rfl rfl rfl (fun _ => ⟨rfl, rfl, rfl⟩) ⟨rfl, rfl, rfl⟩ moved
  | releaseClose d =>
    have closed : h.closeDialer d .returned = some (after, b) := moved
    exact effect_closeDialer closed rfl rfl rfl rfl
  | dial l => exact effect_beginDial moved
  | forward l => exact effect_forwardDial moved
  | members l todo => exact effect_nextMember moved
  | attempt l inner todo => exact effect_attemptMember moved
  | memberForward l inner todo => exact effect_forwardMember moved
  | giveBack l inner todo =>
    let left := if choice = .expired then [] else todo
    have released : h.releaseLease inner (fun d => .giveBackClose l d left) (.members l left) =
        some (after, b) := moved
    exact effect_releaseLease rfl rfl rfl (fun _ => ⟨rfl, rfl, rfl⟩) ⟨rfl, rfl, rfl⟩ released
  | giveBackClose l d todo =>
    have closed : h.closeDialer d (.members l todo) = some (after, b) := moved
    exact effect_closeDialer closed rfl rfl rfl rfl
  | connected | failed | returned => cases moved
end Heap
namespace Effect
variable {e : Nat}
variable (effect : Effect h a after b)
include effect
lemma grows {t} (there : h.dialers[e]? = some t) :
    ∃ t', after.dialers[e]? = some t' ∧ t.Grows t' := by
  have replaced {d : Nat} {u u' : TrackedDialer} (found : h.dialers[d]? = some u)
      (grows : u.Grows u') : ∃ t', (h.dialers.set d u')[e]? = some t' ∧ t.Grows t' := by
    rw [getElem?_set_apply found]
    split_ifs with same
    · subst same
      cases there.symm.trans found
      exact ⟨u', rfl, grows⟩
    · exact ⟨t, there, .refl t⟩
  cases effect with
  | quiet | keeps => exact ⟨t, there, .refl t⟩
  | retires found => exact replaced found (TrackedDialer.grows_retire _)
  | closes found => exact replaced found (TrackedDialer.grows_close _)
  | releases here found => exact replaced found (TrackedDialer.grows_release _)
  | acquires found => exact replaced found (TrackedDialer.grows_acquire _)

lemma retired_eq {t t'} (there : h.dialers[e]? = some t) (later : after.dialers[e]? = some t')
    (other : e ∉ a.todo) : t'.retired = t.retired := by
  have replaced {d : Nat} {u u' : TrackedDialer} (found : h.dialers[d]? = some u)
      (same : d = e → u'.retired = u.retired) (now : (h.dialers.set d u')[e]? = some t') :
      t'.retired = t.retired := by
    rw [getElem?_set_apply found] at now
    split_ifs at now with here
    · subst here
      cases there.symm.trans found
      cases now
      exact same rfl
    · cases there.symm.trans now
      rfl
  cases effect with
  | quiet | keeps => cases there.symm.trans later; rfl
  | retires found listed =>
    refine replaced found ?_ later
    intro same
    exact absurd (same ▸ listed) other
  | closes found => exact replaced found (fun _ => by rw [TrackedDialer.close]) later
  | releases here found => exact replaced found (fun _ => TrackedDialer.release_retired _) later
  | acquires found => exact replaced found (fun _ => by rw [TrackedDialer.acquire]) later

lemma todo_or_retired (listed : e ∈ a.todo) :
    e ∈ b.todo ∨ ∃ t', after.dialers[e]? = some t' ∧ t'.retired = true := by
  cases effect with
  | quiet _ _ todo | closes _ _ _ _ todo | releases _ _ _ _ _ _ todo | acquires _ _ _ _ todo
  | keeps _ _ _ _ todo => exact .inl (todo ▸ listed)
  | @retires _ d t found _ _ _ _ todo =>
    by_cases same : e = d
    · subst same
      refine .inr ⟨t.retire.1, ?_, t.retire_retired⟩
      rw [getElem?_set_apply found, if_pos rfl]
    · rw [todo]
      exact .inl ((mem_erase_of_ne same).mpr listed)

lemma todo_subset : b.todo ⊆ a.todo := by
  cases effect with
  | quiet _ _ todo | closes _ _ _ _ todo | releases _ _ _ _ _ _ todo | acquires _ _ _ _ todo
  | keeps _ _ _ _ todo => exact todo ▸ List.Subset.refl _
  | retires _ _ _ _ _ todo => exact todo ▸ erase_subset

lemma length_dialers : after.dialers.length = h.dialers.length := by
  cases effect <;> simp [Heap.release, Heap.acquire]
end Effect

inductive Moves (s : State) : Label → State → Prop
  | stays (label : Label) : Moves s label s
  | fresh (tag : Text) : Moves s (.resolve tag) s.resolveFresh
  | leases {label : Label} {tag : Text} {d : Nat} {u : TrackedDialer}
      (asked : ∃ name, label = .resolve name ∨ label = .resolveExact name)
      (named : s.byTag.lookup tag = some d) (found : s.heap.dialers[d]? = some u) :
      Moves s label { s with heap := s.heap.acquire d u .caller }
  | reloads {rows : List OutboundRow} {setting : Text} {b : Build} {tag : Text}
      (loaded : loadRows s.heap.dialers rows setting = some (b, tag)) :
      Moves s (.reload rows setting) (s.swap b.next b.dialers tag)
  | closes : Moves s .close s.close
  | gives {l : Nat} {lease : Lease} (here : s.heap.leases[l]? = some lease)
      (held : lease.hold = .caller ∨ lease.hold = .conn) :
      Moves s (.closeLease l) { s with
        heap := { s.heap with leases := s.heap.leases.set l { lease with hold := .closing } }
        threads := s.threads ++ [.release l] }
  | dials {l : Nat} {lease : Lease} (here : s.heap.leases[l]? = some lease)
      (free : lease.hold ≠ .dialing ∧ lease.hold ≠ .conn) :
      Moves s (.dial l) { s with threads := s.threads ++ [.dial l] }
  | advances {i : Nat} {choice : Choice} {a b : Thread} {after : Heap}
      (here : s.threads[i]? = some a) (advanced : s.heap.advance choice a = some (after, b)) :
      Moves s (.move i choice) { s with heap := after, threads := s.threads.set i b }

variable {s t : State}
lemma moves_of_lease {label tag d}
    (asked : ∃ name, label = .resolve name ∨ label = .resolveExact name)
    (named : s.byTag.lookup tag = some d) (leased : s.lease d = some t) : Moves s label t := by
  obtain ⟨u, found, rfl⟩ := map_eq_some_iff.mp leased
  exact .leases asked named found

lemma moves_of_resolve {tag} (resolved : s.resolve tag = some t) : Moves s (.resolve tag) t := by
  unfold State.resolve at resolved
  split at resolved
  · cases resolved
    exact .fresh tag
  · next d found =>
    rcases or_eq_some_iff.mp found with named | ⟨-, named⟩ <;>
      exact moves_of_lease ⟨tag, .inl rfl⟩ named resolved

lemma moves_of_resolveExact {tag} (resolved : s.resolveExact tag = some t) :
    Moves s (.resolveExact tag) t := by
  unfold State.resolveExact at resolved
  split_ifs at resolved
  · cases resolved
    exact .stays _
  · split at resolved
    · cases resolved
      exact .stays _
    · next d named => exact moves_of_lease ⟨tag, .inr rfl⟩ named resolved

lemma moves_of_closeLease {l} (closed : s.closeLease l = some t) : Moves s (.closeLease l) t := by
  obtain ⟨lease, here, closed⟩ := bind_eq_some_iff.mp closed
  cases held : lease.hold with
  | caller =>
    simp only [held, some.injEq] at closed
    exact closed ▸ .gives here (.inl held)
  | conn =>
    simp only [held, some.injEq] at closed
    exact closed ▸ .gives here (.inr held)
  | dialing => simp [held] at closed
  | closing | released =>
    simp only [held, some.injEq] at closed
    exact closed ▸ .stays _

lemma moves_of_dial {l} (dialed : s.dial l = some t) : Moves s (.dial l) t := by
  obtain ⟨lease, here, dialed⟩ := bind_eq_some_iff.mp dialed
  cases held : lease.hold with
  | dialing | conn => simp [held] at dialed
  | caller | closing | released =>
    simp only [held, some.injEq] at dialed
    exact dialed ▸ .dials here (by simp [held])

lemma moves_of_step {label} (moved : step s label = some t) : Moves s label t := by
  cases label with
  | resolve tag => exact moves_of_resolve moved
  | resolveExact tag => exact moves_of_resolveExact moved
  | reload rows setting =>
    cases moved
    unfold State.reload
    split
    · exact .stays _
    · next b tag loaded => exact .reloads loaded
  | close =>
    cases moved
    exact .closes
  | closeLease l => exact moves_of_closeLease moved
  | dial l => exact moves_of_dial moved
  | move i choice =>
    obtain ⟨a, ⟨heap, b⟩, here, advanced, rfl⟩ := moved_eq_some moved
    exact .advances here advanced
end Tamizdat.Outbounds
