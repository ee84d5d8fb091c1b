/- source: internal/turncreds/manager.go, internal/transport/vkturn/client.go
   digest: Refreshes of the TURN credentials, their shared acquisition, and the sessions. -/

import Tamizdat.Machine.Runs

set_option autoImplicit false

namespace Tamizdat.Turncreds.Backoff
open Machine.Runs
def second : Int := 1000000000

/-- The manager while no `Reload` comes: `configured` says that the call hash, the app id and the
app secret are not empty. Of cached credentials the lifetime in seconds matters. -/
structure Manager where
  configured : Bool
  creds : Option Int := none
  fetchedAt : Int := 0
  lastErr : Bool := false
  consecutiveErrs : Nat := 0

/-- `portion` is the product with 0.8, which Go computes in floating point. -/
def computeNextRefresh (portion : Int → Int) (m : Manager) (now : Int) : Int :=
  match m.creds.filter (0 < ·) with
  | some lifetime => max (portion (lifetime * second) - (now - m.fetchedAt)) (30 * second)
  | none =>
    if m.lastErr then min (30 * second * 2 ^ min m.consecutiveErrs 4) (300 * second)
    else 60 * second

/-- `fetched` is the lifetime of what `GetCredentials` has returned at `now`, if it succeeded. -/
def doFetch (m : Manager) (fetched : Option Int) (now : Int) : Manager :=
  if m.configured = false then { m with lastErr := true }
  else
    match fetched with
    | none => { m with consecutiveErrs := m.consecutiveErrs + 1, lastErr := true }
    | some lifetime =>
      { m with consecutiveErrs := 0, creds := some lifetime, fetchedAt := now, lastErr := false }

/-- A turn of the loop: when the attempt starts and ends, and when its delay is computed. -/
structure Attempt where
  started : Int
  finished : Int
  looked : Int
  fetched : Option Int

/-- The next attempt does not start before `next`; `fails` attempts in a row have failed. -/
structure Loop where
  manager : Manager
  next : Int := 0
  finished : Int := 0
  fails : Nat := 0

def step (portion : Int → Int) (s : Loop) (a : Attempt) : Option Loop :=
  if s.next ≤ a.started ∧ a.started ≤ a.finished ∧ a.finished ≤ a.looked then
    let m := doFetch s.manager a.fetched a.finished
    some
      { manager := m
        next := a.looked + computeNextRefresh portion m a.looked
        finished := a.finished
        fails := if m.lastErr then s.fails + 1 else 0 }
  else none

structure Backs (portion : Int → Int) (s : Loop) : Prop where
  configured : s.manager.configured = true
  counted : s.manager.consecutiveErrs = s.fails
  failing : 0 < s.fails → s.manager.lastErr = true ∧
    ∃ looked, s.finished ≤ looked ∧ s.next = looked + computeNextRefresh portion s.manager looked

variable {portion : Int → Int} {s t : Loop} {a : Attempt}
lemma Backs.step (backs : Backs portion s) (moved : step portion s a = some t) :
    Backs portion t := by
  obtain ⟨⟨-, -, later⟩, ⟨⟩⟩ := Option.ite_none_right_eq_some.mp moved
  have ready : ¬ s.manager.configured = false := by simp [backs.configured]
  cases outcome : a.fetched with
  | none =>
    simp only [doFetch, if_neg ready, if_true]
    exact ⟨backs.configured, congrArg (· + 1) backs.counted, fun _ => ⟨rfl, a.looked, later, rfl⟩⟩
  | some lifetime =>
    simp only [doFetch, if_neg ready, Bool.false_eq_true, if_false]
    exact ⟨backs.configured, rfl, fun some => absurd some (lt_irrefl 0)⟩

lemma two_pow_le (fails : Nat) : min (30 * 2 ^ (fails - 1)) 300 ≤ 30 * 2 ^ min fails 4 := by
  rcases Nat.lt_or_ge fails 5 with small | large
  · interval_cases fails <;> decide
  · rw [min_eq_right (by omega : 4 ≤ fails)]
    exact (min_le_right _ _).trans (by decide)

/-- If the hash and the app are configured, and nothing with a positive lifetime is cached, then
the delay after `k` failures in a row is at least `30 * 2 ^ (k - 1)` seconds, or 300. -/
theorem backoff_of_uncached {attempts : List Attempt}
    (arrive : run (step portion) { manager := { configured := true } } attempts = some s)
    (failing : 0 < s.fails) (uncached : ∀ lifetime ∈ s.manager.creds, lifetime ≤ 0) :
    s.finished + (min (30 * 2 ^ (s.fails - 1)) 300 : Nat) * second ≤ s.next := by
  have start : Backs portion { manager := { configured := true } } :=
    ⟨rfl, rfl, fun some => absurd some (lt_irrefl 0)⟩
  have backs := run_invariant Backs.step start arrive
  obtain ⟨error, looked, later, next⟩ := backs.failing failing
  have empty : s.manager.creds.filter (0 < ·) = none := by
    rw [Option.filter_eq_none_iff]
    intro lifetime cached
    simpa using uncached lifetime cached
  obtain ⟨delay, same⟩ : ∃ delay : Nat, delay = min (30 * 2 ^ (s.fails - 1)) 300 := ⟨_, rfl⟩
  have growing : (delay : Int) ≤ 30 * 2 ^ min s.fails 4 := by
    exact_mod_cast same.trans_le (two_pow_le s.fails)
  have capped : delay ≤ 300 := same.trans_le (min_le_right _ _)
  rw [← same, next, computeNextRefresh, empty, backs.counted]
  simp only [error, if_true, second]
  omega

def sampleAttempt (started : Int) (fetched : Option Int) : Attempt :=
  ⟨started * second, started * second, started * second, fetched⟩

theorem backoff_of_uncached_twice : ∃ s,
    run (step (fun life => life * 4 / 5)) { manager := { configured := true } }
        [sampleAttempt 0 none, sampleAttempt 60 none] = some s ∧
      s.finished + 60 * second ≤ s.next := by
  refine exists_some_of (P := fun s => s.fails = 2 ∧ s.manager.creds = none) (by decide +kernel)
    fun s arrive ⟨fails, uncached⟩ => ?_
  have delay := backoff_of_uncached arrive (by omega) (by simp [uncached])
  rw [fails] at delay
  exact delay

/-- With an empty call hash, and with credentials in the cache, the second failure in a row is
followed by a delay of 30 seconds. -/
theorem delay_stays_short :
    (∃ s, run (step (fun life => life * 4 / 5)) { manager := { configured := false } }
        [sampleAttempt 0 none, sampleAttempt 30 none] = some s ∧
      s.fails = 2 ∧ s.next = s.finished + 30 * second) ∧
      ∃ s, run (step (fun life => life * 4 / 5)) { manager := { configured := true } }
        [sampleAttempt 0 (some 100), sampleAttempt 80 none, sampleAttempt 110 none] = some s ∧
      s.fails = 2 ∧ s.next = s.finished + 30 * second := by
  decide +kernel
end Tamizdat.Turncreds.Backoff
open List
namespace Tamizdat.Vkturn.Workers
open Machine Pool Machine.Runs

/-- A call of `pickSession`. In `ensureSessions` it has `left` more connects to do, and `err` says
that one of them has failed. A session that comes too late for the list is `rejected`. -/
inductive Call
  | ensure
  | fill (left : Nat) (err : Bool)
  | failed (left : Nat)
  | connected (left : Nat) (err : Bool)
  | rejected | pick | ended
deriving DecidableEq

/-- The live sessions of the list, which is freed of the others whenever it is read, and those
that `Close` has taken from it and has yet to close. -/
structure Client where
  closed : Bool := false
  sessions : Nat := 0
  closing : Nat := 0

inductive Outcome
  | cancelled | failed | connected
deriving DecidableEq

def advance (workers : Nat) (c : Client) (o : Outcome) : Call → Option (Client × Call)
  | .ensure =>
    some (c, if c.closed then .ended
      else if workers ≤ c.sessions then .pick
      else .fill (workers - c.sessions) false)
  | .fill 0 err => some (c, if c.sessions = 0 ∧ err then .ended else .pick)
  | .fill (left + 1) err =>
    some (c, match o with
      | .cancelled => .ended
      | .failed => .failed left
      | .connected => .connected left err)
  | .failed left => some (c, if c.sessions = 0 then .fill left true else .pick)
  | .connected left err =>
    some (if c.closed then (c, .rejected)
      else ({ c with sessions := c.sessions + if o = .connected then 1 else 0 }, .fill left err))
  | .rejected | .pick => some (c, .ended)
  | .ended => none

structure State where
  client : Client := {}
  calls : List Call := []

inductive Label
  | dial
  | move (call : Nat) (o : Outcome)
  | die | close | closeNext

def Client.close (c : Client) : Client :=
  if c.closed then c else { c with closed := true, sessions := 0, closing := c.sessions }

def step (workers : Nat) (s : State) : Label → Option State
  | .dial => some { s with calls := s.calls ++ [.ensure] }
  | .move i o =>
    s.calls[i]?.bind fun call => (advance workers s.client o call).map fun after =>
      ⟨after.1, s.calls.set i after.2⟩
  | .die => some { s with client.sessions := s.client.sessions - 1 }
  | .close => some { s with client := s.client.close }
  | .closeNext => some { s with client.closing := s.client.closing - 1 }

/-- The sessions that a call may still add or has to close. -/
def pending : Call → Nat
  | .fill left _ | .failed left => left
  | .connected left _ => left + 1
  | .rejected => 1
  | _ => 0

def held : Call → Nat
  | .connected .. | .rejected => 1
  | _ => 0

def live (s : State) : Nat := s.client.sessions + s.client.closing + total held s.calls

/-- A call counts the missing sessions only while no other one has sessions to add. -/
def Calm (s : State) : Label → Prop
  | .move i _ => s.client.closed = false → s.calls[i]? = some .ensure →
      ∀ call ∈ s.calls, pending call = 0
  | _ => True

def Shut (s : State) : Prop :=
  if s.client.closed then s.client.sessions = 0 else s.client.closing = 0

structure Sound (workers : Nat) (s : State) : Prop where
  shut : Shut s
  bounded : s.client.sessions + s.client.closing + total pending s.calls ≤ workers

variable {workers : Nat} {c : Client} {o : Outcome} {call : Call} {after : Client × Call}
  {s t : State} {label : Label}

/-- Past its count of the missing sessions, a call adds no more than it has announced. -/
lemma advance_spec (moved : advance workers c o call = some after) :
    (after.1.closed = c.closed ∧ after.1.closing = c.closing) ∧
      (c.closed = true → after.1.sessions = c.sessions) ∧
      (call ≠ .ensure → after.1.sessions + pending after.2 ≤ c.sessions + pending call) := by
  unfold advance at moved
  split at moved <;> cases moved <;> grind [pending]

lemma Shut.step (shut : Shut s) (moved : step workers s label = some t) : Shut t := by
  unfold Shut at shut ⊢
  cases label with
  | dial =>
    cases moved
    exact shut
  | move i o =>
    obtain ⟨call, after, here, advanced, rfl⟩ := moved_eq_some moved
    obtain ⟨⟨closed, closing⟩, kept, -⟩ := advance_spec advanced
    dsimp only
    rw [closed, closing]
    split_ifs at shut ⊢ with closed
    · exact (kept closed).trans shut
    · exact shut
  | die | close | closeNext =>
    cases moved
    grind [Client.close]

lemma Sound.step (sound : Sound workers s) (calm : Calm s label)
    (moved : step workers s label = some t) : Sound workers t := by
  refine ⟨sound.shut.step moved, ?_⟩
  have bounded := sound.bounded
  have shut := sound.shut
  unfold Shut at shut
  cases label with
  | dial =>
    cases moved
    rwa [total_snoc pending s.calls rfl]
  | move i o =>
    obtain ⟨call, after, here, advanced, rfl⟩ := moved_eq_some moved
    have traded := total_set pending here after.2
    obtain ⟨⟨-, closing⟩, -, less⟩ := advance_spec advanced
    by_cases ensure : call = .ensure
    · subst ensure
      cases advanced
      cases closed : s.client.closed with
      | true => grind [pending]
      | false =>
        have none := total_of_light (calm closed here)
        grind [pending]
    · have less := less ensure
      dsimp only
      omega
  | die | close | closeNext =>
    cases moved
    grind [Client.close]

/-- The sessions stay within the workers if each call counts what is missing while no other one
fills, and in any case none is added once the client is closed. -/
theorem live_le_workers {labels : List Label} (arrive : run (step workers) {} labels = some s) :
    (s.client.closed = true → s.client.sessions = 0) ∧
      (Meets (step workers) Calm {} labels → live s ≤ workers) := by
  have start : Sound workers {} := ⟨rfl, Nat.zero_le _⟩
  constructor
  · intro closed
    have shut := run_invariant Shut.step start.shut arrive
    rwa [Shut, if_pos closed] at shut
  · intro calm
    have sound := invariant_of_meets Sound.step start calm arrive
    have less : total held s.calls ≤ total pending s.calls :=
      total_le_total (fun call => by cases call <;> simp [held, pending]) s.calls
    exact (Nat.add_le_add_left less _).trans sound.bounded

theorem live_le_workers_refilled : ∃ s,
    run (step 2) {} (.dial :: List.replicate 5 (.move 0 .connected) ++ [.die, .dial] ++
        List.replicate 3 (.move 1 .connected) ++ [.close]) = some s ∧
      s.client.closed = true ∧ s.client.sessions = 0 ∧ live s ≤ 2 := by
  refine exists_some_and (by decide +kernel) fun s arrive closed => ?_
  obtain ⟨shut, bound⟩ := live_le_workers arrive
  exact ⟨shut closed, bound (by simp [Meets, step, Calm, advance, pending])⟩

theorem live_exceeds_workers : ∃ s,
    run (step 1) {} [.dial, .dial, .move 0 .connected, .move 1 .connected,
        .move 0 .connected, .move 1 .connected, .move 0 .connected, .move 1 .connected] = some s ∧
      1 < s.client.sessions := by
  decide +kernel
end Tamizdat.Vkturn.Workers
namespace Tamizdat.Vkturn.Acquisition
open Machine Pool Machine.Runs

/-- Credentials and errors are named by numbers. -/
abbrev Result := Except Nat Nat

/-- An acquisition: its goroutine calls `acquire`, records the result under the lock and then
publishes it. -/
inductive Future
  | created | acquiring
  | recorded (result : Result)
  | done (result : Result)

/-- A call of `getCredentials` waits for a future, or has come back: at once, with the credentials
of a cache or the last error, with the result of the future, or because its context ended. -/
inductive Caller
  | served (result : Except (Option Nat) Nat)
  | waiting (future : Nat)
  | joined (future : Nat) (result : Result)
  | cancelled

/-- Credentials stand with their expiry. `deadline` is the end of the backoff that the last failed
`acquire` has set, and `starts` are the times of its calls, each with this deadline. -/
structure Client where
  clock : Int
  creds : Option (Nat × Int) := none
  credBackoff : Option Int := none
  credFails : Nat := 0
  lastCredErr : Option Nat := none
  credInflight : Option Nat := none
  futures : List Future := []
  callers : List Caller := []
  deadline : Int
  starts : List (Int × Int) := []

/-- `seed` is what the cache on disk holds. -/
def getCredentials (c : Client) (seed : Option (Nat × Int)) : Client × Caller :=
  match c.creds.filter (c.clock < ·.2) with
  | some creds => (c, .served (.ok creds.1))
  | none =>
    if c.credBackoff.any (c.clock < ·) then
      (c, .served (c.creds.elim (.error c.lastCredErr) (.ok ·.1)))
    else
      match c.credInflight, seed.filter (c.clock < ·.2) with
      | some future, _ => (c, .waiting future)
      | none, some seeded =>
        ({ c with
            creds := some seeded, credFails := 0, credBackoff := none, lastCredErr := none },
          .served (.ok seeded.1))
      | none, none =>
        ({ c with credInflight := some c.futures.length, futures := c.futures ++ [.created] },
          .waiting c.futures.length)

variable (pause : Nat → Int) (expiry : Nat → Int → Int)
def record (c : Client) (f : Nat) (result : Result) : Client :=
  let c := { c with
    futures := c.futures.set f (.recorded result)
    credInflight := if c.credInflight = some f then none else c.credInflight }
  match result with
  | .error e =>
    let backoff := c.clock + pause (c.credFails + 1)
    { c with
      credFails := c.credFails + 1, lastCredErr := some e
      credBackoff := some backoff, deadline := backoff }
  | .ok creds =>
    { c with
      credFails := 0, lastCredErr := none
      credBackoff := none, creds := some (creds, expiry creds c.clock) }

def runCredentialAcquisition (c : Client) (f : Nat) (result : Result) : Future → Option Client
  | .created =>
    some { c with
      futures := c.futures.set f .acquiring
      starts := (c.clock, c.deadline) :: c.starts }
  | .acquiring => some (record pause expiry c f result)
  | .recorded result => some { c with futures := c.futures.set f (.done result) }
  | .done _ => none

def leave (c : Client) (cancelled : Bool) : Caller → Option Caller
  | .waiting f =>
    match cancelled, c.futures[f]? with
    | true, _ => some .cancelled
    | false, some (.done result) => some (.joined f result)
    | false, _ => none
  | _ => none

inductive Label
  | tick (now : Int)
  | call (seed : Option (Nat × Int))
  | move (future : Nat) (result : Result)
  | leave (caller : Nat) (cancelled : Bool)

def step (c : Client) : Label → Option Client
  | .tick now => if c.clock ≤ now then some { c with clock := now } else none
  | .call seed =>
    let called := getCredentials c seed
    some { called.1 with callers := called.1.callers ++ [called.2] }
  | .move f result => c.futures[f]?.bind (runCredentialAcquisition pause expiry c f result)
  | .leave i cancelled =>
    c.callers[i]?.bind fun caller => (leave c cancelled caller).map fun next =>
      { c with callers := c.callers.set i next }

def Future.unrecorded : Future → Bool
  | .created | .acquiring => true
  | _ => false

structure Sound (c : Client) : Prop where
  single : ∀ f future, c.futures[f]? = some future → future.unrecorded = true →
    c.credInflight = some f
  due : c.credInflight ≠ none → c.deadline ≤ c.clock
  kept : c.deadline ≤ c.clock ∨ c.credBackoff = some c.deadline
  started : ∀ start ∈ c.starts, start.2 ≤ start.1
  joined : ∀ f result, .joined f result ∈ c.callers → c.futures[f]? = some (.done result)

variable {pause expiry} {c t : Client} {f : Nat} {old x : Future} {caller : Caller} {label : Label}
lemma Sound.call (sound : Sound c) (seed : Option (Nat × Int)) :
    Sound (getCredentials c seed).1 ∧ ∀ f result, (getCredentials c seed).2 ≠ .joined f result := by
  unfold getCredentials
  split
  · exact ⟨sound, nofun⟩
  split_ifs with early
  · exact ⟨sound, nofun⟩
  have passed : c.deadline ≤ c.clock := by
    rcases sound.kept with passed | stored
    · exact passed
    · simpa [stored] using early
  split
  · exact ⟨sound, nofun⟩
  · exact ⟨{ sound with kept := .inl passed }, nofun⟩
  · rename_i idle _
    refine ⟨⟨fun f future found unrecorded => ?_, fun _ => passed, .inl passed, sound.started,
      fun f result member => ?_⟩, nofun⟩
    · rw [getElem?_snoc] at found
      split_ifs at found with last
      · exact congrArg some last.symm
      · cases idle.symm.trans (sound.single f future found unrecorded)
    · have done := sound.joined f result member
      exact getElem?_append_left (lt_of_getElem? done) ▸ done

lemma Sound.set (sound : Sound c) (here : c.futures[f]? = some old)
    (unfinished : ∀ result, old ≠ .done result)
    (inflight : x.unrecorded = true → c.credInflight = some f) :
    Sound { c with futures := c.futures.set f x } := by
  refine { sound with single := fun g future found unrecorded => ?_, joined := ?_ }
  · rcases set_cases here found with ⟨rfl, rfl⟩ | ⟨-, found⟩
    · exact inflight unrecorded
    · exact sound.single g future found unrecorded
  · intro g result member
    have done := sound.joined g result member
    dsimp only
    rw [getElem?_set_apply here, if_neg]
    · exact done
    · rintro rfl
      exact unfinished result (Option.some.inj (here.symm.trans done))

lemma Sound.record (sound : Sound c) (here : c.futures[f]? = some .acquiring)
    (result : Result) : Sound (record pause expiry c f result) := by
  have own : c.credInflight = some f := sound.single f _ here rfl
  have after := sound.set here nofun (x := .recorded result) nofun
  have single (g : Nat) (future : Future)
      (found : (c.futures.set f (.recorded result))[g]? = some future)
      (unrecorded : future.unrecorded = true) : none = some g := by
    cases own.symm.trans (after.single g future found unrecorded)
    rw [getElem?_set_apply here, if_pos rfl] at found
    cases found
    cases unrecorded
  have due : c.deadline ≤ c.clock := sound.due (by simp [own])
  cases result with
  | error e =>
    simp only [Acquisition.record, if_pos own]
    exact ⟨single, nofun, .inr rfl, sound.started, after.joined⟩
  | ok creds =>
    simp only [Acquisition.record, if_pos own]
    exact ⟨single, nofun, .inl due, sound.started, after.joined⟩

lemma done_of_leave {cancelled result} (left : leave c cancelled caller = some (.joined f result)) :
    c.futures[f]? = some (.done result) := by
  unfold leave at left
  grind

lemma Sound.step (sound : Sound c) (moved : step pause expiry c label = some t) : Sound t := by
  cases label with
  | tick now =>
    obtain ⟨later, ⟨⟩⟩ := Option.ite_none_right_eq_some.mp moved
    exact ⟨sound.single, fun busy => (sound.due busy).trans later,
      sound.kept.imp_left (·.trans later), sound.started, sound.joined⟩
  | call seed =>
    cases moved
    obtain ⟨after, fresh⟩ := sound.call seed
    refine { after with joined := fun f result member => ?_ }
    rcases mem_append.mp member with old | new
    · exact after.joined f result old
    · exact absurd (mem_singleton.mp new).symm (fresh f result)
  | move f result =>
    obtain ⟨future, here, moved⟩ := Option.bind_eq_some_iff.mp moved
    cases future with
    | created =>
      cases moved
      have own := sound.single f _ here rfl
      have after := sound.set here nofun (x := .acquiring) fun _ => own
      exact ⟨after.single, sound.due, sound.kept,
        forall_mem_cons.mpr ⟨sound.due (by simp [own]), sound.started⟩, after.joined⟩
    | acquiring =>
      cases moved
      exact sound.record here result
    | recorded result =>
      cases moved
      exact sound.set here nofun nofun
    | done result => cases moved
  | leave i cancelled =>
    obtain ⟨caller, next, here, left, rfl⟩ := moved_eq_some moved
    refine { sound with joined := fun f result member => ?_ }
    rcases mem_or_eq_of_mem_set member with old | rfl
    · exact sound.joined f result old
    · exact done_of_leave left

end Tamizdat.Vkturn.Acquisition
