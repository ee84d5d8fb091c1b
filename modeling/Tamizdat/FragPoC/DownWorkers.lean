/- source: internal/transport/fragpoc/scheduler.go, internal/transport/fragpoc/client.go
   digest: The pass of the DOWN scheduler, and its workers and readers in any interleaving. -/

import Mathlib.Data.Finset.Basic
import Tamizdat.FragPoC.Server
import Tamizdat.Machine.Runs

set_option autoImplicit false

open List Option
namespace Tamizdat.FragPoC
open Machine.CyclicScan
open FragPoC.Wire (DownResult)
open Function (update)
namespace DownScan
open Machine.Checked (Panic)

/-- A moment in nanoseconds. The zero `time.Time` is `none` where it can occur. -/
abbrev Time := Int

/-- The fields of `Conn` that the scheduler uses. `downCh` is what the channel holds. -/
structure Conn where
  closed : Bool := false
  eof : Bool := false
  downCh : List DownResult := []
  schedInFlight : Int := 0
  schedWindow : Int := 0
  schedNextPoll : Option Time := none
  schedIdleDelay : Int := 0
  schedErrorDelay : Int := 0
  schedLastProgress : Option Time := none
  schedLastPayload : Option Time := none

/-- `rota` is the slice `conns` with the cursor `next`, and `conn` gives the object behind each
pointer. `downWindow` is the client's. -/
structure DownScheduler where
  downWindow : Nat
  closed : Bool := false
  rota : Rota Nat := {}
  active : Finset Nat := ∅
  conn : Nat → Conn := fun _ => {}

def DownScheduler.capacity (s : DownScheduler) : Nat := s.downWindow * 2

def Conn.clampWindow (downWindow : Nat) (c : Conn) : Conn :=
  let raised := if c.schedWindow ≤ 0 then 1 else c.schedWindow
  { c with schedWindow := if (downWindow : Int) < raised then downWindow else raised }

inductive Gauge where
  | busy | full
  | early (moment : Time)
  | due

def Conn.gauge (capacity : Nat) (now : Time) (c : Conn) : Gauge :=
  if c.schedWindow ≤ c.schedInFlight then .busy
  else if (capacity : Int) ≤ c.downCh.length + c.schedInFlight then .full
  else
    match c.schedNextPoll with
    | none => .due
    | some moment => if now < moment then .early moment else .due

def sooner (earliest : Option Time) (moment : Time) : Option Time :=
  match earliest with
  | none => some moment
  | some first => if moment < first then some moment else some first

structure Pass where
  conn : Nat → Conn
  earliest : Option Time

namespace DownScheduler
section
variable (s : DownScheduler)
def dead (conn : Nat → Conn) (c : Nat) : Bool :=
  decide (c ∉ s.active) || (conn c).closed || (conn c).eof

def poll (now : Time) (p : Pass) (c : Nat) : Verdict × Pass :=
  let clamped := (p.conn c).clampWindow s.downWindow
  let noted := { p with conn := update p.conn c clamped }
  match clamped.gauge s.capacity now with
  | .busy => (.pass, noted)
  | .full => (.pass, noted)
  | .early moment => (.pass, { noted with earliest := sooner noted.earliest moment })
  | .due =>
    let picked := { clamped with schedInFlight := clamped.schedInFlight + 1 }
    (.take, { p with conn := update p.conn c picked })

def visit (now : Time) (p : Pass) (c : Nat) : Verdict × Pass :=
  if s.dead p.conn c then (.dead, p) else s.poll now p c

def scanConns (now : Time) : Except Panic (Scanned Pass Nat) :=
  scan (s.visit now) s.rota.items.length 0 s.rota ⟨s.conn, none⟩

def live (c : Nat) : Bool := decide (c ∈ s.active) && !(s.conn c).closed && !(s.conn c).eof
def window (c : Nat) : Int := min s.downWindow (max 1 (s.conn c).schedWindow)
end

structure Ready (s : DownScheduler) (now : Time) (c : Nat) : Prop where
  within : (s.conn c).schedInFlight < s.window c
  room : (s.conn c).downCh.length + (s.conn c).schedInFlight < s.capacity
  due : ∀ moment, (s.conn c).schedNextPoll = some moment → moment ≤ now
end DownScheduler
open DownScheduler
lemma clampWindow_eq (downWindow : Nat) (c : Conn) : c.clampWindow downWindow =
      { c with schedWindow := min (downWindow : Int) (max 1 c.schedWindow) } := by
  have corrected : (if (downWindow : Int) < (if c.schedWindow ≤ 0 then 1 else c.schedWindow) then
      (downWindow : Int) else if c.schedWindow ≤ 0 then 1 else c.schedWindow) =
      min (downWindow : Int) (max 1 c.schedWindow) := by
    split_ifs <;> omega
  rw [Conn.clampWindow, corrected]

lemma clampWindow_idem (downWindow : Nat) (c : Conn) :
    (c.clampWindow downWindow).clampWindow downWindow = c.clampWindow downWindow := by
  have again : min (downWindow : Int) (max 1 (min (downWindow : Int) (max 1 c.schedWindow))) =
      min (downWindow : Int) (max 1 c.schedWindow) := by omega
  rw [clampWindow_eq, clampWindow_eq]
  rw [again]

open DownScheduler (poll)
lemma gauge_due_iff (s : DownScheduler) (now : Time) (c : Nat) :
    ((s.conn c).clampWindow s.downWindow).gauge s.capacity now = .due ↔ s.Ready now c := by
  rw [clampWindow_eq]
  unfold Conn.gauge
  constructor
  · intro due
    split_ifs at due with busy full
    refine ⟨not_le.mp busy, not_le.mp full, ?_⟩
    intro moment next
    rw [next] at due
    dsimp only at due
    split_ifs at due with early
    exact not_lt.mp early
  · intro ready
    have within := not_le.mpr ready.within
    rw [DownScheduler.window] at within
    rw [if_neg within, if_neg (not_le.mpr ready.room)]
    cases next : (s.conn c).schedNextPoll with
    | none => rfl
    | some moment => exact if_neg (not_lt.mpr (ready.due moment next))

def verdict (s : DownScheduler) (now : Time) (c : Nat) : Verdict := (s.visit now ⟨s.conn, none⟩ c).1

/-- During the pass objects differ from what they were at most by a corrected window. -/
def Corrected (s : DownScheduler) (p : Pass) : Prop :=
  ∀ c, p.conn c = s.conn c ∨ p.conn c = (s.conn c).clampWindow s.downWindow

lemma dead_eq_not_live (s : DownScheduler) (c : Nat) : s.dead s.conn c = !s.live c := by
  unfold DownScheduler.dead DownScheduler.live
  by_cases member : c ∈ s.active <;> simp [member]

section
variable {s : DownScheduler} {p : Pass} (h : Corrected s p)
include h
lemma Corrected.clamp (c : Nat) :
    (p.conn c).clampWindow s.downWindow = (s.conn c).clampWindow s.downWindow := by
  rcases h c with same | clamped
  · rw [same]
  · rw [clamped, clampWindow_idem]

lemma Corrected.dead_eq (c : Nat) : s.dead p.conn c = s.dead s.conn c := by
  unfold DownScheduler.dead
  rcases h c with same | clamped
  · rw [same]
  · rw [clamped, clampWindow_eq]

lemma Corrected.judge {now} (c : Nat) : (s.visit now p c).1 = verdict s now c := by
  unfold verdict DownScheduler.visit
  rw [h.dead_eq c]
  split_ifs
  · rfl
  · dsimp only [poll]
    rw [h.clamp c]
    split <;> rfl

lemma Corrected.visit {now c} (goes : verdict s now c ≠ .take) :
    Corrected s (s.visit now p c).2 := by
  rw [← h.judge] at goes
  unfold DownScheduler.visit at goes ⊢
  split_ifs at goes ⊢ with isDead
  · exact h
  · have updated : ∀ earliest, Corrected s
        ⟨update p.conn c ((p.conn c).clampWindow s.downWindow), earliest⟩ := by
      intro earliest other
      dsimp only
      by_cases same : other = c
      · subst same
        rw [Function.update_self]
        exact .inr (h.clamp other)
      · rw [Function.update_of_ne same]
        exact h other
    unfold poll at goes ⊢
    dsimp only at goes ⊢
    split at goes
    · exact updated _
    · exact updated _
    · exact updated _
    · exact absurd rfl goes
end

variable {c : Nat}
lemma verdict_of_live {s} (now : Time) (alive : s.live c = true) :
    (verdict s now c = .take ↔ s.Ready now c) ∧ (verdict s now c = .pass ↔ ¬ s.Ready now c) := by
  have notDead : s.dead s.conn c = false := by rw [dead_eq_not_live, alive]; rfl
  rw [← gauge_due_iff]
  unfold verdict DownScheduler.visit poll
  rw [notDead, if_neg Bool.false_ne_true]
  dsimp only
  cases ((s.conn c).clampWindow s.downWindow).gauge s.capacity now <;> simp

variable {now : Time}
lemma verdict_dead_iff {s} (c : Nat) : verdict s now c = .dead ↔ s.live c = false := by
  cases alive : s.live c with
  | false =>
    have isDead : s.dead s.conn c = true := by rw [dead_eq_not_live, alive]; rfl
    unfold verdict DownScheduler.visit
    rw [isDead]
    simp
  | true =>
    obtain ⟨take, pass⟩ := verdict_of_live now alive
    by_cases ready : s.Ready now c
    · rw [take.mpr ready]
      simp
    · rw [pass.mpr ready]
      simp

lemma filter_pass {s} {cs : List Nat} (none : ∀ c ∈ cs, verdict s now c ≠ .take) :
    cs.filter (verdict s now · = .pass) = cs.filter s.live := by
  apply List.filter_congr
  intro c member
  cases alive : s.live c with
  | false =>
    rw [(verdict_dead_iff c).mpr alive]
    rfl
  | true =>
    obtain ⟨take, pass⟩ := verdict_of_live now alive
    rw [pass.mpr fun ready => none c member (take.mpr ready)]
    rfl

lemma live_of_take {s} (taken : verdict s now c = .take) : s.live c = true ∧ s.Ready now c := by
  cases alive : s.live c with
  | false =>
    rw [(verdict_dead_iff c).mpr alive] at taken
    cases taken
  | true => exact ⟨rfl, (verdict_of_live now alive).1.mp taken⟩

lemma not_ready_of_not_take {s} (goes : verdict s now c ≠ .take) (alive : s.live c = true) :
    ¬ s.Ready now c :=
  fun ready => goes ((verdict_of_live now alive).1.mpr ready)

lemma conn_of_take {s p} (h : Corrected s p) (taken : verdict s now c = .take) :
    (s.visit now p c).2.conn = update p.conn c
      { (s.conn c).clampWindow s.downWindow with
        schedInFlight := (s.conn c).schedInFlight + 1 } := by
  rw [← h.judge] at taken
  unfold DownScheduler.visit at taken ⊢
  split_ifs at taken ⊢
  unfold poll at taken ⊢
  dsimp only at taken ⊢
  rw [h.clamp c] at taken ⊢
  split at taken
  · cases taken
  · cases taken
  · cases taken
  · rw [clampWindow_eq]

/-- What a pass leaves of the objects: windows may have been corrected, and the connection that
was picked has one more poll in flight. -/
def Picks (s : DownScheduler) (conn : Nat → Conn) (found : Option Nat) : Prop :=
  ∀ c, if found = some c then
    conn c = { (s.conn c).clampWindow s.downWindow with
      schedInFlight := (s.conn c).schedInFlight + 1 }
  else conn c = s.conn c ∨ conn c = (s.conn c).clampWindow s.downWindow

/-- One pass over any list of connections looks at the living ones in the order of service, each
once, takes out the dead ones it meets, and ends with the first that is ready, which is then last in
that order. -/
theorem scanConns_spec (s : DownScheduler) (now : Time) :
    ∃ out, s.scanConns now = .ok out ∧ Picks s out.state.conn out.found ∧
      ((out.found = none ∧ (∀ c ∈ s.rota.view, s.live c = true → ¬ s.Ready now c) ∧
          out.seen = s.rota.view.filter s.live ∧ out.rota.view = s.rota.view.filter s.live) ∨
        ∃ before c after, s.rota.view = before ++ c :: after ∧ out.found = some c ∧
          s.live c = true ∧ s.Ready now c ∧
          (∀ b ∈ before, s.live b = true → ¬ s.Ready now b) ∧
          out.seen = before.filter s.live ++ [c] ∧
          out.rota.view = after ++ before.filter s.live ++ [c]) := by
  have start : Corrected s ⟨s.conn, none⟩ := fun c => .inl rfl
  obtain ⟨after, ended, view⟩ :=
    scan_eq_sweep (s.visit now) s.rota.view [] s.rota ⟨s.conn, none⟩ rfl
  rw [s.rota.length_view, List.length_nil] at ended
  refine ⟨_, ended, ?_⟩
  rcases sweep_spec (fun p c h => h.judge c) (fun p c h goes => h.visit goes) s.rota.view start with
    ⟨none, last, whole⟩ | ⟨before, c, rest, p, split, earlier, taken, reached, whole⟩ <;>
    rw [whole] at view
  · rw [whole]
    dsimp only [Option.toList] at view ⊢
    refine ⟨fun c => ?_, .inl ⟨rfl, ?_, ?_, ?_⟩⟩
    · exact last c
    · intro c member alive
      exact not_ready_of_not_take (none c member) alive
    · rw [List.append_nil, filter_pass none]
    · rw [view, filter_pass none]
      simp
  · rw [whole]
    dsimp only [Option.toList] at view ⊢
    obtain ⟨alive, ready⟩ := live_of_take taken
    refine ⟨fun other => ?_, .inr ⟨before, c, rest, split, rfl, alive, ready, ?_, ?_, ?_⟩⟩
    · rw [conn_of_take reached taken]
      by_cases same : other = c
      · subst same
        rw [if_pos rfl, Function.update_self]
      · rw [if_neg (by simpa using Ne.symm same), Function.update_of_ne same]
        exact reached other
    · intro b member living
      exact not_ready_of_not_take (earlier b member) living
    · rw [filter_pass earlier]
    · rw [view, filter_pass earlier]
      simp

def schedulerIdleInitial : Int := 100 * 1000000
def schedulerIdleMax : Int := 2 * 1000000000
def schedulerErrorInitial : Int := 100 * 1000000
def schedulerErrorMax : Int := 2 * 1000000000
def schedulerStuckTimeout : Int := 75 * 1000000000
def schedulerAppStuckTimeout : Int := 120 * 1000000000

def growDelay (current max : Int) : Int :=
  let next := (if current ≤ 0 then schedulerIdleInitial else current) * 2
  if max < next then max else next

inductive DownPollOutcome where
  | data | idle | eof | transient | fatal | closed
  deriving DecidableEq

def DownPollOutcome.delivered : DownPollOutcome → Bool
  | .data => true
  | .eof => true
  | _ => false

namespace Conn
variable (c : Conn)
def progressed (downWindow : Nat) (now : Time) : Conn :=
  let raised := if c.schedWindow ≤ 0 then 1 else c.schedWindow
  { c with
    schedWindow := if raised < downWindow then raised + 1 else raised
    schedIdleDelay := schedulerIdleInitial
    schedErrorDelay := schedulerErrorInitial
    schedNextPoll := some now
    schedLastProgress := some now
    schedLastPayload := some now }

variable (now : Time)
def idled : Conn :=
  let delay := if c.schedIdleDelay ≤ 0 then schedulerIdleInitial else c.schedIdleDelay
  { c with
    schedWindow := 1
    schedErrorDelay := schedulerErrorInitial
    schedNextPoll := some (now + delay)
    schedIdleDelay := growDelay delay schedulerIdleMax
    schedLastProgress := some now
    schedLastPayload := some (c.schedLastPayload.getD now) }

def stalled : Conn := { c with schedLastProgress := some (c.schedLastProgress.getD now) }

def backedOff : Conn :=
  let delay := if c.schedErrorDelay ≤ 0 then schedulerErrorInitial else c.schedErrorDelay
  { c with
    schedWindow := 1
    schedIdleDelay := schedulerIdleInitial
    schedNextPoll := some (now + delay)
    schedErrorDelay := growDelay delay schedulerErrorMax }

def added : Conn :=
  { c with
    schedIdleDelay := schedulerIdleInitial
    schedErrorDelay := schedulerErrorInitial
    schedNextPoll := none
    schedInFlight := 0
    schedWindow := 1
    schedLastProgress := some now
    schedLastPayload := none }
end Conn
namespace DownScheduler
variable (s : DownScheduler)
variable (c : Nat)
def setConn (object : Conn) : DownScheduler := { s with conn := update s.conn c object }

def addConn (now : Time) : DownScheduler :=
  if s.closed ∨ (s.conn c).closed ∨ (s.conn c).eof then s
  else if c ∈ s.active then s
  else
    { s.setConn c ((s.conn c).added now) with
      active := insert c s.active
      rota := s.rota.push c }

def drop : DownScheduler :=
  { s with active := s.active.erase c, rota := s.rota.removeAt (s.rota.items.idxOf c) }

def removeConn : DownScheduler :=
  if c ∈ s.active then s.drop c else s

/-- The source leaves `next` where it is; nothing reads it in a closed scheduler. -/
def close : DownScheduler := { s with closed := true, active := ∅, rota := {} }

/-- The switch of `finish`. What follows a stuck connection, the error and `closeDone`, comes
after the lock is free. -/
def finishActive (now : Time) : DownPollOutcome → DownScheduler
  | .data => s.setConn c ((s.conn c).progressed s.downWindow now)
  | .idle =>
    let noted := s.setConn c ((s.conn c).idled now)
    if schedulerAppStuckTimeout ≤ now - (s.conn c).schedLastPayload.getD now then noted.drop c
    else noted
  | .transient =>
    if schedulerStuckTimeout ≤ now - (s.conn c).schedLastProgress.getD now then
      (s.setConn c ((s.conn c).stalled now)).drop c
    else s.setConn c (((s.conn c).stalled now).backedOff now)
  | .eof => s.drop c
  | .fatal => s.drop c
  | .closed => s.drop c

def landed : DownScheduler :=
  if 0 < (s.conn c).schedInFlight then
    s.setConn c { s.conn c with schedInFlight := (s.conn c).schedInFlight - 1 }
  else s

def finish (outcome : DownPollOutcome) (now : Time) : DownScheduler :=
  if c ∈ s.active then (s.landed c).finishActive c now outcome else s.landed c
end DownScheduler
end DownScan
namespace DownWorkers
open FragPoC.DownScan
open Machine.Pool Machine.Runs

/-- Where a DOWN worker stands. While it is `scanning` or `gauging` it holds the scheduler's lock;
`closed`, `eof` and the channels change under it all the same, so the test whether an entry is
alive and the rest of the loop body are two steps. -/
inductive Worker where
  | idle
  | scanning (now : Time) (left scanned : Nat) (earliest : Option Time)
  | gauging (now : Time) (left scanned : Nat) (earliest : Option Time) (idx : Nat)
  | polling (c : Nat)
  | returned (c : Nat) (outcome : DownPollOutcome)
  | gone
  deriving DecidableEq

def Worker.locks : Worker → Bool
  | .scanning .. => true
  | .gauging .. => true
  | _ => false

structure System where
  sched : DownScheduler
  workers : List Worker
  haveEOF : Finset Nat := ∅

def System.Unlocked (t : System) : Prop := ∀ worker ∈ t.workers, worker.locks = false
deriving Decidable

inductive Label where
  | addConn (c : Nat) (now : Time)
  | removeConn (c : Nat)
  | close
  | begin (w : Nat) (now : Time)
  | quit (w : Nat)
  | look (w : Nat)
  | gauge (w : Nat)
  | rest (w : Nat)
  | deliver (w : Nat) (res : DownResult)
  | giveUp (w : Nat) (outcome : DownPollOutcome)
  | finish (w : Nat) (now : Time)
  | receive (c : Nat) (late : Bool)
  | readEOF (c : Nat)
  | closeConn (c : Nat)

namespace System
def goto (t : System) (w : Nat) (worker : Worker) : System :=
  { t with workers := t.workers.set w worker }

def begin (t : System) (w : Nat) (now : Time) : Option System :=
  match t.workers[w]? with
  | some .idle =>
    if t.Unlocked ∧ t.sched.closed = false ∧ t.sched.rota.items ≠ [] then
      some (t.goto w (.scanning now t.sched.rota.items.length 0 none))
    else none
  | _ => none

def quit (t : System) (w : Nat) : Option System :=
  match t.workers[w]? with
  | some .idle => if t.Unlocked ∧ t.sched.closed = true then some (t.goto w .gone) else none
  | _ => none

def look (t : System) (w : Nat) : Option System :=
  match t.workers[w]? with
  | some (.scanning now (left + 1) scanned earliest) =>
    let idx := (t.sched.rota.next + scanned) % t.sched.rota.items.length
    match t.sched.rota.items[idx]? with
    | none => none
    | some c =>
      if t.sched.dead t.sched.conn c then
        some
          ({ t with sched := { t.sched with rota := t.sched.rota.removeAt idx } }.goto w
            (.scanning now left scanned earliest))
      else some (t.goto w (.gauging now left scanned earliest idx))
  | _ => none

def gauge (t : System) (w : Nat) : Option System :=
  match t.workers[w]? with
  | some (.gauging now left scanned earliest idx) =>
    if inside : idx < t.sched.rota.items.length then
      let c := t.sched.rota.items.get ⟨idx, inside⟩
      match t.sched.poll now ⟨t.sched.conn, earliest⟩ c with
      | (.take, pass) =>
        some
          ({ t with
              sched := { t.sched with conn := pass.conn, rota := t.sched.rota.turnTo idx inside }
            }.goto w (.polling c))
      | (_, pass) =>
        some
          ({ t with sched := { t.sched with conn := pass.conn } }.goto w
            (.scanning now left (scanned + 1) pass.earliest))
    else none
  | _ => none

/-- The pass is over. How the worker waits or sleeps before it picks again is left open. -/
def rest (t : System) (w : Nat) : Option System :=
  match t.workers[w]? with
  | some (.scanning _ left _ _) =>
    if left = 0 ∨ t.sched.rota.items = [] then some (t.goto w .idle) else none
  | _ => none

def deliver (t : System) (w : Nat) (res : DownResult) : Option System :=
  match t.workers[w]? with
  | some (.polling c) =>
    let k := t.sched.conn c
    if (res.eof = true ∨ res.buf ≠ []) ∧ k.downCh.length < t.sched.capacity then
      some
        ({ t with sched := t.sched.setConn c { k with downCh := k.downCh ++ [res] } }.goto w
          (.returned c (if res.eof then .eof else .data)))
    else none
  | _ => none

def giveUp (t : System) (w : Nat) (outcome : DownPollOutcome) : Option System :=
  match t.workers[w]? with
  | some (.polling c) =>
    if outcome.delivered = false then some (t.goto w (.returned c outcome)) else none
  | _ => none

def finish (t : System) (w : Nat) (now : Time) : Option System :=
  match t.workers[w]? with
  | some (.returned c outcome) =>
    if t.Unlocked then
      some ({ t with sched := t.sched.finish c outcome now }.goto w .idle)
    else none
  | _ => none

/-- `Conn.Read` receives a result. An EOF that comes late ends the connection at once. -/
def receive (t : System) (c : Nat) (late : Bool) : Option System :=
  match (t.sched.conn c).downCh with
  | [] => none
  | res :: more =>
    let k := t.sched.conn c
    some
      { t with
        sched := t.sched.setConn c { k with downCh := more, eof := k.eof || (res.eof && late) }
        haveEOF := if res.eof && !late then insert c t.haveEOF else t.haveEOF }

def readEOF (t : System) (c : Nat) : Option System :=
  if c ∈ t.haveEOF then
    some { t with sched := t.sched.setConn c { t.sched.conn c with eof := true } }
  else none

def closeConn (t : System) (c : Nat) : System :=
  { t with sched := t.sched.setConn c { t.sched.conn c with closed := true } }
end System

def step (t : System) : Label → Option System
  | .addConn c now => if t.Unlocked then some { t with sched := t.sched.addConn c now } else none
  | .removeConn c => if t.Unlocked then some { t with sched := t.sched.removeConn c } else none
  | .close => if t.Unlocked then some { t with sched := t.sched.close } else none
  | .begin w now => t.begin w now
  | .quit w => t.quit w
  | .look w => t.look w
  | .gauge w => t.gauge w
  | .rest w => t.rest w
  | .deliver w res => t.deliver w res
  | .giveUp w outcome => t.giveUp w outcome
  | .finish w now => t.finish w now
  | .receive c late => t.receive c late
  | .readEOF c => t.readEOF c
  | .closeConn c => some (t.closeConn c)

def start (downWindow downWorkers : Nat) : System where
  sched := { downWindow := downWindow }
  workers := List.replicate downWorkers .idle

def Worker.unfinished (c : Nat) : Worker → Nat
  | .polling d => if d = c then 1 else 0
  | .returned d _ => if d = c then 1 else 0
  | _ => 0

def Worker.undelivered (c : Nat) : Worker → Nat
  | .polling d => if d = c then 1 else 0
  | .returned d outcome => if d = c ∧ outcome.delivered = false then 1 else 0
  | _ => 0

/-- The polls of a connection that were picked and whose results are not in its channel. -/
def System.undelivered (t : System) (c : Nat) : Nat := total (Worker.undelivered c) t.workers

open Worker (unfinished)
lemma Worker.undelivered_le (c : Nat) (worker : Worker) :
    worker.undelivered c ≤ worker.unfinished c := by
  cases worker with
  | polling d => exact Nat.le_refl _
  | returned d outcome =>
    simp only [Worker.undelivered, unfinished]
    split_ifs <;> omega
  | _ => exact Nat.le_refl _

open DownScheduler (setConn)
section
variable (s : DownScheduler)

@[simp] lemma setConn_self (c : Nat) (object : Conn) : (s.setConn c object).conn c = object := by
  simp [setConn]

lemma setConn_other {d c} (object : Conn) (different : d ≠ c) :
    (s.setConn c object).conn d = s.conn d := by
  simp [setConn, different]

structure Unmoved (k k' : Conn) : Prop where
  closed : k'.closed = k.closed
  eof : k'.eof = k.eof
  downCh : k'.downCh = k.downCh
  inFlight : k'.schedInFlight = k.schedInFlight

lemma finishActive_cases (c : Nat) (now : Time) (outcome : DownPollOutcome) :
    ∃ k, Unmoved (s.conn c) k ∧ (s.finishActive c now outcome = s.setConn c k ∨
      s.finishActive c now outcome = (s.setConn c k).drop c) := by
  have same : s.setConn c (s.conn c) = s := by
    rw [setConn, Function.update_eq_self]
  have leaves : ∃ k, Unmoved (s.conn c) k ∧ (s.drop c = s.setConn c k ∨
      s.drop c = (s.setConn c k).drop c) :=
    ⟨s.conn c, ⟨rfl, rfl, rfl, rfl⟩, .inr (by rw [same])⟩
  cases outcome with
  | data => exact ⟨(s.conn c).progressed s.downWindow now, ⟨rfl, rfl, rfl, rfl⟩, .inl rfl⟩
  | idle =>
    refine ⟨(s.conn c).idled now, ⟨rfl, rfl, rfl, rfl⟩, ?_⟩
    simp only [DownScheduler.finishActive]
    split_ifs
    · exact .inr rfl
    · exact .inl rfl
  | transient =>
    simp only [DownScheduler.finishActive]
    split_ifs
    · exact ⟨(s.conn c).stalled now, ⟨rfl, rfl, rfl, rfl⟩, .inr rfl⟩
    · exact ⟨((s.conn c).stalled now).backedOff now, ⟨rfl, rfl, rfl, rfl⟩, .inl rfl⟩
  | eof | fatal | closed => exact leaves

lemma finish_conn (c : Nat) (outcome : DownPollOutcome) (now : Time)
    (positive : 0 < (s.conn c).schedInFlight) :
    ∃ k, Unmoved { s.conn c with schedInFlight := (s.conn c).schedInFlight - 1 } k ∧
      (s.finish c outcome now).downWindow = s.downWindow ∧
      (s.finish c outcome now).conn = update s.conn c k := by
  have landed : s.landed c =
      s.setConn c { s.conn c with schedInFlight := (s.conn c).schedInFlight - 1 } := if_pos positive
  unfold DownScheduler.finish
  split_ifs
  · obtain ⟨k, same, kept | left⟩ := finishActive_cases (s.landed c) c now outcome
    · rw [kept, landed]
      rw [landed, setConn_self] at same
      exact ⟨k, same, rfl, Function.update_idem _ _ _⟩
    · rw [left, landed]
      rw [landed, setConn_self] at same
      exact ⟨k, same, rfl, Function.update_idem _ _ _⟩
  · rw [landed]
    exact ⟨_, ⟨rfl, rfl, rfl, rfl⟩, rfl, rfl⟩
end

/-- `conns` lists active connections once each, and no active one that is alive is missing. -/
structure Listed (s : DownScheduler) : Prop where
  nodup : s.rota.items.Nodup
  within : ∀ c ∈ s.rota.items, c ∈ s.active
  listed : ∀ c ∈ s.active, (s.conn c).closed = false → (s.conn c).eof = false → c ∈ s.rota.items

namespace Listed
variable {s : DownScheduler}
section
variable (h : Listed s) (c : Nat)
include h c
lemma update {object s'} (rota : s'.rota.items = s.rota.items) (active : s'.active = s.active)
    (conn : s'.conn = update s.conn c object)
    (opens : (object.closed = false → (s.conn c).closed = false) ∧
      (object.eof = false → (s.conn c).eof = false)) : Listed s' := by
  refine ⟨rota ▸ h.nodup, ?_, ?_⟩
  · rw [rota, active]
    exact h.within
  · rw [rota, active, conn]
    intro d member openNow more
    by_cases same : d = c
    · subst same
      rw [Function.update_self] at openNow more
      exact h.listed d member (opens.1 openNow) (opens.2 more)
    · rw [Function.update_of_ne same] at openNow more
      exact h.listed d member openNow more

lemma setConn {object} (opens : (object.closed = false → (s.conn c).closed = false) ∧
      (object.eof = false → (s.conn c).eof = false)) : Listed (s.setConn c object) :=
  h.update c rfl rfl rfl opens

lemma addConn (now : Time) : Listed (s.addConn c now) := by
  unfold DownScheduler.addConn
  split_ifs with unusable there
  · exact h
  · exact h
  · have absent : c ∉ s.rota.items := fun member => there (h.within c member)
    have kept : Listed (s.setConn c ((s.conn c).added now)) := h.setConn c ⟨id, id⟩
    refine ⟨?_, ?_, ?_⟩
    · exact h.nodup.append (nodup_singleton c) (disjoint_singleton.mpr absent)
    · exact Machine.Pool.forall_snoc (fun d old => Finset.mem_insert_of_mem (h.within d old))
        (Finset.mem_insert_self c s.active)
    · intro d member openNow more
      by_cases same : d = c
      · exact mem_append_right _ (mem_singleton.mpr same)
      · have old := Finset.mem_of_mem_insert_of_ne member same
        exact mem_append_left _ (kept.listed d old openNow more)

lemma drop : Listed (s.drop c) := by
  have items : (s.drop c).rota.items = s.rota.items.erase c := by
    simp only [DownScheduler.drop]
    by_cases member : c ∈ s.rota.items
    · rw [Rota.items_removeAt (idxOf_lt_length_iff.mpr member), erase_eq_eraseIdx_of_idxOf rfl]
    · have beyond : ¬ s.rota.items.idxOf c < s.rota.items.length := by
        rw [idxOf_lt_length_iff]
        exact member
      rw [Rota.removeAt, if_neg beyond, erase_of_not_mem member]
  refine ⟨?_, ?_, ?_⟩
  · rw [items]
    exact h.nodup.erase c
  · rw [items]
    intro d member
    obtain ⟨different, old⟩ := h.nodup.mem_erase_iff.mp member
    exact Finset.mem_erase.mpr ⟨different, h.within d old⟩
  · rw [items]
    intro d member openNow more
    obtain ⟨different, old⟩ := Finset.mem_erase.mp member
    exact h.nodup.mem_erase_iff.mpr ⟨different, h.listed d old openNow more⟩

lemma removeConn : Listed (s.removeConn c) := by
  unfold DownScheduler.removeConn
  split_ifs
  · exact h.drop c
  · exact h
end

lemma close (s : DownScheduler) : Listed s.close :=
  ⟨nodup_nil, nofun, nofun⟩

lemma removeAt {idx c} (h : Listed s) (found : s.rota.items[idx]? = some c)
    (dead : s.dead s.conn c = true) : Listed { s with rota := s.rota.removeAt idx } := by
  obtain ⟨inside, here⟩ := List.getElem?_eq_some_iff.mp found
  have items : (s.rota.removeAt idx).items = s.rota.items.erase c := by
    rw [Rota.items_removeAt inside, ← here, h.nodup.erase_getElem idx inside]
  refine ⟨?_, ?_, ?_⟩
  · rw [items]
    exact h.nodup.erase c
  · rw [items]
    intro d member
    exact h.within d (mem_of_mem_erase member)
  · rw [items]
    intro d member openNow more
    refine h.nodup.mem_erase_iff.mpr ⟨?_, h.listed d member openNow more⟩
    rintro rfl
    dsimp only at member openNow more
    simp [DownScheduler.dead, openNow, more, member] at dead

lemma landed (h : Listed s) (c : Nat) : Listed (s.landed c) := by
  unfold DownScheduler.landed
  split_ifs
  · exact h.setConn c ⟨id, id⟩
  · exact h

lemma finish (h : Listed s) (c : Nat) (outcome : DownPollOutcome) (now : Time) :
    Listed (s.finish c outcome now) := by
  unfold DownScheduler.finish
  split_ifs
  · obtain ⟨k, same, kept | left⟩ := finishActive_cases (s.landed c) c now outcome
    · rw [kept]
      exact (h.landed c).setConn c ⟨by rw [same.closed]; exact id, by rw [same.eof]; exact id⟩
    · rw [left]
      exact ((h.landed c).setConn c
        ⟨by rw [same.closed]; exact id, by rw [same.eof]; exact id⟩).drop c
  · exact h.landed c
end Listed

/-- What the counter of a connection and its channel are to the polls of its workers. -/
structure Fits (downWindow : Nat) (workers : List Worker) (c : Nat) (k : Conn) : Prop where
  inFlight : k.schedInFlight = (total (unfinished c) workers : Nat)
  window : k.schedInFlight ≤ downWindow
  room : total (Worker.undelivered c) workers + k.downCh.length ≤ downWindow * 2

def Counted (t : System) : Prop := ∀ c, Fits t.sched.downWindow t.workers c (t.sched.conn c)

variable {downWindow w : Nat} {t : System} {a b : Worker}
namespace Fits
variable {c : Nat} {workers : List Worker} {k k' : Conn}
lemma same (h : Fits downWindow workers c k) (inFlight : k'.schedInFlight = k.schedInFlight)
    (downCh : k'.downCh.length ≤ k.downCh.length) : Fits downWindow workers c k' := by
  have old := h.room
  refine ⟨?_, ?_, by omega⟩
  · rw [inFlight]
    exact h.inFlight
  · rw [inFlight]
    exact h.window

lemma moves (h : Fits downWindow workers c k) (here : workers[w]? = some a)
    (inFlight : k'.schedInFlight + a.unfinished c = k.schedInFlight + b.unfinished c)
    (window : k'.schedInFlight ≤ downWindow)
    (room : k'.downCh.length + b.undelivered c ≤ k.downCh.length + a.undelivered c ∨
      (k.downCh.length + k.schedInFlight < downWindow * 2 ∧ k'.downCh = k.downCh ∧
        b.undelivered c ≤ a.undelivered c + 1)) :
    Fits downWindow (workers.set w b) c k' := by
  have unfinished := total_set (Worker.unfinished c) here b
  have undelivered := total_set (Worker.undelivered c) here b
  have fewer := total_le_total (Worker.undelivered_le c) workers
  have counted := h.inFlight
  have old := h.room
  refine ⟨by omega, window, ?_⟩
  rcases room with less | ⟨free, same, more⟩
  · omega
  · rw [same]
    omega
end Fits
namespace Counted
lemma goto (h : Counted t) (here : t.workers[w]? = some a)
    (unfinished : ∀ c, b.unfinished c = a.unfinished c)
    (undelivered : ∀ c, b.undelivered c = a.undelivered c) : Counted (t.goto w b) := by
  intro c
  refine (h c).moves here ?_ (h c).window (.inl ?_)
  · rw [unfinished]
    rfl
  · rw [undelivered]
    rfl

lemma objects (h : Counted t) (sched : DownScheduler)
    (window : sched.downWindow = t.sched.downWindow)
    (same : ∀ c, (sched.conn c).schedInFlight = (t.sched.conn c).schedInFlight ∧
      (sched.conn c).downCh.length ≤ (t.sched.conn c).downCh.length) (haveEOF : Finset Nat) :
    Counted { t with sched := sched, haveEOF := haveEOF } := by
  intro c
  rw [window]
  exact (h c).same (same c).1 (same c).2

lemma setConn {k} (h : Counted t) (c : Nat)
    (inFlight : k.schedInFlight = (t.sched.conn c).schedInFlight)
    (downCh : k.downCh.length ≤ (t.sched.conn c).downCh.length) (haveEOF : Finset Nat) :
    Counted { t with sched := t.sched.setConn c k, haveEOF := haveEOF } := by
  refine h.objects (t.sched.setConn c k) rfl ?_ haveEOF
  intro d
  by_cases here : d = c
  · subst here
    rw [setConn_self]
    exact ⟨inFlight, downCh⟩
  · rw [setConn_other t.sched k here]
    exact ⟨rfl, Nat.le_refl _⟩

lemma moves {k sched} (h : Counted t) (c : Nat) (here : t.workers[w]? = some a)
    (window : sched.downWindow = t.sched.downWindow)
    (conn : sched.conn = update t.sched.conn c k)
    (others : ∀ d, d ≠ c → b.unfinished d = a.unfinished d ∧ b.undelivered d = a.undelivered d)
    (fits : Fits t.sched.downWindow (t.workers.set w b) c k) :
    Counted ({ t with sched := sched }.goto w b) := by
  intro d
  simp only [System.goto]
  rw [window, conn]
  by_cases same : d = c
  · subst same
    rw [Function.update_self]
    exact fits
  · obtain ⟨unfinished, undelivered⟩ := others d same
    rw [Function.update_of_ne same]
    refine (h d).moves here ?_ (h d).window (.inl ?_)
    · rw [unfinished]
    · rw [undelivered]
end Counted

lemma poll_cases (s : DownScheduler) (now : Time) (p : Pass) (c : Nat) :
    (∃ earliest, s.poll now p c =
      (.pass, ⟨update p.conn c ((p.conn c).clampWindow s.downWindow), earliest⟩)) ∨
    ((p.conn c).schedInFlight < s.downWindow ∧
      (p.conn c).downCh.length + (p.conn c).schedInFlight < s.capacity ∧
      s.poll now p c = (.take, ⟨update p.conn c
        { (p.conn c).clampWindow s.downWindow with
          schedInFlight := (p.conn c).schedInFlight + 1 }, p.earliest⟩)) := by
  dsimp only [DownScheduler.poll]
  cases gauged : ((p.conn c).clampWindow s.downWindow).gauge s.capacity now with
  | busy | full | early moment => exact .inl ⟨_, rfl⟩
  | due =>
    rw [clampWindow_eq] at gauged ⊢
    dsimp only [Conn.gauge] at gauged
    split_ifs at gauged with busy full
    exact .inr ⟨by omega, by omega, rfl⟩

/-- A connection is added only while no poll of it is unfinished: `startDownWorkers` adds each
once. -/
def AddsFresh (t : System) : Label → Prop
  | .addConn c _ => total (unfinished c) t.workers = 0
  | _ => True

instance (t : System) (l : Label) : Decidable (AddsFresh t l) := by
  cases l <;> unfold AddsFresh <;> infer_instance

structure Sound (downWindow : Nat) (t : System) : Prop where
  listed : Listed t.sched
  counted : Counted t
  window : t.sched.downWindow = downWindow

namespace Sound
variable {u : System}
lemma start (downWindow downWorkers : Nat) : Sound downWindow (start downWindow downWorkers) := by
  have empty : Listed (DownWorkers.start downWindow downWorkers).sched :=
    ⟨nodup_nil, nofun, nofun⟩
  refine ⟨empty, ?_, rfl⟩
  have light : ∀ weight : Worker → Nat, weight .idle = 0 →
      total weight (List.replicate downWorkers Worker.idle) = 0 := by
    intro weight zero
    apply total_of_light
    intro worker member
    rw [eq_of_mem_replicate member, zero]
  intro c
  refine ⟨?_, ?_, ?_⟩
  · simp only [DownWorkers.start]
    rw [light _ rfl]
    rfl
  · simp only [DownWorkers.start]
    omega
  · simp only [DownWorkers.start]
    rw [light _ rfl]
    simp

variable (h : Sound downWindow t)
include h
lemma goto {a b} (here : t.workers[w]? = some a) (unfinished : ∀ c, b.unfinished c = a.unfinished c)
    (undelivered : ∀ c, b.undelivered c = a.undelivered c) : Sound downWindow (t.goto w b) :=
  ⟨h.listed, h.counted.goto here unfinished undelivered, h.window⟩

lemma addConn (c : Nat) (now : Time) (fresh : total (unfinished c) t.workers = 0) :
    Sound downWindow { t with sched := t.sched.addConn c now } := by
  have window : (t.sched.addConn c now).downWindow = t.sched.downWindow := by
    unfold DownScheduler.addConn
    split_ifs <;> rfl
  refine ⟨h.listed.addConn c now, ?_, window.trans h.window⟩
  intro d
  unfold DownScheduler.addConn
  split_ifs with unusable there
  · exact h.counted d
  · exact h.counted d
  · by_cases same : d = c
    · subst same
      have old := (h.counted d).room
      simp only [setConn, Function.update_self]
      refine ⟨by rw [fresh]; rfl, Int.natCast_nonneg _, old⟩
    · simp only [setConn, Function.update_of_ne same]
      exact h.counted d

lemma registry {sched} (listed : Listed sched) (window : sched.downWindow = t.sched.downWindow)
    (conn : sched.conn = t.sched.conn) : Sound downWindow { t with sched := sched } := by
  refine ⟨listed, h.counted.objects sched window ?_ t.haveEOF, window.trans h.window⟩
  intro c
  rw [conn]
  exact ⟨rfl, Nat.le_refl _⟩

lemma removeConn (c : Nat) : Sound downWindow { t with sched := t.sched.removeConn c } := by
  refine h.registry (h.listed.removeConn c) ?_ ?_
  · unfold DownScheduler.removeConn
    split_ifs <;> rfl
  · unfold DownScheduler.removeConn
    split_ifs <;> rfl

lemma idles (moved : (∃ now, t.begin w now = some u) ∨ t.quit w = some u ∨ t.rest w = some u) :
    Sound downWindow u := by
  rcases moved with ⟨now, moved⟩ | moved | moved
  all_goals
    simp only [System.begin, System.quit, System.rest] at moved
    split at moved
    · rename_i here
      obtain ⟨-, ⟨⟩⟩ := ite_none_right_eq_some.mp moved
      exact h.goto here (fun _ => rfl) (fun _ => rfl)
    · cases moved

lemma look (moved : t.look w = some u) : Sound downWindow u := by
  unfold System.look at moved
  split at moved
  · rename_i now left scanned earliest here
    dsimp only at moved
    split at moved
    · cases moved
    · rename_i c found
      split_ifs at moved with dead <;> cases moved
      · have removed := h.registry (h.listed.removeAt found dead) rfl rfl
        exact removed.goto here (fun _ => rfl) (fun _ => rfl)
      · exact h.goto here (fun _ => rfl) (fun _ => rfl)
  · cases moved

lemma giveUp {outcome} (moved : t.giveUp w outcome = some u) : Sound downWindow u := by
  unfold System.giveUp at moved
  split at moved
  · rename_i c here
    obtain ⟨kept, ⟨⟩⟩ := ite_none_right_eq_some.mp moved
    refine h.goto here (fun _ => rfl) ?_
    simp [Worker.undelivered, kept]
  · cases moved

lemma receive {c late} (moved : t.receive c late = some u) : Sound downWindow u := by
  unfold System.receive at moved
  cases queued : (t.sched.conn c).downCh with
  | nil =>
    rw [queued] at moved
    cases moved
  | cons res more =>
    rw [queued] at moved
    cases moved
    refine ⟨h.listed.setConn c ⟨id, ?_⟩, h.counted.setConn c ?_ ?_ _, h.window⟩
    · intro ended
      exact (Bool.or_eq_false_iff.mp ended).1
    · rfl
    · rw [queued, length_cons]
      exact Nat.le_succ _

lemma readEOF {c} (moved : t.readEOF c = some u) : Sound downWindow u := by
  obtain ⟨-, ⟨⟩⟩ := ite_none_right_eq_some.mp moved
  refine ⟨h.listed.setConn c ⟨id, ?_⟩, h.counted.setConn c ?_ ?_ _, h.window⟩
  · exact nofun
  · rfl
  · exact Nat.le_refl _

lemma closeConn (c : Nat) : Sound downWindow (t.closeConn c) := by
  refine ⟨h.listed.setConn c ⟨?_, id⟩, h.counted.setConn c ?_ ?_ _, h.window⟩
  · exact nofun
  · rfl
  · exact Nat.le_refl _

lemma gauge (moved : t.gauge w = some u) : Sound downWindow u := by
  unfold System.gauge at moved
  split at moved
  · rename_i now left scanned earliest idx here
    split_ifs at moved with inside
    generalize t.sched.rota.items.get ⟨idx, inside⟩ = c at moved
    dsimp only at moved
    rcases poll_cases t.sched now ⟨t.sched.conn, earliest⟩ c with
      ⟨after, passed⟩ | ⟨window, room, taken⟩
    · rw [passed] at moved
      cases moved
      refine ⟨h.listed.setConn c ⟨id, id⟩, h.counted.moves c here rfl rfl ?_ ?_, h.window⟩
      · exact fun d _ => ⟨rfl, rfl⟩
      · exact (h.counted c).moves here rfl (h.counted c).window (.inl (Nat.le_refl _))
    · rw [taken] at moved
      cases moved
      refine ⟨h.listed.update c rfl rfl rfl ⟨id, id⟩, h.counted.moves c here rfl rfl ?_ ?_,
        h.window⟩
      · intro d different
        simp [unfinished, Worker.undelivered, Ne.symm different]
      · refine (h.counted c).moves here ?_ ?_ (.inr ⟨?_, rfl, ?_⟩)
        · simp [unfinished]
        · dsimp only at window ⊢
          omega
        · exact room
        · simp [Worker.undelivered]
  · cases moved

lemma deliver {res} (moved : t.deliver w res = some u) : Sound downWindow u := by
  unfold System.deliver at moved
  split at moved
  · rename_i c here
    obtain ⟨-, ⟨⟩⟩ := ite_none_right_eq_some.mp moved
    have outcome : (if res.eof then DownPollOutcome.eof else .data).delivered = true := by
      split_ifs <;> rfl
    refine ⟨h.listed.setConn c ⟨id, id⟩, h.counted.moves c here rfl rfl ?_ ?_, h.window⟩
    · intro d different
      simp [unfinished, Worker.undelivered, Ne.symm different]
    · refine (h.counted c).moves here rfl (h.counted c).window (.inl ?_)
      simp [Worker.undelivered, outcome]
  · cases moved

lemma finish {now} (moved : t.finish w now = some u) : Sound downWindow u := by
  unfold System.finish at moved
  split at moved
  · rename_i c outcome here
    obtain ⟨-, ⟨⟩⟩ := ite_none_right_eq_some.mp moved
    have inFlight := (h.counted c).inFlight
    have unfinished := le_total (Worker.unfinished c) here
    have one : (Worker.returned c outcome).unfinished c = 1 := by simp [Worker.unfinished]
    have positive : 0 < (t.sched.conn c).schedInFlight := by omega
    obtain ⟨k, same, window, conn⟩ := finish_conn t.sched c outcome now positive
    have listed := h.listed.finish c outcome now
    refine ⟨listed, h.counted.moves c here window conn ?_ ?_, window.trans h.window⟩
    · intro d different
      simp [Worker.unfinished, Worker.undelivered, Ne.symm different]
    · have old := (h.counted c).window
      refine (h.counted c).moves here ?_ ?_ (.inl ?_)
      · rw [same.inFlight, one]
        simp [Worker.unfinished]
      · rw [same.inFlight]
        dsimp only
        omega
      · rw [same.downCh]
        simp [Worker.undelivered]
  · cases moved

lemma step {l} (fresh : AddsFresh t l) (moved : step t l = some u) : Sound downWindow u := by
  cases l with
  | addConn c now =>
    obtain ⟨-, ⟨⟩⟩ := ite_none_right_eq_some.mp moved
    exact h.addConn c now fresh
  | removeConn c =>
    obtain ⟨-, ⟨⟩⟩ := ite_none_right_eq_some.mp moved
    exact h.removeConn c
  | close =>
    obtain ⟨-, ⟨⟩⟩ := ite_none_right_eq_some.mp moved
    exact h.registry (Listed.close t.sched) rfl rfl
  | begin w now => exact h.idles (.inl ⟨now, moved⟩)
  | quit w => exact h.idles (.inr (.inl moved))
  | look w => exact h.look moved
  | gauge w => exact h.gauge moved
  | rest w => exact h.idles (.inr (.inr moved))
  | deliver w res => exact h.deliver moved
  | giveUp w outcome => exact h.giveUp moved
  | finish w now => exact h.finish moved
  | receive c late => exact h.receive moved
  | readEOF c => exact h.readEOF moved
  | closeConn c =>
    cases moved
    exact h.closeConn c
end Sound

/-- If a connection is added only while no poll of it is unfinished, its polls in flight stay within
the window, no delivery waits for its channel, and `conns` lists active connections once each and
every one that is open and not at EOF. -/
theorem down_scheduler_bounds (downWindow downWorkers : Nat) {labels : List Label} {t : System}
    (fresh : Meets step AddsFresh (start downWindow downWorkers) labels)
    (arrive : run step (start downWindow downWorkers) labels = some t) :
    t.sched.downWindow = downWindow ∧ (∀ c, 0 ≤ (t.sched.conn c).schedInFlight ∧
        (t.sched.conn c).schedInFlight ≤ downWindow ∧
        t.undelivered c + (t.sched.conn c).downCh.length ≤ t.sched.capacity) ∧
      (∀ (w c : Nat), t.workers[w]? = some (Worker.polling c) →
        (t.sched.conn c).downCh.length < t.sched.capacity) ∧
      t.sched.rota.items.Nodup ∧ (∀ c ∈ t.sched.rota.items, c ∈ t.sched.active) ∧
      ∀ c ∈ t.sched.active, (t.sched.conn c).closed = false → (t.sched.conn c).eof = false →
        t.sched.rota.items.count c = 1 := by
  have sound : Sound downWindow t :=
    invariant_of_meets (fun inv => inv.step) (Sound.start downWindow downWorkers) fresh arrive
  refine ⟨sound.window, ?_, ?_, sound.listed.nodup, sound.listed.within, ?_⟩
  · intro c
    have fits := sound.counted c
    have window := fits.window
    rw [sound.window] at window
    refine ⟨?_, window, fits.room⟩
    rw [fits.inFlight]
    exact Int.natCast_nonneg _
  · intro w c here
    have room := (sound.counted c).room
    have one := le_total (Worker.undelivered c) here
    have weight : (Worker.polling c).undelivered c = 1 := by simp [Worker.undelivered]
    rw [DownScheduler.capacity]
    omega
  · intro c member openNow more
    exact count_eq_one_of_mem sound.listed.nodup (sound.listed.listed c member openNow more)

def twoPolls : List Label :=
  [Label.addConn 0 0, .begin 0 0, .look 0, .gauge 0, .deliver 0 ⟨0, [7], false⟩, .finish 0 5,
    .begin 1 6, .look 1, .gauge 1]

theorem down_scheduler_bounds_twoPolls :
    ∃ t, run step (start 2 2) twoPolls = some t ∧ t.workers[1]? = some (Worker.polling 0) ∧
      (t.sched.conn 0).downCh.length = 1 ∧ t.undelivered 0 + (t.sched.conn 0).downCh.length ≤ 4 ∧
      t.sched.rota.items.count 0 = 1 := by
  refine exists_some_of (P := fun t => t.workers[1]? = some (Worker.polling 0) ∧
    (t.sched.conn 0).downCh.length = 1 ∧ 0 ∈ t.sched.active ∧ (t.sched.conn 0).closed = false ∧
    (t.sched.conn 0).eof = false) (by decide +kernel) ?_
  rintro t arrive ⟨polling, queued, active, openNow, more⟩
  obtain ⟨window, bounds, -, -, -, once⟩ :=
    down_scheduler_bounds 2 2 (by decide +kernel : Meets step AddsFresh (start 2 2) twoPolls) arrive
  have room := (bounds 0).2.2
  rw [DownScheduler.capacity, window] at room
  exact ⟨polling, queued, room, once 0 active openNow more⟩

/-- The reader comes to the end before `finish` has taken the connection out: a scan deletes it
from `conns` while it is still active. -/
def endsEarly : List Label :=
  [Label.addConn 0 0, .begin 0 0, .look 0, .gauge 0, .deliver 0 ⟨0, [], true⟩, .receive 0 false,
    .readEOF 0, .begin 1 0, .look 1]

def addedAgain : List Label :=
  [Label.addConn 0 0, .begin 0 0, .look 0, .gauge 0, .removeConn 0,
    .addConn 0 0, .begin 1 0, .look 1, .gauge 1, .removeConn 0,
    .addConn 0 0, .begin 2 0, .look 2, .gauge 2]

/-- An active connection need not be in `conns`, and one that is added again before its polls are
finished has more of them under way than its channel can take. -/
theorem active_unlisted_and_channel_overrun :
    (∃ t, run step (start 1 2) endsEarly = some t ∧ 0 ∈ t.sched.active ∧ t.sched.rota.items = []) ∧
    ∃ t, run step (start 1 3) addedAgain = some t ∧ t.sched.capacity < t.undelivered 0 := by
  decide +kernel
end DownWorkers
end Tamizdat.FragPoC
