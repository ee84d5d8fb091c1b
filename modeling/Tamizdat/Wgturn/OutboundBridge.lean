/- source: internal/wgturn/outbound_bridge.go
   digest: The pumps of a bridge and how its Close waits for them. -/

import Tamizdat.Machine.Runs

set_option autoImplicit false

open List
namespace Tamizdat.Wgturn.OutboundBridge
open Machine Pool Machine.Runs

/-- A call of `handleTCP` or `handleUDP` that found the bridge open, and the goroutine that it
starts: the endpoint, the `go` statement and the pump's own `wg.Add(1)` are still to come. A pump
closes its connection after its `wg.Done()`. -/
inductive Flow
  | checked | created | spawned | pumping | closing | ended
deriving DecidableEq

def Flow.registered : Flow → Nat
  | .pumping => 1
  | _ => 0

inductive Closer
  | waiting | returned | timedOut
deriving DecidableEq

structure Bridge where
  closed : Bool := false
  wg : Nat := 0
  flows : List Flow := []
  closes : List Closer := []

/-- `ok` says whether the endpoint could be created. -/
def advance (wg : Nat) (ok : Bool) : Flow → Option (Nat × Flow)
  | .checked => some (wg, if ok then .created else .ended)
  | .created => some (wg, .spawned)
  | .spawned => some (wg + 1, .pumping)
  | .pumping => some (wg - 1, .closing)
  | .closing => some (wg, .ended)
  | .ended => none

inductive Label
  | handle
  | move (flow : Nat) (ok : Bool)
  | close
  /-- The goroutine of a `Close` sees the wait group at zero. -/
  | wait (call : Nat)
  | timeout (call : Nat)

def step (b : Bridge) : Label → Option Bridge
  | .handle => some (if b.closed then b else { b with flows := b.flows ++ [.checked] })
  | .move i ok =>
    b.flows[i]?.bind fun flow => (advance b.wg ok flow).map fun after =>
      { b with wg := after.1, flows := b.flows.set i after.2 }
  | .close => some { b with closed := true, closes := b.closes ++ [.waiting] }
  | .wait j =>
    if b.closes[j]? = some .waiting ∧ b.wg = 0 then
      some { b with closes := b.closes.set j .returned }
    else none
  | .timeout j =>
    if b.closes[j]? = some .waiting then some { b with closes := b.closes.set j .timedOut }
    else none

def Flow.Settled (flow : Flow) : Prop := flow = .pumping ∨ flow = .closing ∨ flow = .ended

/-- `Close` begins when no flow is between its closed check and its `wg.Add(1)`, and it sees the
wait group at zero when no pump is between its `wg.Done()` and its end. -/
def Calm (b : Bridge) : Label → Prop
  | .close => ∀ flow ∈ b.flows, flow.Settled
  | .wait _ => .closing ∉ b.flows
  | _ => True

open Flow (registered)

structure Sound (b : Bridge) : Prop where
  counted : b.wg = total registered b.flows
  shut : b.closes ≠ [] → b.closed = true
  settled : b.closed = true → ∀ flow ∈ b.flows, flow.Settled
  drained : .returned ∈ b.closes → ∀ flow ∈ b.flows, flow = .ended

variable {b b' : Bridge} {wg i : Nat} {ok : Bool} {flow : Flow} {after : Nat × Flow}
  {label : Label}

lemma counted_advance (here : b.flows[i]? = some flow)
    (counted : b.wg = total registered b.flows)
    (advanced : advance b.wg ok flow = some after) :
    after.1 = total registered (b.flows.set i after.2) := by
  have traded := total_set registered here after.2
  cases flow with
  | checked =>
    cases advanced
    cases ok <;> simp only [registered, Bool.false_eq_true, if_true, if_false] at traded ⊢ <;>
      omega
  | created | spawned | pumping | closing =>
    cases advanced
    simp only [registered] at traded ⊢
    omega
  | ended => cases advanced

lemma settled_advance (settled : flow.Settled) (advanced : advance wg ok flow = some after) :
    after.2.Settled := by
  rcases settled with rfl | rfl | rfl
  · cases advanced
    exact .inr (.inl rfl)
  · cases advanced
    exact .inr (.inr rfl)
  · cases advanced

lemma ended_of_zero (settled : ∀ flow ∈ b.flows, flow.Settled)
    (counted : b.wg = total registered b.flows) (zero : b.wg = 0) (left : .closing ∉ b.flows) :
    ∀ flow ∈ b.flows, flow = .ended := by
  intro flow member
  obtain ⟨i, here⟩ := getElem?_of_mem member
  rcases settled flow member with rfl | rfl | ended
  · -- a pump that runs is counted
    have one := Pool.le_total registered here
    rw [← counted, zero] at one
    cases one
  · exact absurd member left
  · exact ended

lemma Sound.step (sound : Sound b) (calm : Calm b label) (moved : step b label = some b') :
    Sound b' := by
  cases label with
  | handle =>
    cases moved
    split_ifs with closed
    · exact sound
    · refine ⟨?_, sound.shut, fun shut => absurd shut closed, fun returned => ?_⟩
      · exact sound.counted.trans (total_snoc registered b.flows rfl).symm
      · exact absurd (sound.shut (ne_nil_of_mem returned)) closed
  | move i ok =>
    obtain ⟨flow, after, here, advanced, rfl⟩ := moved_eq_some moved
    have member := mem_of_getElem? here
    refine ⟨counted_advance here sound.counted advanced, sound.shut, ?_, ?_⟩
    · intro closed
      have settled := sound.settled closed
      exact forall_set settled (settled_advance (settled flow member) advanced)
    · -- a flow that has ended makes no step
      intro returned
      rw [sound.drained returned flow member] at advanced
      cases advanced
  | close =>
    cases moved
    refine ⟨sound.counted, fun _ => rfl, fun _ => calm, fun returned => sound.drained ?_⟩
    simpa using returned
  | wait j =>
    obtain ⟨⟨waits, zero⟩, ⟨⟩⟩ := Option.ite_none_right_eq_some.mp moved
    have closed := sound.shut (ne_nil_of_mem (mem_of_getElem? waits))
    exact ⟨sound.counted, fun _ => closed, sound.settled,
      fun _ => ended_of_zero (sound.settled closed) sound.counted zero calm⟩
  | timeout j =>
    obtain ⟨waits, ⟨⟩⟩ := Option.ite_none_right_eq_some.mp moved
    refine ⟨sound.counted, fun _ => sound.shut (ne_nil_of_mem (mem_of_getElem? waits)),
      sound.settled, fun returned => sound.drained ?_⟩
    rcases mem_or_eq_of_mem_set returned with old | new
    · exact old
    · cases new

/-- If every `Close` begins while no flow is on its way to the wait group, and sees it at zero
while no pump closes its connection, then once one of them has returned without its timeout, no
pump runs or starts. -/
theorem close_completes {labels : List Label} (calm : Meets step Calm {} labels)
    (arrive : run step {} labels = some b) (returned : .returned ∈ b.closes) :
    ∀ flow ∈ b.flows, flow = .ended := by
  have start : Sound {} := ⟨rfl, fun some => absurd rfl some, by simp, by simp⟩
  exact (invariant_of_meets Sound.step start calm arrive).drained returned

theorem close_completes_two : ∃ b,
    run step {} [.handle, .move 0 false, .handle, .move 1 true, .move 1 true, .move 1 true, .close,
        .handle, .move 1 true, .move 1 true, .wait 0] = some b ∧
      Closer.returned ∈ b.closes ∧ ∀ flow ∈ b.flows, flow = .ended := by
  refine exists_some_and (by decide +kernel) fun b arrive returned => ?_
  refine close_completes ?_ arrive returned
  simp [Meets, step, Calm, advance, Flow.Settled]

/-- A flow passes its closed check, `Close` finds the wait group at zero and returns, and then
the pump starts; or `Close` returns while a pump, past its `wg.Done()`, closes its connection. -/
theorem pump_after_close :
    (∃ b, run step {} [.handle, .close, .wait 0, .move 0 true, .move 0 true, .move 0 true] =
        some b ∧ Closer.returned ∈ b.closes ∧ Flow.pumping ∈ b.flows) ∧
      ∃ b, run step {} [.handle, .move 0 true, .move 0 true, .move 0 true, .close, .move 0 true,
          .wait 0] = some b ∧ Closer.returned ∈ b.closes ∧ Flow.closing ∈ b.flows := by
  decide +kernel
end Tamizdat.Wgturn.OutboundBridge
