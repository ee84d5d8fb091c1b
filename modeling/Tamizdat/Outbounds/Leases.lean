/- source: internal/outbounds/registry.go, internal/outbounds/balancer.go
   digest: Dials through an open lease, while reloads retire the dialers behind it. -/

import Tamizdat.Outbounds.Lifecycle

set_option autoImplicit false

open List Option
namespace Tamizdat.Outbounds
open Machine Pool Machine.Runs
def Heap.dialerOf (h : Heap) (l : Nat) : Option Dialer :=
  h.leases[l]?.bind fun lease => h.dialers[lease.dialer]?.map TrackedDialer.dialer

/-- The dialer is not retired, or a lease that was acquired before it was marked closed is out. -/
def Pinned (s : State) (d : Nat) : Prop :=
  s.heap.retiredAt d = some false ∨
    ∃ lease ∈ s.heap.leases, lease.dialer = d ∧ lease.hold ≠ .released ∧ lease.early = true
deriving Decidable

/-- The condition on a dial: if the lease is one on a balancer, then the member `m` is pinned. -/
def Kept (l m : Nat) (s : State) : Prop :=
  match s.heap.dialerOf l with
  | some (.balancer members) => m ∈ members ∧ Pinned s m
  | _ => True

instance (l m : Nat) (s : State) : Decidable (Kept l m s) := by
  unfold Kept
  split <;> infer_instance

/-- The lease is not closed, the dialers that are asked succeed, and the context does not end. -/
def Used (i l : Nat) (_ : State) (label : Label) : Prop :=
  label ≠ .closeLease l ∧ label ≠ .move i .fails ∧ label ≠ .move i .expired
deriving Decidable

def Label.moves (i : Nat) : Label → Bool
  | .move j _ => j = i
  | _ => false

def Thread.left (n : Nat) : Thread → Nat
  | .dial _ => 4 * n + 2
  | .forward _ => 1
  | .members _ todo => 4 * todo.length + 1
  | .attempt _ _ todo => 4 * todo.length + 4
  | .memberForward .. => 1
  | .giveBack _ _ todo => 4 * todo.length + 3
  | .giveBackClose _ _ todo => 4 * todo.length + 2
  | _ => 0

structure Heap.Evolves (h after : Heap) : Prop where
  dialers : ∀ (d : Nat) (t : TrackedDialer), h.dialers[d]? = some t →
    ∃ t', after.dialers[d]? = some t' ∧ t.Grows t'
  leases : ∀ (l : Nat) (lease : Lease), h.leases[l]? = some lease →
    ∃ lease', after.leases[l]? = some lease' ∧ lease'.dialer = lease.dialer ∧
      lease'.early = lease.early

namespace Heap.Evolves
variable {h after : Heap}
lemma refl (h : Heap) : h.Evolves h where
  dialers := fun _ t found => ⟨t, found, .refl t⟩
  leases := fun _ lease here => ⟨lease, here, rfl, rfl⟩

lemma trans {last} (first : h.Evolves after) (second : after.Evolves last) : h.Evolves last where
  dialers := by
    intro d t found
    obtain ⟨t', found', grows⟩ := first.dialers d t found
    obtain ⟨t'', found'', grows'⟩ := second.dialers d t' found'
    exact ⟨t'', found'', grows'.dialer.trans grows.dialer, grows'.retired ∘ grows.retired,
      grows'.closed ∘ grows.closed⟩
  leases := by
    intro l lease here
    obtain ⟨lease', here', its, early⟩ := first.leases l lease here
    obtain ⟨lease'', here'', its', early'⟩ := second.leases l lease' here'
    exact ⟨lease'', here'', its'.trans its, early'.trans early⟩

lemma append (added : List TrackedDialer) : h.Evolves { h with dialers := h.dialers ++ added } where
  dialers := by
    intro d t found
    refine ⟨t, ?_, .refl t⟩
    exact (getElem?_append_left (lt_of_getElem? found)).trans found
  leases := (refl h).leases

lemma acquire {d t} (found : h.dialers[d]? = some t) (hold : Hold) : h.Evolves
    (h.acquire d t hold) where
  dialers := by
    intro e u there
    refine exists_set there found ?_ (fun _ => .refl u)
    rintro - rfl
    exact TrackedDialer.grows_acquire u
  leases := by
    intro l lease here
    refine ⟨lease, ?_, rfl, rfl⟩
    exact (getElem?_append_left (lt_of_getElem? here)).trans here

lemma rehold {l lease} (here : h.leases[l]? = some lease) (hold : Hold)
    {dialers : List TrackedDialer}
    (grows : ∀ (d : Nat) (t : TrackedDialer), h.dialers[d]? = some t →
      ∃ t', dialers[d]? = some t' ∧ t.Grows t') :
    h.Evolves ⟨dialers, h.leases.set l { lease with hold := hold }⟩ where
  dialers := grows
  leases := by
    intro k other there
    refine exists_set there here ?_ (fun _ => ⟨rfl, rfl⟩)
    rintro - rfl
    exact ⟨rfl, rfl⟩

lemma effect {a b : Thread} (effect : Effect h a after b) : h.Evolves after := by
  have grows := fun (d : Nat) (t : TrackedDialer) (found : h.dialers[d]? = some t) =>
    effect.grows found
  cases effect with
  | quiet => exact refl h
  | retires | closes => exact ⟨grows, (refl h).leases⟩
  | releases here => exact rehold here .released grows
  | acquires found => exact acquire found .dialing
  | keeps here => exact rehold here .conn grows

lemma dialerOf {l d} (evolves : h.Evolves after) (kind : h.dialerOf l = some d) :
    after.dialerOf l = some d := by
  obtain ⟨lease, t, here, found, rfl⟩ := moved_eq_some kind
  obtain ⟨lease', here', its, -⟩ := evolves.leases l lease here
  obtain ⟨t', found', grows⟩ := evolves.dialers _ t found
  rw [Heap.dialerOf, here', bind_some, its, found', map_some, grows.dialer]
end Heap.Evolves
variable {label : Label} {s t : State} {h after : Heap} {l d i : Nat} {a b : Thread}
lemma evolves_of_step (sound : Sound s) (moved : step s label = some t) :
    s.heap.Evolves t.heap := by
  cases moves_of_step moved with
  | stays | closes | dials => exact .refl _
  | fresh =>
    let fresh := newTrackedDialer directTag .direct
    refine (Heap.Evolves.append [fresh]).trans (.acquire ?_ .caller)
    simp [fresh]
  | leases _ _ found => exact .acquire found .caller
  | reloads loaded =>
    obtain ⟨added, whole, -⟩ := (extends_loadRows sound.listed.grouped loaded).added
    rw [State.swap, whole]
    exact .append added
  | gives here => exact .rehold here .closing (Heap.Evolves.refl _).dialers
  | advances _ advanced => exact .effect (Heap.effect_of_advance advanced)

def Heap.Holds (h : Heap) (l : Nat) : Prop :=
  ∃ lease, h.leases[l]? = some lease ∧ lease.hold = .caller

variable {lease : Lease}
lemma holds_of_set {k dialers other} (holds : h.Holds l) (here : h.leases[k]? = some lease)
    (apart : lease.hold ≠ .caller) : Heap.Holds ⟨dialers, h.leases.set k other⟩ l := by
  obtain ⟨own, there, held⟩ := holds
  refine ⟨own, ?_, held⟩
  rw [getElem?_set_apply here, if_neg]
  · exact there
  · intro same
    subst same
    cases there.symm.trans here
    exact apart held

lemma holds_acquire {hold} {t : TrackedDialer} (holds : h.Holds l) :
    (h.acquire d t hold).Holds l := by
  obtain ⟨own, there, held⟩ := holds
  refine ⟨own, ?_, held⟩
  exact (getElem?_append_left (lt_of_getElem? there)).trans there

section
variable (moved : step s label = some t)
include moved
lemma holds_of_step (sound : Sound s) (open_ : label ≠ .closeLease l) (holds : s.heap.Holds l) :
    t.heap.Holds l := by
  cases moves_of_step moved with
  | stays | reloads | closes | dials => exact holds
  | fresh | leases => exact holds_acquire holds
  | @gives k lease there =>
    have apart : l ≠ k := fun same => open_ (congrArg Label.closeLease same.symm)
    obtain ⟨own, here, held⟩ := holds
    refine ⟨own, ?_, held⟩
    rw [getElem?_set_apply there, if_neg apart]
    exact here
  | @advances i choice a b after here advanced =>
    have busy {k : Nat} {lease : Lease} (owed : a.owes = some k)
        (there : s.heap.leases[k]? = some lease) : lease.hold ≠ .caller := by
      rcases sound.counted.busy_of_owes here owed there with busy | busy <;> simp [busy]
    cases Heap.effect_of_advance advanced with
    | quiet | retires | closes => exact holds
    | releases there found owed | keeps there owed =>
      exact holds_of_set holds there (busy owed there)
    | acquires => exact holds_acquire holds

lemma thread_of_step (other : label.moves i = false) (here : s.threads[i]? = some a) :
    t.threads[i]? = some a := by
  have joined (started : List Thread) : (s.threads ++ started)[i]? = some a :=
    (getElem?_append_left (lt_of_getElem? here)).trans here
  cases moves_of_step moved with
  | stays | fresh | leases => exact here
  | reloads | closes | gives | dials => exact joined _
  | @advances j _ b c _ there _ =>
    have apart : ¬ i = j := fun same => by simp [Label.moves, same] at other
    rw [getElem?_set_apply there, if_neg apart]
    exact here

lemma advance_of_moves (own : label.moves i = true) (here : s.threads[i]? = some a) :
    ∃ choice heap b, label = .move i choice ∧ s.heap.advance choice a = some (heap, b) ∧
      t = { s with heap := heap, threads := s.threads.set i b } := by
  cases label with
  | move j choice =>
    have same : j = i := of_decide_eq_true own
    subst same
    obtain ⟨a', there, moved⟩ := bind_eq_some_iff.mp moved
    cases here.symm.trans there
    obtain ⟨⟨heap, b⟩, advanced, rfl⟩ := map_eq_some_iff.mp moved
    exact ⟨choice, heap, b, rfl, advanced, rfl⟩
  | resolve | resolveExact | reload | close | closeLease | dial => cases own
end
namespace Sound
variable {t : TrackedDialer}
section
variable (sound : Sound s) (found : s.heap.dialers[d]? = some t)
include sound found
lemma unclosed_of_pinned (pinned : Pinned s d) : t.closed = false := by
  by_contra closed
  rw [Bool.not_eq_false] at closed
  rcases pinned with live | ⟨lease, member, its, out, early⟩
  · rw [Heap.retiredAt, found, map_some, some.injEq] at live
    have retired := (sound.counted.fits d t found).retired closed
    exact absurd (retired.symm.trans live) (by decide)
  · exact out (sound.released_of_closed found closed member its early)

lemma closed_of_not_pinned (loose : ¬ Pinned s d) : t.closed = true := by
  rw [Pinned, not_or] at loose
  obtain ⟨gone, unpinned⟩ := loose
  have fits := sound.counted.fits d t found
  have retired : t.retired = true := by
    rw [Heap.retiredAt, found, map_some, some.injEq, Bool.not_eq_false] at gone
    exact gone
  by_contra unclosed
  rw [Bool.not_eq_true] at unclosed
  -- No lease came late, so those that are out would pin the dialer.
  have pins : total (Lease.pins d) s.heap.leases = 0 := by
    refine total_of_light fun lease member => if_neg ?_
    rintro ⟨its, out, early⟩
    exact unpinned ⟨lease, member, its, out, early⟩
  have late := fits.punctual unclosed
  have held := held_le d s.heap.leases
  have active := fits.active
  exact absurd (fits.drained retired (by omega)) (by simp [unclosed])

lemma closes_eq_zero (unclosed : t.closed = false) : t.closes = 0 := by
  have once := (sound.counted.fits d t found).once
  rw [unclosed] at once
  simp only [Bool.false_eq_true, if_false] at once
  omega
end

lemma unclosed_of_holds (sound : Sound s) {lease : Lease} (here : s.heap.leases[l]? = some lease)
    (held : lease.hold = .caller) (found : s.heap.dialers[lease.dialer]? = some t) :
    t.closed = false := by
  have member := mem_of_getElem? here
  refine sound.unclosed_of_pinned found (.inr ⟨lease, member, rfl, by simp [held], ?_⟩)
  exact sound.counted.called lease member held
end Sound

/-- Where a dial through the lease `l` stands as long as nothing goes wrong: the member `m` of its
balancer is still ahead of it, or it has found an open dialer. -/
inductive Course (h : Heap) (l m : Nat) (d : Dialer) : Thread → Prop
  | dial : Course h l m d (.dial l)
  | forward : Course h l m d (.forward l)
  | members {todo : List Nat} (group : d.isBalancer = true) (ahead : m ∈ todo)
      (ranged : ∀ e ∈ todo, e < h.dialers.length) : Course h l m d (.members l todo)
  | attempt {inner : Nat} {todo : List Nat} {lease : Lease} (group : d.isBalancer = true)
      (here : h.leases[inner]? = some lease) (ahead : lease.dialer = m ∨ m ∈ todo)
      (ranged : ∀ e ∈ todo, e < h.dialers.length) : Course h l m d (.attempt l inner todo)
  | memberForward {inner : Nat} {todo : List Nat} {lease : Lease}
      (here : h.leases[inner]? = some lease) (early : lease.early = true) :
      Course h l m d (.memberForward l inner todo)
  | giveBack {inner : Nat} {todo : List Nat} {lease : Lease} {t : TrackedDialer}
      (group : d.isBalancer = true) (here : h.leases[inner]? = some lease)
      (found : h.dialers[lease.dialer]? = some t) (closed : t.closed = true) (ahead : m ∈ todo)
      (ranged : ∀ e ∈ todo, e < h.dialers.length) : Course h l m d (.giveBack l inner todo)
  | connected {via : Nat} : Course h l m d (.connected l via true)

lemma Heap.Evolves.ranged (evolves : h.Evolves after) {todo : List Nat}
    (ranged : ∀ e ∈ todo, e < h.dialers.length) : ∀ e ∈ todo, e < after.dialers.length := by
  intro e member
  obtain ⟨t', later, -⟩ := evolves.dialers e _ (getElem?_eq_getElem (ranged e member))
  exact lt_of_getElem? later

lemma Course.evolves {m} {d : Dialer} (course : Course h l m d a) (evolves : h.Evolves after) :
    Course after l m d a := by
  cases course with
  | dial => exact .dial
  | forward => exact .forward
  | members group ahead ranged => exact .members group ahead (evolves.ranged ranged)
  | attempt group here ahead ranged =>
    obtain ⟨lease', later, its, -⟩ := evolves.leases _ _ here
    exact .attempt group later (its ▸ ahead) (evolves.ranged ranged)
  | memberForward here early =>
    obtain ⟨lease', later, -, same⟩ := evolves.leases _ _ here
    exact .memberForward later (same.trans early)
  | giveBack group here found closed ahead ranged =>
    obtain ⟨lease', later, its, -⟩ := evolves.leases _ _ here
    obtain ⟨t', found', grows⟩ := evolves.dialers _ _ found
    refine .giveBack group later ?_ (grows.closed closed) ahead (evolves.ranged ranged)
    rw [its]
    exact found'
  | connected => exact .connected

namespace Heap
variable {u : TrackedDialer}
lemma beginDial_of_balancer (here : h.leases[l]? = some lease)
    (found : h.dialers[lease.dialer]? = some u) (unclosed : u.closed = false)
    (group : u.dialer.isBalancer = true) :
    h.beginDial l (.order u.dialer.members) = some (h, .members l u.dialer.members) := by
  rw [beginDial, here, bind_some, found, bind_some, if_neg (by simp [unclosed])]
  cases kind : u.dialer with
  | balancer members => exact if_pos (List.Perm.refl members)
  | direct | tamizdat | blackhole =>
    rw [kind] at group
    cases group

lemma beginDial_of_plain (here : h.leases[l]? = some lease)
    (found : h.dialers[lease.dialer]? = some u) (unclosed : u.closed = false)
    (plain : u.dialer.isBalancer = false) : h.beginDial l .go = some (h, .forward l) := by
  rw [beginDial, here, bind_some, found, bind_some, if_neg (by simp [unclosed])]
  cases kind : u.dialer with
  | balancer members =>
    rw [kind] at plain
    cases plain
  | direct | tamizdat | blackhole => rfl
end Heap

structure Underway (i l : Nat) (d : Dialer) (s : State) (a : Thread) : Prop where
  sound : Sound s
  here : s.threads[i]? = some a
  holds : s.heap.Holds l
  kind : s.heap.dialerOf l = some d

open Heap (advance)
namespace Underway
variable {m : Nat} {d : Dialer}
section
variable (underway : Underway i l d s a)
include underway
lemma wrapper : ∃ lease u, s.heap.leases[l]? = some lease ∧ s.heap.dialers[lease.dialer]? = some u ∧
      u.dialer = d ∧ u.closed = false := by
  obtain ⟨lease, here, kind⟩ := bind_eq_some_iff.mp underway.kind
  obtain ⟨u, found, rfl⟩ := map_eq_some_iff.mp kind
  obtain ⟨own, there, held⟩ := underway.holds
  cases here.symm.trans there
  exact ⟨_, u, here, found, rfl, underway.sound.unclosed_of_holds here held found⟩

lemma pinned (kept : Kept l m s) (group : d.isBalancer = true) : m ∈ d.members ∧ Pinned s m := by
  rw [Kept, underway.kind] at kept
  cases d with
  | balancer members => exact kept
  | direct | tamizdat | blackhole => cases group

lemma members_ranged : ∀ e ∈ d.members, e < s.heap.dialers.length := by
  obtain ⟨lease, u, -, found, rfl, -⟩ := underway.wrapper
  exact underway.sound.listed.grouped u (mem_of_getElem? found)
end
variable {choice : Choice}
lemma course_beginDial (underway : Underway i l d s (.dial l)) (kept : Kept l m s)
    (moved : s.heap.beginDial l choice = some (after, b)) :
    Course after l m d b ∧ b.left d.members.length < 4 * d.members.length + 2 := by
  obtain ⟨lease, u, here, found, kind, unclosed⟩ := underway.wrapper
  rw [Heap.beginDial, here, bind_some, found, bind_some, if_neg (by simp [unclosed]), kind] at moved
  split at moved
  · rw [ite_none_right_eq_some] at moved
    obtain ⟨shuffled, same⟩ := moved
    cases same
    refine ⟨.members rfl (shuffled.mem_iff.mpr (underway.pinned kept rfl).1) ?_, ?_⟩
    · intro e member
      exact underway.members_ranged e (shuffled.mem_iff.mp member)
    · rw [Thread.left, shuffled.length_eq, Dialer.members]
      omega
  · cases moved
  · cases moved
    refine ⟨.forward, ?_⟩
    rw [Thread.left]
    omega

lemma course_forwardDial (underway : Underway i l d s (.forward l)) (succeeds : choice ≠ .fails)
    (moved : s.heap.forwardDial l choice = some (after, b)) :
    Course after l m d b ∧ b.left d.members.length < 1 := by
  obtain ⟨lease, u, here, found, kind, unclosed⟩ := underway.wrapper
  rw [Heap.forwardDial, if_neg succeeds, here, bind_some, found, map_some] at moved
  cases moved
  rw [underway.sound.closes_eq_zero found unclosed]
  exact ⟨.connected, Nat.one_pos⟩

variable {todo : List Nat}
lemma course_nextMember (group : d.isBalancer = true) (ahead : m ∈ todo)
    (ranged : ∀ e ∈ todo, e < s.heap.dialers.length)
    (moved : s.heap.nextMember l todo = some (after, b)) :
    Course after l m d b ∧ b.left d.members.length < 4 * todo.length + 1 := by
  cases todo with
  | nil => cases ahead
  | cons e todo =>
    obtain ⟨u, found, same⟩ := map_eq_some_iff.mp moved
    cases same
    have last : (s.heap.acquire e u .dialing).leases[s.heap.leases.length]? =
        some ⟨e, .dialing, !u.closed⟩ := by simp [Heap.acquire]
    constructor
    · refine .attempt group last ?_ ?_
      · rcases mem_cons.mp ahead with same | later
        · exact .inl same.symm
        · exact .inr later
      · intro k member
        rw [Heap.acquire, length_set]
        exact ranged k (mem_cons_of_mem e member)
    · rw [Thread.left, length_cons]
      omega

variable {inner : Nat}
lemma course_attemptMember (underway : Underway i l d s (.attempt l inner todo))
    (kept : Kept l m s) (group : d.isBalancer = true) (here : s.heap.leases[inner]? = some lease)
    (ahead : lease.dialer = m ∨ m ∈ todo) (ranged : ∀ e ∈ todo, e < s.heap.dialers.length)
    (moved : s.heap.attemptMember l inner todo = some (after, b)) :
    Course after l m d b ∧ b.left d.members.length < 4 * todo.length + 4 := by
  rw [Heap.attemptMember, here, bind_some] at moved
  obtain ⟨u, found, same⟩ := map_eq_some_iff.mp moved
  have pinned := (underway.pinned kept group).2
  cases closed : u.closed with
  | true =>
    rw [closed, if_pos rfl] at same
    cases same
    refine ⟨.giveBack group here found closed ?_ ranged, ?_⟩
    · rcases ahead with own | later
      · rw [own] at found
        exact absurd (underway.sound.unclosed_of_pinned found pinned) (by simp [closed])
      · exact later
    · rw [Thread.left]
      omega
  | false =>
    rw [closed, if_neg (by decide)] at same
    cases same
    refine ⟨.memberForward here ?_, ?_⟩
    · by_contra late
      rw [Bool.not_eq_true] at late
      have marked := underway.sound.closed_of_late found (mem_of_getElem? here) rfl late
      exact absurd (marked.symm.trans closed) (by decide)
    · rw [Thread.left]
      omega

lemma course_forwardMember (underway : Underway i l d s (.memberForward l inner todo))
    (here : s.heap.leases[inner]? = some lease) (early : lease.early = true)
    (succeeds : choice ≠ .fails)
    (moved : s.heap.forwardMember l inner todo choice = some (after, b)) :
    Course after l m d b ∧ b.left d.members.length < 1 := by
  rw [Heap.forwardMember, if_neg succeeds, here, bind_some] at moved
  obtain ⟨u, found, same⟩ := map_eq_some_iff.mp moved
  have out := underway.sound.counted.out_of_owes underway.here rfl here
  have pinned : Pinned s lease.dialer := .inr ⟨lease, mem_of_getElem? here, rfl, out, early⟩
  have unclosed := underway.sound.unclosed_of_pinned found pinned
  rw [underway.sound.closes_eq_zero found unclosed] at same
  cases same
  exact ⟨.connected, Nat.one_pos⟩

lemma course_giveBack {u} (group : d.isBalancer = true) (here : s.heap.leases[inner]? = some lease)
    (found : s.heap.dialers[lease.dialer]? = some u) (closed : u.closed = true) (ahead : m ∈ todo)
    (ranged : ∀ e ∈ todo, e < s.heap.dialers.length)
    (moved : s.heap.releaseLease inner (fun e => .giveBackClose l e todo) (.members l todo) =
      some (after, b)) : Course after l m d b ∧ b.left d.members.length < 4 * todo.length + 3 := by
  rw [Heap.releaseLease, here, bind_some, found, map_some,
    TrackedDialer.release_of_needed (.inr (.inr closed)), if_neg (by simp)] at moved
  cases moved
  refine ⟨.members group ahead ?_, ?_⟩
  · intro e member
    rw [Heap.release, length_set]
    exact ranged e member
  · rw [Thread.left]
    omega

variable (underway : Underway i l d s a) (course : Course s.heap l m d a)
include underway course
lemma course_advance (kept : Kept l m s) (succeeds : choice ≠ .fails)
    (lasts : choice ≠ .expired) (moved : s.heap.advance choice a = some (after, b)) :
    Course after l m d b ∧ b.left d.members.length < a.left d.members.length := by
  cases course with
  | dial => exact underway.course_beginDial kept moved
  | forward => exact underway.course_forwardDial succeeds moved
  | members group ahead ranged => exact course_nextMember group ahead ranged moved
  | attempt group here ahead ranged =>
    exact underway.course_attemptMember kept group here ahead ranged moved
  | memberForward here early => exact underway.course_forwardMember here early succeeds moved
  | giveBack group here found closed ahead ranged =>
    simp only [advance, if_neg lasts] at moved
    exact course_giveBack group here found closed ahead ranged moved
  | connected => cases moved

lemma exists_move :
    (∃ via, a = .connected l via true) ∨ ∃ choice, choice ≠ .fails ∧ choice ≠ .expired ∧
        (s.heap.advance choice a).isSome = true := by
  have inside {inner : Nat} {lease : Lease} (here : s.heap.leases[inner]? = some lease) :
      ∃ u, s.heap.dialers[lease.dialer]? = some u := by
    have range := underway.sound.counted.leased lease (mem_of_getElem? here)
    exact ⟨_, getElem?_eq_getElem range⟩
  cases course with
  | dial =>
    obtain ⟨lease, u, here, found, kind, unclosed⟩ := underway.wrapper
    cases group : u.dialer.isBalancer with
    | true =>
      refine .inr ⟨.order u.dialer.members, by simp, by simp, ?_⟩
      rw [advance, Heap.beginDial_of_balancer here found unclosed group]
      rfl
    | false =>
      refine .inr ⟨.go, by simp, by simp, ?_⟩
      rw [advance, Heap.beginDial_of_plain here found unclosed group]
      rfl
  | forward =>
    obtain ⟨lease, u, here, found, -, -⟩ := underway.wrapper
    refine .inr ⟨.go, by simp, by simp, ?_⟩
    rw [advance, Heap.forwardDial, if_neg (by simp), here, bind_some, found]
    rfl
  | @members todo group ahead ranged =>
    cases todo with
    | nil => cases ahead
    | cons e todo =>
      have there := getElem?_eq_getElem (ranged e mem_cons_self)
      refine .inr ⟨.go, by simp, by simp, ?_⟩
      rw [advance, Heap.nextMember, there]
      rfl
  | attempt group here ahead ranged =>
    obtain ⟨u, found⟩ := inside here
    refine .inr ⟨.go, by simp, by simp, ?_⟩
    rw [advance, Heap.attemptMember, here, bind_some, found]
    rfl
  | memberForward here early =>
    obtain ⟨u, found⟩ := inside here
    refine .inr ⟨.go, by simp, by simp, ?_⟩
    rw [advance, Heap.forwardMember, if_neg (by simp), here, bind_some, found]
    rfl
  | giveBack group here found closed ahead ranged =>
    refine .inr ⟨.go, by simp, by simp, ?_⟩
    simp only [advance, Heap.releaseLease]
    rw [here, bind_some, found]
    rfl
  | @connected via => exact .inl ⟨via, rfl⟩

lemma onward (used : Used i l s label) (kept : Kept l m s) (moved : step s label = some t) :
    ∃ b, Underway i l d t b ∧ Course t.heap l m d b ∧
      (if label.moves i then 1 else 0) + b.left d.members.length ≤ a.left d.members.length := by
  have sound := underway.sound.step moved
  have evolves := evolves_of_step underway.sound moved
  have holds := holds_of_step moved underway.sound used.1 underway.holds
  have kind := evolves.dialerOf underway.kind
  by_cases own : label.moves i = true
  · obtain ⟨choice, heap, b, rfl, advanced, rfl⟩ := advance_of_moves moved own underway.here
    have succeeds : choice ≠ .fails := fun same => used.2.1 (congrArg (Label.move i) same)
    have lasts : choice ≠ .expired := fun same => used.2.2 (congrArg (Label.move i) same)
    obtain ⟨course', fewer⟩ := underway.course_advance course kept succeeds lasts advanced
    refine ⟨b, ⟨sound, ?_, holds, kind⟩, course', ?_⟩
    · rw [getElem?_set_apply underway.here, if_pos rfl]
    · rw [if_pos own]
      omega
  · rw [Bool.not_eq_true] at own
    refine ⟨a, ⟨sound, thread_of_step moved own underway.here, holds, kind⟩,
      course.evolves evolves, ?_⟩
    rw [own]
    exact (Nat.zero_add _).le

lemma run_onward {labels} (used : Meets step (Used i l) s labels)
    (kept : Meets step (fun s _ => Kept l m s) s labels) (arrived : run step s labels = some t) :
    ∃ b, Underway i l d t b ∧ Course t.heap l m d b ∧
      labels.countP (Label.moves i) + b.left d.members.length ≤ a.left d.members.length := by
  induction labels generalizing s a with
  | nil =>
    cases arrived
    exact ⟨a, underway, course, (Nat.zero_add _).le⟩
  | cons label labels ih =>
    obtain ⟨mid, first, rest⟩ := run_cons_some arrived
    obtain ⟨b, underway', course', fewer⟩ := underway.onward course used.1 kept.1 first
    obtain ⟨c, underway'', course'', total⟩ :=
      ih underway' course' (used.2 mid first) (kept.2 mid first) rest
    refine ⟨c, underway'', course'', ?_⟩
    rw [countP_cons]
    omega
end Underway

def Heap.ClosedAt (h : Heap) (d : Nat) : Prop := ∃ t, h.dialers[d]? = some t ∧ t.closed = true

lemma Heap.Evolves.closedAt (evolves : h.Evolves after) (closed : h.ClosedAt d) :
    after.ClosedAt d := by
  obtain ⟨t, found, marked⟩ := closed
  obtain ⟨t', later, grows⟩ := evolves.dialers d t found
  exact ⟨t', later, grows.closed marked⟩

/-- Where a dial through a balancer stands whose members are all marked closed. -/
inductive Doomed (h : Heap) (l : Nat) : Thread → Prop
  | dial : Doomed h l (.dial l)
  | members {todo : List Nat} (closed : ∀ e ∈ todo, h.ClosedAt e) : Doomed h l (.members l todo)
  | attempt {inner : Nat} {todo : List Nat} {lease : Lease} (here : h.leases[inner]? = some lease)
      (own : h.ClosedAt lease.dialer) (closed : ∀ e ∈ todo, h.ClosedAt e) :
      Doomed h l (.attempt l inner todo)
  | giveBack {inner : Nat} {todo : List Nat} (closed : ∀ e ∈ todo, h.ClosedAt e) :
      Doomed h l (.giveBack l inner todo)
  | giveBackClose {d : Nat} {todo : List Nat} (closed : ∀ e ∈ todo, h.ClosedAt e) :
      Doomed h l (.giveBackClose l d todo)
  | failed : Doomed h l (.failed l)

namespace Doomed
variable {members : List Nat}
lemma evolves (doomed : Doomed h l a) (evolves : h.Evolves after) : Doomed after l a := by
  cases doomed with
  | dial => exact .dial
  | members closed => exact .members fun e member => evolves.closedAt (closed e member)
  | attempt here own closed =>
    obtain ⟨lease', later, its, -⟩ := evolves.leases _ _ here
    refine .attempt later ?_ fun e member => evolves.closedAt (closed e member)
    rw [its]
    exact evolves.closedAt own
  | giveBack closed => exact .giveBack fun e member => evolves.closedAt (closed e member)
  | giveBackClose closed => exact .giveBackClose fun e member => evolves.closedAt (closed e member)
  | failed => exact .failed

lemma advance (doomed : Doomed h l a) (kind : h.dialerOf l = some (.balancer members))
    (closed : ∀ e ∈ members, h.ClosedAt e) {choice : Choice}
    (moved : h.advance choice a = some (after, b)) : Doomed after l b := by
  have evolves := Heap.Evolves.effect (Heap.effect_of_advance moved)
  cases doomed with
  | dial =>
    obtain ⟨lease, here, moved⟩ := bind_eq_some_iff.mp moved
    obtain ⟨t, found, moved⟩ := bind_eq_some_iff.mp moved
    rw [Heap.dialerOf, here, bind_some, found, map_some, some.injEq] at kind
    split_ifs at moved with shut
    · cases moved
      exact .failed
    · rw [kind] at moved
      cases choice with
      | order ordered =>
        rw [ite_none_right_eq_some] at moved
        obtain ⟨shuffled, same⟩ := moved
        cases same
        exact .members fun e member => closed e (shuffled.mem_iff.mp member)
      | go | pick | fails | expired => cases moved
  | @members todo shut =>
    cases todo with
    | nil =>
      cases moved
      exact .failed
    | cons e todo =>
      obtain ⟨t, found, same⟩ := map_eq_some_iff.mp moved
      cases same
      have last : (h.acquire e t .dialing).leases[h.leases.length]? =
          some ⟨e, .dialing, !t.closed⟩ := by simp [Heap.acquire]
      refine .attempt last (evolves.closedAt (shut e mem_cons_self)) ?_
      intro k member
      exact evolves.closedAt (shut k (mem_cons_of_mem e member))
  | attempt here own shut =>
    obtain ⟨t, found, marked⟩ := own
    rw [advance, Heap.attemptMember, here, bind_some, found, map_some, if_pos marked] at moved
    cases moved
    exact .giveBack shut
  | @giveBack inner todo shut =>
    have left : ∀ e ∈ (if choice = .expired then [] else todo), after.ClosedAt e := by
      intro e member
      split_ifs at member
      · cases member
      · exact evolves.closedAt (shut e member)
    obtain ⟨lease, t, -, -, same⟩ := moved_eq_some moved
    have thread := congrArg Prod.snd same
    dsimp only at thread
    rw [← thread]
    split_ifs at left ⊢ <;> first | exact .giveBackClose left | exact .members left
  | giveBackClose shut =>
    obtain ⟨t, -, same⟩ := map_eq_some_iff.mp moved
    cases same
    exact .members fun e member => evolves.closedAt (shut e member)
  | failed => cases moved

lemma run_onward {labels} (doomed : Doomed s.heap l a) (sound : Sound s)
    (here : s.threads[i]? = some a)
    (kind : s.heap.dialerOf l = some (.balancer members))
    (closed : ∀ e ∈ members, s.heap.ClosedAt e) (arrived : run step s labels = some t) :
    ∃ b, t.threads[i]? = some b ∧ Doomed t.heap l b := by
  induction labels generalizing s a with
  | nil =>
    cases arrived
    exact ⟨a, here, doomed⟩
  | cons label labels ih =>
    obtain ⟨mid, first, rest⟩ := run_cons_some arrived
    have evolves := evolves_of_step sound first
    have kind' := evolves.dialerOf kind
    have closed' := fun e member => evolves.closedAt (closed e member)
    by_cases own : label.moves i = true
    · obtain ⟨choice, heap, b, rfl, advanced, rfl⟩ := advance_of_moves first own here
      have spot := getElem?_set_apply here b i
      rw [if_pos rfl] at spot
      exact ih (doomed.advance kind closed advanced) (sound.step first) spot kind' closed' rest
    · rw [Bool.not_eq_true] at own
      exact ih (doomed.evolves evolves) (sound.step first) (thread_of_step first own here) kind'
        closed' rest
end Doomed

/-- A dial through a lease that its caller holds succeeds through a dialer that is not closed, if
the lease is not one on a balancer or some member of the balancer stays pinned during the dial:
it can always go on, and it has its connection after at most four steps for each member and two
more. A dial through a balancer of which no member is pinned never succeeds. -/
theorem dial_succeeds_if_pinned {before labels : List Label} {s t : State} {i l : Nat} {d : Dialer}
    (reached : run step State.initial before = some s)
    (started : s.threads[i]? = some (.dial l)) (holds : s.heap.Holds l)
    (kind : s.heap.dialerOf l = some d) (used : Meets step (Used i l) s labels)
    (arrived : run step s labels = some t) :
    (∀ m, Meets step (fun s _ => Kept l m s) s labels →
      ((∃ via, t.threads[i]? = some (.connected l via true)) ∨
        ∃ choice, Used i l t (.move i choice) ∧ (step t (.move i choice)).isSome = true) ∧
      labels.countP (Label.moves i) ≤ 4 * d.members.length + 2) ∧
    (d.isBalancer = true → (∀ m ∈ d.members, ¬ Pinned s m) →
      ∀ via unclosed, t.threads[i]? ≠ some (.connected l via unclosed)) := by
  have sound := Sound.reached reached
  constructor
  · intro m kept
    have start : Underway i l d s (.dial l) := ⟨sound, started, holds, kind⟩
    obtain ⟨b, underway, course, bound⟩ := start.run_onward .dial used kept arrived
    constructor
    · rcases underway.exists_move course with ⟨via, rfl⟩ | ⟨choice, succeeds, lasts, moved⟩
      · exact .inl ⟨via, underway.here⟩
      · refine .inr ⟨choice, ⟨by simp, by simpa using succeeds, by simpa using lasts⟩, ?_⟩
        rw [step, underway.here, bind_some, isSome_map]
        exact moved
    · rw [Thread.left] at bound
      omega
  · intro group loose via unclosed connected
    have start : Underway i l d s (.dial l) := ⟨sound, started, holds, kind⟩
    have closed : ∀ e ∈ d.members, s.heap.ClosedAt e := by
      intro e member
      have found := getElem?_eq_getElem (start.members_ranged e member)
      exact ⟨_, found, sound.closed_of_not_pinned found (loose e member)⟩
    obtain ⟨members, rfl⟩ : ∃ members, d = .balancer members := by
      cases d with
      | balancer members => exact ⟨members, rfl⟩
      | direct | tamizdat | blackhole => cases group
    obtain ⟨b, there, doomed⟩ := Doomed.dial.run_onward sound started kind closed arrived
    cases connected.symm.trans there
    cases doomed

def dialedThrough : List Label :=
  [.move 1 (.order [1]), .reload sampleRows directTag, .move 1 .go, .move 2 (.pick 1),
    .move 1 .go, .move 1 .go]

theorem dial_succeeds_if_pinned_during_reload : ∃ s t, run step State.initial
        [.reload sampleRows directTag, .resolve "bal".toList, .dial 0] = some s ∧
      run step s dialedThrough = some t ∧ t.threads[1]? = some (.connected 0 1 true) ∧
      dialedThrough.countP (Label.moves 1) ≤ 6 := by
  refine exists_two_of (P := fun s t => s.threads[1]? = some (.dial 0) ∧
    s.heap.leases[0]?.map Lease.hold = some .caller ∧ s.heap.dialerOf 0 = some (.balancer [1]) ∧
    Meets step (Used 1 0) s dialedThrough ∧ Meets step (fun s _ => Kept 0 1 s) s dialedThrough ∧
    t.threads[1]? = some (.connected 0 1 true)) (by decide +kernel) ?_
  rintro s t reached arrived ⟨started, held, kind, used, kept, connected⟩
  obtain ⟨lease, here, held⟩ := map_eq_some_iff.mp held
  have bound :=
    ((dial_succeeds_if_pinned reached started ⟨lease, here, held⟩ kind used arrived).1 1 kept).2
  exact ⟨connected, bound⟩

def reloadedBefore : List Label :=
  [.reload sampleRows directTag, .resolve "bal".toList, .reload sampleRows directTag,
    .move 1 (.pick 1), .move 1 .go, .move 1 (.pick 2), .move 1 .go, .move 1 (.pick 3), .dial 0,
    .move 2 (.order [1]), .move 2 .go, .move 2 .go, .move 2 .go, .move 2 .go]

/-- The lease is open, and its dial has failed without asking any dialer. -/
theorem balancer_lease_refused : ∃ s, run step State.initial reloadedBefore = some s ∧
      s.heap.leases[0]?.map Lease.hold = some .caller ∧ s.heap.closesAt 1 = 1 ∧
      s.threads[2]? = some (.failed 0) := by decide +kernel
end Tamizdat.Outbounds
