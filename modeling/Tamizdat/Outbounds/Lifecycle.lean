/- source: internal/outbounds/registry.go
   digest: The counters of the dialers, and that each published one is closed once, when free. -/

import Tamizdat.Outbounds.Registry

open List Option
namespace Tamizdat.Outbounds
open Machine Pool
open Thread (closer debtor)
open Lease (busy holds)
open Lease (pins)
def Heap.Fits (h : Heap) (threads : List Thread) : Prop :=
  ∀ (d : Nat) (t : TrackedDialer), h.dialers[d]? = some t →
    t.Fits (total (holds d) h.leases) (total (pins d) h.leases)
      (total (Lease.late d) h.leases) (total (closer d) threads)

structure Heap.Counted (h : Heap) (threads : List Thread) : Prop where
  fits : h.Fits threads
  leased : ∀ lease ∈ h.leases, lease.dialer < h.dialers.length
  closing : ∀ d, h.dialers.length ≤ d → total (closer d) threads = 0
  owed : ∀ l, total (debtor l) threads = (h.leases[l]?.map busy).getD 0
  called : ∀ lease ∈ h.leases, lease.hold = .caller → lease.early = true

lemma pins_le_held (d : Nat) (leases : List Lease) :
    total (pins d) leases ≤ total (holds d) leases :=
  total_le_total (Lease.pins_le_holds d) leases

lemma held_le (d : Nat) (leases : List Lease) : total (holds d) leases ≤
      total (pins d) leases + total (Lease.late d) leases := by
  induction leases with
  | nil => exact le_rfl
  | cons lease leases ih =>
    have one := Lease.holds_le d lease
    simp only [total, map_cons, sum_cons] at ih ⊢
    omega

section
variable {threads : List Thread} {i : Nat} {a b : Thread} (here : threads[i]? = some a)
include here
lemma total_closer_eq (same : b.closing = a.closing) (d : Nat) :
    total (closer d) (threads.set i b) = total (closer d) threads :=
  total_set_eq _ here (by rw [closer, closer, same])

lemma total_debtor_eq (same : b.owes = a.owes) (l : Nat) :
    total (debtor l) (threads.set i b) = total (debtor l) threads :=
  total_set_eq _ here (by rw [debtor, debtor, same])

lemma total_closer_begin (before : a.closing = none)
    (closing : b.closing = if decided then some d else none) (e : Nat) :
    total (closer e) (threads.set i b) =
      total (closer e) threads + if e = d ∧ decided = true then 1 else 0 := by
  have traded := total_set (closer e) here b
  have none : a.closer e = 0 := by rw [closer, before, if_neg (by simp)]
  have now : b.closer e = if e = d ∧ decided = true then 1 else 0 := by
    rw [closer, closing]
    cases decided
    · simp
    · simp [eq_comm]
  omega

lemma total_closer_end (before : a.closing = some d) (closing : b.closing = none) (e : Nat) :
    total (closer e) (threads.set i b) + (if e = d then 1 else 0) = total (closer e) threads := by
  have traded := total_set (closer e) here b
  have none : b.closer e = 0 := by rw [closer, closing, if_neg (by simp)]
  have was : a.closer e = if e = d then 1 else 0 := by simp [closer, before, eq_comm]
  omega

lemma total_debtor_begin (free : a.owes = none) (owes : b.owes = some l) (k : Nat) :
    total (debtor k) (threads.set i b) = total (debtor k) threads + if k = l then 1 else 0 := by
  have traded := total_set (debtor k) here b
  have none : a.debtor k = 0 := by rw [debtor, free, if_neg (by simp)]
  have now : b.debtor k = if k = l then 1 else 0 := by simp [debtor, owes, eq_comm]
  omega

lemma total_debtor_end (owed : a.owes = some l) (owes : b.owes = none) (k : Nat) :
    total (debtor k) (threads.set i b) + (if k = l then 1 else 0) = total (debtor k) threads := by
  have traded := total_set (debtor k) here b
  have none : b.debtor k = 0 := by rw [debtor, owes, if_neg (by simp)]
  have was : a.debtor k = if k = l then 1 else 0 := by simp [debtor, owed, eq_comm]
  omega
end
namespace Heap.Fits
variable {h : Heap} {threads after : List Thread}
lemma threads_eq (fits : h.Fits threads)
    (same : ∀ d, total (closer d) after = total (closer d) threads) :
    h.Fits after := by
  intro d t found
  rw [same]
  exact fits d t found

variable {d : Nat} {t : TrackedDialer}
section
variable (fits : h.Fits threads) (found : h.dialers[d]? = some t)
include fits found
lemma set (one : u.Fits (total (holds d) h.leases) (total (pins d) h.leases)
      (total (Lease.late d) h.leases) (total (closer d) after))
    (others : ∀ e, e ≠ d → total (closer e) after = total (closer e) threads) :
    Heap.Fits { h with dialers := h.dialers.set d u } after := by
  intro e t' there
  obtain ⟨rfl, rfl⟩ | ⟨same, there⟩ := set_cases found there
  · exact one
  · rw [others e same]
    exact fits e t' there

lemma set_leases {leases : List Lease}
    (one : u.Fits (total (holds d) leases) (total (Lease.pins d) leases)
      (total (Lease.late d) leases) (total (closer d) after))
    (others : ∀ e, e ≠ d → total (holds e) leases = total (holds e) h.leases ∧
        total (Lease.pins e) leases = total (Lease.pins e) h.leases ∧
        total (Lease.late e) leases = total (Lease.late e) h.leases ∧
        total (closer e) after = total (closer e) threads) :
    Heap.Fits ⟨h.dialers.set d u, leases⟩ after := by
  intro e t' there
  obtain ⟨rfl, rfl⟩ | ⟨same, there⟩ := set_cases found there
  · exact one
  · obtain ⟨held, pins, late, closers⟩ := others e same
    rw [held, pins, late, closers]
    exact fits e t' there

lemma acquire (out : hold ≠ .released)
    (same : ∀ e, total (closer e) after = total (closer e) threads) :
    (h.acquire d t hold).Fits after := by
  refine set_leases fits found ?_ ?_
  · have one := (fits d t found).acquire
    rw [same, total_append, total_append, total_append, total_singleton,
      total_singleton, total_singleton]
    have held : holds d ⟨d, hold, !t.closed⟩ = 1 := if_pos ⟨rfl, out⟩
    have pins : Lease.pins d ⟨d, hold, !t.closed⟩ = if t.closed then 0 else 1 := by
      cases closed : t.closed <;> simp [Lease.pins, out]
    have late : Lease.late d ⟨d, hold, !t.closed⟩ = if t.closed then 1 else 0 := by
      cases closed : t.closed <;> simp [Lease.late]
    rw [held, pins, late]
    exact one
  · intro e other
    have apart : ¬ d = e := fun same => other same.symm
    refine ⟨total_snoc _ _ ?_, total_snoc _ _ ?_, total_snoc _ _ ?_, same e⟩
    · simp [holds, apart]
    · simp [Lease.pins, apart]
    · simp [Lease.late, apart]
end

lemma release (fits : h.Fits threads) (here : h.leases[l]? = some lease)
    (found : h.dialers[lease.dialer]? = some t) (out : lease.hold ≠ .released)
    (closers : ∀ e, total (closer e) after = total (closer e) threads +
      if e = lease.dialer ∧ t.release.2 = true then 1 else 0) :
    (h.release l lease t).Fits after := by
  let back : Lease := { lease with hold := .released }
  have held (e : Nat) := total_set (holds e) here back
  have pins (e : Nat) := total_set (Lease.pins e) here back
  have late (e : Nat) : total (Lease.late e) (h.leases.set l back) =
      total (Lease.late e) h.leases := total_set_eq _ here rfl
  have gone (e : Nat) : back.holds e = 0 ∧ back.pins e = 0 := by
    simp [back, holds, Lease.pins]
  refine set_leases fits found ?_ ?_
  · have heldOne : lease.holds lease.dialer = 1 := if_pos ⟨rfl, out⟩
    have pinsOne : lease.pins lease.dialer = if lease.early then 1 else 0 := by
      simp [Lease.pins, out]
    have heldSum : total (holds lease.dialer) (h.leases.set l back) + 1 =
        total (holds lease.dialer) h.leases := by
      have traded := held lease.dialer
      rw [(gone _).1, heldOne] at traded
      exact traded
    have pinsSum : total (Lease.pins lease.dialer) (h.leases.set l back) +
        (if lease.early then 1 else 0) = total (Lease.pins lease.dialer) h.leases := by
      have traded := pins lease.dialer
      rw [(gone _).2, pinsOne] at traded
      exact traded
    have before := fits _ t found
    rw [← heldSum, ← pinsSum] at before
    have after := before.release (pins_le_held _ _)
    rw [late, closers, if_congr (and_iff_right rfl) rfl rfl]
    exact after
  · intro e other
    have apart : ¬ lease.dialer = e := fun same => other same.symm
    have heldZero : lease.holds e = 0 := by simp [holds, apart]
    have pinsZero : lease.pins e = 0 := by simp [Lease.pins, apart]
    refine ⟨?_, ?_, late e, ?_⟩
    · exact total_set_eq _ here ((gone e).1.trans heldZero.symm)
    · exact total_set_eq _ here ((gone e).2.trans pinsZero.symm)
    · rw [closers, if_neg (fun both => other both.1)]
      rfl

lemma rehold (fits : h.Fits threads) (here : h.leases[l]? = some lease)
    (out : lease.hold ≠ .released) (still : hold ≠ .released)
    (same : ∀ e, total (closer e) after = total (closer e) threads) :
    Heap.Fits { h with leases := h.leases.set l { lease with hold := hold } } after := by
  intro d t found
  have held : holds d { lease with hold := hold } = lease.holds d := by
    simp [holds, out, still]
  have pins : Lease.pins d { lease with hold := hold } = lease.pins d := by
    simp [Lease.pins, out, still]
  have late : Lease.late d { lease with hold := hold } = lease.late d := rfl
  rw [total_set_eq _ here held, total_set_eq _ here pins, total_set_eq _ here late, same]
  exact fits d t found
end Heap.Fits
namespace Heap.Counted
variable {h after : Heap} {threads : List Thread} {i : Nat} {a b : Thread} {l : Nat}
section
variable (counted : h.Counted threads) (here : threads[i]? = some a)
include counted here
lemma busy_of_owes (owed : a.owes = some l) (there : h.leases[l]? = some lease) :
    lease.hold = .dialing ∨ lease.hold = .closing := by
  have one : a.debtor l = 1 := if_pos owed
  have some := Pool.le_total (debtor l) here
  rw [counted.owed l, there, map_some, getD_some, one, busy] at some
  by_contra idle
  rw [if_neg idle] at some
  omega

lemma out_of_owes (owed : a.owes = some l) (there : h.leases[l]? = some lease) :
    lease.hold ≠ .released := by
  rcases counted.busy_of_owes here owed there with busy | busy <;> simp [busy]

lemma quiet (closing : b.closing = a.closing) (owes : b.owes = a.owes) :
    h.Counted (threads.set i b) where
  fits := counted.fits.threads_eq (total_closer_eq here closing)
  leased := counted.leased
  closing := by
    intro d outside
    rw [total_closer_eq here closing]
    exact counted.closing d outside
  owed := by
    intro l
    rw [total_debtor_eq here owes]
    exact counted.owed l
  called := counted.called
end
variable {d : Nat} {t : TrackedDialer} (counted : h.Counted threads)
include counted
lemma acquire {later : List Thread} (found : h.dialers[d]? = some t) (out : hold ≠ .released)
    (same : ∀ e, total (closer e) later = total (closer e) threads)
    (owed : ∀ k, total (debtor k) later = total (debtor k) threads +
      if k = h.leases.length then busy ⟨d, hold, !t.closed⟩ else 0)
    (called : hold = .caller → t.closed = false) : (h.acquire d t hold).Counted later where
  fits := counted.fits.acquire found out same
  leased := by
    simp only [Heap.acquire, length_set]
    exact forall_snoc counted.leased (lt_of_getElem? found)
  closing := by
    intro e outside
    simp only [Heap.acquire, length_set] at outside
    rw [same]
    exact counted.closing e outside
  owed := by
    intro k
    rw [owed, counted.owed k, Heap.acquire, getElem?_snoc]
    split_ifs with last
    · simp [last]
    · rfl
  called := forall_snoc counted.called fun held => by simp [called held]

section
variable (here : threads[i]? = some a)
include here
lemma set (found : h.dialers[d]? = some t) (owes : b.owes = a.owes)
    (fits : Heap.Fits { h with dialers := h.dialers.set d u } (threads.set i b))
    (others : ∀ e, e ≠ d → total (closer e) (threads.set i b) = total (closer e) threads) :
    Heap.Counted { h with dialers := h.dialers.set d u } (threads.set i b) where
  fits := fits
  leased := by
    simp only [length_set]
    exact counted.leased
  closing := by
    intro e outside
    simp only [length_set] at outside
    have inside := lt_of_getElem? found
    rw [others e (by omega)]
    exact counted.closing e outside
  owed := by
    intro l
    rw [total_debtor_eq here owes]
    exact counted.owed l
  called := counted.called

section
variable (there : h.leases[l]? = some lease)
include there
lemma owed_end (owed : a.owes = some l) (owes : b.owes = none)
    (idle : busy { lease with hold := hold } = 0) (k : Nat) :
    total (debtor k) (threads.set i b) =
      ((h.leases.set l { lease with hold := hold })[k]?.map busy).getD 0 := by
  have traded := total_debtor_end here owed owes k
  have known := counted.owed k
  rw [getElem?_set_apply there]
  split_ifs with same
  · subst same
    rw [there, map_some, getD_some, busy, if_pos (counted.busy_of_owes here owed there)] at known
    rw [if_pos rfl] at traded
    rw [map_some, getD_some, idle]
    omega
  · rw [if_neg same] at traded
    omega

lemma releases (found : h.dialers[lease.dialer]? = some t) (owed : a.owes = some l)
    (owes : b.owes = none) (before : a.closing = none)
    (closing : b.closing = if t.release.2 then some lease.dialer else none) :
    (h.release l lease t).Counted (threads.set i b) where
  fits := counted.fits.release there found (counted.out_of_owes here owed there)
    (total_closer_begin here before closing)
  leased := by
    simp only [Heap.release, length_set]
    exact forall_set counted.leased (counted.leased lease (mem_of_getElem? there))
  closing := by
    intro e outside
    simp only [Heap.release, length_set] at outside
    have inside := lt_of_getElem? found
    rw [total_closer_begin here before closing, if_neg (fun both => by omega), Nat.add_zero]
    exact counted.closing e outside
  owed := counted.owed_end here there owed owes (by simp [busy])
  called := forall_set counted.called nofun

lemma keeps (owed : a.owes = some l) (owes : b.owes = none) (closing : b.closing = a.closing) :
    Heap.Counted { h with leases := h.leases.set l { lease with hold := .conn } }
      (threads.set i b) where
  fits := counted.fits.rehold there (counted.out_of_owes here owed there) (by simp)
    (total_closer_eq here closing)
  leased := forall_set counted.leased (counted.leased lease (mem_of_getElem? there))
  closing := by
    intro e outside
    rw [total_closer_eq here closing]
    exact counted.closing e outside
  owed := counted.owed_end here there owed owes (by simp [busy])
  called := forall_set counted.called nofun
end

lemma effect (effect : Effect h a after b) : after.Counted (threads.set i b) := by
  cases effect with
  | quiet closing owes => exact counted.quiet here closing owes
  | @retires _ d t found listed before closing owes =>
    have closers := total_closer_begin here before closing
    have others (e : Nat) (other : e ≠ d) : total (closer e) (threads.set i b) =
          total (closer e) threads := by
      rw [closers, if_neg (fun both => other both.1), Nat.add_zero]
    refine counted.set here found owes (counted.fits.set found ?_ others) others
    rw [closers, if_congr (and_iff_right rfl) rfl rfl]
    exact (counted.fits d t found).retire (pins_le_held _ _)
  | @closes _ d t found before closing owes =>
    have closers := total_closer_end here before closing
    have others (e : Nat) (other : e ≠ d) : total (closer e) (threads.set i b) =
          total (closer e) threads := by
      rw [← closers, if_neg other, Nat.add_zero]
    refine counted.set here found owes (counted.fits.set found ?_ others) others
    have known := counted.fits d t found
    rw [← closers, if_pos rfl] at known
    exact known.close
  | releases there found owed owes before closing =>
    exact counted.releases here there found owed owes before closing
  | acquires found free owes closing =>
    refine counted.acquire found (by simp) (total_closer_eq here closing) ?_ (by simp)
    simpa [busy] using total_debtor_begin here free owes
  | keeps there owed owes closing => exact counted.keeps here there owed owes closing
end

lemma spawn (closing : b.closing = none) (owes : b.owes = none) : h.Counted (threads ++ [b]) where
  fits := counted.fits.threads_eq fun _ => total_snoc _ _ (by simp [closer, closing])
  leased := counted.leased
  closing := by
    intro d outside
    rw [total_snoc _ _ (by simp [closer, closing])]
    exact counted.closing d outside
  owed := by
    intro l
    rw [total_snoc _ _ (by simp [debtor, owes])]
    exact counted.owed l
  called := counted.called

lemma extend (fresh : ∀ t ∈ added, ∃ tag d, t = newTrackedDialer tag d) :
    Heap.Counted { h with dialers := h.dialers ++ added } threads where
  fits := by
    intro d t found
    rw [getElem?_append] at found
    split_ifs at found with inside
    · exact counted.fits d t found
    · obtain ⟨tag, dialer, rfl⟩ := fresh t (mem_of_getElem? found)
      have outside : h.dialers.length ≤ d := by omega
      have apart : ∀ lease ∈ h.leases, ¬ lease.dialer = d := by
        intro lease member same
        have range := counted.leased lease member
        omega
      have none {w : Nat → Lease → Nat} (own : ∀ lease, ¬ lease.dialer = d → w d lease = 0) :
          total (w d) h.leases = 0 :=
        total_of_light fun lease member => own lease (apart lease member)
      rw [none (by simp +contextual [holds]), none (by simp +contextual [Lease.pins]),
        none (by simp +contextual [Lease.late]), counted.closing d outside]
      exact .fresh tag dialer
  leased := by
    intro lease member
    have range := counted.leased lease member
    rw [length_append]
    omega
  closing := by
    intro d outside
    rw [length_append] at outside
    exact counted.closing d (by omega)
  owed := counted.owed
  called := counted.called

lemma closeLease {lease : Lease} (there : h.leases[l]? = some lease)
    (held : lease.hold = .caller ∨ lease.hold = .conn) :
    Heap.Counted { h with leases := h.leases.set l { lease with hold := .closing } }
      (threads ++ [.release l]) where
  fits := by
    refine counted.fits.rehold there ?_ (by simp) fun _ => total_snoc _ _ rfl
    rcases held with held | held <;> simp [held]
  leased := forall_set counted.leased (counted.leased lease (mem_of_getElem? there))
  closing := by
    intro e outside
    have light : closer e (.release l) = 0 := rfl
    rw [total_snoc _ _ light]
    exact counted.closing e outside
  owed := by
    intro k
    have known := counted.owed k
    rw [total_append, total_singleton, getElem?_set_apply there]
    split_ifs with same
    · subst same
      have idle : lease.busy = 0 := by rcases held with held | held <;> simp [busy, held]
      rw [there, map_some, getD_some, idle] at known
      rw [known, map_some, getD_some]
      simp [debtor, Thread.owes, busy]
    · have other : debtor k (.release l) = 0 := by
        simp [debtor, Thread.owes, Ne.symm same]
      rw [known, other]
      rfl
  called := forall_set counted.called nofun
end Heap.Counted
open Machine.Maps (GoMap)
open Machine.Runs
open Routing (Text)

structure Build.Extends (base : List TrackedDialer) (b : Build) : Prop where
  added : ∃ added, b.dialers = base ++ added ∧ ∀ t ∈ added, ∃ tag d, t = newTrackedDialer tag d
  named : ∀ tag d, b.next.lookup tag = some d → base.length ≤ d ∧ d < b.dialers.length
  grouped : ∀ t ∈ b.dialers, ∀ d ∈ t.dialer.members, d < b.dialers.length

namespace Build
variable {base : List TrackedDialer} {b after : Build}
lemma Extends.add (built : b.Extends base) (known : ∀ m ∈ d.members, m < b.dialers.length) :
    (b.add tag d).Extends base where
  added := by
    obtain ⟨added, whole, fresh⟩ := built.added
    refine ⟨added ++ [newTrackedDialer tag d], ?_, forall_snoc fresh ⟨tag, d, rfl⟩⟩
    rw [Build.add, whole, append_assoc]
  named := by
    intro k e found
    have longer : (b.add tag d).dialers.length = b.dialers.length + 1 := by simp [Build.add]
    obtain ⟨added, whole, -⟩ := built.added
    rw [Build.add, Maps.lookup_insert] at found
    split_ifs at found with same
    · cases found
      rw [longer, whole, length_append]
      omega
    · have range := built.named k e found
      omega
  grouped := by
    have longer : (b.add tag d).dialers.length = b.dialers.length + 1 := by simp [Build.add]
    rw [longer]
    refine forall_snoc ?_ ?_
    · intro t member m inside
      exact (built.grouped t member m inside).trans (Nat.lt_succ_self _)
    · intro m inside
      exact (known m inside).trans (Nat.lt_succ_self _)

lemma Extends.addPlain (built : b.Extends base) (done : b.addPlain row = some after) :
    after.Extends base := by
  have plain {d : Dialer} (none : d.members = []) : ∀ m ∈ d.members, m < b.dialers.length := by
    rw [none]
    exact nofun
  unfold Build.addPlain at done
  rw [ite_none_left_eq_some] at done
  replace done := done.2
  split at done
  · split_ifs at done
    cases done
    exact built.add (plain rfl)
  · split_ifs at done
    cases done
    exact built.add (plain rfl)
  · cases done
    exact built.add (plain rfl)
  · cases done
    exact built
  · cases done

lemma Extends.member (built : b.Extends base) (found : b.member tag memberTag = some d) :
    d < b.dialers.length := by
  unfold Build.member at found
  split_ifs at found
  obtain ⟨e, named, found⟩ := bind_eq_some_iff.mp found
  obtain ⟨t, -, found⟩ := bind_eq_some_iff.mp found
  split_ifs at found
  cases found
  exact (built.named memberTag _ named).2

lemma Extends.addBalancer (built : b.Extends base) (done : b.addBalancer row = some after) :
    after.Extends base := by
  unfold Build.addBalancer at done
  split at done
  · cases done
  · obtain ⟨d, made, rfl⟩ := map_eq_some_iff.mp done
    apply built.add
    dsimp only [newBalancerDialer] at made
    split_ifs at made
    obtain ⟨members, found, rfl⟩ := map_eq_some_iff.mp made
    intro m inside
    obtain ⟨memberTag, -, known⟩ := Folds.exists_of_mem_mapM found inside
    exact built.member known
  · cases done
    exact built
end Build

lemma extends_loadRows (grouped : ∀ t ∈ base, ∀ d ∈ t.dialer.members, d < base.length)
    (loaded : loadRows base rows setting = some (b, tag)) : b.Extends base := by
  obtain ⟨plain, first, loaded⟩ := bind_eq_some_iff.mp loaded
  obtain ⟨whole, second, loaded⟩ := bind_eq_some_iff.mp loaded
  rw [ite_none_right_eq_some] at loaded
  cases loaded.2
  have start : Build.Extends base ⟨∅, base⟩ := by
    refine ⟨⟨[], by simp, by simp⟩, ?_, grouped⟩
    intro k d found
    exact absurd found (by simp)
  have halfway : plain.Extends base := run_invariant Build.Extends.addPlain start first
  exact run_invariant Build.Extends.addBalancer halfway second

def Heap.retiredAt (h : Heap) (d : Nat) : Option Bool := h.dialers[d]?.map TrackedDialer.retired

/-- How the dialers stand to the map and to the goroutines that retire them. -/
structure Listed (s : State) : Prop where
  current : ∀ tag d, s.byTag.lookup tag = some d →
    s.heap.retiredAt d = some false ∧ ∀ thread ∈ s.threads, d ∉ thread.todo
  ranged : ∀ thread ∈ s.threads, ∀ d ∈ thread.todo, d < s.heap.dialers.length
  accounted : ∀ d ∈ s.published, (∃ tag, s.byTag.lookup tag = some d) ∨
    s.heap.retiredAt d = some true ∨ ∃ thread ∈ s.threads, d ∈ thread.todo
  grouped : ∀ t ∈ s.heap.dialers, ∀ d ∈ t.dialer.members, d < s.heap.dialers.length

open Heap (retiredAt)
namespace Listed
variable {s : State}
lemma mem_old : d ∈ s.old ↔ ∃ tag, s.byTag.lookup tag = some d := by
  rw [State.old, Maps.mem_valuesAt]
  constructor
  · rintro ⟨tag, -, found⟩
    exact ⟨tag, found⟩
  · rintro ⟨tag, found⟩
    exact ⟨tag, Maps.mem_keys_iff.mpr ⟨d, found⟩, found⟩

section
variable (listed : Listed s)
include listed
lemma inside_of_current (found : s.byTag.lookup tag = some d) : d < s.heap.dialers.length := by
  obtain ⟨t, here, -⟩ := map_eq_some_iff.mp (listed.current tag d found).1
  exact lt_of_getElem? here

lemma effect {a b : Thread} {after : Heap} (here : s.threads[i]? = some a)
    (effect : Effect s.heap a after b) :
    Listed { s with heap := after, threads := s.threads.set i b } where
  current := by
    intro tag d found
    obtain ⟨unretired, apart⟩ := listed.current tag d found
    obtain ⟨t, there, live⟩ := map_eq_some_iff.mp unretired
    have other := apart a (mem_of_getElem? here)
    obtain ⟨t', later, -⟩ := effect.grows there
    refine ⟨?_, forall_set apart fun inside => other (effect.todo_subset inside)⟩
    rw [retiredAt, later, map_some, effect.retired_eq there later other, live]
  ranged := by
    rw [effect.length_dialers]
    refine forall_set listed.ranged ?_
    intro d inside
    exact listed.ranged a (mem_of_getElem? here) d (effect.todo_subset inside)
  accounted := by
    intro d member
    rcases listed.accounted d member with found | gone | ⟨thread, among, inside⟩
    · exact .inl found
    · obtain ⟨t, there, retired⟩ := map_eq_some_iff.mp gone
      obtain ⟨t', later, grows⟩ := effect.grows there
      refine .inr (.inl ?_)
      rw [retiredAt, later, map_some, grows.retired retired]
    · obtain ⟨j, there⟩ := mem_iff_getElem?.mp among
      have spot := getElem?_set_apply here b
      by_cases same : j = i
      · subst same
        cases here.symm.trans there
        rcases effect.todo_or_retired inside with still | ⟨t', later, retired⟩
        · refine .inr (.inr ⟨b, mem_of_getElem? (i := j) ?_, still⟩)
          rw [spot, if_pos rfl]
        · refine .inr (.inl ?_)
          rw [retiredAt, later, map_some, retired]
      · refine .inr (.inr ⟨thread, mem_of_getElem? (i := j) ?_, inside⟩)
        rw [spot, if_neg same]
        exact there
  grouped := by
    intro t' member d inside
    obtain ⟨e, later⟩ := mem_iff_getElem?.mp member
    have range := lt_of_getElem? later
    rw [effect.length_dialers] at range ⊢
    have there := getElem?_eq_getElem range
    obtain ⟨t'', again, grows⟩ := effect.grows there
    cases later.symm.trans again
    rw [grows.dialer] at inside
    exact listed.grouped _ (mem_of_getElem? there) d inside

lemma extend (heap : Heap) (started : List Thread) (idle : ∀ thread ∈ started, thread.todo = [])
    (same : ∀ d, d < s.heap.dialers.length → heap.retiredAt d = s.heap.retiredAt d)
    (longer : s.heap.dialers.length ≤ heap.dialers.length)
    (grouped : ∀ t ∈ heap.dialers, ∀ d ∈ t.dialer.members, d < heap.dialers.length) :
    Listed { s with heap := heap, threads := s.threads ++ started } where
  current := by
    intro tag d found
    obtain ⟨unretired, apart⟩ := listed.current tag d found
    refine ⟨(same d (listed.inside_of_current found)).trans unretired, ?_⟩
    intro thread member inside
    rcases mem_append.mp member with old | new
    · exact apart thread old inside
    · rw [idle thread new] at inside
      cases inside
  ranged := by
    intro thread member d inside
    rcases mem_append.mp member with old | new
    · exact (listed.ranged thread old d inside).trans_le longer
    · rw [idle thread new] at inside
      cases inside
  accounted := by
    intro d member
    rcases listed.accounted d member with found | gone | ⟨thread, among, inside⟩
    · exact .inl found
    · obtain ⟨t, there, -⟩ := map_eq_some_iff.mp gone
      have range := lt_of_getElem? there
      exact .inr (.inl ((same d range).trans gone))
    · exact .inr (.inr ⟨thread, mem_append_left _ among, inside⟩)
  grouped := grouped

lemma swap {next : GoMap Text Nat} {added : List TrackedDialer}
    (named : ∀ k d, next.lookup k = some d → s.heap.dialers.length ≤ d ∧
      retiredAt ⟨s.heap.dialers ++ added, s.heap.leases⟩ d = some false)
    (grouped : ∀ t ∈ s.heap.dialers ++ added, ∀ d ∈ t.dialer.members,
      d < (s.heap.dialers ++ added).length) :
    Listed (s.swap next (s.heap.dialers ++ added) tag) where
  current := by
    intro k d found
    obtain ⟨outside, live⟩ := named k d found
    refine ⟨live, forall_snoc ?_ ?_⟩
    · intro thread member inside
      have range := listed.ranged thread member d inside
      omega
    · intro inside
      obtain ⟨k', was⟩ := mem_old.mp inside
      have range := listed.inside_of_current was
      omega
  ranged := by
    have longer : s.heap.dialers.length ≤ (s.heap.dialers ++ added).length := by simp
    refine forall_snoc ?_ ?_
    · intro thread member d inside
      exact (listed.ranged thread member d inside).trans_le longer
    · intro d inside
      obtain ⟨k, was⟩ := mem_old.mp inside
      exact (listed.inside_of_current was).trans_le longer
  accounted := by
    intro d member
    rcases mem_append.mp member with old | new
    · rcases listed.accounted d old with found | gone | ⟨thread, among, inside⟩
      · refine .inr (.inr ⟨.retire s.old, ?_, mem_old.mpr found⟩)
        exact mem_append_right _ mem_cons_self
      · obtain ⟨t, there, retired⟩ := map_eq_some_iff.mp gone
        refine .inr (.inl (map_eq_some_iff.mpr ⟨t, ?_, retired⟩))
        exact (getElem?_append_left (lt_of_getElem? there)).trans there
      · exact .inr (.inr ⟨thread, mem_append_left _ among, inside⟩)
    · obtain ⟨k, -, found⟩ := Maps.mem_valuesAt.mp new
      exact .inl ⟨k, found⟩
  grouped := grouped
end
end Listed

structure Sound (s : State) : Prop where
  counted : s.heap.Counted s.threads
  listed : Listed s

variable {h : Heap}
namespace Sound
variable {s t : State}
lemma initial : Sound State.initial := by
  refine ⟨⟨?_, by simp [State.initial], fun _ _ => rfl, fun _ => rfl, by simp [State.initial]⟩,
    ⟨?_, by simp [State.initial], ?_, ?_⟩⟩
  · intro d t found
    obtain ⟨tag, dialer, rfl⟩ : ∃ tag dialer, t = newTrackedDialer tag dialer := by
      have member := mem_of_getElem? found
      rw [State.initial, mem_singleton] at member
      exact ⟨_, _, member⟩
    exact .fresh tag dialer
  · intro tag d found
    rw [State.initial, Maps.lookup_insert] at found
    split_ifs at found
    · cases found
      exact ⟨rfl, by simp [State.initial]⟩
    · cases found
  · intro d member
    rw [State.initial, mem_singleton] at member
    subst member
    refine .inl ⟨directTag, ?_⟩
    rw [State.initial, Maps.lookup_insert, if_pos rfl]
  · intro t member
    rw [State.initial, mem_singleton] at member
    subst member
    exact nofun

variable {tag : Text} {d : Nat}
lemma swap (sound : Sound s) {next : GoMap Text Nat} {added : List TrackedDialer}
    (fresh : ∀ t ∈ added, ∃ tag d, t = newTrackedDialer tag d)
    (named : ∀ k d, next.lookup k = some d →
      s.heap.dialers.length ≤ d ∧ d < (s.heap.dialers ++ added).length)
    (grouped : ∀ t ∈ s.heap.dialers ++ added, ∀ d ∈ t.dialer.members,
      d < (s.heap.dialers ++ added).length) :
    Sound (s.swap next (s.heap.dialers ++ added) tag) := by
  refine ⟨(sound.counted.extend fresh).spawn rfl rfl, sound.listed.swap ?_ grouped⟩
  intro k d found
  obtain ⟨outside, range⟩ := named k d found
  refine ⟨outside, ?_⟩
  rw [retiredAt, getElem?_append_right outside]
  have inside : d - s.heap.dialers.length < added.length := by
    rw [length_append] at range
    omega
  obtain ⟨k', dialer, made⟩ := fresh _ (getElem_mem inside)
  rw [getElem?_eq_getElem inside, made]
  rfl

lemma reload (sound : Sound s) (loaded : loadRows s.heap.dialers rows setting = some (b, tag)) :
    Sound (s.swap b.next b.dialers tag) := by
  have built := extends_loadRows sound.listed.grouped loaded
  obtain ⟨added, whole, fresh⟩ := built.added
  have named := built.named
  have grouped := built.grouped
  rw [whole] at named grouped ⊢
  exact sound.swap fresh named grouped

lemma close (sound : Sound s) : Sound s.close := by
  have swapped : Sound (s.swap ∅ (s.heap.dialers ++ []) directTag) :=
    sound.swap (by simp) (by simp) (by simpa using sound.listed.grouped)
  rw [append_nil] at swapped
  exact swapped

variable {dialers : List TrackedDialer}
lemma map_set_of_same {t : TrackedDialer} {f : TrackedDialer → β} (found : dialers[d]? = some t)
    (same : f u = f t) (e : Nat) :
    (dialers.set d u)[e]?.map f = dialers[e]?.map f := by
  rw [getElem?_set_apply found]
  split_ifs with here
  · rw [here, found, map_some, map_some, same]
  · rfl

lemma retiredAt_set {t : TrackedDialer} {leases : List Lease} (found : h.dialers[d]? = some t)
    (same : u.retired = t.retired) (e : Nat) :
    retiredAt ⟨h.dialers.set d u, leases⟩ e = h.retiredAt e := by
  rw [retiredAt, map_set_of_same found same, retiredAt]

lemma grouped_set {t : TrackedDialer}
    (grouped : ∀ t ∈ dialers, ∀ m ∈ t.dialer.members, m < dialers.length)
    (found : dialers[d]? = some t) (same : u.dialer = t.dialer) :
    ∀ t ∈ dialers.set d u, ∀ m ∈ t.dialer.members, m < (dialers.set d u).length := by
  rw [length_set]
  refine forall_set grouped ?_
  rw [same]
  exact grouped t (mem_of_getElem? found)

section
variable (sound : Sound s)
include sound
lemma acquire (found : s.heap.dialers[d]? = some u)
    (unclosed : u.closed = false) : Sound { s with heap := s.heap.acquire d u .caller } := by
  refine ⟨sound.counted.acquire found (by simp) (fun _ => rfl) (by simp [busy])
    fun _ => unclosed, ?_⟩
  have extended := sound.listed.extend (s.heap.acquire d u .caller) [] (by simp)
    (fun e _ => retiredAt_set (u := u.acquire) found rfl e) (by simp [Heap.acquire])
    (grouped_set sound.listed.grouped found rfl)
  rw [append_nil] at extended
  exact extended

lemma lease (named : s.byTag.lookup tag = some d) (found : s.heap.dialers[d]? = some u) :
    Sound { s with heap := s.heap.acquire d u .caller } := by
  obtain ⟨u', found', live⟩ := map_eq_some_iff.mp (sound.listed.current tag d named).1
  cases found.symm.trans found'
  apply sound.acquire found
  by_contra closed
  rw [Bool.not_eq_false] at closed
  have retired := (sound.counted.fits d u found).retired closed
  exact absurd (retired.symm.trans live) (by decide)

lemma resolveFresh : Sound s.resolveFresh := by
  let fresh := newTrackedDialer directTag .direct
  have grouped : ∀ t ∈ s.heap.dialers ++ [fresh], ∀ d ∈ t.dialer.members,
      d < (s.heap.dialers ++ [fresh]).length := by
    rw [length_append]
    refine forall_snoc ?_ ?_
    · intro t member d inside
      exact (sound.listed.grouped t member d inside).trans (Nat.lt_succ_self _)
    · exact nofun
  have made : Sound { s with heap := { s.heap with dialers := s.heap.dialers ++ [fresh] } } := by
    constructor
    · apply sound.counted.extend
      intro t member
      exact ⟨_, _, mem_singleton.mp member⟩
    · have extended := sound.listed.extend { s.heap with dialers := s.heap.dialers ++ [fresh] } []
        (by simp) ?_ (by simp) grouped
      · rw [append_nil] at extended
        exact extended
      · intro d inside
        unfold retiredAt
        rw [getElem?_append_left inside]
  exact made.acquire (by simp [fresh]) rfl

lemma closeLease {lease : Lease} (here : s.heap.leases[l]? = some lease)
    (held : lease.hold = .caller ∨ lease.hold = .conn) :
    Sound { s with
      heap := { s.heap with leases := s.heap.leases.set l { lease with hold := .closing } }
      threads := s.threads ++ [.release l] } := by
  exact ⟨sound.counted.closeLease here held, sound.listed.extend _ _ (by simp [Thread.todo])
    (fun _ _ => rfl) le_rfl sound.listed.grouped⟩

lemma dial (l : Nat) : Sound { s with threads := s.threads ++ [.dial l] } := by
  exact ⟨sound.counted.spawn rfl rfl, sound.listed.extend _ _ (by simp [Thread.todo])
    (fun _ _ => rfl) le_rfl sound.listed.grouped⟩
end

lemma step {label : Label} (sound : Sound s) (moved : step s label = some t) : Sound t := by
  cases moves_of_step moved with
  | stays => exact sound
  | fresh => exact sound.resolveFresh
  | leases _ named found => exact sound.lease named found
  | reloads loaded => exact sound.reload loaded
  | closes => exact sound.close
  | gives here held => exact sound.closeLease here held
  | @dials l => exact sound.dial l
  | advances here advanced =>
    have effect := Heap.effect_of_advance advanced
    exact ⟨sound.counted.effect here effect, sound.listed.effect here effect⟩

lemma reached (arrived : run Outbounds.step State.initial labels = some s) : Sound s :=
  run_invariant Sound.step initial arrived
end Sound

def Heap.closesAt (h : Heap) (d : Nat) : Nat := (h.dialers[d]?.map TrackedDialer.closes).getD 0

def State.pendingCloses (s : State) (d : Nat) : Nat := total (Thread.closer d) s.threads

lemma closesAt_set {t u : TrackedDialer} {leases : List Lease} (found : h.dialers[d]? = some t)
    (same : u.closes = t.closes) (e : Nat) :
    Heap.closesAt ⟨h.dialers.set d u, leases⟩ e = h.closesAt e := by
  rw [Heap.closesAt, Sound.map_set_of_same found same, Heap.closesAt]

lemma closesAt_append {added : List TrackedDialer} {leases : List Lease}
    (fresh : ∀ t ∈ added, ∃ tag d, t = newTrackedDialer tag d) (e : Nat) :
    Heap.closesAt ⟨h.dialers ++ added, leases⟩ e = h.closesAt e := by
  unfold Heap.closesAt
  rw [getElem?_append]
  split_ifs with inside
  · rfl
  · rw [getElem?_eq_none (Nat.not_lt.mp inside)]
    cases found : added[e - h.dialers.length]? with
    | none => rfl
    | some t =>
      obtain ⟨tag, d, rfl⟩ := fresh t (mem_of_getElem? found)
      rfl

lemma Effect.closing_of_closesAt {h after : Heap} {a b : Thread} (effect : Effect h a after b)
    {d : Nat} (more : h.closesAt d < after.closesAt d) : a.closing = some d := by
  have unchanged (same : after.closesAt d = h.closesAt d) : a.closing = some d := by omega
  cases effect with
  | quiet | keeps => exact unchanged rfl
  | @retires _ e t found =>
    refine unchanged (closesAt_set found ?_ d)
    unfold TrackedDialer.retire
    split_ifs <;> rfl
  | @closes _ e t found before =>
    by_cases same : d = e
    · rw [same]
      exact before
    · refine unchanged ?_
      unfold Heap.closesAt
      rw [getElem?_set_apply found, if_neg same]
  | @releases _ l lease t here found =>
    refine unchanged (closesAt_set found ?_ d)
    unfold TrackedDialer.release
    split_ifs <;> rfl
  | @acquires _ e t found => exact unchanged (closesAt_set (u := t.acquire) found rfl d)

lemma closesAt_acquire {d e : Nat} {u : TrackedDialer} {hold : Hold}
    (found : h.dialers[e]? = some u) : (h.acquire e u hold).closesAt d = h.closesAt d :=
  closesAt_set (u := u.acquire) found rfl d

lemma pending_of_closesAt {s t : State} {label : Label} (sound : Sound s)
    (moved : step s label = some t) {d : Nat} (more : s.heap.closesAt d < t.heap.closesAt d) :
    0 < s.pendingCloses d := by
  have unchanged (same : t.heap.closesAt d = s.heap.closesAt d) : 0 < s.pendingCloses d := by
    omega
  cases moves_of_step moved with
  | stays | closes | gives | dials => exact unchanged rfl
  | fresh =>
    let fresh := newTrackedDialer directTag .direct
    let made : Heap := ⟨s.heap.dialers ++ [fresh], s.heap.leases⟩
    have last : made.dialers[s.heap.dialers.length]? = some fresh := by simp [made]
    have acquired : s.resolveFresh.heap.closesAt d = made.closesAt d := closesAt_acquire last
    refine unchanged (acquired.trans (closesAt_append ?_ d))
    intro t member
    exact ⟨_, _, mem_singleton.mp member⟩
  | leases _ _ found => exact unchanged (closesAt_acquire found)
  | @reloads _ _ b tag loaded =>
    -- the dialers stay, and new ones join
    obtain ⟨added, whole, fresh⟩ := (extends_loadRows sound.listed.grouped loaded).added
    refine unchanged ?_
    rw [whole]
    exact closesAt_append fresh d
  | @advances i _ a b after here advanced =>
    have closing := (Heap.effect_of_advance advanced).closing_of_closesAt more
    have one : a.closer d = 1 := if_pos closing
    have some := Pool.le_total (Thread.closer d) here
    rw [one] at some
    exact some

namespace Sound
variable {s : State} {d : Nat} {t : TrackedDialer}
variable (sound : Sound s) (found : s.heap.dialers[d]? = some t)
include sound found
lemma closes_add_pending : s.heap.closesAt d + s.pendingCloses d = if t.closed then 1 else 0 := by
  rw [Heap.closesAt, found, map_some, getD_some]
  exact (sound.counted.fits d t found).once

lemma released_of_closed (closed : t.closed = true) {lease : Lease}
    (member : lease ∈ s.heap.leases) (its : lease.dialer = d) (early : lease.early = true) :
    lease.hold = .released := by
  have none := (sound.counted.fits d t found).pinned closed
  obtain ⟨l, here⟩ := mem_iff_getElem?.mp member
  have some := Pool.le_total (pins d) here
  by_contra out
  rw [none, pins, if_pos ⟨its, out, early⟩] at some
  omega

lemma closed_of_late {lease : Lease} (member : lease ∈ s.heap.leases) (its : lease.dialer = d)
    (late : lease.early = false) : t.closed = true := by
  by_contra unclosed
  rw [Bool.not_eq_true] at unclosed
  have none := (sound.counted.fits d t found).punctual unclosed
  obtain ⟨l, here⟩ := mem_iff_getElem?.mp member
  have some := Pool.le_total (Lease.late d) here
  rw [none, Lease.late, if_pos ⟨its, late⟩] at some
  omega

lemma closed_of_retired (retired : t.retired = true)
    (released : ∀ lease ∈ s.heap.leases, lease.dialer = d → lease.hold = .released) :
    t.closed = true := by
  have fits := sound.counted.fits d t found
  refine fits.drained retired (fits.active.trans (total_of_light ?_))
  intro lease member
  refine if_neg ?_
  rintro ⟨its, out⟩
  exact out (released lease member its)
end Sound

/-- A published dialer is closed at most once. While its `Close` is called, no lease that was
acquired before it was marked closed is out, and a later one is refused every dial. Once it is
dropped and its leases are released, it is closed, or a goroutine is about to do so. -/
theorem published_closed_once {labels : List Label} {s : State}
    (reached : run step State.initial labels = some s) {d : Nat} (published : d ∈ s.published) :
    s.heap.closesAt d + s.pendingCloses d ≤ 1 ∧
    (∀ label t, step s label = some t → s.heap.closesAt d < t.heap.closesAt d →
      ∀ lease ∈ s.heap.leases, lease.dialer = d → lease.early = true → lease.hold = .released) ∧
    (∀ l lease, s.heap.leases[l]? = some lease → lease.dialer = d → lease.early = false →
      (∀ choice, s.heap.beginDial l choice = some (s.heap, .failed l)) ∧
      ∀ outer todo, s.heap.attemptMember outer l todo = some (s.heap, .giveBack outer l todo)) ∧
    ((∀ tag, s.byTag.lookup tag ≠ some d) → (∀ thread ∈ s.threads, d ∉ thread.todo) →
      (∀ lease ∈ s.heap.leases, lease.dialer = d → lease.hold = .released) →
      s.heap.closesAt d + s.pendingCloses d = 1) := by
  have sound := Sound.reached reached
  have inside : d < s.heap.dialers.length := by
    rcases sound.listed.accounted d published with ⟨tag, found⟩ | gone | ⟨thread, among, ahead⟩
    · exact sound.listed.inside_of_current found
    · obtain ⟨t, found, -⟩ := map_eq_some_iff.mp gone
      exact lt_of_getElem? found
    · exact sound.listed.ranged thread among d ahead
  obtain ⟨t, found⟩ : ∃ t, s.heap.dialers[d]? = some t := ⟨_, getElem?_eq_getElem inside⟩
  have closes := sound.closes_add_pending found
  refine ⟨?_, ?_, ?_, ?_⟩
  · split_ifs at closes <;> omega
  · intro label after moved more lease member its early
    have pending := pending_of_closesAt sound moved more
    refine sound.released_of_closed found ?_ member its early
    by_contra unclosed
    rw [if_neg unclosed] at closes
    omega
  · intro l lease here its late
    have closed := sound.closed_of_late found (mem_of_getElem? here) its late
    subst its
    constructor
    · intro choice
      rw [Heap.beginDial, here, bind_some, found, bind_some, if_pos closed]
    · intro outer todo
      rw [Heap.attemptMember, here, bind_some, found, map_some, if_pos closed]
  · intro dropped passed released
    have retired : t.retired = true := by
      rcases sound.listed.accounted d published with ⟨tag, named⟩ | gone | ⟨thread, among, ahead⟩
      · exact absurd named (dropped tag)
      · rw [retiredAt, found, map_some, some.injEq] at gone
        exact gone
      · exact absurd ahead (passed thread among)
    rw [closes, if_pos (sound.closed_of_retired found retired released)]

def sampleRows : List OutboundRow :=
  [⟨"a".toList, .tamizdat true⟩, ⟨"bal".toList, .balancer (some ["a".toList])⟩,
    ⟨directTag, .direct⟩]

def leasedReload : List Label :=
  [.reload sampleRows directTag, .resolve "a".toList, .reload sampleRows directTag,
    .move 1 (.pick 1), .closeLease 0, .move 2 .go, .move 2 .go]

theorem published_closed_once_after_lease :
    ∃ s, run step State.initial leasedReload = some s ∧ 1 ∈ s.published ∧ s.heap.closesAt 1 = 1 ∧
      s.heap.closesAt 1 + s.pendingCloses 1 = 1 := by
  refine exists_some_of (P := fun s => 1 ∈ s.published ∧ s.heap.closesAt 1 = 1 ∧ 1 ∉ s.old ∧
    (∀ thread ∈ s.threads, 1 ∉ thread.todo) ∧
    ∀ lease ∈ s.heap.leases, lease.dialer = 1 → lease.hold = .released) (by decide +kernel) ?_
  rintro s reached ⟨published, once, dropped, passed, released⟩
  refine ⟨published, once, ?_⟩
  refine (published_closed_once reached published).2.2.2 ?_ passed released
  intro tag named
  exact dropped (Listed.mem_old.mpr ⟨tag, named⟩)

def acquiredBetween : List Label :=
  [.reload sampleRows directTag, .resolve "bal".toList, .dial 0, .move 1 (.order [1]),
    .reload sampleRows directTag, .move 2 (.pick 1), .move 1 .go]

/-- The dialer is closed although a lease that was acquired before is out. -/
theorem closed_under_lease :
    ∃ s t, run step State.initial acquiredBetween = some s ∧ 1 ∈ s.published ∧
      step s (.move 2 .go) = some t ∧ s.heap.closesAt 1 = 0 ∧ t.heap.closesAt 1 = 1 ∧
      (∃ lease ∈ s.heap.leases, lease.dialer = 1 ∧ lease.hold = .dialing) := by decide +kernel

/-- In every run the counter of a dialer is the number of its leases that are out, and a retired
dialer without one is marked closed. -/
theorem leases_counted {labels : List Label} {s : State}
    (reached : run step State.initial labels = some s) {d : Nat} {t : TrackedDialer}
    (found : s.heap.dialers[d]? = some t) :
    t.active = total (holds d) s.heap.leases ∧
      (t.retired = true → t.active = 0 → t.closed = true) ∧
      (t.closed = true → t.retired = true) ∧ t.closes ≤ 1 := by
  have fits := (Sound.reached reached).counted.fits d t found
  refine ⟨fits.active, fits.drained, fits.retired, ?_⟩
  have once := fits.once
  split_ifs at once <;> omega

theorem leases_counted_reload : ∃ s, run step State.initial leasedReload = some s ∧
    ∃ t, s.heap.dialers[1]? = some t ∧ t.retired = true ∧ t.closes ≤ 1 := by
  refine exists_some_of (P := fun s => ∃ t, s.heap.dialers[1]? = some t ∧ t.retired = true)
    (by decide +kernel) fun s reached ⟨t, found, retired⟩ => ?_
  exact ⟨t, found, retired, (leases_counted reached found).2.2.2⟩
end Tamizdat.Outbounds
