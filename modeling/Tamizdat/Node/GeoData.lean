/- source: node/geodata_updater.go
   digest: Concurrent refreshes of one geo data file through one temporary name. -/

import Tamizdat.Machine.Maps
import Tamizdat.Machine.Runs

set_option autoImplicit false

open List Option
namespace Tamizdat.Node.GeoData
open Machine.Files (FileSystem)
open Machine.Pool (getElem?_set_apply getElem?_snoc set_cases)
open Machine.Runs (run Meets invariant_of_meets)
abbrev Blob := List UInt8

inductive Name
  | target | tmp
deriving DecidableEq

/-- Where a call of `maybeDownload` for the target stands. From `copying` to `cleaning` it has
created the temporary file and neither renamed nor removed it. -/
inductive Phase
  | deciding | removing | requesting | creating
  | copying (inode offset : Nat)
  | closing | rereading
  | placing (blob : Blob)
  | cleaning | ended
deriving DecidableEq

def Phase.working : Phase → Bool
  | .copying _ _ | .closing | .rereading | .placing _ | .cleaning => true
  | .deciding | .removing | .requesting | .creating | .ended => false

/-- How the operation a call stands before turns out. `head` is what `hasUpdate` got from the
server, and nothing if it failed. -/
inductive Event
  | head (newer : Option Bool)
  | ok | fail
  | bytes (chunk : Blob)

/-- The files, and for the record what validators have accepted and what the calls that reported
success had validated, latest first. -/
structure Disk where
  fs : FileSystem Name UInt8
  accepted : List Blob
  successes : List Blob

def turn (valid : Blob → Bool) (d : Disk) : Phase → Event → Option (Disk × Phase)
  -- `hasUpdate` says yes without asking when the target is missing
  | .deciding, .head newer =>
    some (d, if (d.fs.read .target).isNone || newer.getD true then .removing else .ended)
  | .removing, .ok => some ({ d with fs := d.fs.remove .tmp }, .requesting)
  | .requesting, .ok => some (d, .creating)
  | .requesting, .fail => some (d, .ended)
  | .creating, .ok => some ({ d with fs := (d.fs.create .tmp).1 }, .copying (d.fs.create .tmp).2 0)
  | .creating, .fail => some (d, .ended)
  | .copying inode offset, .bytes chunk =>
    some ({ d with fs := d.fs.writeAt 0 inode offset chunk },
      .copying inode (offset + chunk.length))
  | .copying _ _, .ok => some (d, .closing)
  | .copying _ _, .fail => some (d, .cleaning)
  | .closing, .ok => some (d, .rereading)
  | .closing, .fail => some (d, .cleaning)
  | .rereading, .ok =>
    match d.fs.read .tmp with
    | none => some (d, .cleaning)
    | some data =>
      if data.length = 0 then some (d, .cleaning)
      else if valid data then some ({ d with accepted := data :: d.accepted }, .placing data)
      else some (d, .cleaning)
  | .rereading, .fail => some (d, .cleaning)
  | .placing blob, .ok =>
    match d.fs.rename .tmp .target with
    | none => some (d, .cleaning)
    | some fs => some ({ d with fs := fs, successes := blob :: d.successes }, .ended)
  | .placing _, .fail => some (d, .cleaning)
  | .cleaning, .ok => some ({ d with fs := d.fs.remove .tmp }, .ended)
  | _, _ => none

structure State where
  disk : Disk
  calls : List Phase

inductive Label
  | call
  | act (i : Nat) (e : Event)

def step (valid : Blob → Bool) (st : State) : Label → Option State
  | .call => some { st with calls := st.calls ++ [.deciding] }
  | .act i e =>
    (st.calls[i]?).bind fun phase =>
      (turn valid st.disk phase e).map fun moved => ⟨moved.1, st.calls.set i moved.2⟩

/-- The target holds `initial`; a temporary file may be left from an earlier process. -/
def start (initial : Blob) (stale : Option Blob) : State where
  disk :=
    { fs :=
        { entry := fun
            | .target => some 0
            | .tmp => stale.map fun _ => 1
          data := fun inode => if inode = 0 then initial else stale.getD []
          fresh := 2
          bound := by
            intro name inode named
            cases name <;> cases stale <;> simp_all <;> omega }
      accepted := [initial]
      successes := [] }
  calls := []

/-- `os.Create` of the temporary file happens only while no call stands between its own creation
of it and the rename or removal that ends it. -/
def Exclusive (st : State) : Label → Prop
  | .act i .ok => st.calls[i]? = some .creating → ∀ p ∈ st.calls, p.working = false
  | _ => True

instance (st : State) (l : Label) : Decidable (Exclusive st l) := by
  unfold Exclusive
  split <;> infer_instance

def Disk.latest (initial : Blob) (d : Disk) : Blob := d.successes.headD initial

structure Disk.Good (valid : Blob → Bool) (initial : Blob) (d : Disk) : Prop where
  apart : d.fs.Apart .tmp .target
  held : d.fs.read .target = some (d.latest initial)
  logged : d.latest initial ∈ d.accepted
  passed : ∀ blob ∈ d.accepted, valid blob = true

/-- What a call relies on: its handle is not the target, and what it has validated is still under
the temporary name if anything is. -/
def Fits (d : Disk) : Phase → Prop
  | .copying inode _ => d.fs.entry .target ≠ some inode
  | .placing blob => blob ∈ d.accepted ∧ ∀ data, d.fs.read .tmp = some data → data = blob
  | _ => True

variable {valid : Blob → Bool} {initial : Blob} {d : Disk} {p : Phase}
lemma Fits.of_idle (idle : p.working = false) : Fits d p := by
  cases p <;> trivial

lemma Fits.remove (fits : Fits d p) : Fits { d with fs := d.fs.remove .tmp } p := by
  cases p with
  | copying inode offset => exact fits
  | placing blob =>
    refine ⟨fits.1, ?_⟩
    exact nofun
  | _ => trivial

section
variable (good : d.Good valid initial)
include good
lemma Disk.Good.remove : Disk.Good valid initial { d with fs := d.fs.remove .tmp } where
  apart := FileSystem.Apart.remove d.fs .tmp .target
  held := (FileSystem.read_remove_of_ne d.fs (by decide)).trans good.held
  logged := good.logged
  passed := good.passed

lemma Disk.Good.create : Disk.Good valid initial { d with fs := (d.fs.create .tmp).1 } ∧
      (d.fs.create .tmp).1.entry .target ≠ some (d.fs.create .tmp).2 := by
  obtain ⟨-, held, elsewhere, apart⟩ := FileSystem.create_spec good.apart (by decide)
  exact ⟨⟨apart, held.trans good.held, good.logged, good.passed⟩, elsewhere⟩

lemma Disk.Good.writeAt {inode} (offset : Nat) (chunk : Blob)
    (elsewhere : d.fs.entry .target ≠ some inode) :
    Disk.Good valid initial { d with fs := d.fs.writeAt 0 inode offset chunk } where
  apart := good.apart
  held := (FileSystem.read_writeAt 0 offset chunk elsewhere).trans good.held
  logged := good.logged
  passed := good.passed

lemma Disk.Good.accept {data} (accepted : valid data = true) :
    Disk.Good valid initial { d with accepted := data :: d.accepted } where
  apart := good.apart
  held := good.held
  logged := mem_cons_of_mem data good.logged
  passed := forall_mem_cons.mpr ⟨accepted, good.passed⟩
end

lemma Disk.Good.rename {initial blob} {valid : Blob → Bool} (good : d.Good valid initial)
    {fs : FileSystem Name UInt8} (fits : Fits d (.placing blob))
    (renamed : d.fs.rename .tmp .target = some fs) :
    Disk.Good valid initial { d with fs := fs, successes := blob :: d.successes } := by
  obtain ⟨now, there, apart⟩ := FileSystem.rename_spec renamed (by decide)
  obtain ⟨data, read⟩ := isSome_iff_exists.mp there
  refine ⟨apart, ?_, fits.1, good.passed⟩
  rw [now, read, fits.2 data read]
  rfl

section
variable {after : Disk} {q : Phase} {e : Event}
lemma turn_spec (good : d.Good valid initial) (fits : Fits d p)
    (moved : turn valid d p e = some (after, q)) :
    after.Good valid initial ∧ Fits after q ∧ (p.working = false → (p = .creating ∧ e = .ok) ∨
        q.working = false ∧ ∀ x, Fits d x → Fits after x) := by
  cases p with
  | deciding =>
    cases e with
    | head newer =>
      cases moved
      split_ifs <;> exact ⟨good, trivial, fun _ => .inr ⟨rfl, fun _ => id⟩⟩
    | _ => cases moved
  | removing =>
    cases e with
    | ok =>
      cases moved
      exact ⟨good.remove, trivial, fun _ => .inr ⟨rfl, fun _ => Fits.remove⟩⟩
    | _ => cases moved
  | requesting =>
    cases e with
    | ok | fail =>
      cases moved
      exact ⟨good, trivial, fun _ => .inr ⟨rfl, fun _ => id⟩⟩
    | _ => cases moved
  | creating =>
    cases e with
    | ok =>
      cases moved
      exact ⟨good.create.1, good.create.2, fun _ => .inl ⟨rfl, rfl⟩⟩
    | fail =>
      cases moved
      exact ⟨good, trivial, fun _ => .inr ⟨rfl, fun _ => id⟩⟩
    | _ => cases moved
  | copying inode offset =>
    cases e with
    | bytes chunk =>
      cases moved
      exact ⟨good.writeAt offset chunk fits, fits, nofun⟩
    | ok | fail =>
      cases moved
      exact ⟨good, trivial, nofun⟩
    | head => cases moved
  | closing =>
    cases e with
    | ok | fail =>
      cases moved
      exact ⟨good, trivial, nofun⟩
    | _ => cases moved
  | rereading =>
    cases e with
    | ok =>
      simp only [turn] at moved
      split at moved
      · cases moved
        exact ⟨good, trivial, nofun⟩
      · rename_i data there
        split_ifs at moved with empty accepted <;> cases moved
        · exact ⟨good, trivial, nofun⟩
        · refine ⟨good.accept accepted, ⟨mem_cons_self, ?_⟩, nofun⟩
          intro found read
          exact some.inj (read.symm.trans there)
        · exact ⟨good, trivial, nofun⟩
    | fail =>
      cases moved
      exact ⟨good, trivial, nofun⟩
    | _ => cases moved
  | placing blob =>
    cases e with
    | ok =>
      simp only [turn] at moved
      split at moved
      · cases moved
        exact ⟨good, trivial, nofun⟩
      · rename_i fs renamed
        cases moved
        exact ⟨good.rename fits renamed, trivial, nofun⟩
    | fail =>
      cases moved
      exact ⟨good, trivial, nofun⟩
    | _ => cases moved
  | cleaning =>
    cases e with
    | ok =>
      cases moved
      exact ⟨good.remove, trivial, nofun⟩
    | _ => cases moved
  | ended => cases moved
end

structure Safe (valid : Blob → Bool) (initial : Blob) (st : State) : Prop where
  good : st.disk.Good valid initial
  fits : ∀ (i : Nat) (p : Phase), st.calls[i]? = some p → Fits st.disk p
  alone : ∀ (i j : Nat) (p q : Phase), st.calls[i]? = some p → st.calls[j]? = some q →
    p.working = true → q.working = true → i = j

namespace Safe
variable {st t : State}
lemma initially (stale : Option Blob) (passes : valid initial = true) :
    Safe valid initial (start initial stale) where
  good :=
    { apart := by
        intro inode named
        cases stale <;> simp_all [start]
        omega
      held := rfl
      logged := mem_singleton_self initial
      passed := by
        intro blob member
        rw [mem_singleton.mp member]
        exact passes }
  fits := fun i p here => by simp [start] at here
  alone := fun i j p q here => by simp [start] at here

section
variable (safe : Safe valid initial st)
include safe
lemma call : Safe valid initial { st with calls := st.calls ++ [.deciding] } where
  good := safe.good
  fits := by
    intro i p here
    rw [getElem?_snoc] at here
    split_ifs at here
    · cases here
      trivial
    · exact safe.fits i p here
  alone := by
    intro i j p q here there first second
    rw [getElem?_snoc] at here there
    split_ifs at here there
    all_goals first
      | cases here; cases first
      | cases there; cases second
      | exact safe.alone i j p q here there first second

lemma others_idle {i e j q} (clear : Exclusive st (.act i e)) (here : st.calls[i]? = some p)
    (acts : p.working = true ∨ p = .creating ∧ e = .ok) (there : st.calls[j]? = some q)
    (other : j ≠ i) : q.working = false := by
  obtain working | ⟨rfl, rfl⟩ := acts
  · by_contra busy
    rw [Bool.not_eq_false] at busy
    exact other (safe.alone j i q p there here busy working)
  · exact clear here q (mem_of_getElem? there)

lemma act {i e q} {after : Disk} (clear : Exclusive st (.act i e)) (here : st.calls[i]? = some p)
    (moved : turn valid st.disk p e = some (after, q)) :
    Safe valid initial ⟨after, st.calls.set i q⟩ := by
  obtain ⟨good, own, quiet⟩ := turn_spec safe.good (safe.fits i p here) moved
  -- either the call may touch the temporary file and is alone, or it disturbs nobody
  have split : (p.working = true ∨ p = .creating ∧ e = .ok) ∨
      (q.working = false ∧ ∀ x, Fits st.disk x → Fits after x) := by
    cases working : p.working with
    | true => exact .inl (.inl rfl)
    | false => exact (quiet working).imp .inr id
  refine ⟨good, ?_, ?_⟩
  · intro j x there
    obtain ⟨-, rfl⟩ | ⟨same, there⟩ := set_cases here there
    · exact own
    obtain acts | ⟨-, keeps⟩ := split
    · exact Fits.of_idle (safe.others_idle clear here acts there same)
    · exact keeps x (safe.fits j x there)
  · intro j k x y there elsewhere first second
    rw [getElem?_set_apply here] at there elsewhere
    split_ifs at there elsewhere with same also also
    · rw [same, also]
    · cases there
      obtain acts | ⟨idle, -⟩ := split
      · rw [safe.others_idle clear here acts elsewhere also] at second
        cases second
      · rw [idle] at first
        cases first
    · cases elsewhere
      obtain acts | ⟨idle, -⟩ := split
      · rw [safe.others_idle clear here acts there same] at first
        cases first
      · rw [idle] at second
        cases second
    · exact safe.alone j k x y there elsewhere first second
end

lemma step {l} (safe : Safe valid initial st) (clear : Exclusive st l)
    (moved : GeoData.step valid st l = some t) : Safe valid initial t := by
  cases l with
  | call =>
    cases moved
    exact safe.call
  | act i e =>
    simp only [GeoData.step, bind_eq_some_iff, map_eq_some_iff] at moved
    obtain ⟨p, here, ⟨after, q⟩, turned, rfl⟩ := moved
    exact safe.act clear here turned
end Safe

/-- While no two refreshes overlap between the creation of the temporary file and its rename or
removal, the target holds a blob that a validator accepted, and it is the one validated by the
call that reported success last. -/
theorem target_always_validated (valid : Blob → Bool) (initial : Blob) (stale : Option Blob)
    (passes : valid initial = true) (ls : List Label) (t : State)
    (exclusive : Meets (step valid) Exclusive (start initial stale) ls)
    (arrive : run (step valid) (start initial stale) ls = some t) :
    ∃ blob, t.disk.fs.read .target = some blob ∧ blob ∈ t.disk.accepted ∧ valid blob = true ∧
      blob = t.disk.latest initial := by
  have safe : Safe valid initial t :=
    invariant_of_meets Safe.step (Safe.initially stale passes) exclusive arrive
  have logged := safe.good.logged
  exact ⟨_, safe.good.held, logged, safe.good.passed _ logged, rfl⟩

def beginsWithSeven : Blob → Bool
  | 7 :: _ => true
  | _ => false

def upToValidation (i : Nat) (chunk : Blob) : List Label :=
  [.call, .act i (.head none), .act i .ok, .act i .ok, .act i .ok, .act i (.bytes chunk),
    .act i .ok, .act i .ok, .act i .ok]

theorem target_always_validated_two_calls : ∃ t, run (step beginsWithSeven) (start [7] none)
        (upToValidation 0 [7, 1] ++ [.act 0 .ok] ++ upToValidation 1 [7, 2] ++ [.act 1 .ok]) =
          some t ∧
      ∃ blob, t.disk.fs.read .target = some blob ∧ blob ∈ t.disk.accepted ∧
        beginsWithSeven blob = true ∧ blob = t.disk.latest [7] := by
  have evaluated : (run (step beginsWithSeven) (start [7] none) (upToValidation 0 [7, 1] ++
      [.act 0 .ok] ++ upToValidation 1 [7, 2] ++ [.act 1 .ok])).isSome := by
    decide +kernel
  obtain ⟨t, arrive⟩ := isSome_iff_exists.mp evaluated
  exact ⟨t, arrive, target_always_validated beginsWithSeven [7] none rfl _ t
    (by decide +kernel) arrive⟩

/-- The first call has validated its download; the second removes the temporary file, creates it
anew and has written one byte when the first one renames it. -/
theorem rename_of_unvalidated_bytes : ∃ t, run (step beginsWithSeven) (start [7] none)
        (upToValidation 0 [7, 1] ++ [.call, .act 1 (.head none), .act 1 .ok, .act 1 .ok,
          .act 1 .ok, .act 1 (.bytes [9]), .act 0 .ok]) = some t ∧
      t.disk.successes = [[7, 1]] ∧ t.disk.fs.read .target = some [9] ∧
      [9] ∉ t.disk.accepted ∧ beginsWithSeven [9] = false := by decide +kernel
end Tamizdat.Node.GeoData
