/- source: pkg/tamizdat/sni_pool.go, pkg/tamizdat/masquerade_ratelimit.go
   digest: The cover origin of a probed name, and the limiter of the probes. -/

import Tamizdat.Machine.Maps
import Tamizdat.Machine.CyclicScan

set_option autoImplicit false
universe u

namespace Tamizdat.Server
open Machine.Maps
namespace MasqueradePool
open Machine.MapOrder
abbrev Text := List Char
def wwwPrefix : Text := ['w', 'w', 'w', '.']

variable (pool : GoMap Text Text)
def direct (key : Text) : Option Text :=
  match pool.lookup key with
  | some origin => if origin ≠ [] then some origin else none
  | none => none

def stripped (sni : Text) : Option Text :=
  if wwwPrefix <+: sni then direct pool (sni.drop wwwPrefix.length) else none

def wildcard (sni key origin : Text) : Option Text :=
  if origin = [] then none
  else if ¬ ['*', '.'] <+: key then none
  else
    let suffix := key.drop 1
    if suffix <:+ sni ∧ suffix.length < sni.length then some origin else none

/-- `order` is the order in which the loop visits the keys, `toLower` is `strings.ToLower`, and
`none` stands for `("", false)`. -/
def lookupMasqueradeOrigin (toLower : Text → Text) (pool : GoMap Text Text) (order : List Text)
    (sni : Text) : Option Text :=
  if size pool = 0 ∨ sni = [] then none
  else
    match direct pool (toLower sni) with
    | some origin => some origin
    | none =>
      match stripped pool (toLower sni) with
      | some origin => some origin
      | none => firstMatch pool (wildcard (toLower sni)) order

structure Covers (sni key origin : Text) : Prop where
  origin : origin ≠ []
  star : ['*', '.'] <+: key
  ending : key.drop 1 <:+ sni
  longer : (key.drop 1).length < sni.length

lemma wildcard_eq_some {sni key origin found} :
    wildcard sni key origin = some found ↔ Covers sni key origin ∧ found = origin := by
  unfold wildcard
  constructor
  · intro matched
    split_ifs at matched with empty star
    obtain ⟨ends, ⟨⟩⟩ := Option.ite_none_right_eq_some.mp matched
    exact ⟨⟨empty, star, ends.1, ends.2⟩, rfl⟩
  · rintro ⟨covers, rfl⟩
    rw [if_neg covers.origin, if_neg (not_not.mpr covers.star)]
    exact if_pos ⟨covers.ending, covers.longer⟩

def WildcardsAgree (sni : Text) : Prop :=
  ∀ key key' origin origin', pool.lookup key = some origin → pool.lookup key' = some origin' →
    Covers sni key origin → Covers sni key' origin' → origin = origin'

lemma wildcards_order_free_iff (sni : Text) :
    (∀ order order', Visits pool order → Visits pool order' →
      firstMatch pool (wildcard sni) order = firstMatch pool (wildcard sni) order') ↔
    WildcardsAgree pool sni := by
  rw [firstMatch_order_free_iff]
  constructor
  · intro agree key key' origin origin' found found' covers covers'
    exact agree key key' origin origin' origin origin' found found'
      (wildcard_eq_some.mpr ⟨covers, rfl⟩) (wildcard_eq_some.mpr ⟨covers', rfl⟩)
  · intro agree key key' origin origin' x x' found found' result result'
    obtain ⟨covers, rfl⟩ := wildcard_eq_some.mp result
    obtain ⟨covers', rfl⟩ := wildcard_eq_some.mp result'
    exact agree key key' x x' found found' covers covers'

/-- The origin of a name is the same for every order of the pool exactly if there is no pool or no
name, if the name or the name without `www.` is a key with an origin, or if all wildcards that
answer for the name have one origin. -/
theorem lookupMasqueradeOrigin_order_free_iff (toLower : Text → Text) (pool : GoMap Text Text)
    (sni : Text) :
    (∀ order order', Visits pool order → Visits pool order' →
      lookupMasqueradeOrigin toLower pool order sni =
        lookupMasqueradeOrigin toLower pool order' sni) ↔
    size pool = 0 ∨ sni = [] ∨ (direct pool (toLower sni)).isSome = true ∨
      (stripped pool (toLower sni)).isSome = true ∨ WildcardsAgree pool (toLower sni) := by
  unfold lookupMasqueradeOrigin
  by_cases absent : size pool = 0 ∨ sni = []
  · simp only [if_pos absent]
    tauto
  · have present := not_or.mp absent
    simp only [if_neg absent]
    cases exactMatch : direct pool (toLower sni) with
    | some origin => simp
    | none =>
      cases wwwMatch : stripped pool (toLower sni) with
      | some origin => simp
      | none =>
        dsimp only
        rw [wildcards_order_free_iff]
        simp [present.1, present.2]

def twoWildcards : GoMap Text Text :=
  (AList.insert ['*', '.', 'c'] ['y'] ∅).insert ['*', '.', 'b', '.', 'c'] ['x']

theorem overlapping_wildcards_diverge :
    Visits twoWildcards [['*', '.', 'b', '.', 'c'], ['*', '.', 'c']] ∧
    Visits twoWildcards [['*', '.', 'c'], ['*', '.', 'b', '.', 'c']] ∧
    lookupMasqueradeOrigin id twoWildcards [['*', '.', 'b', '.', 'c'], ['*', '.', 'c']]
      ['a', '.', 'b', '.', 'c'] = some ['x'] ∧
    lookupMasqueradeOrigin id twoWildcards [['*', '.', 'c'], ['*', '.', 'b', '.', 'c']]
      ['a', '.', 'b', '.', 'c'] = some ['y'] := by
  refine ⟨?_, ?_, by decide, by decide⟩
  · exact List.Perm.refl _
  · exact List.Perm.swap _ _ _
end MasqueradePool
open List Option
namespace RateLimit
open Machine.Recent
abbrev Time := Int
def masqueradeWindowDuration : Int := 60 * 1000000000
def masqueradeSoftThreshold : Nat := 5
def masqueradeHardCap : Nat := 10
def masqueradeBucketTTL : Int := 5 * 60 * 1000000000
def masqueradeMaxProbes : Nat := 2 * masqueradeHardCap

inductive RateLimitDecision where
  | forward | dropAfterJitter
  deriving DecidableEq

inductive Case where
  | forward
  | draw (num den : Nat)
  | drop
  deriving DecidableEq

def Case.ofCount (count : Nat) : Case :=
  if count ≤ masqueradeSoftThreshold then .forward
  else if count ≤ masqueradeHardCap then
    .draw (count - masqueradeSoftThreshold) (masqueradeHardCap - masqueradeSoftThreshold)
  else .drop

/-- `none` is a failure of the random source. `threshold` is the product the source computes in
`float64`. -/
def dropDraw (threshold : Nat → Nat → Nat) (num den : Nat) (random : Option Nat) : Bool :=
  if den = 0 then false
  else if num = 0 then false
  else if den ≤ num then true
  else
    match random with
    | none => false
    | some r => r < threshold num den

def Case.decision (threshold : Nat → Nat → Nat) (random : Option Nat) : Case → RateLimitDecision
  | .forward => .forward
  | .draw num den => if dropDraw threshold num den random then .dropAfterJitter else .forward
  | .drop => .dropAfterJitter

def bound (probes : List Time) : List Time :=
  if masqueradeMaxProbes ≤ probes.length then
    probes.drop (probes.length - masqueradeMaxProbes + 1)
  else probes

/-- The slice of a source after a probe: expired entries go, the oldest ones too if there are too
many, and the probe is entered. -/
def record (probes : List Time) (now : Time) : List Time :=
  bound (since (now - masqueradeWindowDuration) probes) ++ [now]

def expired (cutoff : Time) (probes : List Time) : Bool :=
  match probes.getLast? with
  | none => true
  | some newest => newest < cutoff

variable {ι : Type u} [DecidableEq ι]
abbrev Buckets (ι : Type u) := GoMap ι (List Time)

namespace Buckets
variable (rl : Buckets ι)
def probes (ip : ι) : List Time := (rl.lookup ip).getD []

def judge (ip : ι) (now : Time) : Case × Buckets ι :=
  let recorded := record (rl.probes ip) now
  (Case.ofCount recorded.length, rl.insert ip recorded)

def reapExpiredBuckets (now : Time) : Buckets ι :=
  eraseAll rl (rl.keys.filter fun ip => expired (now - masqueradeBucketTTL) (rl.probes ip))
end Buckets

def decide (threshold : Nat → Nat → Nat) (rl : Option (Buckets ι)) (ip : ι) (now : Time)
    (random : Option Nat) : RateLimitDecision × Option (Buckets ι) :=
  match rl with
  | none => (.forward, none)
  | some buckets =>
    let judged := buckets.judge ip now
    (judged.1.decision threshold random, some judged.2)

inductive Event (ι : Type u) where
  | probe (ip : ι) (now : Time) (random : Option Nat)
  | reap (now : Time)

def outcomes (threshold : Nat → Nat → Nat) (rl : Buckets ι) :
    List (Event ι) → List (Case × RateLimitDecision)
  | [] => []
  | .probe ip now random :: later =>
    ((rl.judge ip now).1, (decide threshold (some rl) ip now random).1) ::
      outcomes threshold (rl.judge ip now).2 later
  | .reap now :: later => outcomes threshold (rl.reapExpiredBuckets now) later

/-! ### The limiter that forgets nothing -/

def probesOf (ip : ι) (past : List (Event ι)) : List Time :=
  past.filterMap fun
    | .probe other now _ => if other = ip then some now else none
    | .reap _ => none

/-- The case of a probe by all probes of its source in the last window, itself included. -/
def idealCase (past : List (Event ι)) (ip : ι) (now : Time) : Case :=
  Case.ofCount (((probesOf ip past).filter (now - masqueradeWindowDuration ≤ ·)).length + 1)

def idealOutcomes (threshold : Nat → Nat → Nat) (past : List (Event ι)) :
    List (Event ι) → List (Case × RateLimitDecision)
  | [] => []
  | .probe ip now random :: later =>
    (idealCase past ip now, (idealCase past ip now).decision threshold random) ::
      idealOutcomes threshold (past ++ [.probe ip now random]) later
  | .reap now :: later => idealOutcomes threshold (past ++ [.reap now]) later

/-- A probe at this time may follow the event: the probes of one source come in the order of
time. The clock of the reaper may be ahead of the probe by what a bucket lives longer than the
window lasts. -/
def Allows (ip : ι) (now : Time) : Event ι → Prop
  | .probe other before _ => other = ip → before ≤ now
  | .reap before => before ≤ now + (masqueradeBucketTTL - masqueradeWindowDuration)

def Precedes (earlier : Event ι) : Event ι → Prop
  | .probe ip now _ => Allows ip now earlier
  | .reap _ => True

abbrev InOrder (events : List (Event ι)) : Prop := events.Pairwise Precedes

instance (ip : ι) (now : Time) : ∀ e : Event ι, Decidable (Allows ip now e)
  | .probe other before _ => inferInstanceAs (Decidable (other = ip → before ≤ now))
  | .reap before => inferInstanceAs (Decidable (before ≤ now + _))

instance (earlier : Event ι) : ∀ e : Event ι, Decidable (Precedes earlier e)
  | .probe ip now _ => inferInstanceAs (Decidable (Allows ip now earlier))
  | .reap _ => isTrue trivial

lemma ofCount_min (count : Nat) :
    Case.ofCount (min masqueradeMaxProbes count) = Case.ofCount count := by
  unfold Case.ofCount masqueradeMaxProbes masqueradeSoftThreshold masqueradeHardCap
  by_cases many : count ≤ 20
  · rw [Nat.min_eq_right many]
  · rw [Nat.min_eq_left (by omega), if_neg (by omega), if_neg (by omega), if_neg (by omega),
      if_neg (by omega)]

lemma opens_before (now : Time) : now - masqueradeWindowDuration ≤ now :=
  Int.sub_le_self now (by decide)

lemma bound_eq (probes : List Time) : bound probes = probes.rtake (masqueradeMaxProbes - 1) := by
  unfold bound masqueradeMaxProbes masqueradeHardCap
  split_ifs with many
  · rw [List.rtake]
    congr 1
    omega
  · exact (rtake_of_length_le (by omega)).symm

section
variable {ip : ι} {now : Time} {past : List (Event ι)}
lemma probesOf_probe (other : ι) (random : Option Nat) :
    probesOf ip (past ++ [.probe other now random]) =
      if other = ip then probesOf ip past ++ [now] else probesOf ip past := by
  rw [probesOf, filterMap_append]
  split_ifs with same <;> simp [probesOf, same]

lemma probesOf_reap : probesOf ip (past ++ [.reap now]) = probesOf ip past := by
  simp [probesOf]

lemma pairwise_probesOf (ip : ι) (order : InOrder past) : (probesOf ip past).Pairwise (· ≤ ·) := by
  refine List.Pairwise.filterMap _ ?_ order
  intro earlier e precedes before first after second
  cases e with
  | reap now => cases second
  | probe source now random =>
    obtain ⟨here, ⟨⟩⟩ := ite_none_right_eq_some.mp second
    cases earlier with
    | reap moment => cases first
    | probe other moment drawn =>
      obtain ⟨there, ⟨⟩⟩ := ite_none_right_eq_some.mp first
      exact precedes (there.trans here.symm)
end

/-- For every probe that may come next, the limiter remembers the newest of those probes of its
source that count. -/
def Remembers (past : List (Event ι)) (rl : Buckets ι) : Prop :=
  ∀ ip now, (∀ e ∈ past, Allows ip now e) → since (now - masqueradeWindowDuration) (rl.probes ip) =
      (since (now - masqueradeWindowDuration) (probesOf ip past)).rtake masqueradeMaxProbes

namespace Remembers
variable {past : List (Event ι)} {rl : Buckets ι}
lemma empty : Remembers ([] : List (Event ι)) ∅ := by
  intro ip now _
  rfl

lemma record_eq {ip now} (h : Remembers past rl) (next : ∀ e ∈ past, Allows ip now e) :
    record (rl.probes ip) now =
      (since (now - masqueradeWindowDuration) (probesOf ip past ++ [now])).rtake
        masqueradeMaxProbes := by
  rw [record, bound_eq, h ip now next, rtake_rtake (Nat.sub_le _ _), since_snoc (opens_before now)]
  exact (rtake_concat_succ _ _ _).symm

lemma judge {ip now random} (h : Remembers past rl)
    (order : InOrder (past ++ [.probe ip now random])) :
    (rl.judge ip now).1 = idealCase past ip now ∧
      Remembers (past ++ [.probe ip now random]) (rl.judge ip now).2 := by
  obtain ⟨before, -, across⟩ := pairwise_append.mp order
  have next : ∀ e ∈ past, Allows ip now e := fun e member =>
    across e member _ (mem_singleton_self _)
  have sorted := pairwise_probesOf ip order
  have recorded := h.record_eq next
  refine ⟨?_, ?_⟩
  · rw [Buckets.judge, recorded, length_rtake, ofCount_min, since_snoc (opens_before now),
      length_append, since_eq_filter _ (pairwise_probesOf ip before), idealCase,
      length_singleton]
  · intro source moment allowed
    have earlier : ∀ e ∈ past, Allows source moment e := fun e member =>
      allowed e (mem_append_left _ member)
    rw [probesOf_probe]
    by_cases same : source = ip
    · subst same
      have later : now ≤ moment := allowed _ (mem_append_right past (mem_singleton_self _)) rfl
      have cutoff : now - masqueradeWindowDuration ≤ moment - masqueradeWindowDuration :=
        Int.sub_le_sub_right later _
      rw [probesOf_probe, if_pos rfl] at sorted
      have kept : (rl.judge source now).2.probes source = record (rl.probes source) now := by
        rw [Buckets.judge, Buckets.probes, lookup_insert, if_pos rfl]
        rfl
      rw [if_pos rfl, kept, recorded, since_rtake _ (pairwise_since _ sorted), since_since cutoff]
    · have kept : (rl.judge ip now).2.probes source = rl.probes source := by
        rw [Buckets.judge, Buckets.probes, lookup_insert, if_neg same, Buckets.probes]
      rw [if_neg (Ne.symm same), kept]
      exact h source moment earlier

lemma reap (h : Remembers past rl) (order : InOrder past) (now : Time) :
    Remembers (past ++ [.reap now]) (rl.reapExpiredBuckets now) := by
  intro ip moment allowed
  have earlier : ∀ e ∈ past, Allows ip moment e := fun e member =>
    allowed e (mem_append_left _ member)
  have clock : now ≤ moment + (masqueradeBucketTTL - masqueradeWindowDuration) :=
    allowed _ (mem_append_right past (mem_singleton_self _))
  have remembered := h ip moment earlier
  rw [probesOf_reap, Buckets.reapExpiredBuckets, Buckets.probes, lookup_eraseAll]
  split_ifs with deleted
  · have isExpired := (mem_filter.mp deleted).2
    have old : since (moment - masqueradeWindowDuration) (rl.probes ip) = [] := by
      by_contra left
      cases last : (rl.probes ip).getLast? with
      | none =>
        rw [getLast?_eq_none_iff.mp last] at left
        exact left rfl
      | some newest =>
        have counts := mem_of_getLast? last left
        rw [remembered, since_eq_filter _ (pairwise_probesOf ip order)] at counts
        have late := of_decide_eq_true (mem_filter.mp (mem_of_mem_drop counts)).2
        rw [expired, last] at isExpired
        have early := of_decide_eq_true isExpired
        linarith
    rw [old] at remembered
    exact remembered
  · exact remembered
end Remembers

lemma outcomes_eq_idealOutcomes_of_remembers (threshold : Nat → Nat → Nat)
    {past events : List (Event ι)} {rl : Buckets ι} (h : Remembers past rl)
    (order : InOrder (past ++ events)) :
    outcomes threshold rl events = idealOutcomes threshold past events := by
  induction events generalizing past rl with
  | nil => rfl
  | cons e later ih =>
    rw [append_cons] at order
    cases e with
    | probe ip now random =>
      obtain ⟨same, after⟩ := h.judge (pairwise_append.mp order).1
      rw [outcomes, idealOutcomes, decide, same, ih after order]
    | reap now =>
      rw [outcomes, idealOutcomes]
      have before : InOrder past := (pairwise_append.mp (pairwise_append.mp order).1).1
      exact ih (h.reap before now) order

/-- Whatever the probes of all sources and the rounds of the reaper are, as long as they follow the
order of time: every probe falls into the case in which a limiter that forgets none of the last
window puts it, with the same draw and so with the same decision. -/
theorem bounded_limiter_exact (threshold : Nat → Nat → Nat) (events : List (Event ι))
    (order : InOrder events) :
    outcomes threshold (∅ : Buckets ι) events = idealOutcomes threshold [] events :=
  outcomes_eq_idealOutcomes_of_remembers threshold Remembers.empty order

def sixProbes : List (Event Nat) :=
  [Event.probe 1 0 none, .probe 1 0 none, .probe 1 1 none, .reap 200000000000, .probe 2 5 none,
    .probe 1 2 none, .probe 1 3 none, .probe 1 60000000000 (some 3)]

theorem bounded_limiter_exact_sixProbes :
    outcomes (fun num _ => 4 * num) (∅ : Buckets Nat) sixProbes =
        idealOutcomes (fun num _ => 4 * num) [] sixProbes ∧
      (outcomes (fun num _ => 4 * num) (∅ : Buckets Nat) sixProbes)[6]? =
        some (.draw 1 5, .dropAfterJitter) :=
  ⟨bounded_limiter_exact _ sixProbes (by decide +kernel), by decide +kernel⟩
end RateLimit
end Tamizdat.Server
