/- source: pkg/tamizdat/replay_guard.go
   digest: The replay guard: its map and its heap agree, and an accepted key stays rejected. -/

import Tamizdat.Machine.Heap
import Tamizdat.Machine.Maps

set_option autoImplicit false
universe u

open List
namespace Tamizdat.Server
open Machine.Maps
open Machine.Heap (MinHeap)
namespace ReplayGuard

/-! Durations are nanoseconds, and times are nanoseconds since the zero `time.Time`, which is 0. -/

def maxDuration : Int := 2 ^ 63 - 1
def minDuration : Int := -2 ^ 63
def sub (t u : Int) : Int := max minDuration (min maxDuration (t - u))
def defaultReplayWindow : Int := 5 * 60 * 1000000000
def replayHardCap : Int := 65536

variable {κ : Type u}

structure HeapEntry (κ : Type u) where
  insertTime : Int
  key : κ

structure Guard (κ : Type u) where
  seen : GoMap κ Int
  evictionHeap : MinHeap (HeapEntry.insertTime (κ := κ))
  window : Int
  hardCap : Int
  lastReap : Int

namespace Guard

/-- A guard that has seen nothing. `newReplayGuard` takes `replayHardCap` for `hardCap`. -/
def fresh (window : Int) (hardCap : Int) : Guard κ where
  seen := ∅
  evictionHeap := .empty
  window := window
  hardCap := hardCap
  lastReap := 0

def newReplayGuard (window : Int) : Guard κ :=
  fresh (if window ≤ 0 then defaultReplayWindow else window) replayHardCap

def expired (window : Int) (now t : Int) : Bool := decide (window < sub now t)

variable [DecidableEq κ]
variable (g : Guard κ)
def expiredKeys (now : Int) : List κ :=
  g.seen.keys.filter fun k => (g.seen.lookup k).any (expired g.window now)

def reap (now : Int) : Guard κ :=
  { g with
    seen := eraseAll g.seen (g.expiredKeys now)
    evictionHeap := g.evictionHeap.popWhile fun e => expired g.window now e.insertTime
    lastReap := now }

def reapLocked (now : Int) (throttle : Bool) : Guard κ :=
  let g := if g.window ≤ 0 then { g with window := defaultReplayWindow } else g
  if throttle ∧ g.lastReap ≠ 0 ∧ sub now g.lastReap ≤ g.window.tdiv 4 then g else g.reap now

/-- The loop of `evictOverCapLocked`. A popped entry that `seen` does not have, or has under
another time, is stale. -/
def evict (cap : Int) (seen : GoMap κ Int) (heap : MinHeap (HeapEntry.insertTime (κ := κ))) :
    GoMap κ Int × MinHeap (HeapEntry.insertTime (κ := κ)) :=
  if cap < size seen then
    match _ : heap.pop with
    | none => (seen, heap)
    | some (oldest, rest) =>
      if seen.lookup oldest.key = some oldest.insertTime then evict cap (seen.erase oldest.key) rest
      else evict cap seen rest
  else (seen, heap)
termination_by heap.entries.size
decreasing_by
  all_goals
    have smaller := (MinHeap.pop_some ‹heap.pop = _›).2.2
    omega

def evictOverCapLocked : Guard κ :=
  let g := if g.hardCap ≤ 0 then { g with hardCap := replayHardCap } else g
  { g with
    seen := (evict g.hardCap g.seen g.evictionHeap).1
    evictionHeap := (evict g.hardCap g.seen g.evictionHeap).2 }

variable (key : κ)
def record (t : Int) : Guard κ :=
  ({ g with
     seen := g.seen.insert key t
     evictionHeap := g.evictionHeap.push ⟨t, key⟩ } : Guard κ).evictOverCapLocked

def hasSeen (now : Int) : Bool × Guard κ :=
  (((g.reapLocked now false).seen.lookup key).isSome, g.reapLocked now false)

def insert (t now : Int) : Guard κ :=
  let t := if t = 0 then now else t
  (g.reapLocked t true).record key t

def checkKey (now : Int) : Bool × Guard κ :=
  if ((g.reapLocked now false).seen.lookup key).isSome then (false, g.reapLocked now false)
  else (true, (g.reapLocked now false).record key now)
end Guard

inductive Call (κ : Type u)
  | checkKey (key : κ) (now : Int)
  | insert (key : κ) (t now : Int)
  | hasSeen (key : κ) (now : Int)

def Call.time : Call κ → Int
  | .checkKey _ now => now
  | .insert _ t now => if t = 0 then now else t
  | .hasSeen _ now => now

structure History (κ : Type u) where
  guard : Guard κ
  accepted : List (κ × Int)

variable [DecidableEq κ]
def History.call (h : History κ) : Call κ → History κ
  | .checkKey key now =>
    ⟨(h.guard.checkKey key now).2,
      if (h.guard.checkKey key now).1 then h.accepted ++ [(key, now)] else h.accepted⟩
  | .insert key t now => ⟨h.guard.insert key t now, h.accepted ++ [(key, if t = 0 then now else t)]⟩
  | .hasSeen key now => ⟨(h.guard.hasSeen key now).2, h.accepted⟩

def history (window : Int) (hardCap : Int) (calls : List (Call κ)) : History κ :=
  calls.foldl History.call ⟨Guard.fresh window hardCap, []⟩
end ReplayGuard
namespace ReplayWindow
open Server.ReplayGuard
variable {κ : Type u} [DecidableEq κ]

/-! ### Durations -/

variable {t u : Int}
lemma sub_anti (now : Int) (older : t ≤ u) : sub now u ≤ sub now t := by
  unfold sub
  omega

variable {now : Int}
lemma sub_nonpos (future : now ≤ t) : sub now t ≤ 0 := by
  unfold sub minDuration
  omega

variable {window : Int}
lemma lt_of_lt_sub (positive : 0 < window) (old : window < sub now t) : window < now - t := by
  unfold sub minDuration at old
  omega

/-! ### The map and the heap -/

open HeapEntry (insertTime)
def Tracked (seen : GoMap κ Int) (heap : MinHeap (insertTime (κ := κ))) : Prop :=
  ∀ k t, seen.lookup k = some t → (⟨t, k⟩ : HeapEntry κ) ∈ heap

def Crowded (cap : Int) (entries : κ → Int → Prop) (t : Int) : Prop :=
  ∃ ks : List κ, ks.Nodup ∧ cap < ks.length ∧ ∀ k ∈ ks, ∃ v, t ≤ v ∧ entries k v

variable {cap : Int} {entries entries' : κ → Int → Prop}

omit [DecidableEq κ] in
lemma Crowded.mono (crowd : Crowded cap entries t) (more : ∀ k v, entries k v → entries' k v) :
    Crowded cap entries' t := by
  obtain ⟨ks, distinct, many, all⟩ := crowd
  refine ⟨ks, distinct, many, ?_⟩
  intro k member
  obtain ⟨v, later, entered⟩ := all k member
  exact ⟨v, later, more k v entered⟩

omit [DecidableEq κ] in
lemma Crowded.earlier {v} (crowd : Crowded cap entries v) (before : t ≤ v) : Crowded cap entries t := by
  obtain ⟨ks, distinct, many, all⟩ := crowd
  refine ⟨ks, distinct, many, ?_⟩
  intro k member
  obtain ⟨w, later, entered⟩ := all k member
  exact ⟨w, before.trans later, entered⟩

structure Evicts (cap : Int) (seen seen' : GoMap κ Int)
    (heap heap' : MinHeap (insertTime (κ := κ))) : Prop where
  tracked : Tracked seen' heap'
  fewer : ∀ k t, seen'.lookup k = some t → seen.lookup k = some t
  entries : ∀ e, e ∈ heap' → e ∈ heap
  bounded : 0 ≤ cap → size seen' ≤ cap
  crowded : ∀ k t, seen.lookup k = some t → seen'.lookup k = none →
    Crowded cap (fun k v => seen.lookup k = some v) t

lemma exists_of_size_pos {m : GoMap κ Int} (some_ : 0 < size m) : ∃ k t, m.lookup k = some t := by
  rw [size_eq_keys] at some_
  obtain ⟨k, member⟩ := exists_mem_of_length_pos some_
  exact ⟨k, mem_keys_iff.mp member⟩

variable {seen : GoMap κ Int} {heap : MinHeap (insertTime (κ := κ))}
lemma crowded_of_oldest {oldest : HeapEntry κ} (tracked : Tracked seen heap)
    (full : cap < size seen) (least : ∀ e, e ∈ heap → oldest.insertTime ≤ e.insertTime) :
    Crowded cap (fun k v => seen.lookup k = some v) oldest.insertTime := by
  refine ⟨seen.keys, AList.keys_nodup seen, by rw [← size_eq_keys]; exact full, ?_⟩
  intro k member
  obtain ⟨v, found⟩ := mem_keys_iff.mp member
  exact ⟨v, least _ (tracked k v found), found⟩

lemma Evicts.none (tracked : Tracked seen heap) (bounded : 0 ≤ cap → size seen ≤ cap) :
    Evicts cap seen seen heap heap where
  tracked := tracked
  fewer _ _ := id
  entries _ := id
  bounded := bounded
  crowded k t found missing := by
    rw [found] at missing
    cases missing

open Guard (evict)
lemma evict_evicts (cap : Int) (seen : GoMap κ Int)
    (heap : MinHeap (insertTime (κ := κ))) (tracked : Tracked seen heap) :
    Evicts cap seen (evict cap seen heap).1 heap (evict cap seen heap).2 := by
  induction entries : heap.entries.size using Nat.strong_induction_on generalizing seen heap with
  | _ n ih =>
    rw [evict]
    split_ifs with full
    · cases popped : heap.pop with
      | none =>
        refine Evicts.none tracked (fun nonneg => ?_)
        obtain ⟨k, t, found⟩ := exists_of_size_pos (m := seen) (by omega)
        exact absurd (tracked k t found) (MinHeap.pop_none popped _)
      | some pair =>
        obtain ⟨oldest, rest⟩ := pair
        obtain ⟨members, least, smaller⟩ := MinHeap.pop_some popped
        dsimp only
        split_ifs with current
        · -- The oldest entry is the one that the map has: the key goes.
          have kept : Tracked (seen.erase oldest.key) rest := by
            intro k t found
            rw [lookup_erase] at found
            split_ifs at found with gone
            refine ((members _).mp (tracked k t found)).resolve_left ?_
            intro same
            exact gone (congrArg HeapEntry.key same)
          have onward := ih rest.entries.size (by omega) (seen.erase oldest.key) rest kept rfl
          refine ⟨onward.tracked, fun k t found => lookup_of_erase (onward.fewer k t found),
            fun e member => (members e).mpr (.inr (onward.entries e member)),
            onward.bounded, ?_⟩
          intro k t found missing
          by_cases gone : k = oldest.key
          · rw [gone, current, Option.some.injEq] at found
            rw [← found]
            exact crowded_of_oldest tracked full least
          · refine (onward.crowded k t ?_ missing).mono fun _ _ => lookup_of_erase
            rw [lookup_erase, if_neg gone]
            exact found
        · -- A stale entry: the heap has another one for every key of the map.
          have kept : Tracked seen rest := by
            intro k t found
            refine ((members _).mp (tracked k t found)).resolve_left ?_
            rintro same
            exact current (same ▸ found)
          have onward := ih rest.entries.size (by omega) seen rest kept rfl
          exact { onward with
            entries := fun e member => (members e).mpr (.inr (onward.entries e member)) }
    · exact Evicts.none tracked (fun _ => by simpa using full)

/-! ### Calls -/

def windowOf (window : Int) : Int := if window ≤ 0 then defaultReplayWindow else window
def capOf (hardCap : Int) : Int := if hardCap ≤ 0 then replayHardCap else hardCap

lemma windowOf_pos (window : Int) : 0 < windowOf window := by
  unfold windowOf defaultReplayWindow
  split_ifs <;> omega

lemma capOf_pos (hardCap : Int) : 0 < capOf hardCap := by
  unfold capOf replayHardCap
  split_ifs <;> omega

/-- What holds of a guard and of the keys it has accepted when its last call was at `clock`. -/
structure Sound (window cap : Int) (h : History κ) (clock : Int) : Prop where
  windowEq : windowOf h.guard.window = window
  capEq : capOf h.guard.hardCap = cap
  tracked : Tracked h.guard.seen h.guard.evictionHeap
  bounded : size h.guard.seen ≤ cap
  recent : ∀ e, e ∈ h.guard.evictionHeap → sub h.guard.lastReap e.insertTime ≤ window
  reaped : h.guard.lastReap = 0 ∨ h.guard.lastReap ≤ clock
  known : ∀ k t, h.guard.seen.lookup k = some t → (k, t) ∈ h.accepted
  times : ∀ k t, (k, t) ∈ h.accepted → t ≤ clock
  kept : ∀ k t, (k, t) ∈ h.accepted → (∃ v, h.guard.seen.lookup k = some v ∧ t ≤ v) ∨
    window < clock - t ∨ Crowded cap (fun k v => (k, v) ∈ h.accepted) t

lemma sound_fresh (window hardCap clock : Int) :
    Sound (windowOf window) (capOf hardCap) (⟨Guard.fresh window hardCap, []⟩ : History κ)
      clock where
  windowEq := rfl
  capEq := rfl
  tracked _ _ found := by cases found
  bounded := (capOf_pos hardCap).le
  recent e member := absurd member (MinHeap.not_mem_empty e)
  reaped := .inl rfl
  known _ _ found := by cases found
  times _ _ member := by cases member
  kept _ _ member := by cases member

variable {h : History κ} {clock : Int}
lemma Sound.wait (sound : Sound window cap h clock) (later : clock ≤ now) :
    Sound window cap h now :=
  { sound with
    reaped := sound.reaped.imp_right fun before => before.trans later
    times := fun k t member => (sound.times k t member).trans later
    kept := fun k t member => (sound.kept k t member).imp_right (Or.imp_left fun old => by omega) }

lemma lookup_reap {k} {g : Guard κ} :
    (g.reap now).seen.lookup k = some t ↔
      g.seen.lookup k = some t ∧ Guard.expired g.window now t = false := by
  rw [Guard.reap, lookup_eraseAll]
  have listed : k ∈ g.expiredKeys now ↔
      ∃ v, g.seen.lookup k = some v ∧ Guard.expired g.window now v = true := by
    rw [Guard.expiredKeys, mem_filter, mem_keys_iff, Option.any_eq_true]
    constructor
    · exact fun member => member.2
    · rintro ⟨v, found, old⟩
      exact ⟨⟨v, found⟩, v, found, old⟩
  by_cases gone : k ∈ g.expiredKeys now
  · rw [if_pos gone]
    obtain ⟨v, found, old⟩ := listed.mp gone
    refine iff_of_false (by simp) ?_
    rintro ⟨found', fresh⟩
    rw [found, Option.some.injEq] at found'
    rw [found', fresh] at old
    cases old
  · rw [if_neg gone]
    refine ⟨fun found => ⟨found, ?_⟩, And.left⟩
    by_contra old
    exact gone (listed.mpr ⟨t, found, by simpa using old⟩)

lemma mem_reap {g : Guard κ} (e : HeapEntry κ) : e ∈ (g.reap now).evictionHeap ↔
      e ∈ g.evictionHeap ∧ Guard.expired g.window now e.insertTime = false := by
  refine MinHeap.mem_popWhile ?_ g.evictionHeap e
  intro x y older old
  have age := sub_anti now older
  simp only [Guard.expired, decide_eq_true_eq] at old ⊢
  omega

lemma sound_of_reap (sound : Sound window cap h now) (exact_ : h.guard.window = window) :
    Sound window cap ⟨h.guard.reap now, h.accepted⟩ now := by
  have positive : 0 < window := sound.windowEq ▸ windowOf_pos _
  refine ⟨sound.windowEq, sound.capEq, ?_, ?_, ?_, .inr le_rfl, ?_, sound.times, ?_⟩
  · intro k t found
    obtain ⟨old, fresh⟩ := lookup_reap.mp found
    exact (mem_reap _).mpr ⟨sound.tracked k t old, fresh⟩
  · have fewer := size_eraseAll_le h.guard.seen (h.guard.expiredKeys now)
    have bounded := sound.bounded
    show (size (eraseAll h.guard.seen (h.guard.expiredKeys now)) : Int) ≤ cap
    omega
  · intro e member
    obtain ⟨-, fresh⟩ := (mem_reap e).mp member
    rw [exact_, Guard.expired, decide_eq_false_iff_not, not_lt] at fresh
    exact fresh
  · intro k t found
    exact sound.known k t (lookup_reap.mp found).1
  · intro k t member
    rcases sound.kept k t member with ⟨v, found, later⟩ | far
    · cases old : Guard.expired h.guard.window now v with
      | false => exact .inl ⟨v, lookup_reap.mpr ⟨found, old⟩, later⟩
      | true =>
        rw [exact_] at old
        have far := lt_of_lt_sub positive (of_decide_eq_true old)
        exact .inr (.inl (by omega))
    · exact .inr far

lemma sound_record (key : κ) (sound : Sound window cap h now) (reaped : h.guard.lastReap ≤ now) :
    Sound window cap ⟨h.guard.record key now, h.accepted ++ [(key, now)]⟩ now := by
  have positive : 0 < window := sound.windowEq ▸ windowOf_pos _
  have inserted {k t} (found : (h.guard.seen.insert key now).lookup k = some t) :
      (k, t) = (key, now) ∨ h.guard.seen.lookup k = some t := by
    rw [lookup_insert] at found
    split_ifs at found with new
    · exact .inl (by rw [new, Option.some.inj found])
    · exact .inr found
  have entered : Tracked (h.guard.seen.insert key now) (h.guard.evictionHeap.push ⟨now, key⟩) :=
    fun k t found => MinHeap.mem_push.mpr
      ((inserted found).imp (by rintro ⟨⟩; rfl) (sound.tracked k t))
  have known : ∀ k t, (h.guard.seen.insert key now).lookup k = some t →
      (k, t) ∈ h.accepted ++ [(key, now)] := fun k t found =>
    mem_append.mpr ((inserted found).symm.imp (sound.known k t) mem_singleton.mpr)
  have evicts := evict_evicts cap _ _ entered
  generalize evicted : evict cap (h.guard.seen.insert key now)
    (h.guard.evictionHeap.push ⟨now, key⟩) = left at evicts
  have caps : capOf cap = cap := by
    have := sound.capEq ▸ capOf_pos h.guard.hardCap
    rw [capOf, if_neg (by omega)]
  -- Entries that stay, and those that the eviction takes, were all entered by now.
  have remains : ∀ k t v, (h.guard.seen.insert key now).lookup k = some v → t ≤ v →
      (∃ w, left.1.lookup k = some w ∧ t ≤ w) ∨
        window < now - t ∨ Crowded cap (fun k v => (k, v) ∈ h.accepted ++ [(key, now)]) t := by
    intro k t v found later
    cases stays : left.1.lookup k with
    | some w =>
      have same := evicts.fewer k w stays
      rw [found, Option.some.injEq] at same
      exact .inl ⟨w, rfl, same ▸ later⟩
    | none => exact .inr (.inr (((evicts.crowded k v found stays).mono known).earlier later))
  have record : h.guard.record key now =
      { h.guard with seen := left.1, evictionHeap := left.2, hardCap := cap } := by
    rw [← evicted]
    have same := sound.capEq
    unfold capOf at same
    unfold Guard.record Guard.evictOverCapLocked
    split_ifs at same ⊢ with unset <;> subst same
    · rfl
    · rfl
  have times : ∀ k t, (k, t) ∈ h.accepted ++ [(key, now)] → t ≤ now := by
    intro k t member
    rcases mem_append.mp member with old | new
    · exact sound.times k t old
    · rw [mem_singleton, Prod.mk.injEq] at new
      exact new.2.le
  rw [record]
  refine ⟨sound.windowEq, caps, evicts.tracked,
    evicts.bounded (by have := sound.capEq ▸ capOf_pos h.guard.hardCap; omega), ?_,
    .inr reaped, ?_, times, ?_⟩
  · intro e member
    rcases MinHeap.mem_push.mp (evicts.entries e member) with rfl | old
    · have young := sub_nonpos reaped
      show sub h.guard.lastReap now ≤ window
      omega
    · exact sound.recent e old
  · intro k t found
    exact known k t (evicts.fewer k t found)
  · intro k t member
    by_cases same : k = key
    · exact remains k t now (by rw [lookup_insert, if_pos same]) (times k t member)
    · have old : (k, t) ∈ h.accepted := by
        refine (mem_append.mp member).resolve_right ?_
        intro new
        rw [mem_singleton, Prod.mk.injEq] at new
        exact same new.1
      rcases sound.kept k t old with ⟨v, found, later⟩ | far | crowd
      · exact remains k t v (by rw [lookup_insert, if_neg same]; exact found) later
      · exact .inr (.inl far)
      · exact .inr (.inr (crowd.mono fun k v => mem_append_left _))

lemma call_checkKey (h : History κ) (key : κ) (now : Int) : h.call (.checkKey key now) =
      if ((h.guard.reapLocked now false).seen.lookup key).isSome then
        ⟨h.guard.reapLocked now false, h.accepted⟩
      else ⟨(h.guard.reapLocked now false).record key now, h.accepted ++ [(key, now)]⟩ := by
  by_cases found : ((h.guard.reapLocked now false).seen.lookup key).isSome = true <;>
    simp [History.call, Guard.checkKey, found]

section
variable (sound : Sound window cap h clock)
include sound
lemma sound_reapLocked (later : clock ≤ now) (throttle : Bool) :
    Sound window cap ⟨h.guard.reapLocked now throttle, h.accepted⟩ now ∧
      (h.guard.reapLocked now throttle).lastReap ≤ now := by
  have normal : Sound window cap
      ⟨if h.guard.window ≤ 0 then { h.guard with window := defaultReplayWindow } else h.guard,
        h.accepted⟩ now := by
    split_ifs with unset
    · have default : windowOf defaultReplayWindow = window := by
        rw [← sound.windowEq, windowOf, windowOf, if_pos unset]
        rfl
      exact { sound.wait later with windowEq := default }
    · exact sound.wait later
  unfold Guard.reapLocked
  generalize known : (if h.guard.window ≤ 0 then { h.guard with window := defaultReplayWindow }
    else h.guard) = g at normal
  have exact_ : g.window = window := by
    have set : ¬g.window ≤ 0 := by
      rw [← known]
      split_ifs with unset
      · simp [defaultReplayWindow]
      · exact unset
    rw [← normal.windowEq, windowOf, if_neg set]
  dsimp only
  split_ifs with throttled
  · exact ⟨normal, normal.reaped.resolve_left throttled.2.1⟩
  · exact ⟨sound_of_reap (h := ⟨g, h.accepted⟩) normal exact_, le_rfl⟩

lemma sound_call (c : Call κ) (later : clock ≤ c.time) : Sound window cap (h.call c) c.time := by
  cases c with
  | checkKey key now =>
    obtain ⟨reaped, past⟩ := sound_reapLocked sound later false
    rw [call_checkKey]
    split_ifs with found
    · exact reaped
    · have recorded := sound_record key reaped past
      exact recorded
  | insert key t now =>
    obtain ⟨reaped, past⟩ := sound_reapLocked sound later true
    have recorded := sound_record key reaped past
    exact recorded
  | hasSeen key now => exact (sound_reapLocked sound later false).1

lemma sound_calls {calls : List (Call κ)} (later : ∀ c ∈ calls, clock ≤ c.time)
    (sorted : calls.Pairwise fun a b => a.time ≤ b.time) :
    ∃ final, Sound window cap (calls.foldl History.call h) final := by
  induction calls generalizing h clock with
  | nil => exact ⟨clock, sound⟩
  | cons c calls ih =>
    rw [pairwise_cons] at sorted
    exact ih (sound_call sound c (later c mem_cons_self)) sorted.1 sorted.2
end

/-- Two acceptances of one key are further apart than the window, or more than `cap` keys were
accepted from the first to the second. -/
def Separated (window cap : Int) (accepted : List (κ × Int)) : Prop :=
  accepted.Pairwise fun a b => a.1 = b.1 → window < b.2 - a.2 ∨
    ∃ ks : List κ, ks.Nodup ∧ cap < ks.length ∧ ∀ k ∈ ks, ∃ t, a.2 ≤ t ∧ t ≤ b.2 ∧ (k, t) ∈ accepted

lemma separated_checkKey (key : κ) (sound : Sound window cap h clock)
    (later : clock ≤ now) (separated : Separated window cap h.accepted) :
    Separated window cap (h.call (.checkKey key now)).accepted := by
  rw [call_checkKey]
  split_ifs with found
  · exact separated
  · have reaped := (sound_reapLocked sound later false).1
    rw [Separated, pairwise_append]
    refine ⟨?_, pairwise_singleton _ _, ?_⟩
    · refine separated.imp ?_
      intro a b apart same
      rcases apart same with far | ⟨ks, distinct, many, all⟩
      · exact .inl far
      · refine .inr ⟨ks, distinct, many, fun k member => ?_⟩
        obtain ⟨t, after, before, entered⟩ := all k member
        exact ⟨t, after, before, mem_append_left _ entered⟩
    · rintro ⟨k, t⟩ member b last same
      rw [mem_singleton] at last
      subst last
      obtain rfl : k = key := same
      -- The key is not in the map after the reap, so its earlier entry has left.
      rcases reaped.kept k t member with ⟨v, present, -⟩ | far | ⟨ks, distinct, many, all⟩
      · exact absurd (by rw [present]; rfl) found
      · exact .inl far
      · refine .inr ⟨ks, distinct, many, fun k' member' => ?_⟩
        obtain ⟨v, after, entered⟩ := all k' member'
        exact ⟨v, after, reaped.times k' v entered, mem_append_left _ entered⟩

lemma separated_checks {checks : List (κ × Int)} (sound : Sound window cap h clock)
    (separated : Separated window cap h.accepted) (later : ∀ c ∈ checks, clock ≤ c.2)
    (sorted : checks.Pairwise fun a b => a.2 ≤ b.2) :
    Separated window cap
      ((checks.map fun c => Call.checkKey c.1 c.2).foldl History.call h).accepted := by
  induction checks generalizing h clock with
  | nil => exact separated
  | cons c checks ih =>
    rw [pairwise_cons] at sorted
    have first := later c mem_cons_self
    exact ih (sound_call sound (.checkKey c.1 c.2) first)
      (separated_checkKey c.1 sound first separated) sorted.1 sorted.2

lemma exists_before (times : List Int) (sorted : times.Pairwise (· ≤ ·)) :
    ∃ clock, ∀ t ∈ times, clock ≤ t := by
  cases times with
  | nil => exact ⟨0, nofun⟩
  | cons t times =>
    rw [pairwise_cons] at sorted
    exact ⟨t, forall_mem_cons.mpr ⟨le_rfl, sorted.1⟩⟩

/-- Checks at nondecreasing clock readings accept a key again only after the window, or after more
than `hardCap` other acceptances. After any such calls, map and heap are within the cap and the
window. -/
theorem replay_rejected_inside_window (window hardCap : Int) :
    (∀ checks : List (κ × Int), (checks.Pairwise fun a b => a.2 ≤ b.2) →
      Separated (windowOf window) (capOf hardCap)
        (history window hardCap (checks.map fun c => .checkKey c.1 c.2)).accepted) ∧
    (∀ calls : List (Call κ), (calls.Pairwise fun a b => a.time ≤ b.time) →
      size (history window hardCap calls).guard.seen ≤ capOf hardCap ∧
        Tracked (history window hardCap calls).guard.seen
          (history window hardCap calls).guard.evictionHeap ∧
        ∀ e, e ∈ (history window hardCap calls).guard.evictionHeap →
          sub (history window hardCap calls).guard.lastReap e.insertTime ≤ windowOf window) := by
  constructor
  · intro checks sorted
    obtain ⟨clock, before⟩ := exists_before (checks.map Prod.snd) (by rwa [pairwise_map])
    exact separated_checks (sound_fresh window hardCap clock) List.Pairwise.nil
      (fun c member => before c.2 (mem_map_of_mem member)) sorted
  · intro calls sorted
    obtain ⟨clock, before⟩ := exists_before (calls.map Call.time) (by rwa [pairwise_map])
    obtain ⟨final, sound⟩ := sound_calls (sound_fresh window hardCap clock)
      (fun c member => before c.time (mem_map_of_mem member)) sorted
    exact ⟨sound.bounded, sound.tracked, sound.recent⟩

theorem replay_window_of_cap_two :
    (history 10 2 ([(1, 5), (2, 6), (3, 7), (1, 8)].map fun c : Nat × Int =>
        .checkKey c.1 c.2)).accepted = [(1, 5), (2, 6), (3, 7), (1, 8)] ∧
      Separated (windowOf 10) (capOf 2)
        (history 10 2 ([(1, 5), (2, 6), (3, 7), (1, 8)].map fun c : Nat × Int =>
          .checkKey c.1 c.2)).accepted ∧
      size (history 10 2 ([.insert 1 5 0, .hasSeen 1 6, .checkKey 2 20] :
        List (Call Nat))).guard.seen ≤ capOf 2 := by
  refine ⟨by decide +kernel, ?_, ?_⟩
  · exact (replay_rejected_inside_window 10 2).1 _ (by decide)
  · exact ((replay_rejected_inside_window 10 2).2 _ (by decide)).1
end ReplayWindow
end Tamizdat.Server
