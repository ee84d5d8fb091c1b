/- source: pkg/tamizdat/client.go, internal/bundlecache/bundlecache.go, pkg/tamizdat/cover_config.go
   digest: The client's bundle: fetches, the tag they remember, and repeated notifications. -/

import Tamizdat.CoverConfig.Bundle
import Tamizdat.Machine.Runs

open Option List
namespace Tamizdat.Client
open CoverConfig
open Machine.Runs (run Meets)
namespace BundleFetch
open Routing (Text)
variable {ω δ : Type}

structure ClientConfig where
  bundleEnabledSet : Bool
  bundleEnabled : Bool
  hasPool : Bool
  hasCover : Bool
  onNotification : Bool
  cacheEnabled : Bool

/-- What a running client holds of its bundle. `bounds`, `coverTargets` and `coverGap` are what it
was last told, if anything. -/
structure Memory (δ : Type) where
  sniPool : Option (List SNIEntry) := none
  fingerprintPool : Option (List FingerprintEntry) := none
  turnCreds : Option TURNCredsEntry := none
  bounds : Option (Int × Int) := none
  coverTargets : Option (List Text) := none
  coverGap : Option (Int × Int) := none
  etag : Option (ETag δ) := none

def transportBounds (b : CoverConfigBundle) : Option (Int × Int) :=
  if 0 < b.minTransports ∨ 0 < b.maxTransports then
    let minT := if b.minTransports < 1 then 1 else b.minTransports
    some (minT, if b.maxTransports = 0 ∨ b.maxTransports < minT then minT else b.maxTransports)
  else if b.poolVariant = "v1".toList then some (1, 1)
  else if b.poolVariant = "v2".toList then some (1, 2)
  else if b.poolVariant = "v3".toList then some (2, 4)
  else none

section
variable (c : ClientConfig)
def applyCoverConfigBundle (b : CoverConfigBundle) (m : Memory δ) : Memory δ :=
  { m with
    bounds := if c.hasPool then (transportBounds b).or m.bounds else m.bounds
    sniPool := some b.sniPool
    fingerprintPool := some b.recognised
    coverTargets :=
      if c.hasCover ∧ b.coverTargets ≠ [] then some b.coverTargets else m.coverTargets
    coverGap :=
      if c.hasCover ∧ (0 < b.coverGapMinMS ∨ 0 < b.coverGapMaxMS) then
        some (b.coverGapMinMS, b.coverGapMaxMS)
      else m.coverGap
    turnCreds := b.turnCreds.or m.turnCreds }

structure Body (ω : Type) where
  wire : ω
  serial : Nat

def notifies (b : CoverConfigBundle) (serial : Nat) : List Nat :=
  if c.onNotification ∧ b.notification.isSome then [serial] else []

structure Disk (ω δ : Type) where
  body : Option (Body ω) := none
  etag : Option (ETag δ) := none

/-- How far `Save` gets: not to the rename of the body, only that far, to an emptied tag file, or
to its end. -/
inductive Save
  | nothing | bodyOnly | blankTag | whole
deriving DecidableEq

def Disk.save (disk : Disk ω δ) (body : Body ω) (etag : Option (ETag δ)) : Save → Disk ω δ
  | .nothing => disk
  | .bodyOnly => { disk with body := some body }
  | .blankTag => { body := some body, etag := none }
  | .whole => { body := some body, etag := etag }

structure Readable where
  body : Bool
  etag : Bool

variable (codec : Codec ω δ)
def Disk.bundle (disk : Disk ω δ) : Option (CoverConfigBundle × Nat) :=
  disk.body.bind fun body =>
    if codec.size body.wire = 0 then none
    else (codec.unmarshal body.wire).bind fun b =>
      if b.valid codec then some (b, body.serial) else none

def expired (b : CoverConfigBundle) (now : Int) : Bool := 0 < b.expiresAt && b.expiresAt < now

def replayCachedBundle (disk : Disk ω δ) (now : Int) (readable : Readable) : Memory δ × List Nat :=
  if c.cacheEnabled ∧ readable.body then
    match disk.bundle codec with
    | none => ({}, [])
    | some (b, serial) =>
      let etag := if readable.etag then disk.etag else none
      -- an expired entry is kept for its tag and does not seed the pools
      if expired b now then ({ etag := etag }, [])
      else (applyCoverConfigBundle c b { etag := etag }, notifies c b serial)
  else ({}, [])

inductive Reply (ω δ : Type)
  | notModified
  | ok (wire : ω) (etag : Option (ETag δ))
  | status (code : Nat)
  | broken

inductive Outcome
  | skipped | unchanged | empty
  | applied (b : CoverConfigBundle)
  | badStatus (code : Nat)
  | roundTrip | tooLarge | unparsed | invalid

def judge (reply : Reply ω δ) : Outcome :=
  if c.bundleEnabledSet ∧ c.bundleEnabled = false then .skipped
  else match reply with
    | .broken => .roundTrip
    | .notModified => .unchanged
    | .status code => .badStatus code
    | .ok wire _ =>
      if codec.size wire = 0 then .empty
      else if maxCoverConfigBundleBytes < codec.size wire then .tooLarge
      else match codec.unmarshal wire with
        | none => .unparsed
        | some b => if b.valid codec then .applied b else .invalid

/-- `memory` is nothing while no process runs. For the record: the number of the next response,
and the responses whose notification `OnNotification` was called for, in order. -/
structure State (ω δ : Type) where
  memory : Option (Memory δ)
  disk : Disk ω δ
  next : Nat
  triggers : List Nat

inductive Label (ω δ : Type)
  | start (now : Int) (readable : Readable)
  | fetch (reply : Reply ω δ) (save : Save)

def fetchStep (st : State ω δ) (m : Memory δ) (reply : Reply ω δ) (save : Save) : State ω δ :=
  match reply, judge c codec reply with
  | .ok wire etag, .applied b =>
    { memory := some { applyCoverConfigBundle c b m with etag := etag.or m.etag }
      disk := if c.cacheEnabled then st.disk.save ⟨wire, st.next⟩ etag save else st.disk
      next := st.next + 1
      triggers := st.triggers ++ notifies c b st.next }
  | .ok _ _, _ => { st with next := st.next + 1 }
  | _, _ => st

def step (st : State ω δ) : Label ω δ → Option (State ω δ)
  | .start now readable =>
    let replayed := replayCachedBundle c codec st.disk now readable
    some { st with memory := some replayed.1, triggers := st.triggers ++ replayed.2 }
  | .fetch reply save => st.memory.map fun m => fetchStep c codec st m reply save
end

def blank : State ω δ where
  memory := none
  disk := {}
  next := 0
  triggers := []

def cachingClient : ClientConfig where
  bundleEnabledSet := true
  bundleEnabled := true
  hasPool := false
  hasCover := false
  onNotification := true
  cacheEnabled := true

lemma applied_of_judge (judged : judge c codec reply = .applied b) :
    ∃ wire etag, reply = .ok wire etag ∧ codec.size wire ≠ 0 ∧
      codec.unmarshal wire = some b ∧ b.valid codec = true := by
  unfold judge at judged
  split_ifs at judged
  match reply with
  | .broken | .notModified | .status _ => cases judged
  | .ok wire etag =>
    simp only at judged
    split_ifs at judged with empty large
    split at judged
    · cases judged
    · rename_i found parsed
      split_ifs at judged with passes
      cases judged
      exact ⟨wire, etag, rfl, empty, parsed, passes⟩

lemma fetchStep_applied (judged : judge c codec (.ok wire etag) = .applied b) :
    fetchStep c codec st m (.ok wire etag) save =
      { memory := some { applyCoverConfigBundle c b m with etag := etag.or m.etag }
        disk := if c.cacheEnabled then st.disk.save ⟨wire, st.next⟩ etag save else st.disk
        next := st.next + 1
        triggers := st.triggers ++ notifies c b st.next } := by
  simp only [fetchStep, judged]

lemma fetchStep_unapplied (st : State ω δ) (m : Memory δ) (save : Save)
    (judged : ∀ b, judge c codec reply ≠ .applied b) :
    ∃ next, st.next ≤ next ∧ fetchStep c codec st m reply save = { st with next := next } := by
  unfold fetchStep
  split
  · rename_i found
    exact absurd found (judged _)
  · exact ⟨st.next + 1, Nat.le_succ _, rfl⟩
  · exact ⟨st.next, Nat.le_refl _, rfl⟩

lemma bundle_eq_some {disk : Disk ω δ} (found : disk.bundle codec = some (b, serial)) :
    ∃ body, disk.body = some body ∧ body.serial = serial ∧ codec.unmarshal body.wire = some b := by
  simp only [Disk.bundle, Option.bind_eq_some_iff, Option.ite_none_left_eq_some,
    Option.ite_some_none_eq_some, Prod.mk.injEq] at found
  obtain ⟨body, there, -, bundle, parsed, -, rfl, rfl⟩ := found
  exact ⟨body, there, rfl, parsed⟩

lemma replay_cases (c : ClientConfig) (codec : Codec ω δ) (disk : Disk ω δ) (now : Int)
    (readable : Readable) :
    replayCachedBundle c codec disk now readable = ({}, []) ∨
    ∃ b serial, disk.bundle codec = some (b, serial) ∧
      ((expired b now = true ∧ replayCachedBundle c codec disk now readable =
          ({ etag := if readable.etag then disk.etag else none }, [])) ∨
        (c.cacheEnabled = true ∧ readable.body = true ∧ expired b now = false ∧
          replayCachedBundle c codec disk now readable =
            (applyCoverConfigBundle c b { etag := if readable.etag then disk.etag else none },
              notifies c b serial))) := by
  unfold replayCachedBundle
  by_cases enabled : c.cacheEnabled = true ∧ readable.body = true
  · rw [if_pos enabled]
    cases found : disk.bundle codec with
    | none => exact .inl rfl
    | some entry =>
      refine .inr ⟨entry.1, entry.2, rfl, ?_⟩
      cases old : expired entry.1 now with
      | true => exact .inl ⟨rfl, by simp only [old, if_true]⟩
      | false =>
        exact .inr ⟨enabled.1, enabled.2, rfl, by
          simp only [old, Bool.false_eq_true, if_false]⟩
  · rw [if_neg enabled]
    exact .inl rfl
end BundleFetch
namespace BundleSync
open Client.BundleFetch
open Machine.Runs (invariant_of_meets)
variable {ω δ : Type} [DecidableEq δ]

/-- A server that holds bundle `b` and answers 304 exactly to its current tag. -/
def serverReply (codec : Codec ω δ) (b : CoverConfigBundle) (withETag : Bool)
    (ifNoneMatch : Option (ETag δ)) : Reply ω δ :=
  if ifNoneMatch = some (codec.etag b) then .notModified
  else .ok (codec.marshal b) (if withETag then some (codec.etag b) else none)

/-- `synced` is the server's bundle if the last thing that happened is a fetch that returned nil
with status 200 or 304. -/
structure State (ω δ : Type) where
  client : BundleFetch.State ω δ
  synced : Option CoverConfigBundle

inductive Event
  | start (now : Int) (readable : Readable)
  | fetch (b : CoverConfigBundle) (withETag : Bool) (save : Save)

def step (c : ClientConfig) (codec : Codec ω δ) (st : State ω δ) : Event → Option (State ω δ)
  | .start now readable =>
    (BundleFetch.step c codec st.client (.start now readable)).map fun client => ⟨client, none⟩
  | .fetch b withETag save =>
    st.client.memory.bind fun m =>
      let reply := serverReply codec b withETag m.etag
      (BundleFetch.step c codec st.client (.fetch reply save)).map fun client =>
        ⟨client, match judge c codec reply with
          | .unchanged | .empty | .applied _ => some b
          | _ => none⟩

def Memory.Shows (m : Memory δ) (b : CoverConfigBundle) : Prop :=
  m.sniPool = some b.sniPool ∧ m.fingerprintPool = some b.recognised

def Synced (st : State ω δ) : Prop :=
  ∀ b, st.synced = some b → ∃ m, st.client.memory = some m ∧ Memory.Shows m b

/-- A start finds no expired bundle with a tag, a 200 that changes the bundle carries a tag or
none is remembered, and `Save` does not stop between the body and the tag of an entry that had
one. -/
def Careful (codec : Codec ω δ) (st : State ω δ) : Event → Prop
  | .start now readable =>
    ((st.client.disk.bundle codec).all fun found => !expired found.1 now) = true ∨
      readable.etag = false ∨ st.client.disk.etag = none
  | .fetch b withETag save =>
    (withETag = true ∨ ∀ m ∈ st.client.memory, m.etag = none ∨ m.etag = some (codec.etag b)) ∧
    (save ≠ .bodyOnly ∨ st.client.disk.etag = none)

instance (codec : Codec ω δ) (st : State ω δ) (e) : Decidable (Careful codec st e) := by
  cases e <;> unfold Careful <;> infer_instance

/-- A remembered tag is the tag of the bundle that the pools show. -/
def Held (codec : Codec ω δ) (m : Memory δ) : Prop :=
  ∀ e, m.etag = some e → ∃ b, codec.etag b = e ∧ Memory.Shows m b

def Kept (codec : Codec ω δ) (disk : Disk ω δ) : Prop :=
  ∀ e body, disk.etag = some e → disk.body = some body →
    ∃ b, codec.unmarshal body.wire = some b ∧ codec.etag b = e

structure Sound (codec : Codec ω δ) (st : State ω δ) : Prop where
  held : ∀ m, st.client.memory = some m → Held codec m
  kept : Kept codec st.client.disk
  synced : Synced st

section
variable {c : ClientConfig} {codec : Codec ω δ} {b : CoverConfigBundle}

omit [DecidableEq δ] in
lemma shows_apply (c : ClientConfig) (b : CoverConfigBundle) (m : Memory δ)
    (etag : Option (ETag δ)) :
    Memory.Shows { applyCoverConfigBundle c b m with etag := etag } b :=
  ⟨rfl, rfl⟩

omit [DecidableEq δ] in
lemma Memory.Shows.of_etag (differ : codec.TagsDiffer) (shows_ : Memory.Shows m old)
    (same : codec.etag old = codec.etag b) : Memory.Shows m b := by
  have content := differ old b same
  have sni : old.sniPool = b.sniPool := congrArg (·.sniPool) content
  have prints : old.fingerprintPool = b.fingerprintPool := congrArg (·.fingerprintPool) content
  refine ⟨?_, ?_⟩
  · rw [shows_.1, sni]
  · rw [shows_.2, CoverConfigBundle.recognised, CoverConfigBundle.recognised, prints]

omit [DecidableEq δ] in
lemma held_replay (kept : Kept codec disk)
    (careful : ((disk.bundle codec).all fun found => !expired found.1 now) = true ∨
      readable.etag = false ∨ disk.etag = none) :
    Held codec (replayCachedBundle c codec disk now readable).1 := by
  intro e remembered
  obtain blank | ⟨b, serial, found, ⟨old, replayed⟩ | ⟨-, -, -, replayed⟩⟩ :=
    replay_cases c codec disk now readable
  · rw [blank] at remembered
    cases remembered
  · -- the condition leaves no tag beside an expired bundle
    rw [replayed, ite_none_right_eq_some] at remembered
    obtain fresh | unread | untagged := careful
    · simp [found, old] at fresh
    · rw [unread] at remembered
      cases remembered.1
    · rw [untagged] at remembered
      cases remembered.2
  · rw [replayed] at remembered ⊢
    simp only [applyCoverConfigBundle, ite_none_right_eq_some] at remembered
    obtain ⟨body, there, -, parsed⟩ := bundle_eq_some found
    obtain ⟨found', parsed', tag⟩ := kept e body remembered.2 there
    have same : found' = b := some.inj (parsed'.symm.trans parsed)
    exact ⟨b, same ▸ tag, rfl, rfl⟩

omit [DecidableEq δ] in
lemma kept_save (kept : Kept codec disk) (parsed : codec.unmarshal body.wire = some b)
    (tag : ∀ e, etag = some e → codec.etag b = e) (careful : save ≠ .bodyOnly ∨ disk.etag = none) :
    Kept codec (disk.save body etag save) := by
  intro e found tagged there
  cases save with
  | nothing => exact kept e found tagged there
  | bodyOnly =>
    have untagged := careful.resolve_left (fun cut => cut rfl)
    simp only [Disk.save, untagged] at tagged
    cases tagged
  | blankTag => cases tagged
  | whole =>
    simp only [Disk.save, some.injEq] at there tagged
    exact ⟨b, there ▸ parsed, tag e tagged⟩

variable {withETag : Bool} {inm : Option (ETag δ)}
lemma judge_serverReply
    (judged : judge c codec (serverReply codec b withETag inm) = .applied found) :
    found = b ∧ inm ≠ some (codec.etag b) ∧ serverReply codec b withETag inm =
        .ok (codec.marshal b) (if withETag then some (codec.etag b) else none) := by
  obtain ⟨wire, etag, sent, -, parsed, -⟩ := applied_of_judge judged
  unfold serverReply at sent ⊢
  split_ifs at sent ⊢ with same
  all_goals
    obtain ⟨rfl, -⟩ : codec.marshal b = wire ∧ _ := by simpa using sent
    exact ⟨some.inj (parsed.symm.trans (codec.unmarshal_marshal b)), same, rfl⟩

lemma etag_of_unchanged (judged : judge c codec (serverReply codec b withETag inm) = .unchanged) :
    inm = some (codec.etag b) := by
  by_contra other
  rw [serverReply, if_neg other, judge] at judged
  simp only [codec.unmarshal_marshal] at judged
  split_ifs at judged

lemma judge_ne_empty : judge c codec (serverReply codec b withETag inm) ≠ .empty := by
  intro judged
  unfold serverReply judge at judged
  have full := codec.size_marshal b
  split_ifs at judged <;>
    simp only [Nat.pos_iff_ne_zero.mp full, if_false, codec.unmarshal_marshal] at judged
  · split_ifs at judged
  · split_ifs at judged
end
namespace Sound
variable {c : ClientConfig} {codec : Codec ω δ} {st t : State ω δ}

omit [DecidableEq δ] in
lemma initial (codec : Codec ω δ) : Sound codec (⟨blank, none⟩ : State ω δ) where
  held := fun _ running => by cases running
  kept := fun _ _ tagged => by cases tagged
  synced := fun _ synced => by cases synced

lemma start (sound : Sound codec st) (careful : Careful codec st (.start now readable))
    (moved : step c codec st (.start now readable) = some t) : Sound codec t := by
  cases moved
  refine ⟨?_, sound.kept, ?_⟩
  · intro m running
    cases running
    exact held_replay sound.kept careful
  · intro b synced
    cases synced

lemma fetch (differ : codec.TagsDiffer) (sound : Sound codec st)
    (careful : Careful codec st (.fetch b withETag save))
    (moved : step c codec st (.fetch b withETag save) = some t) : Sound codec t := by
  simp only [step, BundleFetch.step, bind_eq_some_iff, map_eq_some_iff] at moved
  obtain ⟨m, running, client, ⟨m', running', rfl⟩, rfl⟩ := moved
  obtain rfl : m = m' := some.inj (running.symm.trans running')
  have held := sound.held m running
  by_cases applies : ∃ found, judge c codec (serverReply codec b withETag m.etag) = .applied found
  · obtain ⟨found, judged⟩ := applies
    obtain ⟨rfl, other, sent⟩ := judge_serverReply judged
    have parsed := codec.unmarshal_marshal found
    rw [sent] at judged
    simp only [sent, judged, fetchStep_applied judged]
    refine ⟨?_, ?_, ?_⟩
    · intro new stored e remembered
      cases stored
      refine ⟨found, ?_, shows_apply c found m _⟩
      cases withETag with
      | true => exact some.inj remembered
      | false =>
        -- without a tag in the answer the old one would stay
        have old : m.etag = some e := remembered
        obtain none_ | same := careful.1.resolve_left (by simp) m running
        · rw [none_] at old
          cases old
        · exact absurd same other
    · cases c.cacheEnabled with
      | false => exact sound.kept
      | true =>
        refine kept_save sound.kept parsed ?_ careful.2
        intro e tagged
        exact some.inj (ite_none_right_eq_some.mp tagged).2
    · intro current synced
      cases synced
      exact ⟨_, rfl, shows_apply c found m _⟩
  · have unapplied : ∀ found,
        judge c codec (serverReply codec b withETag m.etag) ≠ .applied found :=
      fun found judged => applies ⟨found, judged⟩
    obtain ⟨next, -, same⟩ := fetchStep_unapplied st.client m save unapplied
    rw [same]
    refine ⟨sound.held, sound.kept, ?_⟩
    intro current synced
    split at synced
    · rename_i judged
      cases synced
      obtain ⟨old, tag, shown⟩ := held _ (etag_of_unchanged judged)
      exact ⟨m, running, shown.of_etag differ tag⟩
    · rename_i judged
      exact absurd judged judge_ne_empty
    · rename_i found judged
      exact absurd judged (unapplied found)
    · cases synced
end Sound

/-- In every history that keeps tags and bundles together, a fetch that returns nil with status 200
or 304 leaves the pools of the server's current bundle. -/
theorem fetch_synchronises (c : ClientConfig) (codec : Codec ω δ) (differ : codec.TagsDiffer)
    (es : List Event) (t : State ω δ)
    (careful : Meets (step c codec) (Careful codec) ⟨blank, none⟩ es)
    (arrive : run (step c codec) ⟨blank, none⟩ es = some t) : Synced t := by
  have sound : Sound codec t := by
    refine invariant_of_meets ?_ (Sound.initial codec) careful arrive
    intro st e u sound careful moved
    cases e with
    | start now readable => exact sound.start careful moved
    | fetch b withETag save => exact sound.fetch differ careful moved
  exact sound.synced

def poolOf (name : Char) (expiresAt : Int) : CoverConfigBundle :=
  { version := 1, expiresAt := expiresAt, sniPool := [⟨[name], 1⟩] }

def readAll : Readable := ⟨true, true⟩

theorem fetch_synchronises_after_restart : ∃ t, run (step cachingClient plainCodec) ⟨blank, none⟩
        [.start 0 readAll, .fetch (poolOf 'a' 100) true .whole, .start 50 readAll,
          .fetch (poolOf 'a' 150) true .whole] = some t ∧
      t.synced = some (poolOf 'a' 150) ∧ Synced t := by
  refine Machine.Runs.exists_some_and (by decide +kernel) fun t arrive synced => ?_
  exact fetch_synchronises cachingClient plainCodec plainCodec_tagsDiffer _ t
      (by decide +kernel) arrive

/-- A start after the expiry remembers the tag without the pools, and a 200 without a tag keeps the
old one. -/
theorem remembered_tag_outlives_pools :
    (∃ t, run (step cachingClient plainCodec) ⟨blank, none⟩
        [.start 0 readAll, .fetch (poolOf 'a' 100) true .whole, .start 200 readAll,
          .fetch (poolOf 'a' 300) true .whole] = some t ∧
      t.synced = some (poolOf 'a' 300) ∧ t.client.memory.bind (·.sniPool) = none) ∧
    ∃ t, run (step cachingClient plainCodec) ⟨blank, none⟩
        [.start 0 readAll, .fetch (poolOf 'a' 0) true .whole, .fetch (poolOf 'b' 0) false .whole,
          .fetch (poolOf 'a' 0) true .whole] = some t ∧
      t.synced = some (poolOf 'a' 0) ∧
      t.client.memory.bind (·.sniPool) = some (poolOf 'b' 0).sniPool := by decide +kernel
end BundleSync
namespace OneShot
open Client.BundleFetch
open Machine.Runs (run_cons_some)
variable {ω δ : Type}

/-- A start with a readable cache finds no valid and unexpired bundle with a notification. -/
def NoReplay (c : ClientConfig) (codec : Codec ω δ) (st : State ω δ) : Label ω δ → Prop
  | .start now readable =>
    c.onNotification = true → c.cacheEnabled = true → readable.body = true →
      ∀ found ∈ st.disk.bundle codec, expired found.1 now = false →
        found.1.notification.isSome = false
  | .fetch _ _ => True

instance (c : ClientConfig) (codec : Codec ω δ) (st : State ω δ) (l : Label ω δ) :
    Decidable (NoReplay c codec st l) := by
  cases l <;> unfold NoReplay <;> infer_instance

/-- The notification of a cached body has been shown already, and numbers are not used twice. -/
structure Shown (c : ClientConfig) (codec : Codec ω δ) (st : State ω δ) : Prop where
  cached : ∀ b serial, st.disk.bundle codec = some (b, serial) →
    ∀ k ∈ notifies c b serial, k ∈ st.triggers
  numbered : ∀ k ∈ st.triggers, k < st.next

lemma Shown.initial (c : ClientConfig) (codec : Codec ω δ) : Shown c codec (blank : State ω δ) where
  cached := fun _ _ found => by cases found
  numbered := fun _ member => by cases member

lemma bundle_save {disk : Disk ω δ} {etag : Option (ETag δ)} {found : CoverConfigBundle}
    (parsed : codec.unmarshal body.wire = some b)
    (there : (disk.save body etag save).bundle codec = some (found, serial)) :
    disk.bundle codec = some (found, serial) ∨ found = b ∧ serial = body.serial := by
  have saved : (disk.save body etag save).body = disk.body ∨
      (disk.save body etag save).body = some body := by
    cases save
    · exact .inl rfl
    all_goals exact .inr rfl
  obtain old | new := saved
  · rw [Disk.bundle, old] at there
    exact .inl there
  · obtain ⟨stored, listed, rfl, read⟩ := bundle_eq_some there
    obtain rfl : body = stored := some.inj (new.symm.trans listed)
    exact .inr ⟨some.inj (read.symm.trans parsed), rfl⟩

lemma mem_notifies (member : k ∈ notifies c b serial) : k = serial := by
  unfold notifies at member
  split_ifs at member
  · exact mem_singleton.mp member
  · cases member

lemma fetch_shown (m : Memory δ) (reply : Reply ω δ) (save : Save) (shown : Shown c codec st) :
    Shown c codec (fetchStep c codec st m reply save) ∧
      (st.triggers.Nodup → (fetchStep c codec st m reply save).triggers.Nodup) := by
  by_cases applies : ∃ b, judge c codec reply = .applied b
  · obtain ⟨b, judged⟩ := applies
    obtain ⟨wire, etag, rfl, -, parsed, -⟩ := applied_of_judge judged
    rw [fetchStep_applied judged]
    refine ⟨⟨?_, ?_⟩, ?_⟩
    · intro found serial there k member
      rw [mem_append]
      split_ifs at there
      · obtain old | ⟨rfl, rfl⟩ := bundle_save parsed there
        · exact .inl (shown.cached found serial old k member)
        · exact .inr member
      · exact .inl (shown.cached found serial there k member)
    · intro k member
      rcases mem_append.mp member with old | new
      · exact Nat.lt_succ_of_lt (shown.numbered k old)
      · rw [mem_notifies new]
        exact Nat.lt_succ_self _
    · intro distinct
      refine nodup_append.mpr ⟨distinct, ?_, ?_⟩
      · unfold notifies
        split_ifs <;> simp
      · intro k old j new same
        have earlier := shown.numbered k old
        rw [same, mem_notifies new] at earlier
        exact Nat.lt_irrefl _ earlier
  · obtain ⟨next, later, same⟩ := fetchStep_unapplied st m save
      (fun b judged => applies ⟨b, judged⟩)
    rw [same]
    refine ⟨⟨shown.cached, ?_⟩, id⟩
    intro k member
    exact Nat.lt_of_lt_of_le (shown.numbered k member) later

lemma replay_shown (shown : Shown c codec st) :
    ∀ k ∈ (replayCachedBundle c codec st.disk now readable).2, k ∈ st.triggers := by
  intro k member
  obtain nothing | ⟨b, serial, found, ⟨-, replayed⟩ | ⟨-, -, -, replayed⟩⟩ :=
    replay_cases c codec st.disk now readable
  · rw [nothing] at member
    cases member
  · rw [replayed] at member
    cases member
  · rw [replayed] at member
    exact shown.cached b serial found k member

lemma replay_silent_iff :
    (replayCachedBundle c codec st.disk now readable).2 = [] ↔
      NoReplay c codec st (.start now readable) := by
  constructor
  · intro silent heard enabled reads found there fresh
    have cached : st.disk.bundle codec = some found := there
    simp only [replayCachedBundle, enabled, reads, cached, fresh, and_self, if_true,
      Bool.false_eq_true, if_false, notifies, heard, true_and, ite_eq_right_iff,
      cons_ne_nil, imp_false] at silent
    exact Bool.eq_false_iff.mpr silent
  · intro quiet
    obtain nothing | ⟨b, serial, found, ⟨-, replayed⟩ | ⟨enabled, reads, fresh, replayed⟩⟩ :=
      replay_cases c codec st.disk now readable
    · rw [nothing]
    · rw [replayed]
    · have silent : notifies c b serial = [] := by
        refine if_neg ?_
        rintro ⟨heard, carries⟩
        rw [quiet heard enabled reads (b, serial) found fresh] at carries
        cases carries
      rw [replayed]
      exact silent

lemma triggers_extend (moved : step c codec st l = some t) : st.triggers <+: t.triggers := by
  cases l with
  | start now readable =>
    cases moved
    exact prefix_append _ _
  | fetch reply save =>
    simp only [step, map_eq_some_iff] at moved
    obtain ⟨m, -, rfl⟩ := moved
    unfold fetchStep
    split
    · exact prefix_append _ _
    · exact prefix_rfl
    · exact prefix_rfl

lemma run_triggers_extend (arrive : run (step c codec) st ls = some t) :
    st.triggers <+: t.triggers := by
  have keeps {u l v} (earlier : st.triggers <+: u.triggers) (moved : step c codec u l = some v) :
      st.triggers <+: v.triggers := earlier.trans (triggers_extend moved)
  exact Machine.Runs.run_invariant keeps prefix_rfl arrive

lemma step_shown (shown : Shown c codec st) (distinct : st.triggers.Nodup)
    (moved : step c codec st l = some t) :
    (NoReplay c codec st l → Shown c codec t ∧ t.triggers.Nodup) ∧
      (¬ NoReplay c codec st l → ¬ t.triggers.Nodup) := by
  cases l with
  | start now readable =>
    cases moved
    refine ⟨?_, ?_⟩
    · intro quiet
      rw [replay_silent_iff.mpr quiet, append_nil]
      exact ⟨⟨shown.cached, shown.numbered⟩, distinct⟩
    · intro loud again
      obtain ⟨k, repeated⟩ := exists_mem_of_ne_nil _
        (fun silent => loud (replay_silent_iff.mp silent))
      exact (nodup_append.mp again).2.2 k (replay_shown shown k repeated) k repeated rfl
  | fetch reply save =>
    simp only [step, map_eq_some_iff] at moved
    obtain ⟨m, -, rfl⟩ := moved
    obtain ⟨after, kept⟩ := fetch_shown m reply save shown
    exact ⟨fun _ => ⟨after, kept distinct⟩, fun refused => absurd trivial refused⟩

lemma run_distinct_iff (shown : Shown c codec st) (distinct : st.triggers.Nodup)
    (arrive : run (step c codec) st ls = some t) :
    t.triggers.Nodup ↔ Meets (step c codec) (NoReplay c codec) st ls := by
  induction ls generalizing st with
  | nil =>
    cases arrive
    exact iff_of_true distinct trivial
  | cons l ls ih =>
    obtain ⟨m, first, rest⟩ := run_cons_some arrive
    obtain ⟨keeps, repeats⟩ := step_shown shown distinct first
    by_cases quiet : NoReplay c codec st l
    · obtain ⟨after, distinct'⟩ := keeps quiet
      rw [ih after distinct' rest]
      refine ⟨fun later => ⟨quiet, fun u same => ?_⟩, fun whole => whole.2 m first⟩
      rwa [← some.inj (first.symm.trans same)]
    · refine iff_of_false (fun again => repeats quiet ?_) (fun whole => quiet whole.1)
      exact again.sublist (run_triggers_extend rest).sublist

/-- Over a whole history the notification of every response is shown at most once exactly if no
start finds a notification in its cache. -/
theorem shown_once_iff (c : ClientConfig) (codec : Codec ω δ) (ls : List (Label ω δ))
    (t : State ω δ) (arrive : run (step c codec) blank ls = some t) :
    (∀ serial, t.triggers.count serial ≤ 1) ↔ Meets (step c codec) (NoReplay c codec) blank ls := by
  rw [← nodup_iff_count_le_one]
  exact run_distinct_iff (Shown.initial c codec) nodup_nil arrive

def plainBundle : CoverConfigBundle := { version := 1 }
def noticeBundle : CoverConfigBundle := { version := 1, notification := some ⟨['n'], [], [], []⟩ }

def overwritten : List (Label CoverConfigBundle CoverConfigBundle) :=
  [.start 0 ⟨true, true⟩, .fetch (.ok noticeBundle none) .whole, .fetch .notModified .nothing,
    .fetch (.ok plainBundle none) .whole, .start 1 ⟨true, true⟩]

theorem shown_once_iff_overwritten :
    ∃ t, run (step cachingClient plainCodec) blank overwritten = some t ∧
      t.triggers = [0] ∧ ∀ serial, t.triggers.count serial ≤ 1 := by
  refine Machine.Runs.exists_some_and (by decide +kernel) fun t arrive shown => ?_
  have once := (shown_once_iff cachingClient plainCodec overwritten t arrive).mpr
    (by decide +kernel)
  exact once

theorem restart_shows_again : ∃ t, run (step cachingClient plainCodec) blank
        [.start 0 ⟨true, true⟩, .fetch (.ok noticeBundle none) .whole, .start 1 ⟨true, true⟩] =
          some t ∧
      t.next = 1 ∧ t.triggers = [0, 0] := by decide +kernel
end OneShot
end Tamizdat.Client
