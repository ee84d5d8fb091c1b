/- source: pkg/tamizdat/server.go, internal/userdb/notifications.go
   digest: The bundle endpoint, and its fetches against updates of the pending notification. -/

import Tamizdat.CoverConfig.Bundle
import Tamizdat.Machine.Runs

set_option autoImplicit false

namespace Tamizdat.Server
open CoverConfig
open Routing (Text trimSpace)
namespace ConfigBundle
variable {ω δ : Type}

/-- A user as the registry knows them. `overQuota` is the answer of `IsOverQuota`. -/
structure User where
  poolSize : Int
  notificationText : Text
  expiresAt : Int
  overQuota : Bool
  turnProfilePending : Bool
  turnRoomLink : Text
  turnRoomHash : Text
  turnProfileVersion : Int

/-- What `initCoverConfig` and the options leave behind. Both of its branches set the bundle. -/
structure Site where
  bundleEnabled : Bool
  coverConfigBundle : CoverConfigBundle
  hasDB : Bool
  wgturnPublicPort : Int

structure Identity where
  userID : Text
  dataPlaneBlocked : Bool

inductive Method
  | connect | head | get | other
deriving DecidableEq

structure Request (δ : Type) where
  method : Method
  ifNoneMatch : Option (ETag δ)

/-- What one request reads on its way: the credentials and the registry each time they are asked,
and the clock. In `noticeCreds` the outer nothing is a server without a provider. -/
structure Seen where
  creds : Option TURNCredsEntry
  noticeCreds : Option (Option TURNCredsEntry)
  sizingUser : Option User
  noticeUser : Option User
  profileUser : Option User
  dynamicNow : Int
  userNow : Int
  noticeNow : Int

def versionOnly : CoverConfigBundle := { version := 1 }

variable (codec : Codec ω δ)
variable (site : Site)
def coverConfigJSON : ω :=
  (codec.marshalForWire site.coverConfigBundle).getD (codec.marshal versionOnly)

def poolBoundsForVariant (v : Text) : Int × Int :=
  let variant := (trimSpace v).map Char.toLower
  if variant = "v2".toList then (1, 2)
  else if variant = "v3".toList then (2, 4)
  else (1, 1)

def buildPerUserBundle (user : Option User) (now : Int) : CoverConfigBundle :=
  let base := site.coverConfigBundle.withExpiry now
  match user with
  | none => base
  | some u =>
    if 0 < u.poolSize then { base with minTransports := u.poolSize, maxTransports := u.poolSize }
    else
      { base with
        minTransports := (poolBoundsForVariant base.poolVariant).1
        maxTransports := (poolBoundsForVariant base.poolVariant).2 }

def broadcastPrefix : Text := "BROADCAST: ".toList

def shownText (text : Text) : Text :=
  if broadcastPrefix.isPrefixOf (trimSpace text) then
    (trimSpace text).drop broadcastPrefix.length
  else trimSpace text

def genericNotice : NotificationEntry where
  code := "notification_pending".toList
  title := "Уведомление".toList
  body := "Сервер запросил отображение системного уведомления.".toList
  locale := "ru".toList

def expiredNotice : NotificationEntry where
  code := "expired".toList
  title := "Срок действия истёк".toList
  body := "Срок действия вашей учётной записи истёк. Обратитесь к администратору.".toList
  locale := "ru".toList

def quotaNotice : NotificationEntry where
  code := "quota_exhausted".toList
  title := "Квота исчерпана".toList
  body := "Лимит трафика исчерпан. Обратитесь к администратору для сброса.".toList
  locale := "ru".toList

def operatorCode (text : Text) : Text :=
  if broadcastPrefix.isPrefixOf (trimSpace text) then "admin_broadcast".toList
  else "admin_message".toList

def operatorNotice (text : Text) : NotificationEntry where
  code := operatorCode text
  title := "Сообщение администратора".toList
  body := shownText text
  locale := "ru".toList

/-- The entry that `attachNotification` builds: the operator's text first, then the cause the
server sees, then a generic one. -/
def notificationEntry (user : Option User) (now : Int) : NotificationEntry :=
  match user with
  | none => genericNotice
  | some u =>
    if trimSpace u.notificationText ≠ [] then operatorNotice u.notificationText
    else if 0 < u.expiresAt ∧ u.expiresAt < now then expiredNotice
    else if u.overQuota then quotaNotice
    else genericNotice

/-- `attachNotification`. Without a provider the bundle keeps its own credentials. -/
def attachNotification (b : CoverConfigBundle) (user : Option User) (now : Int)
    (provider : Option (Option TURNCredsEntry)) : CoverConfigBundle :=
  { b with
    notification := some (notificationEntry user now)
    turnCreds := provider.getD b.turnCreds }

def stagedProfile (user : Option User) : Option TURNProfileEntry :=
  user.bind fun u =>
    if u.turnProfilePending ∧ ¬ (trimSpace u.turnRoomLink = [] ∧ trimSpace u.turnRoomHash = []) then
      some ⟨u.turnProfileVersion, "vk".toList, trimSpace u.turnRoomLink, trimSpace u.turnRoomHash,
        site.wgturnPublicPort⟩
    else none

/-- Whether the request carries a notification. `pending` is what `GetNotificationPending` read,
and nothing if it failed. -/
def notified (identity : Identity) (pending : Option Bool) : Bool :=
  site.hasDB && (identity.dataPlaneBlocked || pending = some true)

def personalBundle (seen : Seen) (hasNotification : Bool) : CoverConfigBundle :=
  let base := buildPerUserBundle site seen.sizingUser seen.userNow
  let noticed :=
    if hasNotification then
      attachNotification base seen.noticeUser seen.noticeNow seen.noticeCreds
    else base
  match stagedProfile site seen.profileUser with
  | none => noticed
  | some profile => { noticed with turnProfile := some profile }

structure Draft (ω δ : Type) where
  body : ω
  etag : Option (ETag δ)
  hasNotification : Bool
  hasTURNProfile : Bool

/-- The static body, re-marshalled when there is an expiry or a credential to put into it. -/
def globalDraft (seen : Seen) : Draft ω δ :=
  let b := site.coverConfigBundle
  let static : ω := coverConfigJSON codec site
  if site.bundleEnabled = false then
    ⟨codec.marshal versionOnly, some .disabled, false, false⟩
  else if 0 < b.ttlSeconds ∨ seen.creds.isSome then
    ⟨(codec.marshalForWireWithExpiry { b with turnCreds := seen.creds } seen.dynamicNow).getD
        static,
      if seen.creds.isSome then none else some (codec.etag b), false, false⟩
  else ⟨static, some (codec.etag b), false, false⟩

/-- The per-user overlay, kept out when it is too large; the flags stay. -/
def personalDraft (seen : Seen) (hasNotification : Bool) : Draft ω δ :=
  let hasProfile := (stagedProfile site seen.profileUser).isSome
  match codec.marshalForWire (personalBundle site seen hasNotification) with
  | some wire =>
    ⟨wire,
      if hasNotification ∨ hasProfile then none
      else some (codec.etag (personalBundle site seen hasNotification)),
      hasNotification, hasProfile⟩
  | none =>
    { globalDraft codec site seen with
      hasNotification := hasNotification, hasTURNProfile := hasProfile }

def draft (identity : Identity) (pending : Option Bool) (seen : Seen) : Draft ω δ :=
  if site.bundleEnabled = true ∧ identity.userID ≠ [] then
    personalDraft codec site seen (notified site identity pending)
  else globalDraft codec site seen

inductive Status
  | ok | notModified | methodNotAllowed
deriving DecidableEq

/-- `clearsNotification` and `clearsProfile` say which flags are cleared after the write. -/
structure Answer (ω δ : Type) where
  status : Status
  etag : Option (ETag δ) := none
  maxAge : Option Int := none
  body : Option ω := none
  clearsNotification : Bool := false
  clearsProfile : Bool := false

def respond [DecidableEq δ] (request : Request δ) (d : Draft ω δ) : Answer ω δ :=
  let plain := d.hasNotification = false ∧ d.hasTURNProfile = false
  let maxAge : Option Int :=
    if site.bundleEnabled ∧ 0 < site.coverConfigBundle.ttlSeconds ∧ plain then
      some site.coverConfigBundle.ttlSeconds
    else none
  if plain ∧ site.bundleEnabled ∧ request.ifNoneMatch.isSome ∧ request.ifNoneMatch = d.etag then
    { status := .notModified, etag := d.etag, maxAge := maxAge }
  else
    { status := .ok
      etag := d.etag
      maxAge := maxAge
      body := if request.method = .head then none else some d.body
      clearsNotification := d.hasNotification
      clearsProfile := d.hasTURNProfile }

def serveConfigBundle [DecidableEq δ] (identity : Identity)
    (request : Request δ) (pending : Option Bool) (seen : Seen) : Answer ω δ :=
  if request.method = .other then { status := .methodNotAllowed }
  else respond site request (draft codec site identity pending seen)

def Answer.Carries (answer : Answer ω δ) (c : TURNCredsEntry) : Prop :=
  answer.status = .ok ∧
    ∃ wire b, answer.body = some wire ∧ codec.unmarshal wire = some b ∧ b.turnCreds = some c

/-- The per-user body reaches the client with `c` if a notification brings it along, or if the
configured bundle has it already and the client does not hold this very body. -/
def PersonalReaches (request : Request δ) (seen : Seen)
    (hasNotification : Bool) (c : TURNCredsEntry) : Prop :=
  hasNotification = true ∨ site.coverConfigBundle.turnCreds = some c ∧
      ((stagedProfile site seen.profileUser).isSome ∨
        request.ifNoneMatch ≠ some (codec.etag (personalBundle site seen hasNotification)))

/-- The global body reaches the client with `c` if it fits with it, or if the static body has it
already. -/
def GlobalReaches (seen : Seen) (c : TURNCredsEntry) : Prop :=
  (codec.marshalForWireWithExpiry { site.coverConfigBundle with turnCreds := some c }
      seen.dynamicNow).isSome ∨
    (codec.marshalForWire site.coverConfigBundle).isSome ∧ site.coverConfigBundle.turnCreds = some c

/-- The request asks for a body, and the overlay that supplies it brings the credentials. -/
def Reaches (identity : Identity) (request : Request δ)
    (pending : Option Bool) (seen : Seen) (c : TURNCredsEntry) : Prop :=
  (request.method = .connect ∨ request.method = .get) ∧
    if identity.userID ≠ [] ∧ (codec.marshalForWire
        (personalBundle site seen (notified site identity pending))).isSome then
      PersonalReaches codec site request seen (notified site identity pending) c
    else GlobalReaches codec site seen c

section
variable {codec : Codec ω δ} {site : Site} {identity : Identity} {request : Request δ}
  {pending : Option Bool} {seen : Seen} {c : TURNCredsEntry} {d : Draft ω δ}

def Draft.Matches (d : Draft ω δ) (request : Request δ) : Prop :=
  d.hasNotification = false ∧ d.hasTURNProfile = false ∧ request.ifNoneMatch.isSome ∧
    request.ifNoneMatch = d.etag

def BodyCarries (codec : Codec ω δ) (wire : ω) (c : TURNCredsEntry) : Prop :=
  ∃ b, codec.unmarshal wire = some b ∧ b.turnCreds = some c

lemma respond_of_matches [DecidableEq δ] (enabled : site.bundleEnabled = true)
    (held : d.Matches request) :
    (respond site request d).status = .notModified := by
  obtain ⟨quiet, unprofiled, asked, same⟩ := held
  simp only [respond]
  rw [if_pos ⟨⟨quiet, unprofiled⟩, enabled, asked, same⟩]

lemma respond_of_not_matches [DecidableEq δ] (unheld : ¬ d.Matches request) :
    (respond site request d).status = .ok ∧
      (respond site request d).body = if request.method = .head then none else some d.body := by
  simp only [respond]
  rw [if_neg]
  · exact ⟨rfl, rfl⟩
  · rintro ⟨⟨quiet, unprofiled⟩, -, asked, same⟩
    exact unheld ⟨quiet, unprofiled, asked, same⟩

lemma respond_carries_iff [DecidableEq δ] (enabled : site.bundleEnabled = true) :
    (respond site request d).Carries codec c ↔
      request.method ≠ .head ∧ ¬ d.Matches request ∧ BodyCarries codec d.body c := by
  unfold Answer.Carries
  by_cases held : d.Matches request
  · rw [respond_of_matches enabled held]
    simp [held]
  · rw [(respond_of_not_matches held).1, (respond_of_not_matches held).2]
    by_cases head : request.method = .head
    · simp [head]
    · simp [head, held, BodyCarries]

lemma bodyCarries_marshal {b} : BodyCarries codec (codec.marshal b) c ↔ b.turnCreds = some c := by
  unfold BodyCarries
  rw [codec.unmarshal_marshal]
  simp

variable {wire : ω}
lemma bodyCarries_of_wire {b} (sent : codec.marshalForWire b = some wire) :
    BodyCarries codec wire c ↔ b.turnCreds = some c := by
  unfold BodyCarries
  rw [codec.unmarshal_of_marshalForWire sent]
  simp

lemma coverConfigJSON_carries_iff : BodyCarries codec (coverConfigJSON codec site) c ↔
      (codec.marshalForWire site.coverConfigBundle).isSome ∧
        site.coverConfigBundle.turnCreds = some c := by
  unfold coverConfigJSON
  cases sent : codec.marshalForWire site.coverConfigBundle with
  | none =>
    rw [Option.getD_none, bodyCarries_marshal]
    simp [versionOnly]
  | some wire =>
    rw [Option.getD_some, bodyCarries_of_wire sent]
    simp

lemma globalDraft_carries (enabled : site.bundleEnabled = true) (provided : seen.creds = some c) :
    (globalDraft codec site seen).etag = none ∧
      (BodyCarries codec (globalDraft codec site seen).body c ↔
        GlobalReaches codec site seen c) := by
  have dynamic : (globalDraft codec site seen) =
      ⟨(codec.marshalForWireWithExpiry { site.coverConfigBundle with turnCreds := some c }
          seen.dynamicNow).getD (coverConfigJSON codec site), none, false, false⟩ := by
    simp [globalDraft, enabled, provided]
  rw [dynamic]
  refine ⟨rfl, ?_⟩
  unfold GlobalReaches
  cases sent : codec.marshalForWireWithExpiry
      { site.coverConfigBundle with turnCreds := some c } seen.dynamicNow with
  | none =>
    simp only [Option.getD_none, Option.isSome_none, Bool.false_eq_true, false_or]
    exact coverConfigJSON_carries_iff
  | some wire =>
    simp only [Option.getD_some, Option.isSome_some, true_or, iff_true]
    rw [bodyCarries_of_wire sent]
    exact withExpiry_turnCreds _ _

lemma personalBundle_turnCreds (again : seen.noticeCreds = some (some c)) (notice : Bool) :
    (personalBundle site seen notice).turnCreds = some c ↔
      notice = true ∨ site.coverConfigBundle.turnCreds = some c := by
  have base : (buildPerUserBundle site seen.sizingUser seen.userNow).turnCreds =
      site.coverConfigBundle.turnCreds := by
    unfold buildPerUserBundle
    split
    · exact withExpiry_turnCreds _ _
    · split <;> exact withExpiry_turnCreds _ _
  unfold personalBundle
  cases stagedProfile site seen.profileUser <;> cases notice <;>
    simp [attachNotification, again, base]

lemma personalDraft_carries_iff {notice} (again : seen.noticeCreds = some (some c))
    (sent : codec.marshalForWire (personalBundle site seen notice) = some wire) :
    ¬ (personalDraft codec site seen notice).Matches request ∧
        BodyCarries codec (personalDraft codec site seen notice).body c ↔
      PersonalReaches codec site request seen notice c := by
  have carried := bodyCarries_of_wire (c := c) sent
  rw [personalBundle_turnCreds again] at carried
  simp only [personalDraft, sent, Draft.Matches, PersonalReaches]
  rw [carried]
  cases notice with
  | true => simp
  | false =>
    cases (stagedProfile site seen.profileUser).isSome with
    | true => simp
    | false =>
      simp only [Bool.false_eq_true, or_self, if_false, true_and, false_or]
      constructor
      · rintro ⟨unmatched, own⟩
        refine ⟨own, fun same => unmatched ⟨by rw [same]; rfl, same⟩⟩
      · rintro ⟨own, other⟩
        exact ⟨fun held => other held.2, own⟩
end

/-- With credentials `c` at hand, an enabled endpoint answers 200 with a body that carries `c`
exactly to the requests that `Reaches` describes. -/
theorem turn_creds_reach_iff [DecidableEq δ] (codec : Codec ω δ) (site : Site) (identity : Identity)
    (request : Request δ) (pending : Option Bool) (seen : Seen) (c : TURNCredsEntry)
    (enabled : site.bundleEnabled = true) (provided : seen.creds = some c)
    (again : seen.noticeCreds = some (some c)) :
    (serveConfigBundle codec site identity request pending seen).Carries codec c ↔
      Reaches codec site identity request pending seen c := by
  obtain ⟨untagged, global⟩ : (globalDraft codec site seen).etag = none ∧ _ :=
    globalDraft_carries enabled provided
  have unmatched : ∀ d : Draft ω δ, d.etag = none → ¬ d.Matches request := by
    rintro d none_ ⟨-, -, asked, same⟩
    rw [same, none_] at asked
    cases asked
  unfold serveConfigBundle Reaches
  by_cases other : request.method = .other
  · rw [if_pos other]
    simp [other, Answer.Carries]
  rw [if_neg other, respond_carries_iff enabled]
  have asks : request.method ≠ .head ↔ request.method = .connect ∨ request.method = .get := by
    cases method : request.method <;> simp_all
  rw [asks]
  refine and_congr_right (fun _ => ?_)
  unfold draft
  by_cases known : identity.userID ≠ []
  · rw [if_pos ⟨enabled, known⟩]
    cases sent : codec.marshalForWire
        (personalBundle site seen (notified site identity pending)) with
    | some wire =>
      rw [if_pos ⟨known, rfl⟩]
      exact personalDraft_carries_iff again sent
    | none =>
      -- too large: the body and the tag stay those of the global draft
      rw [if_neg (by simp)]
      simp only [personalDraft, sent]
      refine (and_iff_right (unmatched _ ?_)).trans global
      exact untagged
  · rw [if_neg (fun both => known both.2), if_neg (fun both => known both.1),
      and_iff_right (unmatched _ untagged)]
    exact global

def sampleCreds : TURNCredsEntry := ⟨['u'], ['p'], [], 60⟩

def sampleSite : Site where
  bundleEnabled := true
  coverConfigBundle := { version := 1 }
  hasDB := true
  wgturnPublicPort := 0

def sampleSeen : Seen where
  creds := some sampleCreds
  noticeCreds := some (some sampleCreds)
  sizingUser := none
  noticeUser := none
  profileUser := none
  dynamicNow := 0
  userNow := 0
  noticeNow := 0

theorem turn_creds_reach_iff_pending :
    (serveConfigBundle plainCodec sampleSite ⟨['u'], false⟩ ⟨.connect, none⟩ (some true)
      sampleSeen).Carries plainCodec sampleCreds :=
  (turn_creds_reach_iff plainCodec sampleSite ⟨['u'], false⟩ ⟨.connect, none⟩ (some true)
    sampleSeen sampleCreds rfl rfl rfl).mpr ⟨.inl rfl, by
      rw [if_pos (by decide +kernel)]
      exact .inl rfl⟩

/-- An ordinary user gets the per-user body without the credentials, and a 304 the next time. -/
theorem ordinary_user_without_creds :
    (∃ wire, (serveConfigBundle plainCodec sampleSite ⟨['u'], false⟩ ⟨.connect, none⟩ (some false)
        sampleSeen).body = some wire ∧ (plainCodec.unmarshal wire).bind (·.turnCreds) = none) ∧
    (serveConfigBundle plainCodec sampleSite ⟨['u'], false⟩
      ⟨.connect, some (plainCodec.etag { version := 1 })⟩ (some false) sampleSeen).status =
        .notModified := by
  refine ⟨⟨{ version := 1 }, ?_, rfl⟩, ?_⟩
  · decide +kernel
  · decide +kernel
end ConfigBundle
open List Option
namespace PendingNotice
open Machine.Pool (forall_set forall_snoc)
open Machine.Runs (run Meets invariant_of_meets)
open Server.ConfigBundle
variable {ω δ : Type} {codec : Codec ω δ} {site : Site} {request : Request δ}

structure Row where
  text : Text
  pending : Bool

/-- Where a call of `serveConfigBundle` stands: before `GetNotificationPending`, before its body
is built, before the body is written, and before `ClearNotificationPending` with the notification
that was written in full, if one was. -/
inductive Phase (ω δ : Type)
  | asking (identity : Identity) (request : Request δ)
  | composing (identity : Identity) (request : Request δ) (pending : Option Bool)
  | writing (request : Request δ) (draft : Draft ω δ)
  | clearing (delivered : Option NotificationEntry)
  | ended

/-- For the record of each clearing: what its fetch had delivered, and the text at that time. -/
structure Clear where
  delivered : Option NotificationEntry
  text : Text
deriving DecidableEq

/-- `registry` is the snapshot of the user that the server works with. -/
structure State (ω δ : Type) where
  row : Row
  registry : Option User
  fetches : List (Phase ω δ)
  clears : List Clear

inductive Label (δ : Type)
  | panel (text : Text)
  | refresh (user : Option User)
  | fetch (identity : Identity) (request : Request δ)
  | ask (i : Nat) (ok : Bool)
  | compose (i : Nat) (seen : Seen)
  | write (i : Nat) (complete : Bool)
  | clear (i : Nat) (ok : Bool)

def noticeIn (codec : Codec ω δ) (wire : ω) : Option NotificationEntry :=
  (codec.unmarshal wire).bind (·.notification)


/-- After the write the flag is cleared if the answer carried a notification. The error of the
write decides nothing. -/
def afterWrite (codec : Codec ω δ) (answer : Answer ω δ) (complete : Bool) : Phase ω δ :=
  if answer.clearsNotification then
    .clearing (if complete then answer.body.bind (noticeIn codec) else none)
  else .ended

def step [DecidableEq δ] (codec : Codec ω δ) (site : Site) (st : State ω δ) :
    Label δ → Option (State ω δ)
  | .panel text => some { st with row := ⟨text, true⟩ }
  | .refresh user =>
    some { st with registry := user.map fun u => { u with notificationText := st.row.text } }
  | .fetch identity request =>
    if request.method = .connect ∨ request.method = .get then
      some { st with fetches := st.fetches ++ [.asking identity request] }
    else none
  | .ask i ok =>
    match st.fetches[i]? with
    | some (.asking identity request) =>
      some { st with
        fetches := st.fetches.set i
          (.composing identity request (if ok then some st.row.pending else none)) }
    | _ => none
  | .compose i seen =>
    match st.fetches[i]? with
    | some (.composing identity request pending) =>
      some { st with
        fetches := st.fetches.set i (.writing request
          (draft codec site identity pending { seen with noticeUser := st.registry })) }
    | _ => none
  | .write i complete =>
    match st.fetches[i]? with
    | some (.writing request d) =>
      some { st with
        fetches := st.fetches.set i (afterWrite codec (respond site request d) complete) }
    | _ => none
  | .clear i ok =>
    match st.fetches[i]? with
    | some (.clearing delivered) =>
      some { st with
        row := if ok then { st.row with pending := false } else st.row
        fetches := st.fetches.set i .ended
        clears :=
          if ok ∧ st.row.pending then ⟨delivered, st.row.text⟩ :: st.clears else st.clears }
    | _ => none

def Contains (n : NotificationEntry) (text : Text) : Prop :=
  trimSpace text = [] ∨ n.body = shownText text

/-- Every clearing came after a body with the text current at that time had been written. -/
def NotLost (st : State ω δ) : Prop :=
  ∀ clear ∈ st.clears, ∃ n, clear.delivered = some n ∧ Contains n clear.text

def Phase.carrying : Phase ω δ → Bool
  | .writing _ d => d.hasNotification
  | .clearing _ => true
  | _ => false

/-- A call that will notify finds the current text in the registry, and its body fits. -/
def BuildsCurrent (codec : Codec ω δ) (site : Site) (row : Row) (registry : Option User)
    (seen : Seen) : Option (Phase ω δ) → Prop
  | some (.composing identity _ pending) =>
    notified site identity pending = true → registry.map (·.notificationText) = some row.text ∧
      (codec.marshalForWire (personalBundle site { seen with noticeUser := registry } true)).isSome
  | _ => True

def WritesInFull (complete : Bool) : Option (Phase ω δ) → Prop
  | some (.writing _ d) => d.hasNotification = true → complete = true
  | _ => True

/-- A notification is built from an up-to-date registry and fits its body, it is written in full,
and the panel does not change it between its building and the clearing. -/
def Undisturbed (codec : Codec ω δ) (site : Site) (st : State ω δ) : Label δ → Prop
  | .panel _ => ∀ p ∈ st.fetches, p.carrying = false
  | .compose i seen => BuildsCurrent codec site st.row st.registry seen st.fetches[i]?
  | .write i complete => WritesInFull complete st.fetches[i]?
  | _ => True

instance (codec : Codec ω δ) (site : Site) (row : Row) (registry : Option User) (seen : Seen)
    (p : Option (Phase ω δ)) : Decidable (BuildsCurrent codec site row registry seen p) := by
  unfold BuildsCurrent
  split <;> infer_instance

instance (complete : Bool) (p : Option (Phase ω δ)) : Decidable (WritesInFull complete p) := by
  unfold WritesInFull
  split <;> infer_instance

instance (codec : Codec ω δ) (site : Site) (st : State ω δ) (l : Label δ) :
    Decidable (Undisturbed codec site st l) := by
  cases l <;> unfold Undisturbed <;> infer_instance

section

lemma notificationEntry_contains {text user} (now : Int)
    (current : user.map (·.notificationText) = some text) :
    Contains (notificationEntry user now) text := by
  obtain ⟨u, rfl, rfl⟩ := map_eq_some_iff.mp current
  by_cases silent : trimSpace u.notificationText = []
  · exact .inl silent
  · have operator : notificationEntry (some u) now = operatorNotice u.notificationText :=
      if_pos silent
    rw [operator]
    exact .inr rfl

lemma notified_of_draft {identity pending seen}
    (has : (draft codec site identity pending seen).hasNotification = true) :
    notified site identity pending = true ∧
      draft codec site identity pending seen = personalDraft codec site seen true := by
  have global : (globalDraft codec site seen).hasNotification = false := by
    unfold globalDraft
    simp only
    split_ifs <;> rfl
  unfold draft at has ⊢
  split_ifs at has ⊢
  · have same : (personalDraft codec site seen (notified site identity pending)).hasNotification =
        notified site identity pending := by
      unfold personalDraft
      simp only
      split <;> rfl
    rw [same] at has
    exact ⟨has, by rw [has]⟩
  · rw [global] at has
    cases has

lemma noticeIn_personalDraft {seen}
    (fits : (codec.marshalForWire (personalBundle site seen true)).isSome) :
    noticeIn codec (personalDraft codec site seen true).body =
      some (notificationEntry seen.noticeUser seen.noticeNow) := by
  obtain ⟨wire, sent⟩ := isSome_iff_exists.mp fits
  have attached : (personalBundle site seen true).notification =
      some (notificationEntry seen.noticeUser seen.noticeNow) := by
    unfold personalBundle
    cases stagedProfile site seen.profileUser <;> rfl
  simp only [personalDraft, sent, noticeIn]
  rw [codec.unmarshal_of_marshalForWire sent]
  exact attached

variable {d : Draft ω δ}
lemma respond_notified [DecidableEq δ] (asks : request.method = .connect ∨ request.method = .get)
    (has : d.hasNotification = true) :
    (respond site request d).body = some d.body := by
  have unmatched : ¬ d.Matches request := by
    rintro ⟨quiet, -⟩
    rw [has] at quiet
    cases quiet
  have body : request.method ≠ .head := by
    rintro head
    simp [head] at asks
  rw [(respond_of_not_matches unmatched).2, if_neg body]

lemma respond_clears [DecidableEq δ] (clears : (respond site request d).clearsNotification = true) :
    d.hasNotification = true := by
  simp only [respond] at clears
  split at clears
  · cases clears
  · exact clears
end

def Fits (codec : Codec ω δ) (row : Row) : Phase ω δ → Prop
  | .asking _ request | .composing _ request _ => request.method = .connect ∨ request.method = .get
  | .writing request d =>
    (request.method = .connect ∨ request.method = .get) ∧
      (d.hasNotification = true → ∃ n, noticeIn codec d.body = some n ∧ Contains n row.text)
  | .clearing delivered => ∃ n, delivered = some n ∧ Contains n row.text
  | .ended => True

structure Sound (codec : Codec ω δ) (st : State ω δ) : Prop where
  fits : ∀ p ∈ st.fetches, Fits codec st.row p
  notLost : NotLost st

lemma Fits.of_row {row new} {codec : Codec ω δ} {p : Phase ω δ} (fits : Fits codec row p)
    (same : p.carrying = true → new.text = row.text) :
    Fits codec new p := by
  cases p with
  | asking identity request | composing identity request pending => exact fits
  | writing request d =>
    refine ⟨fits.1, fun has => ?_⟩
    rw [same has]
    exact fits.2 has
  | clearing delivered =>
    have text := same rfl
    simp only [Fits, text]
    exact fits
  | ended => trivial

namespace Sound
variable {st t : State ω δ}

variable {i : Nat}
lemma compose {seen identity pending} (sound : Sound codec st)
    (here : st.fetches[i]? = some (.composing identity request pending))
    (undisturbed : Undisturbed codec site st (.compose i seen)) :
    Fits codec st.row (.writing request
      (draft codec site identity pending { seen with noticeUser := st.registry })) := by
  refine ⟨sound.fits _ (mem_of_getElem? here), ?_⟩
  intro has
  obtain ⟨due, same⟩ := notified_of_draft has
  simp only [Undisturbed, here, BuildsCurrent] at undisturbed
  obtain ⟨current, fits⟩ := undisturbed due
  rw [same, noticeIn_personalDraft fits]
  exact ⟨_, rfl, notificationEntry_contains _ current⟩

lemma write {complete} {d : Draft ω δ} [DecidableEq δ] (sound : Sound codec st)
    (here : st.fetches[i]? = some (.writing request d))
    (undisturbed : Undisturbed codec site st (.write i complete)) :
    Fits codec st.row (afterWrite codec (respond site request d) complete) := by
  obtain ⟨asks, carries⟩ := sound.fits _ (mem_of_getElem? here)
  unfold afterWrite
  split_ifs with clears whole
  · have has := respond_clears clears
    obtain ⟨n, there, contains_⟩ := carries has
    rw [respond_notified asks has, bind_some]
    exact ⟨n, there, contains_⟩
  · simp only [Undisturbed, here, WritesInFull] at undisturbed
    exact absurd (undisturbed (respond_clears clears)) whole
  · trivial

lemma clear {ok : Bool} {delivered : Option NotificationEntry} (sound : Sound codec st)
    (here : st.fetches[i]? = some (.clearing delivered)) :
    Sound codec { st with
      row := if ok then { st.row with pending := false } else st.row
      fetches := st.fetches.set i .ended
      clears :=
        if ok ∧ st.row.pending then ⟨delivered, st.row.text⟩ :: st.clears else st.clears } := by
  have own : ∃ n, delivered = some n ∧ Contains n st.row.text := sound.fits _ (mem_of_getElem? here)
  refine ⟨forall_set ?_ trivial, ?_⟩
  · intro p member
    refine (sound.fits p member).of_row (fun _ => ?_)
    cases ok <;> rfl
  · intro entry listed
    simp only at listed
    split_ifs at listed
    · rcases mem_cons.mp listed with rfl | old
      · exact own
      · exact sound.notLost entry old
    · exact sound.notLost entry listed

lemma step {l : Label δ} [DecidableEq δ] (sound : Sound codec st)
    (undisturbed : Undisturbed codec site st l)
    (moved : PendingNotice.step codec site st l = some t) : Sound codec t := by
  cases l <;> simp only [PendingNotice.step] at moved
  case panel text =>
    cases moved
    refine ⟨fun p member => (sound.fits p member).of_row (fun carrying => ?_), sound.notLost⟩
    rw [undisturbed p member] at carrying
    cases carrying
  case refresh user =>
    cases moved
    exact ⟨sound.fits, sound.notLost⟩
  case fetch identity request =>
    obtain ⟨asks, rfl⟩ := ite_some_none_eq_some.mp moved
    exact ⟨forall_snoc sound.fits asks, sound.notLost⟩
  case ask i ok =>
    split at moved
    case h_1 identity request here =>
        cases moved
        have asks : Fits codec st.row (.asking identity request) :=
          sound.fits _ (mem_of_getElem? here)
        exact ⟨forall_set sound.fits asks, sound.notLost⟩
    case h_2 => cases moved
  case compose i seen =>
    split at moved
    case h_1 identity request pending here =>
        cases moved
        exact ⟨forall_set sound.fits (sound.compose here undisturbed), sound.notLost⟩
    case h_2 => cases moved
  case write i complete =>
    split at moved
    case h_1 request d here =>
        cases moved
        exact ⟨forall_set sound.fits (sound.write here undisturbed), sound.notLost⟩
    case h_2 => cases moved
  case clear i ok =>
    split at moved
    case h_1 delivered here =>
        cases moved
        exact sound.clear here
    case h_2 => cases moved
end Sound

def idle (row : Row) (registry : Option User) : State ω δ where
  row := row
  registry := registry
  fetches := []
  clears := []

/-- In every undisturbed run the flag is cleared only after a body with the current text has been
written in full. -/
theorem pending_notice_not_lost [DecidableEq δ] (codec : Codec ω δ) (site : Site) (row : Row)
    (registry : Option User) (ls : List (Label δ)) (t : State ω δ)
    (undisturbed : Meets (step codec site) (Undisturbed codec site) (idle row registry) ls)
    (arrive : run (step codec site) (idle row registry) ls = some t) : NotLost t := by
  have initial : Sound codec (idle row registry : State ω δ) :=
    ⟨fun _ member => absurd member not_mem_nil, fun _ member => absurd member not_mem_nil⟩
  have sound : Sound codec t := invariant_of_meets Sound.step initial undisturbed arrive
  exact sound.notLost

def userWithText (text : Text) : User where
  poolSize := 0
  notificationText := text
  expiresAt := 0
  overQuota := false
  turnProfilePending := false
  turnRoomLink := []
  turnRoomHash := []
  turnProfileVersion := 0

def oneFetch (complete : Bool) : List (Label CoverConfigBundle) :=
  [.fetch ⟨['u'], false⟩ ⟨.connect, none⟩, .ask 0 true, .compose 0 sampleSeen,
    .write 0 complete, .clear 0 true]

theorem pending_notice_not_lost_refreshed :
    ∃ t, run (step plainCodec sampleSite) (idle ⟨[], false⟩ (some (userWithText [])))
        ([.panel ['a'], .refresh (some (userWithText []))] ++ oneFetch true) = some t ∧
      t.clears.length = 1 ∧ t.row.pending = false ∧ NotLost t := by
  refine Machine.Runs.exists_some_of (P := fun t => t.clears.length = 1 ∧ t.row.pending = false)
    (by decide +kernel) fun t arrive ⟨once, cleared⟩ => ?_
  exact ⟨once, cleared, pending_notice_not_lost plainCodec sampleSite _ _ _ t
    (by decide +kernel) arrive⟩

/-- The flag is cleared after a write that failed, and after a body with the text of a registry
that has not been refreshed. -/
theorem cleared_without_delivery :
    (∃ t, run (step plainCodec sampleSite) (idle ⟨['a'], true⟩ (some (userWithText ['a'])))
        (oneFetch false) = some t ∧
      t.row.pending = false ∧ t.clears = [⟨none, ['a']⟩]) ∧
    ∃ t, run (step plainCodec sampleSite) (idle ⟨['a'], false⟩ (some (userWithText ['a'])))
        (.panel ['b'] :: oneFetch true) = some t ∧
      t.row.pending = false ∧ t.clears = [⟨some (operatorNotice ['a']), ['b']⟩] := by decide +kernel
end PendingNotice
end Tamizdat.Server
