/- source: pkg/tamizdat/cover_config.go
   digest: The config bundle and its entity tag. -/

import Tamizdat.Routing.Rules

set_option autoImplicit false

namespace Tamizdat.CoverConfig
open Routing (Text trimSpace atoi)

structure SNIEntry where
  sni : Text
  weight : Int
deriving DecidableEq

structure FingerprintEntry where
  id : Text
  weight : Int
deriving DecidableEq

structure NotificationEntry where
  code : Text
  title : Text
  body : Text
  locale : Text
deriving DecidableEq

structure TURNCredsEntry where
  username : Text
  password : Text
  urls : List Text
  lifetime : Int
deriving DecidableEq

structure TURNProfileEntry where
  version : Int
  provider : Text
  roomLink : Text
  roomHash : Text
  wgturnPort : Int
deriving DecidableEq

/-- A nil slice and an empty one have the same wire form and are not told apart. -/
structure CoverConfigBundle where
  version : Int := 0
  ttlSeconds : Int := 0
  expiresAt : Int := 0
  sniPool : List SNIEntry := []
  fingerprintPool : List FingerprintEntry := []
  coverTargets : List Text := []
  coverGapMinMS : Int := 0
  coverGapMaxMS : Int := 0
  poolVariant : Text := []
  minTransports : Int := 0
  maxTransports : Int := 0
  notification : Option NotificationEntry := none
  turnCreds : Option TURNCredsEntry := none
  turnProfile : Option TURNProfileEntry := none
deriving DecidableEq

def CoverConfigBundle.content (b : CoverConfigBundle) : CoverConfigBundle :=
  { b with expiresAt := 0 }

def CoverConfigBundle.withExpiry (b : CoverConfigBundle) (now : Int) : CoverConfigBundle :=
  if 0 < b.ttlSeconds then { b with expiresAt := now + b.ttlSeconds } else b

/-- `"disabled"`, or a quoted hash. Neither is empty or changed by `strings.TrimSpace`, so a
missing tag is the only blank one. -/
inductive ETag (δ : Type)
  | disabled
  | hash (d : δ)
deriving DecidableEq

/-- What stays open: `encoding/json`, the hash of `ETag` and `net.SplitHostPort`. -/
structure Codec (ω δ : Type) where
  marshal : CoverConfigBundle → ω
  unmarshal : ω → Option CoverConfigBundle
  size : ω → Nat
  digest : ω → δ
  splitHostPort : Text → Option (Text × Text)
  unmarshal_marshal : ∀ b, unmarshal (marshal b) = some b
  size_marshal : ∀ b, 0 < size (marshal b)

variable {ω δ : Type}
def maxCoverConfigBundleBytes : Nat := 8192

namespace Codec
variable (codec : Codec ω δ)
section
variable (b : CoverConfigBundle)
def etag : ETag δ := .hash (codec.digest (codec.marshal b.content))

def marshalForWire : Option ω :=
  if codec.size (codec.marshal b) ≤ maxCoverConfigBundleBytes then some (codec.marshal b) else none

def marshalForWireWithExpiry (now : Int) : Option ω := codec.marshalForWire (b.withExpiry now)
end

def TagsDiffer : Prop := ∀ a b, codec.etag a = codec.etag b → a.content = b.content

lemma unmarshal_of_marshalForWire {b wire} (sent : codec.marshalForWire b = some wire) :
    codec.unmarshal wire = some b := by
  simp only [marshalForWire, Option.ite_some_none_eq_some] at sent
  rw [← sent.2]
  exact codec.unmarshal_marshal b
end Codec
variable (b : CoverConfigBundle)

@[simp] lemma withExpiry_turnCreds (now : Int) : (b.withExpiry now).turnCreds = b.turnCreds := by
  unfold CoverConfigBundle.withExpiry
  split <;> rfl

inductive Invalid
  | version (found : Int)
  | coverTarget (target : Text)
  | coverGapMin (found : Int)
  | coverGapMax (found : Int)
  | coverGapOrder
  | ttlNegative (found : Int)
  | ttlRange (found : Int)
  | minTransports (found : Int)
  | maxTransports (found : Int)
  | transportsOrder | fingerprintId
  | fingerprintWeight (id : Text) (found : Int)
  | notificationCode | profileVersion | profileProvider | profileRoom | profilePort

variable (codec : Codec ω δ)
def validHostPort (s : Text) : Bool :=
  match codec.splitHostPort s with
  | none => false
  | some (host, port) =>
    host ≠ [] && match atoi port with
      | none => false
      | some p => 1 ≤ p && p ≤ 65535

def validateFingerprint (fp : FingerprintEntry) : Except Invalid Unit :=
  if trimSpace fp.id = [] then .error .fingerprintId
  else if fp.weight < 0 then .error (.fingerprintWeight fp.id fp.weight)
  else .ok ()

def validateGap : Except Invalid Unit :=
  if b.coverGapMinMS ≠ 0 ∨ b.coverGapMaxMS ≠ 0 then
    if b.coverGapMinMS < 1 ∨ 600000 < b.coverGapMinMS then .error (.coverGapMin b.coverGapMinMS)
    else if b.coverGapMaxMS < 1 ∨ 600000 < b.coverGapMaxMS then
      .error (.coverGapMax b.coverGapMaxMS)
    else if b.coverGapMaxMS < b.coverGapMinMS then .error .coverGapOrder
    else .ok ()
  else .ok ()

def validateSizes : Except Invalid Unit :=
  if b.ttlSeconds < 0 then .error (.ttlNegative b.ttlSeconds)
  else if 86400 < b.ttlSeconds then .error (.ttlRange b.ttlSeconds)
  else if b.minTransports < 0 then .error (.minTransports b.minTransports)
  else if b.maxTransports < 0 then .error (.maxTransports b.maxTransports)
  else if 0 < b.minTransports ∧ 0 < b.maxTransports ∧ b.maxTransports < b.minTransports then
    .error .transportsOrder
  else .ok ()

def validateProfile (p : TURNProfileEntry) : Except Invalid Unit :=
  if p.version < 0 then .error .profileVersion
  else if trimSpace p.provider ≠ [] ∧ trimSpace p.provider ≠ "vk".toList ∧
      trimSpace p.provider ≠ "yandex".toList then .error .profileProvider
  else if trimSpace p.roomLink = [] ∧ trimSpace p.roomHash = [] then .error .profileRoom
  else if p.wgturnPort ≠ 0 ∧ (p.wgturnPort < 1 ∨ 65535 < p.wgturnPort) then .error .profilePort
  else .ok ()

def CoverConfigBundle.validate (b : CoverConfigBundle) : Except Invalid Unit := do
  if b.version ≠ 1 then throw (.version b.version)
  b.coverTargets.forM fun target =>
    if validHostPort codec target then pure () else throw (.coverTarget target)
  validateGap b
  validateSizes b
  b.fingerprintPool.forM validateFingerprint
  match b.notification with
  | some n => if trimSpace n.code = [] then throw .notificationCode else pure ()
  | none => pure ()
  match b.turnProfile with
  | some p => validateProfile p
  | none => pure ()

def CoverConfigBundle.valid (b : CoverConfigBundle) : Bool :=
  match b.validate codec with
  | .ok _ => true
  | .error _ => false

def knownFingerprints : List Text :=
  ["chrome_auto", "chrome_131", "chrome_120_pq", "chrome_120", "chrome_115_pq",
    "chrome_106_shuffle", "chrome_100", "firefox_120", "firefox_105", "firefox_102",
    "safari_16_0", "ios_14", "ios_13", "ios_12_1", "edge_106", "edge_85"].map String.toList

def CoverConfigBundle.recognised : List FingerprintEntry :=
  b.fingerprintPool.filter fun e => e.id ∈ knownFingerprints

def plainCodec : Codec CoverConfigBundle CoverConfigBundle where
  marshal := id
  unmarshal := some
  size := fun _ => 1
  digest := id
  splitHostPort := fun _ => none
  unmarshal_marshal := fun _ => rfl
  size_marshal := fun _ => Nat.one_pos

lemma plainCodec_tagsDiffer : plainCodec.TagsDiffer := by
  intro a b same
  exact ETag.hash.inj same
end Tamizdat.CoverConfig
