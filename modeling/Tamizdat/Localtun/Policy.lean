/- source: internal/localtun/policy.go
   digest: The rules of a local user, compiled for the classifier. -/

import Tamizdat.Routing.Rules
import Tamizdat.Machine.Runs

set_option autoImplicit false

open List
namespace Tamizdat.Localtun
open Machine Machine.Prefixes Routing
def maxChinaDNSGroups : Nat := 6
def maxStaticPrefixesPerRule : Nat := 4096

structure Loaded where
  priority : Int
  outboundTag : Text
  criteria : Match

structure Snapshot where
  rules : List Loaded
  geoDB : Option GeoDB

inductive IngressAction
  | direct | tunnel | block
deriving DecidableEq

structure IngressRule where
  index : Nat := 0
  action : IngressAction
  ipv4 : List Prefix := []
  ipv6 : List Prefix := []
  domains : List Text := []
  source4 : List Prefix := []
  source6 : List Prefix := []
  network : Text := []
  ports : List PortRange := []
deriving DecidableEq

structure IngressPolicy where
  rules : List IngressRule := []
  dynamicGroups : Nat := 0
  tunnelTag : Text := []
deriving DecidableEq

inductive FieldError
  | network (spec : Text)
  | portRange (part : Text)
  | emptyPort
  | source (raw : Text)
  | ip (raw : Text)
  | noGeodata (name : Text)
  | geoNotFound (name : Text)
  | noCompatibleDomains (name : Text)
  | domainType (raw left : Text)
  | domainSuffix (raw : Text)
  | combinesCategories
  | tooManyPrefixes (n : Nat)
deriving DecidableEq

inductive PolicyError
  | noOutbound (priority : Int)
  | unexpectedOutbound (priority : Int) (tag : Text)
  | multipleTunnels (selected tag : Text)
  | field (priority : Int) (cause : FieldError)
  | tooManyGroups (needed : Nat)
deriving DecidableEq

section
variable (std : Stdlib)
def listAllows (values : List Text) (wanted : Text) : Bool :=
  values = [] || values.any fun value => std.equalFold (trimSpace value) wanted

def applies (m : Match) (userName : Text) : Bool :=
  listAllows std m.user userName && listAllows std m.inboundTag "local-tun".toList

def geoToken (raw kind : Text) : Option Text :=
  match Text.cut ':' (trimSpace raw) with
  | none => none
  | some (left, right) =>
    if std.equalFold (trimSpace left) kind = false then none
    else if trimSpace right = [] then none
    else some (trimSpace right)

def parseIngressPart (part : Text) : Option PortRange :=
  let range := match Text.cut '-' part with
    | some (left, right) =>
      (atoi (trimSpace left)).bind fun lo => (atoi (trimSpace right)).map fun hi => (lo, hi)
    | none => (atoi part).map fun lo => (lo, lo)
  range.bind fun (lo, hi) => if lo < 1 ∨ 65535 < hi ∨ hi < lo then none else some ⟨lo, hi⟩

variable (raw : Text)
def parseIngressPorts : Except FieldError (List PortRange) :=
  if trimSpace raw = [] then .ok []
  else do
    let parts := (((trimSpace raw).splitOn ',').map trimSpace).filter (· ≠ [])
    let out ← parts.mapM fun part =>
      match parseIngressPart part with
      | some range => .ok range
      | none => .error (.portRange part)
    if out = [] then .error .emptyPort else .ok out

def parseIngressPrefix : Option Prefix :=
  if '/' ∉ trimSpace raw then
    (std.parseAddr (trimSpace raw)).map fun addr => ⟨addr, if addr.is4 then 32 else 128⟩
  else (std.parsePrefix (trimSpace raw)).map Prefix.masked

def prefixBefore (left right : Prefix) : Prop :=
  if left.addr.bitLen ≠ right.addr.bitLen then left.addr.bitLen < right.addr.bitLen
  else if left.addr.value ≠ right.addr.value then left.addr.value < right.addr.value
  else left.bits ≤ right.bits
deriving Decidable

def covers (prior candidate : Prefix) : Bool :=
  prior.addr.bitLen = candidate.addr.bitLen && prior.bits ≤ candidate.bits &&
    prior.contains candidate.addr

def normalizeIngressPrefixes (values : List Prefix) : List Prefix :=
  if values.length < 2 then values
  else dropCovered covers ((values.map Prefix.masked).insertionSort prefixBefore)

def forbidden : List Char :=
  [' ', '\t', '\r', '\n', '/', '\\', '[', ']', '(', ')', '^', '$', '*', '+', '?', '\x7b', '\x7d',
    '|']

/-- `normalizeIngressDomain`; the empty text stands for an unusable domain. -/
def normalizeIngressDomain : Text :=
  let value := Text.trimSuffix ['.'] (std.toLower (trimSpace raw))
  if value = [] ∨ 253 < (value.map Char.utf8Size).sum ∨ value.any (forbidden.contains ·) then []
  else value

/-- The text in which `ingressDomain` looks for a domain, or the type that it refuses. -/
def ingressPattern : Except FieldError Text :=
  match Text.cut ':' (trimSpace raw) with
  | none => .ok (trimSpace raw)
  | some (left, right) =>
    let typ := std.toLower (trimSpace left)
    if typ = "domain".toList ∨ typ = "full".toList then .ok right
    else if typ = "regexp".toList ∨ typ = "regex".toList ∨ typ = "keyword".toList then
      .error (.domainType raw left)
    else .ok (trimSpace raw)

def ingressDomain : Except FieldError Text := do
  let pattern ← ingressPattern std raw
  if normalizeIngressDomain std pattern = [] then .error (.domainSuffix raw)
  else .ok (normalizeIngressDomain std pattern)
end
namespace IngressRule
variable (rule : IngressRule)
def addPrefix (p : Prefix) : IngressRule :=
  if p.addr.is4 then { rule with ipv4 := rule.ipv4 ++ [p] }
  else { rule with ipv6 := rule.ipv6 ++ [p] }

def addSource (p : Prefix) : IngressRule :=
  if p.addr.is4 then { rule with source4 := rule.source4 ++ [p] }
  else { rule with source6 := rule.source6 ++ [p] }

def addDomain (domain : Text) : IngressRule :=
  if domain ∈ rule.domains then rule else { rule with domains := rule.domains ++ [domain] }

def normalized : IngressRule :=
  { rule with
    ipv4 := normalizeIngressPrefixes rule.ipv4
    ipv6 := normalizeIngressPrefixes rule.ipv6
    source4 := normalizeIngressPrefixes rule.source4
    source6 := normalizeIngressPrefixes rule.source6 }
end IngressRule
variable (std : Stdlib)
variable (db : Option GeoDB)
section
variable (rule : IngressRule)
def appendGeoPrefixes (name : Text) : Except FieldError IngressRule :=
  match db with
  | none => .error (.noGeodata name)
  | some db =>
    if db.geoIPCIDRs name = [] then .error (.geoNotFound name)
    else .ok ((db.geoIPCIDRs name).foldl (fun rule p => rule.addPrefix p.masked) rule)

def geositeDomain (raw : DomainRule) : Option Text :=
  let typ := std.toLower (trimSpace raw.type)
  let value := normalizeIngressDomain std raw.value
  if typ = "regex".toList ∨ typ = "regexp".toList then none
  else if value = [] then none
  else if typ = "plain".toList ∧ '.' ∉ value then none
  else some value

def appendGeoDomains (name : Text) : Except FieldError IngressRule :=
  match db with
  | none => .error (.noGeodata name)
  | some db =>
    if db.geoSiteDomainRules name = [] then .error (.geoNotFound name)
    else
      let after := ((db.geoSiteDomainRules name).filterMap (geositeDomain std)).foldl
        IngressRule.addDomain rule
      if after.domains.length = rule.domains.length then .error (.noCompatibleDomains name)
      else .ok after

def ingressNetwork (m : Match) : Except FieldError Text :=
  let network := std.toLower (trimSpace m.network)
  if network = [] ∨ network ∈ networks then .ok network else .error (.network m.network)

def appendSource (raw : Text) : Except FieldError IngressRule :=
  match parseIngressPrefix std raw with
  | some p => .ok (rule.addSource p)
  | none => .error (.source raw)

def appendIP (raw : Text) : Except FieldError IngressRule :=
  match geoToken std raw "geoip".toList with
  | some name => appendGeoPrefixes db rule name
  | none =>
    match parseIngressPrefix std raw with
    | some p => .ok (rule.addPrefix p)
    | none => .error (.ip raw)

def appendDomain (raw : Text) : Except FieldError IngressRule :=
  match geoToken std raw "geosite".toList with
  | some name => appendGeoDomains std db rule name
  | none =>
    match geoToken std raw "geoip".toList with
    | some name => appendGeoPrefixes db rule name
    | none => do
        let domain ← ingressDomain std raw
        return rule.addDomain domain
end

/-- The body of the loop of `buildIngressPolicy`, up to the normalization of the prefix lists. -/
def gatherIngressRule (index : Nat) (action : IngressAction) (m : Match) :
    Except FieldError IngressRule := do
  let network ← ingressNetwork std m
  let ports ← parseIngressPorts m.port
  let rule : IngressRule := { index := index, action := action, network := network, ports := ports }
  let rule ← m.source.foldlM (appendSource std) rule
  let rule ← m.geoIP.foldlM (appendGeoPrefixes db) rule
  let rule ← m.ip.foldlM (appendIP std db) rule
  let rule ← m.geosite.foldlM (appendGeoDomains std db) rule
  m.domain.foldlM (appendDomain std db) rule

def compileIngressRule (index : Nat) (action : IngressAction) (m : Match) :
    Except FieldError IngressRule := do
  let rule := (← gatherIngressRule std db index action m).normalized
  if rule.domains ≠ [] ∧ 0 < rule.ipv4.length + rule.ipv6.length then .error .combinesCategories
  else if maxStaticPrefixesPerRule < rule.ipv4.length + rule.ipv6.length then
    .error (.tooManyPrefixes (rule.ipv4.length + rule.ipv6.length))
  else .ok rule

def mergeableDomainRules (a b : IngressRule) : Bool :=
  a.domains ≠ [] && b.domains ≠ [] && a.ipv4.length + a.ipv6.length = 0 &&
    b.ipv4.length + b.ipv6.length = 0 && a.action = b.action && a.network = b.network &&
    a.ports = b.ports && a.source4 = b.source4 && a.source6 = b.source6

def appendUniqueDomains (dst src : List Text) : List Text :=
  src.foldl (fun dst domain => if domain ∈ dst then dst else dst ++ [domain]) dst

def appendRule (out : IngressPolicy) (rule : IngressRule) : Except PolicyError IngressPolicy :=
  match out.rules.getLast? with
  | some previous =>
    if mergeableDomainRules previous rule then
      .ok { out with
        rules := out.rules.dropLast ++
          [{ previous with domains := appendUniqueDomains previous.domains rule.domains }] }
    else joinRule out rule
  | none => joinRule out rule
where
  joinRule (out : IngressPolicy) (rule : IngressRule) : Except PolicyError IngressPolicy :=
    if rule.domains = [] then .ok { out with rules := out.rules ++ [rule] }
    else if maxChinaDNSGroups < out.dynamicGroups + 1 then
      .error (.tooManyGroups (out.dynamicGroups + 1))
    else .ok { out with rules := out.rules ++ [rule], dynamicGroups := out.dynamicGroups + 1 }

def selectTunnel (userName selected : Text) (loaded : Loaded) : Except PolicyError Text :=
  let tag := trimSpace loaded.outboundTag
  if applies std loaded.criteria userName = false then .ok selected
  else if tag = [] then .error (.noOutbound loaded.priority)
  else if tag = "direct".toList ∨ tag = "block".toList then .ok selected
  else if selected = [] then .ok tag
  else if selected ≠ tag then .error (.multipleTunnels selected tag)
  else .ok selected

def localTunnelOutbound (snap : Option Snapshot) (userName : Text) : Except PolicyError Text :=
  match snap with
  | none => .ok []
  | some snap => snap.rules.foldlM (selectTunnel std (trimSpace userName)) []

def ingressAction (tunnelTag : Text) (loaded : Loaded) : Except PolicyError IngressAction :=
  let tag := trimSpace loaded.outboundTag
  if tag = "direct".toList then .ok .direct
  else if tag = "block".toList then .ok .block
  else if tag = [] then .error (.noOutbound loaded.priority)
  else if tag ≠ tunnelTag then .error (.unexpectedOutbound loaded.priority tag)
  else .ok .tunnel

def addLoaded (userName : Text) (out : IngressPolicy) (loaded : Loaded) :
    Except PolicyError IngressPolicy :=
  if applies std loaded.criteria userName = false then .ok out
  else do
    let action ← ingressAction out.tunnelTag loaded
    match compileIngressRule std db out.rules.length action loaded.criteria with
    | .error cause => .error (.field loaded.priority cause)
    | .ok rule => appendRule out rule

def buildIngressPolicy (snap : Option Snapshot) (userName : Text) :
    Except PolicyError IngressPolicy :=
  match snap with
  | none => .ok {}
  | some snap =>
    if snap.rules = [] then .ok {}
    else do
      let tunnelTag ← localTunnelOutbound std (some snap) (trimSpace userName)
      snap.rules.foldlM (addLoaded std snap.geoDB (trimSpace userName)) { tunnelTag := tunnelTag }

open Machine.Folds

structure IngressRule.Separated (rule : IngressRule) : Prop where
  ipv4 : ∀ p ∈ rule.ipv4, p.addr.is4 = true
  ipv6 : ∀ p ∈ rule.ipv6, p.addr.is4 = false
  source4 : ∀ p ∈ rule.source4, p.addr.is4 = true
  source6 : ∀ p ∈ rule.source6, p.addr.is4 = false

structure IngressRule.Formed (rule : IngressRule) : Prop where
  separated : rule.Separated
  exclusive : rule.domains ≠ [] → rule.ipv4 = [] ∧ rule.ipv6 = []
  network : rule.network = [] ∨ rule.network ∈ networks

variable {values : List Prefix}
lemma mem_normalizeIngressPrefixes {p} (member : p ∈ normalizeIngressPrefixes values) :
    ∃ q ∈ values, p = q ∨ p = q.masked := by
  unfold normalizeIngressPrefixes at member
  split_ifs at member
  · exact ⟨p, member, .inl rfl⟩
  · have sorted := (dropCovered_sublist covers _).subset member
    rw [mem_insertionSort] at sorted
    obtain ⟨q, given, rfl⟩ := mem_map.mp sorted
    exact ⟨q, given, .inr rfl⟩

lemma any_normalizeIngressPrefixes (values : List Prefix) (a : Addr) :
    (normalizeIngressPrefixes values).any (·.contains a) = values.any (·.contains a) := by
  unfold normalizeIngressPrefixes
  split_ifs
  · rfl
  · rw [any_dropCovered]
    · rw [Bool.eq_iff_iff]
      simp [any_eq_true, mem_insertionSort]
    · intro p q above inside
      simp only [covers, Bool.and_eq_true, decide_eq_true_eq] at above
      exact Prefix.contains_of_covers above.1.2 above.2 inside

lemma normalizeIngressPrefixes_eq_nil : normalizeIngressPrefixes values = [] ↔ values = [] := by
  constructor
  · intro empty
    cases values with
    | nil => rfl
    | cons p values =>
      have union := any_normalizeIngressPrefixes (p :: values) p.addr
      rw [empty] at union
      have self : p.contains p.addr = true := Prefix.contains_iff.mpr ⟨rfl, rfl⟩
      simp [self] at union
  · rintro rfl
    rfl

namespace IngressRule.Separated
variable {rule : IngressRule}
lemma empty (index : Nat) (action : IngressAction) (network : Text) (ports : List PortRange) :
    ({ index := index, action := action, network := network, ports := ports } :
      IngressRule).Separated := by
  constructor <;> simp

lemma forall_normalize {four} (all : ∀ p ∈ values, p.addr.is4 = four) :
    ∀ p ∈ normalizeIngressPrefixes values, p.addr.is4 = four := by
  intro p member
  obtain ⟨q, given, rfl | rfl⟩ := mem_normalizeIngressPrefixes member
  · exact all p given
  · rw [Prefix.is4_masked]
    exact all q given

section
variable (separated : rule.Separated)
include separated
lemma addPrefix (p : Prefix) : (rule.addPrefix p).Separated := by
  unfold IngressRule.addPrefix
  split_ifs with four
  · exact { separated with ipv4 := Pool.forall_snoc separated.ipv4 four }
  · exact { separated with ipv6 := Pool.forall_snoc separated.ipv6 (by simpa using four) }

lemma addSource (p : Prefix) : (rule.addSource p).Separated := by
  unfold IngressRule.addSource
  split_ifs with four
  · exact { separated with source4 := Pool.forall_snoc separated.source4 four }
  · exact { separated with source6 := Pool.forall_snoc separated.source6 (by simpa using four) }

lemma addDomain (domain : Text) : (rule.addDomain domain).Separated := by
  unfold IngressRule.addDomain
  split_ifs
  · exact separated
  · exact { separated with }

lemma normalized : rule.normalized.Separated where
  ipv4 := forall_normalize separated.ipv4
  ipv6 := forall_normalize separated.ipv6
  source4 := forall_normalize separated.source4
  source6 := forall_normalize separated.source6
end
end IngressRule.Separated
section
variable {std db} {rule after : IngressRule} {raw : Text}

/-- What every elementary addition to a rule preserves is kept by its criteria's entries. -/
structure Additive (Inv : IngressRule → Prop) : Prop where
  addPrefix : ∀ rule p, Inv rule → Inv (rule.addPrefix p)
  addSource : ∀ rule p, Inv rule → Inv (rule.addSource p)
  addDomain : ∀ rule domain, Inv rule → Inv (rule.addDomain domain)

lemma foldl_kept {α} {Inv : IngressRule → Prop} {f : IngressRule → α → IngressRule}
    (keeps : ∀ rule a, Inv rule → Inv (f rule a)) (l : List α) (start : Inv rule) :
    Inv (l.foldl f rule) := by
  induction l generalizing rule with
  | nil => exact start
  | cons a l ih => exact ih (keeps rule a start)

variable {Inv : IngressRule → Prop} (additive : Additive Inv) (start : Inv rule)
include additive start
lemma Additive.appendGeoPrefixes (done : Localtun.appendGeoPrefixes db rule raw = .ok after) :
    Inv after := by
  unfold Localtun.appendGeoPrefixes at done
  split at done
  · cases done
  · split_ifs at done
    cases done
    exact foldl_kept (fun rule (p : Prefix) => additive.addPrefix rule p.masked) _ start

lemma Additive.appendGeoDomains (done : Localtun.appendGeoDomains std db rule raw = .ok after) :
    Inv after := by
  unfold Localtun.appendGeoDomains at done
  split at done
  · cases done
  · dsimp only at done
    split_ifs at done
    cases done
    exact foldl_kept additive.addDomain _ start

lemma Additive.appendSource (done : Localtun.appendSource std rule raw = .ok after) :
    Inv after := by
  unfold Localtun.appendSource at done
  split at done
  · cases done
    exact additive.addSource rule _ start
  · cases done

lemma Additive.appendIP (done : Localtun.appendIP std db rule raw = .ok after) : Inv after := by
  unfold Localtun.appendIP at done
  split at done
  · exact additive.appendGeoPrefixes start done
  · split at done
    · cases done
      exact additive.addPrefix rule _ start
    · cases done

lemma Additive.appendDomain (done : Localtun.appendDomain std db rule raw = .ok after) :
    Inv after := by
  unfold Localtun.appendDomain at done
  split at done
  · exact additive.appendGeoDomains start done
  · split at done
    · exact additive.appendGeoPrefixes start done
    · obtain ⟨domain, -, added⟩ := bind_eq_ok.mp done
      cases added
      exact additive.addDomain rule domain start
end
section
variable {std db} {index : Nat} {action : IngressAction} {m : Match}
  {rule : IngressRule}

lemma gatherIngressRule_ok (done : gatherIngressRule std db index action m = .ok rule) :
    ∃ network ports sourced geoPrefixed prefixed geoNamed,
      ingressNetwork std m = .ok network ∧ parseIngressPorts m.port = .ok ports ∧
      m.source.foldlM (appendSource std)
        { index := index, action := action, network := network, ports := ports } = .ok sourced ∧
      m.geoIP.foldlM (appendGeoPrefixes db) sourced = .ok geoPrefixed ∧
      m.ip.foldlM (appendIP std db) geoPrefixed = .ok prefixed ∧
      m.geosite.foldlM (appendGeoDomains std db) prefixed = .ok geoNamed ∧
      m.domain.foldlM (appendDomain std db) geoNamed = .ok rule := by
  obtain ⟨network, first, done⟩ := bind_eq_ok.mp done
  obtain ⟨ports, second, done⟩ := bind_eq_ok.mp done
  obtain ⟨sourced, third, done⟩ := bind_eq_ok.mp done
  obtain ⟨geoPrefixed, fourth, done⟩ := bind_eq_ok.mp done
  obtain ⟨prefixed, fifth, done⟩ := bind_eq_ok.mp done
  obtain ⟨geoNamed, sixth, seventh⟩ := bind_eq_ok.mp done
  exact ⟨network, ports, sourced, geoPrefixed, prefixed, geoNamed, first, second, third, fourth,
    fifth, sixth, seventh⟩

lemma compileIngressRule_ok (done : compileIngressRule std db index action m = .ok rule) :
    ∃ named, gatherIngressRule std db index action m = .ok named ∧ rule = named.normalized ∧
      ¬ (rule.domains ≠ [] ∧ 0 < rule.ipv4.length + rule.ipv6.length) := by
  obtain ⟨named, gathered, done⟩ := bind_eq_ok.mp done
  dsimp only at done
  split_ifs at done with combines
  cases done
  exact ⟨named, gathered, rfl, combines⟩

lemma Additive.compileIngressRule {Inv : IngressRule → Prop} (additive : Additive Inv)
    (start : ∀ network ports, ingressNetwork std m = .ok network →
      parseIngressPorts m.port = .ok ports →
      Inv { index := index, action := action, network := network, ports := ports })
    (done : Localtun.compileIngressRule std db index action m = .ok rule) :
    ∃ named, Inv named ∧ rule = named.normalized := by
  obtain ⟨named, gathered, same, -⟩ := compileIngressRule_ok done
  obtain ⟨network, ports, sourced, geoPrefixed, prefixed, geoNamed, known, parsed, third, fourth,
    fifth, sixth, seventh⟩ := gatherIngressRule_ok gathered
  have bare := start network ports known parsed
  have withSources := foldlM_invariant additive.appendSource bare third
  have withGeo := foldlM_invariant additive.appendGeoPrefixes withSources fourth
  have withIPs := foldlM_invariant additive.appendIP withGeo fifth
  have withSites := foldlM_invariant additive.appendGeoDomains withIPs sixth
  have withDomains := foldlM_invariant additive.appendDomain withSites seventh
  exact ⟨named, withDomains, same⟩

lemma separated_additive : Additive IngressRule.Separated where
  addPrefix := fun _ p separated => separated.addPrefix p
  addSource := fun _ p separated => separated.addSource p
  addDomain := fun _ domain separated => separated.addDomain domain

lemma framed_additive (index : Nat) (action : IngressAction) (network : Text)
    (ports : List PortRange) :
    Additive fun rule => rule.index = index ∧ rule.action = action ∧ rule.network = network ∧
      rule.ports = ports := by
  constructor
  · intro rule p frame
    unfold IngressRule.addPrefix
    split_ifs <;> exact frame
  · intro rule p frame
    unfold IngressRule.addSource
    split_ifs <;> exact frame
  · intro rule domain frame
    unfold IngressRule.addDomain
    split_ifs <;> exact frame

variable (done : compileIngressRule std db index action m = .ok rule)
include done
lemma framed_compileIngressRule :
    rule.index = index ∧ rule.action = action ∧ ingressNetwork std m = .ok rule.network ∧
      parseIngressPorts m.port = .ok rule.ports := by
  obtain ⟨_, gathered, -⟩ := compileIngressRule_ok done
  obtain ⟨network, ports, _, _, _, _, known, parsed, -⟩ := gatherIngressRule_ok gathered
  have start : ∀ network' ports', ingressNetwork std m = .ok network' →
      parseIngressPorts m.port = .ok ports' →
      ({ index := index, action := action, network := network', ports := ports' } :
        IngressRule).index = index ∧ action = action ∧ network' = network ∧ ports' = ports := by
    intro network' ports' known' parsed'
    rw [known] at known'
    rw [parsed] at parsed'
    cases known'
    cases parsed'
    exact ⟨rfl, rfl, rfl, rfl⟩
  obtain ⟨named, frame, rfl⟩ :=
    (framed_additive index action network ports).compileIngressRule start done
  refine ⟨frame.1, frame.2.1, ?_, ?_⟩
  · exact known.trans (congrArg _ frame.2.2.1.symm)
  · exact parsed.trans (congrArg _ frame.2.2.2.symm)

lemma formed_compileIngressRule : rule.index = index ∧ rule.action = action ∧ rule.Formed := by
  obtain ⟨placed, acts, known, -⟩ := framed_compileIngressRule done
  obtain ⟨named, separated, same⟩ := separated_additive.compileIngressRule
    (fun network ports _ _ => IngressRule.Separated.empty index action network ports) done
  obtain ⟨_, -, -, alone⟩ := compileIngressRule_ok done
  refine ⟨placed, acts, ?_, ?_, ?_⟩
  · rw [same]
    exact separated.normalized
  · intro named
    rw [not_and] at alone
    have none := alone named
    exact ⟨length_eq_zero_iff.mp (by omega), length_eq_zero_iff.mp (by omega)⟩
  · dsimp only [ingressNetwork] at known
    split_ifs at known with listed
    exact Except.ok.inj known ▸ listed
end

def IngressPolicy.Formed (policy : IngressPolicy) : Prop :=
  ∀ (i : Nat) (rule : IngressRule), policy.rules[i]? = some rule → rule.index = i ∧ rule.Formed

variable {std} {out policy : IngressPolicy} {rule : IngressRule}
lemma formed_concat {front : List IngressRule} (whole : policy.rules = front ++ [rule]) :
    policy.Formed ↔ (∀ (i : Nat) (other : IngressRule), front[i]? = some other →
      other.index = i ∧ other.Formed) ∧ rule.index = front.length ∧ rule.Formed := by
  unfold IngressPolicy.Formed
  rw [whole]
  constructor
  · intro formed
    refine ⟨fun i other here => formed i other ?_, formed _ _ getElem?_concat_length⟩
    exact (getElem?_append_left (List.getElem?_eq_some_iff.mp here).1).trans here
  · rintro ⟨before, last⟩ i other here
    rw [getElem?_append] at here
    split_ifs at here with old
    · exact before i other here
    · rw [getElem?_singleton] at here
      split_ifs at here with zero
      cases here
      exact (by omega : front.length = i) ▸ last

lemma appendRule_ok (done : appendRule out rule = .ok policy) :
    (∃ front previous, out.rules = front ++ [previous] ∧
      mergeableDomainRules previous rule = true ∧ policy = { out with
        rules := front ++
          [{ previous with domains := appendUniqueDomains previous.domains rule.domains }] }) ∨
      ∃ groups, policy = { out with rules := out.rules ++ [rule], dynamicGroups := groups } ∧
        (rule.domains = [] ∧ groups = out.dynamicGroups ∨
          rule.domains ≠ [] ∧ groups = out.dynamicGroups + 1 ∧ groups ≤ maxChinaDNSGroups) := by
  unfold appendRule at done
  by_cases merges : ∃ previous ∈ out.rules.getLast?, mergeableDomainRules previous rule = true
  · obtain ⟨previous, last, merges⟩ := merges
    rw [last] at done
    simp only [merges, if_true] at done
    cases done
    obtain ⟨front, whole⟩ := getLast?_eq_some_iff.mp last
    exact .inl ⟨front, previous, whole, merges, by rw [whole, dropLast_concat]⟩
  · have joined : appendRule.joinRule out rule = .ok policy := by
      split at done <;> simp_all
    unfold appendRule.joinRule at joined
    split_ifs at joined with unnamed full <;> cases joined
    · exact .inr ⟨_, rfl, .inl ⟨unnamed, rfl⟩⟩
    · exact .inr ⟨_, rfl, .inr ⟨unnamed, rfl, not_lt.mp full⟩⟩

lemma formed_appendRule (formed : out.Formed) (placed : rule.index = out.rules.length)
    (shaped : rule.Formed) (done : appendRule out rule = .ok policy) : policy.Formed := by
  obtain ⟨front, previous, whole, merges, rfl⟩ | ⟨groups, rfl, -⟩ := appendRule_ok done
  · obtain ⟨before, index, old⟩ := (formed_concat whole).mp formed
    simp only [mergeableDomainRules, Bool.and_eq_true, decide_eq_true_eq] at merges
    have none : previous.ipv4 = [] ∧ previous.ipv6 = [] :=
      ⟨length_eq_zero_iff.mp (by omega), length_eq_zero_iff.mp (by omega)⟩
    refine (formed_concat rfl).mpr ?_
    exact ⟨before, index, { old.separated with }, fun _ => none, old.network⟩
  · exact (formed_concat rfl).mpr ⟨formed, placed, shaped⟩

variable {db : Option GeoDB}
variable {userName : Text}
lemma addLoaded_ok {loaded} (done : addLoaded std db userName out loaded = .ok policy) :
    (applies std loaded.criteria userName = false ∧ policy = out) ∨
      (applies std loaded.criteria userName = true ∧ ∃ action rule,
        ingressAction out.tunnelTag loaded = .ok action ∧
        compileIngressRule std db out.rules.length action loaded.criteria = .ok rule ∧
        appendRule out rule = .ok policy) := by
  unfold addLoaded at done
  split_ifs at done with skipped
  · cases done
    exact .inl ⟨skipped, rfl⟩
  · obtain ⟨action, acts, done⟩ := bind_eq_ok.mp done
    split at done
    · cases done
    · next rule compiled => exact .inr ⟨by simpa using skipped, action, rule, acts, compiled, done⟩

lemma buildIngressPolicy_ok {snap}
    (built : buildIngressPolicy std (some snap) userName = .ok policy) :
    ∃ tag, snap.rules.foldlM (addLoaded std snap.geoDB (trimSpace userName))
      { tunnelTag := tag } = .ok policy := by
  dsimp only [buildIngressPolicy] at built
  split_ifs at built with empty
  · cases built
    exact ⟨[], by rw [empty]; rfl⟩
  · obtain ⟨tag, -, folded⟩ := bind_eq_ok.mp built
    exact ⟨tag, folded⟩

lemma formed_addLoaded {loaded} (formed : out.Formed)
    (done : addLoaded std db userName out loaded = .ok policy) : policy.Formed := by
  obtain ⟨-, rfl⟩ | ⟨-, action, rule, -, compiled, appended⟩ := addLoaded_ok done
  · exact formed
  · obtain ⟨placed, -, shaped⟩ := formed_compileIngressRule compiled
    exact formed_appendRule formed placed shaped appended

lemma formed_buildIngressPolicy {snap} (built : buildIngressPolicy std snap userName = .ok policy) :
    policy.Formed := by
  have empty : ∀ tag, IngressPolicy.Formed { tunnelTag := tag } := by
    intro tag i rule here
    simp at here
  cases snap with
  | none =>
    cases built
    exact empty []
  | some snap =>
    obtain ⟨tag, folded⟩ := buildIngressPolicy_ok built
    exact foldlM_invariant formed_addLoaded (empty tag) folded
end Tamizdat.Localtun
