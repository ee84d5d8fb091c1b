/- source: internal/localtun/policy.go, internal/rulesdb/rulesdb.go, node/rules.go, client.go
   digest: What the kernel reads in the rules, kept by the compiler, and where the node agrees. -/

import Tamizdat.Localtun.Nft

open List Option
namespace Tamizdat.Localtun
open Machine Machine.Prefixes Routing

structure Flow (std : Stdlib) where
  host : Text
  destination : Option Addr
  source : Addr
  network : Network
  port : Int
  /-- The host is the text of the destination, or no address. -/
  spelled : (std.parseIP host).map Addr.unmap = destination.map Addr.unmap

variable {std : Stdlib}
def tagAction (tag : Text) : IngressAction :=
  if trimSpace tag = "direct".toList then .direct
  else if trimSpace tag = "block".toList then .block
  else .tunnel

def IngressRule.namesHost (rule : IngressRule) (name : Text) : Bool :=
  rule.domains.any fun domain => DomainMatcher.suffixMatch domain name

def IngressRule.routes (f : Flow std) (rule : IngressRule) : Bool :=
  rule.allowsService f.network f.port && rule.allowsSource f.source &&
    (!rule.hasDestination ||
      match f.destination with
      | none => rule.namesHost (hostName std f.host)
      | some a => (rule.ipv4 ++ rule.ipv6).any (·.contains a))

def IngressPolicy.route (policy : IngressPolicy) (f : Flow std) : Option IngressAction :=
  (policy.rules.find? (IngressRule.routes f)).map (·.action)

def Flow.request (f : Flow std) (userName : Text) : Request where
  network := f.network.text
  targetHost := f.host
  targetPort := f.port
  sourceIP := some f.source
  inboundTag := "local-tun".toList
  user := userName

/-- `CompileRulesWithGeoDB` over the rules that `BuildWithGeoDB` copies. -/
def compileRules (std : Stdlib) (geo : GeoDB) (rules : List Loaded) :
    Except RuleError (List CompiledRule) :=
  rules.mapM fun loaded => compileRule std geo loaded.criteria loaded.outboundTag

def nodeRoute (compiled : List CompiledRule) (userName : Text) (f : Flow std) :
    Option IngressAction :=
  (compiled.find? fun cr => cr.isMatch std (f.request userName)).map fun cr => tagAction cr.tag

section
variable (f : Flow std) (m : Match)
def serviceReading : Bool :=
  (std.toLower (trimSpace m.network) = [] ||
    networkMatches (std.toLower (trimSpace m.network)) f.network.text) &&
  (parsePortSpec m.port).all fun ranges => portInRanges f.port ranges

/-- The entries of a rule as the kernel reads them: domains with all names under them, addresses
as they stand in the packet. -/
def kernelEntries : Bool :=
  serviceReading f m &&
  (m.source = [] ||
    m.source.any fun raw => (parseIngressPrefix std raw).any (·.contains f.source)) &&
  ((m.domain = [] && m.ip = []) ||
    match f.destination with
    | none => m.domain.any fun raw =>
      (ingressDomain std raw).toOption.any (DomainMatcher.suffixMatch · (hostName std f.host))
    | some a => m.ip.any fun raw => (parseIngressPrefix std raw).any (·.contains a))

/-- A rule as the kernel reads it: names and tags up to blanks and case. -/
def kernelReading (userName : Text) : Bool :=
  applies std m (trimSpace userName) && kernelEntries f m

/-- A rule as the node reads it: names and tags literally, domains by their type, the text of an
address among the domains too, and addresses without their mapping into IPv6. -/
def nodeReading (userName : Text) : Bool :=
  (m.user = [] || m.user.contains userName) &&
  (m.inboundTag = [] || m.inboundTag.contains "local-tun".toList) && serviceReading f m &&
  (m.source = [] || m.source.any fun raw => (parseCIDR std raw).any (·.contains f.source.unmap)) &&
  (m.domain = [] || m.domain.any fun raw =>
    (parseDomainMatcher std raw).any (·.isMatch (hostName std f.host))) &&
  (m.ip = [] || f.destination.any fun a =>
    m.ip.any fun raw => (parseCIDR std raw).any (·.contains a.unmap))

/-- The criteria name no geo lists: neither by their own fields nor as entries. -/
structure NoGeoLists (std : Stdlib) (m : Match) : Prop where
  geoIP : m.geoIP = []
  geosite : m.geosite = []
  ip : ∀ raw ∈ m.ip, geoToken std raw "geoip".toList = none ∧
    geoPrefixValue std raw "geoip".toList = none
  domain : ∀ raw ∈ m.domain, geoToken std raw "geosite".toList = none ∧
    geoToken std raw "geoip".toList = none ∧ geoPrefixValue std raw "geosite".toList = none ∧
    geoPrefixValue std raw "geoip".toList = none

structure NodeAccepts (std : Stdlib) (m : Match) : Prop where
  domain : ∀ raw ∈ m.domain, (parseDomainMatcher std raw).isSome
  ip : ∀ raw ∈ m.ip, (parseCIDR std raw).isSome
  source : ∀ raw ∈ m.source, (parseCIDR std raw).isSome
  port : m.port = [] ∨ (parsePortSpec m.port).isSome
  network : m.network = [] ∨ std.toLower (trimSpace m.network) ∈ networks
end
section
variable (userName : Text) (f : Flow std)
def firstReading (reads : Match → Bool) (rules : List Loaded) : Option IngressAction :=
  (rules.find? fun loaded => reads loaded.criteria).map fun loaded => tagAction loaded.outboundTag

/-- The first rule that matches under either reading matches under both, or the reading that
passes it over comes to the same action later. -/
def Settled : List Loaded → Prop
  | [] => True
  | loaded :: rest =>
    match kernelReading f loaded.criteria userName, nodeReading f loaded.criteria userName with
    | true, true => True
    | false, false => Settled rest
    | true, false =>
      firstReading (nodeReading f · userName) rest = some (tagAction loaded.outboundTag)
    | false, true =>
      firstReading (kernelReading f · userName) rest = some (tagAction loaded.outboundTag)
end
open Machine.Folds
lemma parseIngressPart_eq (part : Text) : parseIngressPart part = parsePortPart part := by
  unfold parseIngressPart parsePortPart
  cases Text.cut '-' part with
  | none =>
    cases atoi part with
    | none => rfl
    | some lo => simp
  | some sides =>
    obtain ⟨left, right⟩ := sides
    cases first : atoi (trimSpace left) with
    | none => simp [first]
    | some lo =>
      cases second : atoi (trimSpace right) with
      | none | some hi => simp [first, second]

lemma parseIngressPorts_ok (parsed : parseIngressPorts raw = .ok ports) (p : Int) :
    (ports = [] || portInRanges p ports) =
      (parsePortSpec raw).all fun ranges => portInRanges p ranges := by
  have comma : Text.isSpace ',' = false := by decide
  have parts : ((trimSpace raw).splitOn ',').map trimSpace = (raw.splitOn ',').map trimSpace :=
    Text.map_trim_splitOn comma raw
  unfold parseIngressPorts at parsed
  unfold parsePortSpec
  split_ifs at parsed with blank
  · cases parsed
    have none : ((raw.splitOn ',').map trimSpace).filter (· ≠ []) = [] := by
      rw [← parts, blank]
      decide
    rw [none]
    rfl
  · obtain ⟨out, read, checked⟩ := bind_eq_ok.mp parsed
    split_ifs at checked with empty
    cases checked
    have same : (((raw.splitOn ',').map trimSpace).filter (· ≠ [])).mapM parsePortPart =
        some ports := by
      rw [← parts]
      apply mapM_some_of_ok _ read
      intro part range accepted
      rw [← parseIngressPart_eq]
      split at accepted
      · next found =>
        cases accepted
        exact found
      · cases accepted
    rw [same]
    cases ports with
    | nil => exact absurd rfl empty
    | cons first rest => simp

variable (ps : List Prefix)
lemma foldl_addSource (rule : IngressRule) : ps.foldl IngressRule.addSource rule = { rule with
        source4 := rule.source4 ++ ps.filter (·.addr.is4)
        source6 := rule.source6 ++ ps.filter (!·.addr.is4) } := by
  induction ps generalizing rule with
  | nil => simp
  | cons p ps ih =>
    rw [foldl_cons, ih]
    cases four : p.addr.is4 <;> simp [IngressRule.addSource, four]

lemma foldl_addPrefix (rule : IngressRule) : ps.foldl IngressRule.addPrefix rule = { rule with
        ipv4 := rule.ipv4 ++ ps.filter (·.addr.is4)
        ipv6 := rule.ipv6 ++ ps.filter (!·.addr.is4) } := by
  induction ps generalizing rule with
  | nil => simp
  | cons p ps ih =>
    rw [foldl_cons, ih]
    cases four : p.addr.is4 <;> simp [IngressRule.addPrefix, four]

lemma foldl_addDomain (domains : List Text) (rule : IngressRule) :
    domains.foldl IngressRule.addDomain rule =
      { rule with domains := appendUniqueDomains rule.domains domains } := by
  induction domains generalizing rule with
  | nil => rfl
  | cons domain domains ih =>
    rw [foldl_cons, ih]
    simp only [appendUniqueDomains, foldl_cons, IngressRule.addDomain]
    split_ifs <;> rfl

lemma any_split_normalized (a : Addr) :
    (normalizeIngressPrefixes (ps.filter (·.addr.is4)) ++
        normalizeIngressPrefixes (ps.filter (!·.addr.is4))).any (·.contains a) =
      ps.any (·.contains a) := by
  rw [any_append, any_normalizeIngressPrefixes, any_normalizeIngressPrefixes]
  induction ps with
  | nil => rfl
  | cons p ps ih =>
    rw [any_cons, ← ih]
    cases four : p.addr.is4 with
    | true => simp [four, Bool.or_assoc]
    | false =>
      simp only [four, filter_cons, Bool.not_false, if_true, Bool.false_eq_true, if_false, any_cons]
      rw [Bool.or_left_comm]

lemma split_normalized_eq_nil :
    (normalizeIngressPrefixes (ps.filter (·.addr.is4)) = [] ∧
      normalizeIngressPrefixes (ps.filter (!·.addr.is4)) = []) ↔ ps = [] := by
  rw [normalizeIngressPrefixes_eq_nil, normalizeIngressPrefixes_eq_nil]
  constructor
  · rintro ⟨none4, none6⟩
    cases ps with
    | nil => rfl
    | cons p ps => cases four : p.addr.is4 <;> simp [four] at none4 none6
  · rintro rfl
    exact ⟨rfl, rfl⟩

lemma any_appendUniqueDomains (dst src : List Text) (q : Text → Bool) :
    (appendUniqueDomains dst src).any q = (dst.any q || src.any q) := by
  induction src generalizing dst with
  | nil => simp [appendUniqueDomains]
  | cons domain src ih =>
    have next : appendUniqueDomains dst (domain :: src) =
        appendUniqueDomains (if domain ∈ dst then dst else dst ++ [domain]) src := rfl
    rw [next, ih, any_cons]
    split_ifs with known
    · cases holds : q domain with
      | false => rfl
      | true =>
        have already : dst.any q = true := List.any_eq_true.mpr ⟨domain, known, holds⟩
        rw [already]
        simp
    · simp [Bool.or_assoc]

lemma appendUniqueDomains_eq_nil (dst src : List Text) :
    appendUniqueDomains dst src = [] ↔ dst = [] ∧ src = [] := by
  have union := any_appendUniqueDomains dst src fun _ => true
  constructor
  · intro empty
    rw [empty] at union
    cases dst <;> cases src <;> simp at union ⊢
  · rintro ⟨rfl, rfl⟩
    rfl

open IngressRule (routes)
section
variable {action : IngressAction} {rule : IngressRule}
variable (done : compileIngressRule std db index action m = .ok rule)
include done
lemma compileIngressRule_entries (plain : NoGeoLists std m) : ∃ sources prefixes domains,
      List.Forall₂ (fun raw p => parseIngressPrefix std raw = some p) m.source sources ∧
      List.Forall₂ (fun raw p => parseIngressPrefix std raw = some p) m.ip prefixes ∧
      List.Forall₂ (fun raw d => (ingressDomain std raw).toOption = some d) m.domain domains ∧
      rule.source4 = normalizeIngressPrefixes (sources.filter (·.addr.is4)) ∧
      rule.source6 = normalizeIngressPrefixes (sources.filter (!·.addr.is4)) ∧
      rule.ipv4 = normalizeIngressPrefixes (prefixes.filter (·.addr.is4)) ∧
      rule.ipv6 = normalizeIngressPrefixes (prefixes.filter (!·.addr.is4)) ∧
      rule.domains = appendUniqueDomains [] domains := by
  obtain ⟨named, gathered, rfl, -⟩ := compileIngressRule_ok done
  obtain ⟨network, ports, sourced, geoPrefixed, prefixed, geoNamed, -, -, third, fourth, fifth,
    sixth, seventh⟩ := gatherIngressRule_ok gathered
  rw [plain.geoIP] at fourth
  rw [plain.geosite] at sixth
  cases fourth
  cases sixth
  obtain ⟨sources, read, rfl⟩ := foldlM_parsed (parseIngressPrefix std) IngressRule.addSource (by
    intro raw _ before after appended
    unfold appendSource at appended
    split at appended
    · next p found =>
      cases appended
      exact ⟨p, found, rfl⟩
    · cases appended) third
  obtain ⟨prefixes, read', rfl⟩ := foldlM_parsed (parseIngressPrefix std) IngressRule.addPrefix (by
    intro raw member before after appended
    unfold appendIP at appended
    rw [(plain.ip raw member).1] at appended
    dsimp only at appended
    split at appended
    · next p found =>
      cases appended
      exact ⟨p, found, rfl⟩
    · cases appended) fifth
  obtain ⟨domains, read'', rfl⟩ := foldlM_parsed
    (fun raw => (ingressDomain std raw).toOption) IngressRule.addDomain (by
    intro raw member before after appended
    unfold appendDomain at appended
    rw [(plain.domain raw member).1, (plain.domain raw member).2.1] at appended
    obtain ⟨domain, found, added⟩ := bind_eq_ok.mp appended
    cases added
    exact ⟨domain, by rw [found]; rfl, rfl⟩) seventh
  refine ⟨sources, prefixes, domains, read, read', read'', ?_⟩
  rw [foldl_addDomain, foldl_addPrefix, foldl_addSource]
  simp [IngressRule.normalized]

lemma allowsService_compileIngressRule (f : Flow std) :
    rule.allowsService f.network f.port = serviceReading f m := by
  obtain ⟨-, -, known, parsed⟩ := framed_compileIngressRule done
  have network : rule.network = std.toLower (trimSpace m.network) := by
    dsimp only [ingressNetwork] at known
    split_ifs at known
    exact (Except.ok.inj known).symm
  rw [IngressRule.allowsService, serviceReading, network, parseIngressPorts_ok parsed]

lemma routes_compileIngressRule (plain : NoGeoLists std m) (f : Flow std) :
    rule.routes f = kernelEntries f m := by
  obtain ⟨sources, prefixes, domains, readSources, readPrefixes, readDomains, source4, source6,
    ipv4, ipv6, names⟩ := compileIngressRule_entries done plain
  have fromSource : rule.allowsSource f.source = (m.source = [] ||
      m.source.any fun raw => (parseIngressPrefix std raw).any (·.contains f.source)) := by
    have none : (rule.source4 = [] ∧ rule.source6 = []) ↔ m.source = [] := by
      rw [source4, source6, split_normalized_eq_nil, parsed_eq_nil readSources]
    rw [IngressRule.allowsSource, ← Bool.decide_and, decide_eq_decide.mpr none, source4, source6,
      any_split_normalized, any_parsed readSources]
  have nowhere : (!rule.hasDestination) = (decide (m.domain = []) && decide (m.ip = [])) := by
    have unnamed : rule.domains = [] ↔ m.domain = [] := by
      rw [names, appendUniqueDomains_eq_nil, parsed_eq_nil readDomains]
      simp
    have none : (rule.ipv4 = [] ∧ rule.ipv6 = []) ↔ m.ip = [] := by
      rw [ipv4, ipv6, split_normalized_eq_nil, parsed_eq_nil readPrefixes]
    rw [Bool.eq_iff_iff, IngressRule.hasDestination]
    simp only [Bool.not_eq_true', decide_eq_false_iff_not, not_lt, Nat.le_zero, Nat.add_eq_zero_iff,
      length_eq_zero_iff, Bool.and_eq_true, decide_eq_true_eq]
    rw [and_assoc, unnamed, none]
  rw [routes, kernelEntries, allowsService_compileIngressRule done, fromSource, nowhere]
  cases f.destination with
  | none =>
    rw [IngressRule.namesHost, names, any_appendUniqueDomains, any_parsed readDomains]
    rfl
  | some a =>
    dsimp only
    rw [ipv4, ipv6, any_split_normalized, any_parsed readPrefixes]
end
section
variable {rule : IngressRule}
lemma routes_merged (merges : mergeableDomainRules previous rule = true) (f : Flow std) :
    ({ previous with domains := appendUniqueDomains previous.domains rule.domains } :
        IngressRule).routes f = (previous.routes f || rule.routes f) := by
  simp only [mergeableDomainRules, Bool.and_eq_true, decide_eq_true_eq, ne_eq, decide_not,
    Bool.not_eq_true', decide_eq_false_iff_not] at merges
  obtain ⟨⟨⟨⟨⟨⟨⟨⟨named, named'⟩, noPrefix⟩, noPrefix'⟩, -⟩, network⟩, ports⟩, source4⟩,
    source6⟩ := merges
  have none4 : previous.ipv4 = [] := length_eq_zero_iff.mp (by omega)
  have none6 : previous.ipv6 = [] := length_eq_zero_iff.mp (by omega)
  have none4' : rule.ipv4 = [] := length_eq_zero_iff.mp (by omega)
  have none6' : rule.ipv6 = [] := length_eq_zero_iff.mp (by omega)
  have union : appendUniqueDomains previous.domains rule.domains ≠ [] := by
    rw [Ne, appendUniqueDomains_eq_nil]
    exact fun both => named both.1
  have destined (rule : IngressRule) (some : rule.domains ≠ []) : rule.hasDestination = true := by
    simpa [IngressRule.hasDestination] using .inl (.inl (length_pos_iff.mpr some))
  simp only [routes, IngressRule.allowsService, IngressRule.allowsSource, network, ports, source4,
    source6, ← Bool.and_or_distrib_left]
  cases f.destination with
  | none => simp [IngressRule.namesHost, any_appendUniqueDomains, destined, named, named', union]
  | some a => simp [none4, none6, none4', none6', destined, named, named', union]

lemma route_snoc (rules : List IngressRule) (f : Flow std) :
    ((rules ++ [rule]).find? (routes f)).map (·.action) =
      ((rules.find? (routes f)).map (·.action)).or
        (if rule.routes f then some rule.action else none) := by
  cases matched : rule.routes f <;> simp [matched]

lemma route_appendRule (done : appendRule out rule = .ok policy) (f : Flow std) :
    policy.route f = (out.route f).or (if rule.routes f then some rule.action else none) := by
  obtain ⟨front, previous, whole, merges, rfl⟩ | ⟨groups, rfl, -⟩ := appendRule_ok done
  · have action : previous.action = rule.action := by
      simp only [mergeableDomainRules, Bool.and_eq_true, decide_eq_true_eq] at merges
      exact merges.1.1.1.1.2
    rw [IngressPolicy.route, IngressPolicy.route, whole, route_snoc, route_snoc,
      routes_merged merges, Option.or_assoc]
    cases previous.routes f <;> simp [action]
  · exact route_snoc out.rules f
end

lemma ingressAction_ok (done : ingressAction tunnelTag loaded = .ok action) :
    action = tagAction loaded.outboundTag := by
  unfold ingressAction at done
  unfold tagAction
  dsimp only at done
  split_ifs at done with direct block <;> cases done
  · rw [if_pos direct]
  · rw [if_neg direct, if_pos block]
  · rw [if_neg direct, if_neg block]

lemma route_addLoaded (plain : NoGeoLists std loaded.criteria)
    (done : addLoaded std db (trimSpace userName) out loaded = .ok policy) (f : Flow std) :
    policy.route f = (out.route f).or
      (if kernelReading f loaded.criteria userName then some (tagAction loaded.outboundTag)
        else none) := by
  obtain ⟨skipped, rfl⟩ | ⟨meant, action, rule, acts, compiled, appended⟩ := addLoaded_ok done
  · have silent : kernelReading f loaded.criteria userName = false := by
      rw [kernelReading, skipped]
      simp
    rw [silent]
    simp
  · have reading : kernelReading f loaded.criteria userName = rule.routes f := by
      rw [kernelReading, meant, Bool.true_and, routes_compileIngressRule compiled plain f]
    rw [route_appendRule appended, reading, (framed_compileIngressRule compiled).2.1,
      ingressAction_ok acts]

lemma route_buildIngressPolicy (plain : ∀ loaded ∈ snap.rules, NoGeoLists std loaded.criteria)
    (built : buildIngressPolicy std (some snap) userName = .ok policy) (f : Flow std) :
    policy.route f = firstReading (kernelReading f · userName) snap.rules := by
  have folded : ∀ (rules : List Loaded) (out : IngressPolicy),
      (∀ loaded ∈ rules, NoGeoLists std loaded.criteria) →
      rules.foldlM (addLoaded std snap.geoDB (trimSpace userName)) out = .ok policy →
      policy.route f = (out.route f).or (firstReading (kernelReading f · userName) rules) := by
    intro rules
    induction rules with
    | nil =>
      intro out _ done
      cases done
      exact or_none.symm
    | cons loaded rules ih =>
      intro out plain done
      obtain ⟨middle, first, rest⟩ := foldlM_cons_ok.mp done
      rw [ih middle (fun other later => plain other (mem_cons_of_mem loaded later)) rest,
        route_addLoaded (plain loaded mem_cons_self) first, Option.or_assoc, firstReading,
        firstReading, find?_cons]
      cases kernelReading f loaded.criteria userName <;> simp
  obtain ⟨tag, done⟩ := buildIngressPolicy_ok built
  exact (folded snap.rules _ plain done).trans none_or

open IngressRule (namesHost normalized)

instance : Std.Total prefixBefore where
  total left right := by
    unfold prefixBefore
    split_ifs <;> omega

instance : IsTrans Prefix prefixBefore where
  trans left middle right first second := by
    unfold prefixBefore at *
    split_ifs at * <;> omega

def Apart (p q : Prefix) : Prop := ∀ a, ¬ (p.contains a = true ∧ q.contains a = true)

lemma apart_of_uncovered {p q : Prefix} (before : prefixBefore p q.masked)
    (uncovered : covers p q.masked = false) : Apart p q.masked := by
  rintro a ⟨first, second⟩
  have family : p.addr.bitLen = q.masked.addr.bitLen :=
    (Prefix.contains_iff.mp first).1.trans (Prefix.contains_iff.mp second).1.symm
  have longer : q.bits < p.bits := by
    by_contra shorter
    have inside := Prefix.contains_of_overlap (q := q.masked) (not_lt.mp shorter) first second
    have covered : covers p q.masked = true := by
      simp only [covers, family, inside, decide_true, Bool.true_and, Bool.and_true,
        decide_eq_true_eq]
      exact not_lt.mp shorter
    simp [covered] at uncovered
  have starts : q.masked.addr.value ≤ p.addr.value := by
    apply Prefix.value_le_of_contains
    rw [← Prefix.contains_masked]
    exact Prefix.contains_of_overlap longer.le second first
  have length : q.masked.bits = q.bits := rfl
  unfold prefixBefore at before
  split_ifs at before <;> omega

lemma normalizeIngressPrefixes_pairwise (values : List Prefix) :
    (normalizeIngressPrefixes values).Pairwise prefixBefore ∧
      (normalizeIngressPrefixes values).Pairwise Apart := by
  unfold normalizeIngressPrefixes
  split_ifs with short
  · match values, short with
    | [], _ => exact ⟨.nil, .nil⟩
    | [p], _ => exact ⟨pairwise_singleton _ p, pairwise_singleton _ p⟩
  · have sublist := dropCovered_sublist covers
      ((values.map Prefix.masked).insertionSort prefixBefore)
    have sorted := (pairwise_insertionSort prefixBefore (values.map Prefix.masked)).sublist
      sublist
    refine ⟨sorted, List.Pairwise.imp_of_mem ?_ (sorted.and (pairwise_dropCovered covers _))⟩
    intro p q _ member both
    have given := sublist.subset member
    rw [mem_insertionSort] at given
    obtain ⟨origin, -, rfl⟩ := List.mem_map.mp given
    exact apart_of_uncovered both.1 both.2

section
variable {db : Option GeoDB} {out policy : IngressPolicy} {userName : Text}

/-- The rules that apply to the user, each compiled by itself, whatever number it carries. -/
def Gathered (std : Stdlib) (db : Option GeoDB) (userName : Text) (rules : List Loaded)
    (gathered : List IngressRule) : Prop :=
  List.Forall₂
    (fun loaded rule => ∃ index,
      gatherIngressRule std db index (tagAction loaded.outboundTag) loaded.criteria = .ok rule)
    (rules.filter fun loaded => applies std loaded.criteria userName) gathered

lemma routes_normalized (f : Flow std) (rule : IngressRule) :
    rule.normalized.routes f = rule.routes f := by
  have positive : ∀ values : List Prefix,
      0 < (normalizeIngressPrefixes values).length ↔ 0 < values.length := by
    intro values
    rw [length_pos_iff, length_pos_iff, Ne, normalizeIngressPrefixes_eq_nil]
  have source : rule.normalized.allowsSource f.source = rule.allowsSource f.source := by
    simp only [IngressRule.allowsSource, normalized, normalizeIngressPrefixes_eq_nil,
      any_append, any_normalizeIngressPrefixes]
  have destination : rule.normalized.hasDestination = rule.hasDestination := by
    have ipv4 := positive rule.ipv4
    have ipv6 := positive rule.ipv6
    apply decide_eq_decide.mpr
    dsimp only [normalized]
    omega
  rw [routes, routes, source, destination]
  simp only [normalized, IngressRule.allowsService, namesHost,
    any_append, any_normalizeIngressPrefixes]
  cases f.destination <;> rfl

lemma route_gathered (done : rules.foldlM (addLoaded std db userName) out = .ok policy) :
    ∃ gathered, Gathered std db userName rules gathered ∧ ∀ f : Flow std,
      policy.route f = (out.route f).or ((gathered.find? (routes f)).map (·.action)) := by
  induction rules generalizing out with
  | nil =>
    cases done
    exact ⟨[], .nil, fun f => or_none.symm⟩
  | cons loaded rules ih =>
    obtain ⟨middle, first, rest⟩ := foldlM_cons_ok.mp done
    obtain ⟨gathered, each, same⟩ := ih rest
    obtain ⟨skipped, rfl⟩ | ⟨meant, action, rule, acts, compiled, appended⟩ := addLoaded_ok first
    · refine ⟨gathered, ?_, same⟩
      rw [Gathered, filter_cons_of_neg (by simp [skipped])]
      exact each
    · obtain ⟨named, read, rfl, -⟩ := compileIngressRule_ok compiled
      rw [ingressAction_ok acts] at read
      refine ⟨named :: gathered, ?_, ?_⟩
      · rw [Gathered, filter_cons_of_pos (by simp [meant])]
        exact .cons ⟨_, read⟩ each
      · intro f
        rw [same, route_appendRule appended, routes_normalized, Option.or_assoc, find?_cons]
        cases named.routes f <;> simp [normalized]
end
section
variable {db : Option GeoDB} {out policy : IngressPolicy} {rule : IngressRule} {userName : Text}

structure IngressPolicy.Grouped (policy : IngressPolicy) : Prop where
  counted : policy.rules.countP (fun rule => decide (rule.domains ≠ [])) = policy.dynamicGroups
  bounded : policy.dynamicGroups ≤ maxChinaDNSGroups

lemma grouped_appendRule (grouped : out.Grouped) (done : appendRule out rule = .ok policy) :
    policy.Grouped := by
  obtain ⟨counted, bounded⟩ := grouped
  obtain ⟨front, previous, whole, merges, rfl⟩ |
    ⟨groups, rfl, ⟨unnamed, rfl⟩ | ⟨named, rfl, few⟩⟩ := appendRule_ok done
  · have named : previous.domains ≠ [] := by
      simp only [mergeableDomainRules, Bool.and_eq_true, decide_eq_true_eq] at merges
      exact merges.1.1.1.1.1.1.1.1
    refine ⟨?_, bounded⟩
    rw [← counted, whole]
    simp [countP_append, named, appendUniqueDomains_eq_nil]
  · exact ⟨by rw [countP_append, counted]; simp [unnamed], bounded⟩
  · exact ⟨by rw [countP_append, counted]; simp [named], few⟩

lemma grouped_addLoaded (grouped : out.Grouped)
    (done : addLoaded std db userName out loaded = .ok policy) : policy.Grouped := by
  obtain ⟨-, rfl⟩ | ⟨-, action, rule, -, -, appended⟩ := addLoaded_ok done
  · exact grouped
  · exact grouped_appendRule grouped appended
end

theorem buildIngressPolicy_preserves {std : Stdlib} {snap : Snapshot} {userName : Text}
    {policy : IngressPolicy} (built : buildIngressPolicy std (some snap) userName = .ok policy) :
    (∃ gathered, Gathered std snap.geoDB (trimSpace userName) snap.rules gathered ∧ ∀ f : Flow std,
        policy.route f = (gathered.find? (routes f)).map (·.action)) ∧
      (∀ values, (normalizeIngressPrefixes values).Pairwise prefixBefore ∧
        (normalizeIngressPrefixes values).Pairwise Apart ∧
        ∀ a, (normalizeIngressPrefixes values).any (·.contains a) = values.any (·.contains a)) ∧
      (∀ (i : Nat) (rule : IngressRule), policy.rules[i]? = some rule → rule.index = i) ∧
      policy.rules.countP (fun rule => decide (rule.domains ≠ [])) = policy.dynamicGroups ∧
      policy.dynamicGroups ≤ 6 := by
  obtain ⟨tag, done⟩ := buildIngressPolicy_ok built
  obtain ⟨gathered, each, same⟩ := route_gathered done
  have grouped : policy.Grouped := foldlM_invariant grouped_addLoaded ⟨rfl, Nat.zero_le _⟩ done
  refine ⟨⟨gathered, each, fun f => (same f).trans none_or⟩, ?_, ?_, grouped.counted,
    grouped.bounded⟩
  · intro values
    exact ⟨(normalizeIngressPrefixes_pairwise values).1,
      (normalizeIngressPrefixes_pairwise values).2, any_normalizeIngressPrefixes values⟩
  · intro i rule here
    exact (formed_buildIngressPolicy built i rule here).1

def directName (name : Text) : Loaded := ⟨1, "direct".toList, { domain := [name] }⟩

theorem buildIngressPolicy_preserves_names : ∃ policy,
    buildIngressPolicy sampleStdlib
        (some ⟨[directName "a.example".toList, directName "b.example".toList], none⟩) [] =
      .ok policy ∧
      policy.rules.length = 1 ∧
      policy.rules.countP (fun rule => decide (rule.domains ≠ [])) = policy.dynamicGroups ∧
      policy.dynamicGroups ≤ 6 := by
  have built : buildIngressPolicy sampleStdlib
      (some ⟨[directName "a.example".toList, directName "b.example".toList], none⟩) [] =
      .ok {
        rules := [{ action := .direct, domains := ["a.example".toList, "b.example".toList] }]
        dynamicGroups := 1 } := by decide +kernel
  exact ⟨_, built, rfl, (buildIngressPolicy_preserves built).2.2.2⟩

section
variable (cr : CompiledRule)
def addMatcher (x : DomainMatcher) : CompiledRule := { cr with domains := cr.domains ++ [x] }
def addCIDR (p : Prefix) : CompiledRule := { cr with cidrs := cr.cidrs ++ [p] }
def addSrcCIDR (p : Prefix) : CompiledRule := { cr with srcCIDRs := cr.srcCIDRs ++ [p] }

lemma foldl_addMatcher (xs : List DomainMatcher) (cr : CompiledRule) :
    xs.foldl addMatcher cr = { cr with domains := cr.domains ++ xs } := by
  induction xs generalizing cr with
  | nil => simp
  | cons x xs ih => simp [ih, addMatcher]

lemma foldl_addCIDR (ps : List Prefix) (cr : CompiledRule) :
    ps.foldl addCIDR cr = { cr with cidrs := cr.cidrs ++ ps } := by
  induction ps generalizing cr with
  | nil => simp
  | cons p ps ih => simp [ih, addCIDR]

lemma foldl_addSrcCIDR (ps : List Prefix) (cr : CompiledRule) :
    ps.foldl addSrcCIDR cr = { cr with srcCIDRs := cr.srcCIDRs ++ ps } := by
  induction ps generalizing cr with
  | nil => simp
  | cons p ps ih => simp [ih, addSrcCIDR]

lemma compileDomain_ok (plain : NoGeoLists std m) (member : raw ∈ m.domain)
    (cr after : CompiledRule) :
    compileDomain std geo cr raw = .ok after ↔
      ∃ x, parseDomainMatcher std raw = some x ∧ after = addMatcher cr x := by
  obtain ⟨-, -, noSite, noIP⟩ := plain.domain raw member
  unfold compileDomain
  rw [noSite, noIP]
  cases parseDomainMatcher std raw <;> simp [addMatcher, eq_comm]

lemma compileIP_ok (plain : NoGeoLists std m) (member : raw ∈ m.ip) (cr after : CompiledRule) :
    compileIP std geo cr raw = .ok after ↔
      ∃ p, parseCIDR std raw = some p ∧ after = addCIDR cr p := by
  unfold compileIP
  rw [(plain.ip raw member).2]
  cases parseCIDR std raw <;> simp [addCIDR, eq_comm]

lemma compileSource_ok (cr after : CompiledRule) : compileSource std cr raw = .ok after ↔
      ∃ p, parseCIDR std raw = some p ∧ after = addSrcCIDR cr p := by
  unfold compileSource
  cases parseCIDR std raw <;> simp [addSrcCIDR, eq_comm]
end

lemma compilePort_reads {port : Text} {ranges : List PortRange}
    (ported : compilePort port = .ok ranges) (p : Int) :
    (ranges = [] || portInRanges p ranges) =
      (parsePortSpec port).all fun ranges => portInRanges p ranges := by
  unfold compilePort at ported
  split_ifs at ported with blank
  · cases ported
    rw [blank]
    rfl
  · split at ported
    · next found parsed =>
      cases ported
      have some : ranges ≠ [] := by
        rintro rfl
        unfold parsePortSpec at parsed
        split at parsed <;> cases parsed
      rw [parsed, all_some, decide_eq_false some, Bool.false_or]
    · cases ported

lemma compileNetwork_reads (known : compileNetwork std network = .ok compiled) (nw : Text) :
    (compiled = [] || networkMatches compiled nw) = (std.toLower (trimSpace network) = [] ||
        networkMatches (std.toLower (trimSpace network)) nw) := by
  unfold compileNetwork at known
  split_ifs at known with blank <;> cases known
  · rw [blank]
    rfl
  · rfl

section
variable (done : compileRule std geo m tag = .ok cr)
include done
lemma compileRule_entries (plain : NoGeoLists std m) : ∃ domains cidrs sources,
      List.Forall₂ (fun raw x => parseDomainMatcher std raw = some x) m.domain domains ∧
      List.Forall₂ (fun raw p => parseCIDR std raw = some p) m.ip cidrs ∧
      List.Forall₂ (fun raw p => parseCIDR std raw = some p) m.source sources ∧
      compilePort m.port = .ok cr.portRanges ∧ compileNetwork std m.network = .ok cr.network ∧
      cr = ⟨tag, domains, cidrs, sources, cr.portRanges, cr.network, m.inboundTag, m.user⟩ := by
  obtain ⟨first, listed, done⟩ := bind_eq_ok.mp done
  rw [plain.geoIP] at listed
  cases listed
  obtain ⟨second, listed, done⟩ := bind_eq_ok.mp done
  rw [plain.geosite] at listed
  cases listed
  obtain ⟨third, named, done⟩ := bind_eq_ok.mp done
  obtain ⟨domains, readDomains, rfl⟩ := foldlM_parsed (parseDomainMatcher std) addMatcher
    (fun raw member b c added => (compileDomain_ok plain member b c).mp added) named
  obtain ⟨fourth, prefixed, done⟩ := bind_eq_ok.mp done
  obtain ⟨cidrs, readCIDRs, rfl⟩ := foldlM_parsed (parseCIDR std) addCIDR
    (fun raw member b c added => (compileIP_ok plain member b c).mp added) prefixed
  obtain ⟨fifth, sourced, done⟩ := bind_eq_ok.mp done
  obtain ⟨sources, readSources, rfl⟩ := foldlM_parsed (parseCIDR std) addSrcCIDR
    (fun raw _ b c added => (compileSource_ok b c).mp added) sourced
  obtain ⟨ranges, ported, done⟩ := bind_eq_ok.mp done
  obtain ⟨network, known, done⟩ := bind_eq_ok.mp done
  cases done
  refine ⟨domains, cidrs, sources, readDomains, readCIDRs, readSources, ported, known, ?_⟩
  rw [foldl_addMatcher, foldl_addCIDR, foldl_addSrcCIDR]
  rfl

lemma isMatch_compileRule (plain : NoGeoLists std m) (f : Flow std) (userName : Text) :
    cr.isMatch std (f.request userName) = nodeReading f m userName := by
  obtain ⟨domains, cidrs, sources, readDomains, readCIDRs, readSources, ported, known, whole⟩ :=
    compileRule_entries done plain
  have unnamed : domains.isEmpty = decide (m.domain = []) := by
    rw [Bool.eq_iff_iff, List.isEmpty_iff, decide_eq_true_iff, parsed_eq_nil readDomains]
  have anywhere : decide (cidrs = []) = decide (m.ip = []) := by
    rw [decide_eq_decide, parsed_eq_nil readCIDRs]
  have anyone : decide (sources = []) = decide (m.source = []) := by
    rw [decide_eq_decide, parsed_eq_nil readSources]
  have target : (std.parseIP f.host).any (cidrsContain cidrs) = f.destination.any fun a =>
      m.ip.any fun raw => (parseCIDR std raw).any (·.contains a.unmap) := by
    have moved : ∀ o : Option Addr, o.any (cidrsContain cidrs) =
        (o.map Addr.unmap).any fun a => cidrs.any (·.contains a) := by
      intro o
      cases o <;> rfl
    rw [moved, f.spelled, ← moved]
    congr 1
    funext a
    exact any_parsed readCIDRs _
  have served := compileNetwork_reads known f.network.text
  have opened := compilePort_reads ported f.port
  rw [whole]
  simp only [CompiledRule.isMatch, Flow.request, nodeReading, serviceReading, any_some]
  rw [unnamed, anywhere, anyone, target, served, opened, any_parsed readDomains, cidrsContain,
    any_parsed readSources]
  ac_rfl

lemma tag_compileRule (plain : NoGeoLists std m) : cr.tag = tag := by
  obtain ⟨domains, cidrs, sources, -, -, -, -, -, whole⟩ := compileRule_entries done plain
  rw [whole]
end

lemma compilePort_isOk {port : Text} : (∃ ranges, compilePort port = .ok ranges) ↔
    port = [] ∨ (parsePortSpec port).isSome := by
  unfold compilePort
  by_cases blank : port = []
  · simp [blank]
  · cases parsePortSpec port <;> simp [blank]

lemma compileNetwork_isOk {network : Text} : (∃ known, compileNetwork std network = .ok known) ↔
    network = [] ∨ std.toLower (trimSpace network) ∈ networks := by
  unfold compileNetwork
  split_ifs with blank listed <;> simp [*]

lemma compileRule_isOk (plain : NoGeoLists std m) (tag : Text) :
    (∃ cr, compileRule std geo m tag = .ok cr) ↔ NodeAccepts std m := by
  constructor
  · rintro ⟨cr, done⟩
    obtain ⟨domains, cidrs, sources, readDomains, readCIDRs, readSources, ported, known, -⟩ :=
      compileRule_entries done plain
    exact ⟨exists_parsed.mp ⟨domains, readDomains⟩, exists_parsed.mp ⟨cidrs, readCIDRs⟩,
      exists_parsed.mp ⟨sources, readSources⟩, compilePort_isOk.mp ⟨_, ported⟩,
      compileNetwork_isOk.mp ⟨_, known⟩⟩
  · intro accepts
    obtain ⟨domains, readDomains⟩ := exists_parsed.mpr accepts.domain
    obtain ⟨cidrs, readCIDRs⟩ := exists_parsed.mpr accepts.ip
    obtain ⟨sources, readSources⟩ := exists_parsed.mpr accepts.source
    have named := foldlM_of_parsed addMatcher (f := compileDomain std geo) readDomains
      fun raw member b x parsed => (compileDomain_ok plain member b _).mpr ⟨x, parsed, rfl⟩
    have prefixed := foldlM_of_parsed addCIDR (f := compileIP std geo) readCIDRs
      fun raw member b p parsed => (compileIP_ok plain member b _).mpr ⟨p, parsed, rfl⟩
    have sourced := foldlM_of_parsed addSrcCIDR (f := compileSource std) readSources
      fun raw _ b p parsed => (compileSource_ok b _).mpr ⟨p, parsed, rfl⟩
    obtain ⟨ranges, ported⟩ := compilePort_isOk.mpr accepts.port
    obtain ⟨network, known⟩ := compileNetwork_isOk.mpr accepts.network
    unfold compileRule
    rw [plain.geoIP, plain.geosite]
    refine ⟨_, bind_eq_ok.mpr ⟨_, rfl, bind_eq_ok.mpr ⟨_, rfl, bind_eq_ok.mpr ⟨_, named _,
      bind_eq_ok.mpr ⟨_, prefixed _, bind_eq_ok.mpr ⟨_, sourced _, bind_eq_ok.mpr ⟨_, ported,
      bind_eq_ok.mpr ⟨_, known, rfl⟩⟩⟩⟩⟩⟩⟩⟩

lemma nodeRoute_compileRules (plain : ∀ loaded ∈ rules, NoGeoLists std loaded.criteria)
    (done : compileRules std geo rules = .ok compiled) (userName : Text) (f : Flow std) :
    nodeRoute compiled userName f = firstReading (nodeReading f · userName) rules := by
  induction rules generalizing compiled with
  | nil =>
    cases done
    rfl
  | cons loaded rules ih =>
    obtain ⟨cr, rest, first, later, rfl⟩ := mapM_cons_ok.mp done
    have here := plain loaded mem_cons_self
    have onward := ih (fun other member => plain other (mem_cons_of_mem loaded member)) later
    unfold nodeRoute firstReading at onward ⊢
    dsimp only at onward ⊢
    rw [find?_cons, find?_cons, isMatch_compileRule first here]
    cases nodeReading f loaded.criteria userName with
    | true => simp [tag_compileRule first here]
    | false => exact onward

lemma compileRules_isOk (plain : ∀ loaded ∈ rules, NoGeoLists std loaded.criteria) :
    (∃ compiled, compileRules std geo rules = .ok compiled) ↔
      ∀ loaded ∈ rules, NodeAccepts std loaded.criteria := by
  induction rules with
  | nil => exact ⟨fun _ loaded member => absurd member not_mem_nil, fun _ => ⟨[], rfl⟩⟩
  | cons loaded rules ih =>
    have here := plain loaded mem_cons_self
    rw [forall_mem_cons, ← compileRule_isOk here loaded.outboundTag,
      ← ih fun other member => plain other (mem_cons_of_mem loaded member)]
    constructor
    · rintro ⟨_, done⟩
      obtain ⟨cr, rest, first, later, -⟩ := mapM_cons_ok.mp done
      exact ⟨⟨cr, first⟩, ⟨rest, later⟩⟩
    · rintro ⟨⟨cr, first⟩, ⟨rest, later⟩⟩
      exact ⟨cr :: rest, mapM_cons_ok.mpr ⟨cr, rest, first, later, rfl⟩⟩

lemma firstReading_cons (reads : Match → Bool) (loaded : Loaded) (rules : List Loaded) :
    firstReading reads (loaded :: rules) =
      if reads loaded.criteria then some (tagAction loaded.outboundTag)
      else firstReading reads rules := by
  unfold firstReading
  rw [find?_cons]
  cases reads loaded.criteria <;> rfl

lemma firstReading_eq_iff (userName : Text) (f : Flow std) (rules : List Loaded) :
    firstReading (kernelReading f · userName) rules =
        firstReading (nodeReading f · userName) rules ↔
      Settled userName f rules := by
  induction rules with
  | nil => exact ⟨fun _ => trivial, fun _ => rfl⟩
  | cons loaded rules ih =>
    rw [firstReading_cons, firstReading_cons, Settled]
    cases kernelReading f loaded.criteria userName with
    | true =>
      cases nodeReading f loaded.criteria userName with
      | true => exact ⟨fun _ => trivial, fun _ => rfl⟩
      | false => exact eq_comm
    | false =>
      cases nodeReading f loaded.criteria userName with
      | true => exact Iff.rfl
      | false => exact ih

/-- The node compiles the rules and then takes the action of the kernel, if and only if it can
read them and the table is settled. -/
theorem kernel_agrees_with_node_iff {snap : Snapshot} {userName : Text} {policy : IngressPolicy}
    (built : buildIngressPolicy std (some snap) userName = .ok policy)
    (plain : ∀ loaded ∈ snap.rules, NoGeoLists std loaded.criteria) (geo : GeoDB) (f : Flow std) :
    (∃ compiled, compileRules std geo snap.rules = .ok compiled ∧
        policy.route f = nodeRoute compiled userName f) ↔
      (∀ loaded ∈ snap.rules, NodeAccepts std loaded.criteria) ∧ Settled userName f snap.rules := by
  rw [← firstReading_eq_iff, ← route_buildIngressPolicy plain built f]
  constructor
  · rintro ⟨compiled, done, same⟩
    refine ⟨(compileRules_isOk plain).mp ⟨compiled, done⟩, ?_⟩
    rw [same, nodeRoute_compileRules plain done]
  · rintro ⟨accepted, same⟩
    obtain ⟨compiled, done⟩ : ∃ compiled, compileRules std geo snap.rules = .ok compiled :=
      (compileRules_isOk plain).mpr accepted
    refine ⟨compiled, done, ?_⟩
    rw [same, nodeRoute_compileRules plain done]

/-- The rule means the same to both: its users and tags are listed as they are compared, it has no
addresses, and its domains stand for all names under them. -/
structure Aligned (m : Match) (userName : Text) (f : Flow std) : Prop where
  user : listAllows std m.user (trimSpace userName) = (m.user = [] || m.user.contains userName)
  tag : listAllows std m.inboundTag "local-tun".toList =
    (m.inboundTag = [] || m.inboundTag.contains "local-tun".toList)
  source : m.source = []
  ip : m.ip = []
  name : f.destination = none
  domain : ∀ raw ∈ m.domain,
    parseDomainMatcher std raw = (ingressDomain std raw).toOption.map .suffix

lemma Aligned.same_reading {m : Match} {userName : Text} {f : Flow std}
    (aligned : Aligned m userName f) : kernelReading f m userName = nodeReading f m userName := by
  obtain ⟨user, tag, source, ip, name, domain⟩ := aligned
  have names : (m.domain.any fun raw => (ingressDomain std raw).toOption.any
        (DomainMatcher.suffixMatch · (hostName std f.host))) =
      m.domain.any fun raw =>
        (parseDomainMatcher std raw).any (·.isMatch (hostName std f.host)) := by
    rw [Bool.eq_iff_iff, List.any_eq_true, List.any_eq_true]
    refine exists_congr fun raw => and_congr_right fun member => ?_
    rw [domain raw member, Option.any_map]
    rfl
  rw [kernelReading, nodeReading, applies, user, tag]
  simp [kernelEntries, source, ip, name, names, Bool.and_assoc]

lemma settled_of_aligned {userName : Text} {f : Flow std} {rules : List Loaded}
    (aligned : ∀ loaded ∈ rules, Aligned loaded.criteria userName f) :
    Settled userName f rules := by
  rw [← firstReading_eq_iff]
  induction rules with
  | nil => rfl
  | cons loaded rules ih =>
    obtain ⟨first, rest⟩ := forall_mem_cons.mp aligned
    rw [firstReading_cons, firstReading_cons, first.same_reading, ih rest]

def noGeoDB : GeoDB where
  geoIPCIDRs := fun _ => []
  geoSiteDomainRules := fun _ => []
  geositeMatchers := fun _ => none

def blockingName (pattern : Text) : Snapshot where
  rules := [⟨10, "block".toList, { domain := [pattern] }⟩]
  geoDB := none

def threeNames : Snapshot where
  rules := [⟨10, "direct".toList, { domain := ["domain:example.org".toList] }⟩,
    ⟨20, "block".toList, { domain := ["domain:a.net".toList, "domain:example.com".toList] }⟩]
  geoDB := none

def sampleFlow : Flow sampleStdlib where
  host := "www.example.com".toList
  destination := none
  source := .v4 0xc0a80105
  network := .tcp
  port := 443
  spelled := rfl

theorem kernel_agrees_with_node_domain : ∃ policy compiled,
      buildIngressPolicy sampleStdlib (some threeNames) "lan".toList = .ok policy ∧
      compileRules sampleStdlib noGeoDB threeNames.rules = .ok compiled ∧
      policy.route sampleFlow = some .block ∧
      policy.route sampleFlow = nodeRoute compiled "lan".toList sampleFlow := by
  have plain : ∀ loaded ∈ threeNames.rules, NoGeoLists sampleStdlib loaded.criteria := by
    intro loaded member
    fin_cases member <;> constructor <;> decide +kernel
  have evaluated : (buildIngressPolicy sampleStdlib (some threeNames) "lan".toList).toOption.map
      (·.route sampleFlow) = some (some .block) := by decide +kernel
  obtain ⟨policy, found, blocks⟩ := map_eq_some_iff.mp evaluated
  have built := Folds.toOption_eq_some.mp found
  have accepted : ∀ loaded ∈ threeNames.rules, NodeAccepts sampleStdlib loaded.criteria := by
    intro loaded member
    fin_cases member <;> constructor <;> decide +kernel
  have settled : Settled "lan".toList sampleFlow threeNames.rules := by
    refine settled_of_aligned fun loaded member => ?_
    fin_cases member <;> refine ⟨rfl, rfl, rfl, rfl, rfl, fun raw listed => ?_⟩ <;>
      fin_cases listed <;> rfl
  obtain ⟨compiled, done, same⟩ :=
    (kernel_agrees_with_node_iff built plain noGeoDB sampleFlow).mpr ⟨accepted, settled⟩
  exact ⟨policy, compiled, built, done, blocks, same⟩

theorem full_pattern_widened :
    (∀ loaded ∈ (blockingName "full:example.com".toList).rules,
      NoGeoLists sampleStdlib loaded.criteria) ∧
    (buildIngressPolicy sampleStdlib (some (blockingName "full:example.com".toList))
      "lan".toList).toOption.map (·.route sampleFlow) = some (some .block) ∧
    (compileRules sampleStdlib noGeoDB (blockingName "full:example.com".toList).rules
      ).toOption.map (nodeRoute · "lan".toList sampleFlow) = some none := by
  refine ⟨fun loaded member => ?_, by decide +kernel, by decide +kernel⟩
  rw [mem_singleton.mp member]
  constructor <;> decide +kernel
end Tamizdat.Localtun
