/- source: node/rules.go, node/geo_dat.go, node/dispatcher.go
   digest: Routing rules, what their entries denote, and what their compiled forms match. -/

import Tamizdat.Machine.Text
import Tamizdat.Machine.Bytes

set_option autoImplicit false

open List
namespace Tamizdat.Routing
open Machine Machine.Prefixes
abbrev Text := List Char

instance : LawfulBEq Text := List.instLawfulBEq

def trimSpace (s : Text) : Text := Text.trim Text.isSpace s

def digits (s : Text) : Option Nat :=
  if s ≠ [] ∧ s.all Char.isDigit then
    some (s.foldl (fun n c => 10 * n + (c.toNat - '0'.toNat)) 0)
  else none

def atoi : Text → Option Int
  | '-' :: s => (digits s).bind fun n => if n ≤ 2 ^ 63 then some (-n) else none
  | '+' :: s => (digits s).bind fun n => if n < 2 ^ 63 then some n else none
  | s => (digits s).bind fun n => if n < 2 ^ 63 then some n else none

/-- What stays open: the tables of `unicode`, the address parsers and `regexp`. -/
structure Stdlib where
  /-- `unicode.ToLower`. -/
  toLowerRune : Char → Char
  foldRune : Char → Char → Bool
  parseAddr : Text → Option Addr
  parsePrefix : Text → Option Prefix
  parseIP : Text → Option Addr
  compileRegexp : Text → Option (Text → Bool)

namespace Stdlib
variable (std : Stdlib)
def toLower (s : Text) : Text := s.map std.toLowerRune

def equalFold : Text → Text → Bool
  | [], [] => true
  | a :: s, b :: t => std.foldRune a b && equalFold s t
  | _, _ => false
end Stdlib

inductive Network
  | tcp | udp
deriving DecidableEq

def Network.text : Network → Text
  | .tcp => "tcp".toList
  | .udp => "udp".toList

/-- `rulesdb.Match`, whose fields `BuildWithGeoDB` copies into a `node.Rule`. -/
structure Match where
  geoIP : List Text := []
  geosite : List Text := []
  ip : List Text := []
  domain : List Text := []
  source : List Text := []
  port : Text := []
  network : Text := []
  inboundTag : List Text := []
  user : List Text := []

def sampleStdlib : Stdlib where
  toLowerRune := Char.toLower
  foldRune := fun a b => a.toLower = b.toLower
  parseAddr := fun _ => none
  parsePrefix := fun s =>
    if s = "192.168.1.0/24".toList then some ⟨.v4 0xc0a80100, 24⟩
    else if s = "203.0.113.0/24".toList then some ⟨.v4 0xcb007100, 24⟩
    else if s = "fd00::/8".toList then some ⟨.v6 0xfd000000000000000000000000000000, 8⟩
    else none
  parseIP := fun _ => none
  compileRegexp := fun _ => none

structure Request where
  network : Text
  targetHost : Text
  targetPort : Int
  sourceIP : Option Addr
  inboundTag : Text
  user : Text

inductive DomainMatcher
  | full (s : Text)
  | suffix (s : Text)
  | keyword (s : Text)
  | regex (accepts : Text → Bool)

namespace DomainMatcher
def suffixMatch (s h : Text) : Bool :=
  if h = s then true
  else if h.length < s.length + 1 then false
  else if h[h.length - s.length - 1]? ≠ some '.' then false
  else h.drop (h.length - s.length) = s

def isMatch (h : Text) : DomainMatcher → Bool
  | .full s => h = s
  | .suffix s => suffixMatch s h
  | .keyword s => s <:+: h
  | .regex accepts => accepts h
end DomainMatcher

structure DomainRule where
  type : Text
  value : Text

/-- `GeoDB` by its lookups, each with the curated lists behind it. -/
structure GeoDB where
  geoIPCIDRs : Text → List Prefix
  geoSiteDomainRules : Text → List DomainRule
  /-- `geositeMatchersFor`; no answer stands for an error or an unknown name. -/
  geositeMatchers : Text → Option (List DomainMatcher)

structure PortRange where
  lo : Int
  hi : Int
deriving DecidableEq

inductive RuleError
  | geoIP (name : Text)
  | geosite (name : Text)
  | domain (pattern : Text)
  | ip (cidr : Text)
  | source (cidr : Text)
  | port (spec : Text)
  | network (spec : Text)

structure CompiledRule where
  tag : Text
  domains : List DomainMatcher
  cidrs : List Prefix
  srcCIDRs : List Prefix
  portRanges : List PortRange
  network : Text
  inboundTags : List Text
  users : List Text

section
variable (std : Stdlib)
def normalizeGeoName (name : Text) : Text :=
  let name := trimSpace (std.toLower name)
  match Text.cut ':' name with
  | some (left, right) =>
    if left = "geoip".toList ∨ left = "geosite".toList then trimSpace right else name
  | none => name

def geoPrefixValue (s kind : Text) : Option Text :=
  match Text.cut ':' (trimSpace s) with
  | none => none
  | some (left, right) =>
    if std.equalFold left kind = false then none
    else if normalizeGeoName std right = [] then none
    else some (normalizeGeoName std right)

def parseDomainMatcher (s : Text) : Option DomainMatcher :=
  if trimSpace s = [] then none
  else
    match Text.cut ':' (trimSpace s) with
    | some (left, right) =>
      let typ := std.toLower left
      let val := std.toLower (trimSpace right)
      if typ = "domain".toList then some (.suffix val)
      else if typ = "full".toList then some (.full val)
      else if typ = "keyword".toList then some (.keyword val)
      else if typ = "regexp".toList ∨ typ = "regex".toList then
        (std.compileRegexp val).map .regex
      else if typ = "geosite".toList ∨ typ = "geoip".toList then
        some (.regex fun h => h = [Char.ofNat 0])
      else some (.full (std.toLower (trimSpace s)))
    | none => some (.full (std.toLower (trimSpace s)))

def parseCIDR (s : Text) : Option Prefix :=
  if '/' ∉ trimSpace s then
    (std.parseAddr (trimSpace s)).map fun addr =>
      ⟨addr, if addr.is4 = false ∧ addr.is4In6 = false then 128 else 32⟩
  else std.parsePrefix (trimSpace s)

def parsePortPart (part : Text) : Option PortRange :=
  match Text.cut '-' part with
  | some (left, right) =>
    match atoi (trimSpace left), atoi (trimSpace right) with
    | some lo, some hi => if lo < 1 ∨ 65535 < hi ∨ hi < lo then none else some ⟨lo, hi⟩
    | _, _ => none
  | none =>
    match atoi part with
    | some p => if p < 1 ∨ 65535 < p then none else some ⟨p, p⟩
    | none => none

def parsePortSpec (s : Text) : Option (List PortRange) :=
  match (((s.splitOn ',').map trimSpace).filter (· ≠ [])).mapM parsePortPart with
  | some (first :: rest) => some (first :: rest)
  | _ => none

variable (geo : GeoDB)
section
variable (cr : CompiledRule)
def appendGeoIPCIDRs (name : Text) : Except RuleError CompiledRule :=
  if geo.geoIPCIDRs name = [] then .error (.geoIP (normalizeGeoName std name))
  else .ok { cr with cidrs := cr.cidrs ++ geo.geoIPCIDRs name }

def appendGeositeMatchers (name : Text) : Except RuleError CompiledRule :=
  match geo.geositeMatchers name with
  | some (first :: rest) => .ok { cr with domains := cr.domains ++ first :: rest }
  | _ => .error (.geosite (normalizeGeoName std name))

def compileDomain (d : Text) : Except RuleError CompiledRule :=
  match geoPrefixValue std d "geosite".toList with
  | some name => appendGeositeMatchers std geo cr name
  | none =>
    match geoPrefixValue std d "geoip".toList with
    | some name => appendGeoIPCIDRs std geo cr name
    | none =>
      match parseDomainMatcher std d with
      | some m => .ok { cr with domains := cr.domains ++ [m] }
      | none => .error (.domain d)

def compileIP (c : Text) : Except RuleError CompiledRule :=
  match geoPrefixValue std c "geoip".toList with
  | some name => appendGeoIPCIDRs std geo cr name
  | none =>
    match parseCIDR std c with
    | some p => .ok { cr with cidrs := cr.cidrs ++ [p] }
    | none => .error (.ip c)

def compileSource (c : Text) : Except RuleError CompiledRule :=
  match parseCIDR std c with
  | some p => .ok { cr with srcCIDRs := cr.srcCIDRs ++ [p] }
  | none => .error (.source c)
end

def compilePort (port : Text) : Except RuleError (List PortRange) :=
  if port = [] then .ok []
  else
    match parsePortSpec port with
    | some ranges => .ok ranges
    | none => .error (.port port)

def networks : List Text := ["tcp".toList, "udp".toList, "tcp,udp".toList, "udp,tcp".toList]

def compileNetwork (network : Text) : Except RuleError Text :=
  if network = [] then .ok []
  else if std.toLower (trimSpace network) ∈ networks then .ok (std.toLower (trimSpace network))
  else .error (.network network)

def compileRule (r : Match) (outbound : Text) : Except RuleError CompiledRule := do
  let cr : CompiledRule := ⟨outbound, [], [], [], [], [], [], []⟩
  let cr ← r.geoIP.foldlM (appendGeoIPCIDRs std geo) cr
  let cr ← r.geosite.foldlM (appendGeositeMatchers std geo) cr
  let cr ← r.domain.foldlM (compileDomain std geo) cr
  let cr ← r.ip.foldlM (compileIP std geo) cr
  let cr ← r.source.foldlM (compileSource std) cr
  let portRanges ← compilePort r.port
  let network ← compileNetwork std r.network
  return { cr with
    portRanges := portRanges, network := network, inboundTags := r.inboundTag, users := r.user }
end
variable (std : Stdlib)
def networkMatches (spec nw : Text) : Bool :=
  spec = [] || spec = nw || (spec.contains ',' && decide (nw <:+: spec))

def portInRanges (p : Int) (rs : List PortRange) : Bool :=
  rs.any fun r => decide (r.lo ≤ p ∧ p ≤ r.hi)

def cidrsContain (cidrs : List Prefix) (ip : Addr) : Bool := cidrs.any fun p => p.contains ip.unmap
def hostName (host : Text) : Text := Text.trimSuffix ['.'] (std.toLower host)

def CompiledRule.isMatch (cr : CompiledRule) (req : Request) : Bool :=
  (cr.network = [] || networkMatches cr.network req.network) &&
  (cr.inboundTags = [] || cr.inboundTags.contains req.inboundTag) &&
  (cr.users = [] || cr.users.contains req.user) &&
  (cr.portRanges = [] || portInRanges req.targetPort cr.portRanges) &&
  (cr.srcCIDRs = [] || req.sourceIP.any (cidrsContain cr.srcCIDRs)) &&
  (cr.domains.isEmpty || cr.domains.any (·.isMatch (hostName std req.targetHost))) &&
  (cr.cidrs = [] || (std.parseIP req.targetHost).any (cidrsContain cr.cidrs))

structure Dispatcher where
  rules : List CompiledRule
  domainStrategy : Text

section
variable (text : Addr → Text)
def tryResolveAll (host : Text) (answer : List Addr) : List Addr :=
  if host = [] then []
  else
    match std.parseIP host with
    | some ip => [ip]
    | none => answer

def Request.redirect (req : Request) (ip : Addr) : Request := { req with targetHost := text ip }

/-- The second pass: rules in the outer loop, addresses in the inner one. -/
def matchResolved (rules : List CompiledRule) (req : Request) (ips : List Addr) :
    Option CompiledRule :=
  rules.findSome? fun r => ips.findSome? fun ip =>
    if r.isMatch std (req.redirect text ip) then some r else none

def Dispatcher.resolveRule (d : Dispatcher) (req : Request) (answer : List Addr) :
    Option CompiledRule :=
  match d.rules.find? (·.isMatch std req) with
  | some r => some r
  | none =>
    if d.domainStrategy = "IPIfNonMatch".toList ∨ d.domainStrategy = "IPOnDemand".toList then
      matchResolved std text d.rules req (tryResolveAll std req.targetHost answer)
    else none

def matchesSome (req : Request) (ips : List Addr) (r : CompiledRule) : Bool :=
  ips.any fun ip => r.isMatch std (req.redirect text ip)

lemma matchResolved_eq (rules : List CompiledRule) (req : Request) (ips : List Addr) :
    matchResolved std text rules req ips = rules.find? (matchesSome std text req ips) := by
  have inner : ∀ r, (ips.findSome? fun ip =>
      if r.isMatch std (req.redirect text ip) then some r else none) =
        if matchesSome std text req ips r then some r else none := by
    intro r
    unfold matchesSome
    induction ips with
    | nil => rfl
    | cons ip ips ih =>
      rw [findSome?_cons, any_cons]
      cases r.isMatch std (req.redirect text ip) with
      | true => rfl
      | false => exact ih
  unfold matchResolved
  simp only [inner]
  induction rules with
  | nil => rfl
  | cons r rules ih =>
    rw [findSome?_cons, find?_cons]
    cases matchesSome std text req ips r with
    | true => rfl
    | false => exact ih

/-- The first rule that matches the request is taken, or else the first one that matches it at any
of the addresses; in which order they come makes no difference. -/
theorem resolveRule_order_free (d : Dispatcher) (req : Request) (answer : List Addr) :
    d.resolveRule std text req answer = (d.rules.find? (·.isMatch std req)).or
        (if d.domainStrategy = "IPIfNonMatch".toList ∨ d.domainStrategy = "IPOnDemand".toList then
          d.rules.find? (matchesSome std text req (tryResolveAll std req.targetHost answer))
        else none) ∧
      ∀ answer', answer.Perm answer' →
        d.resolveRule std text req answer' = d.resolveRule std text req answer := by
  refine ⟨?_, ?_⟩
  · rw [Dispatcher.resolveRule, matchResolved_eq]
    cases d.rules.find? (·.isMatch std req) <;> rfl
  · intro answer' perm
    have same : matchesSome std text req (tryResolveAll std req.targetHost answer') =
        matchesSome std text req (tryResolveAll std req.targetHost answer) := by
      unfold matchesSome tryResolveAll
      funext r
      split_ifs
      · rfl
      · split
        · rfl
        · exact perm.symm.any_eq
    rw [Dispatcher.resolveRule, Dispatcher.resolveRule, matchResolved_eq, matchResolved_eq, same]
end
variable (text : Addr → Text)

/-- The rule read with the name for its domains and the addresses for its prefixes. -/
def CompiledRule.honours (req : Request) (ips : List Addr) (r : CompiledRule) : Bool :=
  { r with domains := [], cidrs := [] }.isMatch std req &&
    (r.domains.isEmpty || r.domains.any (·.isMatch (hostName std req.targetHost))) &&
    (r.cidrs = [] || ips.any (cidrsContain r.cidrs))

lemma find?_eq_find?_iff {α : Type*} (p q : α → Bool) (l : List α) : l.find? p = l.find? q ↔
      ∀ a, l.find? (fun a => p a || q a) = some a → p a = true ∧ q a = true := by
  induction l with
  | nil => simp
  | cons a l ih =>
    rw [find?_cons, find?_cons, find?_cons]
    cases first : p a <;> cases second : q a
    · exact ih
    · refine iff_of_false (fun same => ?_) (by simp [first])
      exact absurd (find?_some same) (by simp [first])
    · refine iff_of_false (fun same => ?_) (by simp [second])
      exact absurd (find?_some same.symm) (by simp [second])
    · simp [first, second]

variable {std text}
open CompiledRule (isMatch)
lemma matchesSome_eq {ips r req}
    (spelled : ∀ ip ∈ ips, (std.parseIP (text ip)).map Addr.unmap = some ip.unmap) :
    matchesSome std text req ips r = ({ r with domains := [], cidrs := [] }.isMatch std req &&
      ips.any fun ip => (r.domains.isEmpty || r.domains.any (·.isMatch (hostName std (text ip)))) &&
        (r.cidrs = [] || cidrsContain r.cidrs ip)) := by
  rw [matchesSome, and_any_distrib_left, Bool.eq_iff_iff, any_eq_true, any_eq_true]
  refine exists_congr fun ip => and_congr_right fun member => ?_
  obtain ⟨read, found, same⟩ := Option.map_eq_some_iff.mp (spelled ip member)
  have parsed : (std.parseIP (text ip)).any (cidrsContain r.cidrs) = cidrsContain r.cidrs ip := by
    rw [found, Option.any_some, cidrsContain, cidrsContain, same]
  rw [← parsed]
  simp [isMatch, Request.redirect, and_assoc]

/-- For a name that no rule matches, the second pass takes the first rule whose domains the name
and whose prefixes an address satisfies, if and only if the first rule that is met in this reading
or with an address for the host is met in both. Rules without domains do not differ; one with
domains does not if the name satisfies it as the text of one of the addresses does. -/
theorem resolveRule_honours_iff {d : Dispatcher} {req : Request} {answer : List Addr}
    (strategy : d.domainStrategy = "IPIfNonMatch".toList ∨ d.domainStrategy = "IPOnDemand".toList)
    (named : req.targetHost ≠ [] ∧ std.parseIP req.targetHost = none)
    (unmatched : ∀ r ∈ d.rules, r.isMatch std req = false) (answered : answer ≠ [])
    (spelled : ∀ ip ∈ answer, (std.parseIP (text ip)).map Addr.unmap = some ip.unmap) :
    (d.resolveRule std text req answer = d.rules.find? (·.honours std req answer) ↔
        ∀ r, d.rules.find? (fun r => matchesSome std text req answer r ||
          r.honours std req answer) = some r →
            matchesSome std text req answer r = true ∧ r.honours std req answer = true) ∧
      (∀ r : CompiledRule, r.domains = [] →
        matchesSome std text req answer r = r.honours std req answer) ∧
      ∀ r : CompiledRule, r.domains ≠ [] → { r with domains := [], cidrs := [] }.isMatch std req →
        (matchesSome std text req answer r = r.honours std req answer ↔
          ((∃ ip ∈ answer, r.domains.any (·.isMatch (hostName std (text ip))) ∧
              (r.cidrs = [] ∨ cidrsContain r.cidrs ip)) ↔
            r.domains.any (·.isMatch (hostName std req.targetHost)) ∧
              (r.cidrs = [] ∨ answer.any (cidrsContain r.cidrs)))) := by
  have first : d.rules.find? (·.isMatch std req) = none :=
    find?_eq_none.mpr fun r member => by simp [unmatched r member]
  have second : d.resolveRule std text req answer =
      d.rules.find? (matchesSome std text req answer) := by
    rw [Dispatcher.resolveRule, first, matchResolved_eq, tryResolveAll, if_neg named.1, named.2]
    exact if_pos strategy
  rw [second]
  refine ⟨find?_eq_find?_iff _ _ d.rules, fun r none => ?_, fun r some met => ?_⟩
  · rw [matchesSome_eq spelled, CompiledRule.honours]
    by_cases free : r.cidrs = []
    · simp [none, free, exists_mem_of_ne_nil answer answered]
    · simp [none, free]
  · rw [matchesSome_eq spelled, CompiledRule.honours, met, Bool.eq_iff_iff]
    simp [some]

def addressStdlib : Stdlib :=
  { sampleStdlib with
    parseIP := fun s => if s = "1.2.3.4".toList then some (.v4 0x01020304) else none }

def addressText (_ : Addr) : Text := "1.2.3.4".toList
def sampleRequest : Request := ⟨"tcp".toList, "a.example.com".toList, 443, none, [], []⟩

def blocking (domains : List DomainMatcher) : Dispatcher :=
  ⟨[⟨"block".toList, domains, [⟨.v4 0x01020300, 24⟩], [], [], [], [], []⟩], "IPIfNonMatch".toList⟩

/-- A rule for another name before the one that is met. -/
def passingOver : Dispatcher :=
  { blocking [] with rules := (blocking [.full "b.org".toList]).rules ++ (blocking []).rules }

theorem resolveRule_honours_addresses :
    passingOver.resolveRule addressStdlib addressText sampleRequest [.v4 0x01020304] =
      passingOver.rules.find? (·.honours addressStdlib sampleRequest [.v4 0x01020304]) := by
  refine (resolveRule_honours_iff (by decide) (by decide +kernel) (by decide +kernel) (by decide)
    (by decide +kernel)).1.mpr fun r found => ?_
  obtain rfl | rest := eq_or_mem_of_mem_cons (mem_of_find?_eq_some found)
  · exact absurd (find?_some found) (by decide +kernel)
  · obtain rfl := mem_singleton.mp rest
    decide +kernel

/-- The name and the address both satisfy the rule, and it is passed over. -/
theorem domain_and_address_ignored :
    ((blocking [.suffix "example.com".toList]).resolveRule addressStdlib addressText sampleRequest
      [.v4 0x01020304]).isNone ∧
    ((blocking [.suffix "example.com".toList]).rules.find?
      (·.honours addressStdlib sampleRequest [.v4 0x01020304])).isSome ∧
    ∀ r ∈ (blocking [.suffix "example.com".toList]).rules,
      r.isMatch addressStdlib sampleRequest = false := by
  decide +kernel

open Option Machine.Folds
section
variable (std : Stdlib)

/-- The prefix as it is written; an address is one of full length. -/
def writtenPrefix (s : Text) : Option Prefix :=
  if '/' ∉ trimSpace s then (std.parseAddr (trimSpace s)).map fun addr => ⟨addr, addr.bitLen⟩
  else std.parsePrefix (trimSpace s)

def mapped (p : Prefix) : Prop := p.addr.is4In6 = true ∧ 96 ≤ p.bits
deriving Decidable

def denoted (p : Prefix) : Prefix := if mapped p then ⟨p.addr.unmap, p.bits - 96⟩ else p

lemma unmap_of_is4In6 {addr : Addr} (carries : addr.is4In6 = true) :
    ∃ x y, addr = .v6 x ∧ addr.unmap = .v4 y := by
  cases addr with
  | v4 x => cases carries
  | v6 x => exact ⟨x, x.setWidth 32, rfl, if_pos carries⟩

variable {std}

/-- An accepted entry matches exactly the addresses it denotes, unless it is written in the form of
IPv6 for addresses of IPv4: then it does not match those. -/
theorem parseCIDR_denotes_iff {s : Text} {p : Prefix} (accepted : parseCIDR std s = some p) :
    ∃ e, writtenPrefix std s = some e ∧
      ((∀ ip, cidrsContain [p] ip = (denoted e).contains ip.unmap) ↔ ¬ mapped e) := by
  obtain ⟨e, written, same, origin⟩ : ∃ e, writtenPrefix std s = some e ∧
      (¬ mapped e → p = e) ∧ p.addr = e.addr := by
    unfold parseCIDR at accepted
    unfold writtenPrefix
    split_ifs at accepted ⊢ with bare
    · exact ⟨p, accepted, fun _ => rfl, rfl⟩
    · obtain ⟨addr, found, rfl⟩ := map_eq_some_iff.mp accepted
      refine ⟨⟨addr, addr.bitLen⟩, by rw [found]; rfl, fun plain => ?_, rfl⟩
      cases addr with
      | v4 x => rfl
      | v6 x =>
        have outside : (Addr.v6 x).is4In6 = false := by
          rw [← Bool.not_eq_true]
          exact fun carries => plain ⟨carries, by simp [Addr.bitLen]⟩
        simp [outside, Addr.is4, Addr.bitLen]
  refine ⟨e, written, ?_, fun plain ip => ?_⟩
  · intro exact isMapped
    obtain ⟨x, y, six, four⟩ := unmap_of_is4In6 isMapped.1
    have here := exact e.addr
    rw [cidrsContain, any_cons, any_nil, Bool.or_false, denoted, if_pos isMapped, four] at here
    simp [Prefix.contains, origin, six] at here
  · rw [denoted, if_neg plain, same plain, cidrsContain, any_cons, any_nil, Bool.or_false]

def prefixStdlib : Stdlib :=
  { sampleStdlib with
    parseAddr := fun s => if s = "::ffff:1.2.3.4".toList then some (.v6 0xffff01020304) else none }

theorem parseCIDR_denotes_block :
    parseCIDR prefixStdlib "192.168.1.0/24".toList = some ⟨.v4 0xc0a80100, 24⟩ ∧
      ∀ ip, cidrsContain [⟨.v4 0xc0a80100, 24⟩] ip =
        (denoted ⟨.v4 0xc0a80100, 24⟩).contains ip.unmap := by
  have accepted : parseCIDR prefixStdlib "192.168.1.0/24".toList = some ⟨.v4 0xc0a80100, 24⟩ := by
    decide +kernel
  obtain ⟨e, written, exact⟩ := parseCIDR_denotes_iff accepted
  obtain rfl : ⟨.v4 0xc0a80100, 24⟩ = e :=
    some.inj ((by decide +kernel : _ = some _).symm.trans written)
  exact ⟨accepted, exact.mpr (by decide)⟩

theorem mapped_address_missed : ∃ p, parseCIDR prefixStdlib "::ffff:1.2.3.4".toList = some p ∧
      writtenPrefix prefixStdlib "::ffff:1.2.3.4".toList = some ⟨.v6 0xffff01020304, 128⟩ ∧
      cidrsContain [p] (.v6 0xffff01020304) = false ∧ cidrsContain [p] (.v6 1) = true ∧
      (denoted ⟨.v6 0xffff01020304, 128⟩).contains (Addr.v6 0xffff01020304).unmap = true :=
  ⟨⟨.v6 0xffff01020304, 32⟩, by decide +kernel⟩
end
section
variable (std : Stdlib)
def domainRuleToMatcher (rule : DomainRule) : Option DomainMatcher :=
  let value := std.toLower (trimSpace rule.value)
  let type := std.toLower (trimSpace rule.type)
  if value = [] then none
  else if type = "plain".toList then some (.keyword value)
  else if type = "rootdomain".toList ∨ type = "domain".toList then some (.suffix value)
  else if type = "regex".toList ∨ type = "regexp".toList then
    (std.compileRegexp value).map .regex
  else if type = "full".toList then some (.full value)
  else none

/-- The matcher was accepted for a pattern: of a `regexp:` or `regex:` entry, or of a geosite entry
of that type. -/
def AcceptedPattern (pattern : Text) (m : DomainMatcher) : Prop :=
  (∃ s left right, Text.cut ':' (trimSpace s) = some (left, right) ∧
      (std.toLower left = "regexp".toList ∨ std.toLower left = "regex".toList) ∧
      trimSpace right = pattern ∧ parseDomainMatcher std s = some m) ∨
    ∃ rule : DomainRule, (std.toLower (trimSpace rule.type) = "regex".toList ∨
      std.toLower (trimSpace rule.type) = "regexp".toList) ∧ trimSpace rule.value = pattern ∧
      domainRuleToMatcher std rule = some m

variable {std}
lemma AcceptedPattern.compiled {pattern m} (accepted : AcceptedPattern std pattern m) :
    ∃ lowered, std.compileRegexp (std.toLower pattern) = some lowered ∧ m = .regex lowered := by
  have found : (std.compileRegexp (std.toLower pattern)).map .regex = some m := by
    rcases accepted with ⟨s, left, right, parts, kind, rfl, done⟩ | ⟨rule, kind, rfl, done⟩
    · have filled : trimSpace s ≠ [] := by
        intro empty
        simp [empty, Text.cut] at parts
      unfold parseDomainMatcher at done
      rw [if_neg filled, parts] at done
      rcases kind with kind | kind <;> simpa [kind] using done
    · obtain ⟨-, done⟩ := ite_none_left_eq_some.mp done
      rcases kind with kind | kind <;> simpa [kind] using done
  obtain ⟨lowered, compiled, rfl⟩ := map_eq_some_iff.mp found
  exact ⟨lowered, compiled, rfl⟩

/-- The matcher decides the language of the pattern in lower case; it is that of the pattern as
written if and only if the two agree on all hosts, as for a pattern without upper case. -/
theorem accepted_pattern_language {pattern : Text} {m : DomainMatcher} {accepts : Text → Bool}
    (accepted : AcceptedPattern std pattern m)
    (written : std.compileRegexp pattern = some accepts) :
    ((∀ host, m.isMatch (hostName std host) = accepts (hostName std host)) ↔
        ∀ host, (std.compileRegexp (std.toLower pattern)).any (· (hostName std host)) =
          accepts (hostName std host)) ∧
      (std.toLower pattern = pattern →
        ∀ host, m.isMatch (hostName std host) = accepts (hostName std host)) := by
  obtain ⟨lowered, compiled, rfl⟩ := accepted.compiled
  refine ⟨by rw [compiled]; rfl, fun lower host => ?_⟩
  rw [lower, written, some.injEq] at compiled
  rw [compiled]
  rfl

def regexpStdlib : Stdlib :=
  { sampleStdlib with
    compileRegexp := fun s =>
      if s = "^\\d$".toList then some fun h => h.length = 1 && h.all Char.isDigit
      else if s = "^\\D$".toList then some fun h => h.length = 1 && !h.all Char.isDigit
      else none }

theorem accepted_pattern_digit :
    ∃ m, parseDomainMatcher regexpStdlib "regexp:^\\d$".toList = some m ∧
      ∀ host, m.isMatch (hostName regexpStdlib host) = ((hostName regexpStdlib host).length = 1 &&
          (hostName regexpStdlib host).all Char.isDigit) := by
  obtain ⟨m, parsed⟩ : ∃ m, parseDomainMatcher regexpStdlib "regexp:^\\d$".toList = some m :=
    isSome_iff_exists.mp (by decide +kernel)
  have accepted : AcceptedPattern regexpStdlib "^\\d$".toList m :=
    .inl ⟨_, "regexp".toList, "^\\d$".toList, by decide +kernel, by decide +kernel,
      by decide +kernel, parsed⟩
  exact ⟨m, parsed, (accepted_pattern_language accepted rfl).2 (by decide +kernel)⟩

theorem class_turned_around :
    ∃ m accepts, parseDomainMatcher regexpStdlib "regexp:^\\D$".toList = some m ∧
      regexpStdlib.compileRegexp "^\\D$".toList = some accepts ∧
      m.isMatch (hostName regexpStdlib "7".toList) = true ∧
      accepts (hostName regexpStdlib "7".toList) = false ∧
      m.isMatch (hostName regexpStdlib "x".toList) = false ∧
      accepts (hostName regexpStdlib "x".toList) = true :=
  ⟨_, _, rfl, rfl, by decide +kernel, by decide +kernel, by decide +kernel, by decide +kernel⟩
end
variable (std : Stdlib) (geo : GeoDB)

/-- The matchers and prefixes that an entry of the Domain list stands for. -/
def domainEntry (d : Text) : Option (List DomainMatcher × List Prefix) :=
  match geoPrefixValue std d "geosite".toList with
  | some name =>
    (geo.geositeMatchers name).bind fun ms => if ms.isEmpty then none else some (ms, [])
  | none =>
    match geoPrefixValue std d "geoip".toList with
    | some name => if geo.geoIPCIDRs name = [] then none else some ([], geo.geoIPCIDRs name)
    | none => (parseDomainMatcher std d).map fun m => ([m], [])

def isCountry (d : Text) : Bool :=
  geoPrefixValue std d "geosite".toList = none && (geoPrefixValue std d "geoip".toList).isSome

/-- A name or site list matches a host, a country an address inside its prefixes. -/
def entryMatches (host d : Text) : Bool :=
  (domainEntry std geo d).any fun entry =>
    entry.1.any (·.isMatch (hostName std host)) || (std.parseIP host).any (cidrsContain entry.2)

def addEntry (cr : CompiledRule) (entry : List DomainMatcher × List Prefix) : CompiledRule :=
  { cr with domains := cr.domains ++ entry.1, cidrs := cr.cidrs ++ entry.2 }

variable {std geo}
lemma compileDomain_eq_ok {cr after : CompiledRule} {d : Text} :
    compileDomain std geo cr d = .ok after ↔
      ∃ entry, domainEntry std geo d = some entry ∧ after = addEntry cr entry := by
  unfold compileDomain domainEntry appendGeositeMatchers appendGeoIPCIDRs addEntry
  cases geoPrefixValue std d "geosite".toList with
  | some name =>
    dsimp only
    rcases geo.geositeMatchers name with _ | ⟨_ | ⟨m, ms⟩⟩
    · exact iff_of_false nofun nofun
    · exact iff_of_false nofun nofun
    · simp only [bind_some, isEmpty_cons, Bool.false_eq_true, if_false,
        some.injEq, exists_eq_left', append_nil, Except.ok.injEq]
      exact eq_comm
  | none =>
    cases geoPrefixValue std d "geoip".toList with
    | some name =>
      dsimp only
      split_ifs <;> simp [eq_comm]
    | none => cases parseDomainMatcher std d <;> simp [eq_comm]

lemma domainEntry_kind {d entry} (found : domainEntry std geo d = some entry) :
    (isCountry std d = true → entry.1 = [] ∧ entry.2 ≠ []) ∧
      (isCountry std d = false → entry.1 ≠ [] ∧ entry.2 = []) := by
  unfold domainEntry at found
  split at found
  · next name site =>
    obtain ⟨ms, -, found⟩ := bind_eq_some_iff.mp found
    obtain ⟨some, ⟨⟩⟩ := ite_none_left_eq_some.mp found
    exact ⟨fun country => absurd country (by rw [isCountry, site]; simp),
      fun _ => ⟨by simpa using some, rfl⟩⟩
  · next site =>
    split at found
    · next name country =>
      obtain ⟨some, ⟨⟩⟩ := ite_none_left_eq_some.mp found
      exact ⟨fun _ => ⟨rfl, some⟩, fun none => absurd none (by rw [isCountry, site, country]; simp)⟩
    · next country =>
      obtain ⟨m, -, rfl⟩ := map_eq_some_iff.mp found
      exact ⟨fun some => absurd some (by rw [isCountry, site, country]; simp), fun _ => by simp⟩

lemma any_cidrsContain_nil (host : Text) : (std.parseIP host).any (cidrsContain []) = false := by
  cases std.parseIP host <;> rfl

lemma kinds_of_parsed {listed : List Text} {entries : List (List DomainMatcher × List Prefix)}
    (parsed : Forall₂ (fun d entry => domainEntry std geo d = some entry) listed entries)
    (host : Text) :
    (entries.flatMap Prod.fst ≠ [] ↔ ∃ d ∈ listed, isCountry std d = false) ∧
      (entries.flatMap Prod.snd ≠ [] ↔ ∃ d ∈ listed, isCountry std d = true) ∧
      (entries.flatMap Prod.fst).any (·.isMatch (hostName std host)) =
        listed.any (fun d => !isCountry std d && entryMatches std geo host d) ∧
      (std.parseIP host).any (cidrsContain (entries.flatMap Prod.snd)) =
        listed.any (fun d => isCountry std d && entryMatches std geo host d) := by
  induction parsed with
  | nil => exact ⟨by simp, by simp, rfl, any_cidrsContain_nil host⟩
  | @cons d entry listed entries first _ ih =>
    obtain ⟨country, name⟩ := domainEntry_kind first
    have hit : entryMatches std geo host d = (entry.1.any (·.isMatch (hostName std host)) ||
        (std.parseIP host).any (cidrsContain entry.2)) := by
      rw [entryMatches, first, any_some]
    have split : (std.parseIP host).any (cidrsContain (entry.2 ++ entries.flatMap Prod.snd)) =
        ((std.parseIP host).any (cidrsContain entry.2) ||
          (std.parseIP host).any (cidrsContain (entries.flatMap Prod.snd))) := by
      cases std.parseIP host <;> simp [cidrsContain]
    rw [flatMap_cons, flatMap_cons, any_append, split, any_cons, any_cons, hit, ← ih.2.2.1,
      ← ih.2.2.2]
    generalize entries.flatMap Prod.fst = names, entries.flatMap Prod.snd = prefixes at ih ⊢
    cases kind : isCountry std d with
    | true => simp [kind, country kind, ← ih.1]
    | false => simp [kind, name kind, any_cidrsContain_nil, ← ih.2.1]

lemma foldl_addEntry (entries : List (List DomainMatcher × List Prefix)) (cr : CompiledRule) :
    entries.foldl addEntry cr = { cr with
        domains := cr.domains ++ entries.flatMap Prod.fst
        cidrs := cr.cidrs ++ entries.flatMap Prod.snd } := by
  induction entries generalizing cr with
  | nil => simp
  | cons entry entries ih => simp [ih, addEntry]

lemma keeps_compileIP {c} {cr after : CompiledRule}
    (added : compileIP std geo cr c = .ok after) :
    after.domains = cr.domains ∧ cr.cidrs <+: after.cidrs := by
  unfold compileIP appendGeoIPCIDRs at added
  split at added
  · split_ifs at added
    cases added
    exact ⟨rfl, prefix_append _ _⟩
  · split at added <;> cases added
    exact ⟨rfl, prefix_append _ _⟩

lemma keeps_compileSource {c} {cr after : CompiledRule}
    (added : compileSource std cr c = .ok after) :
    after.domains = cr.domains ∧ after.cidrs = cr.cidrs := by
  unfold compileSource at added
  split at added <;> cases added
  exact ⟨rfl, rfl⟩

/-- A rule that has only names and prefixes takes the request if each kind that it has does. -/
lemma isMatch_listed {tag : Text} {names : List DomainMatcher} {prefixes : List Prefix}
    (filled : names ≠ [] ∨ prefixes ≠ []) (req : Request) :
    CompiledRule.isMatch std ⟨tag, names, prefixes, [], [], [], [], []⟩ req =
        (names.any (·.isMatch (hostName std req.targetHost)) ||
          (std.parseIP req.targetHost).any (cidrsContain prefixes)) ↔
      (names ≠ [] → prefixes ≠ [] → names.any (·.isMatch (hostName std req.targetHost)) =
        (std.parseIP req.targetHost).any (cidrsContain prefixes)) := by
  by_cases noNames : names = []
  · simp [isMatch, noNames, filled.resolve_left (not_not.mpr noNames)]
  · by_cases noPrefixes : prefixes = []
    · simp [isMatch, noNames, noPrefixes, any_cidrsContain_nil]
    · have both : ∀ a b : Bool, (a && b) = (a || b) ↔ a = b := by decide
      simp only [isMatch, isEmpty_eq_false_iff.mpr noNames, noPrefixes,
        decide_true, decide_false, Bool.true_or, Bool.true_and, Bool.false_or, both, ne_eq,
        noNames, not_false_eq_true, true_imp_iff]

/-- The Domain list of an accepted rule has a part of its own in the compiled rule. That part is
satisfied exactly if an entry matches, unless the list has names and countries and the host
satisfies only one kind: each kind must be satisfied. -/
theorem domain_list_or_iff {r : Match} {tag : Text} {cr : CompiledRule}
    (done : compileRule std geo r tag = .ok cr) :
    ∃ part, compileRule std geo { domain := r.domain } tag = .ok part ∧
      part.domains <:+ cr.domains ∧ part.cidrs <:+: cr.cidrs ∧
      ∀ req : Request, r.domain ≠ [] →
        (part.isMatch std req = r.domain.any (entryMatches std geo req.targetHost) ↔
          ((∃ d ∈ r.domain, isCountry std d = false) → (∃ d ∈ r.domain, isCountry std d = true) →
            r.domain.any (fun d => !isCountry std d && entryMatches std geo req.targetHost d) =
              r.domain.any fun d => isCountry std d && entryMatches std geo req.targetHost d)) := by
  obtain ⟨first, -, done⟩ := bind_eq_ok.mp done
  obtain ⟨second, -, done⟩ := bind_eq_ok.mp done
  obtain ⟨third, named, done⟩ := bind_eq_ok.mp done
  obtain ⟨entries, parsed, rfl⟩ := foldlM_parsed (domainEntry std geo) addEntry
    (fun d _ b c added => compileDomain_eq_ok.mp added) named
  obtain ⟨fourth, prefixed, done⟩ := bind_eq_ok.mp done
  obtain ⟨fifth, sourced, done⟩ := bind_eq_ok.mp done
  obtain ⟨ranges, -, done⟩ := bind_eq_ok.mp done
  obtain ⟨network, -, done⟩ := bind_eq_ok.mp done
  cases done
  have alone : compileRule std geo { domain := r.domain } tag =
      .ok ⟨tag, entries.flatMap Prod.fst, entries.flatMap Prod.snd, [], [], [], [], []⟩ := by
    have listed := foldlM_of_parsed addEntry (f := compileDomain std geo) parsed
      (fun d _ b entry found => compileDomain_eq_ok.mpr ⟨entry, found, rfl⟩)
      ⟨tag, [], [], [], [], [], [], []⟩
    rw [foldl_addEntry] at listed
    exact bind_eq_ok.mpr ⟨_, rfl, bind_eq_ok.mpr ⟨_, rfl, bind_eq_ok.mpr ⟨_, listed, rfl⟩⟩⟩
  rw [foldl_addEntry] at prefixed
  -- What is compiled after the list leaves its matchers where they are and adds to its prefixes.
  let Keeps (cr : CompiledRule) := cr.domains = second.domains ++ entries.flatMap Prod.fst ∧
    second.cidrs ++ entries.flatMap Prod.snd <+: cr.cidrs
  have later : Keeps fourth := by
    refine foldlM_invariant ?_ ⟨rfl, prefix_rfl⟩ prefixed
    intro b c after inv added
    have keeps := keeps_compileIP added
    exact ⟨keeps.1.trans inv.1, inv.2.trans keeps.2⟩
  have kept : Keeps fifth := by
    refine foldlM_invariant ?_ later sourced
    intro b c after inv added
    obtain ⟨domains, cidrs⟩ := keeps_compileSource added
    exact ⟨domains.trans inv.1, cidrs ▸ inv.2⟩
  refine ⟨_, alone, ⟨second.domains, kept.1.symm⟩, ?_, ?_⟩
  · obtain ⟨more, whole⟩ := kept.2
    exact ⟨second.cidrs, more, whole⟩
  · intro req filled
    obtain ⟨names, countries, byName, byAddress⟩ := kinds_of_parsed parsed req.targetHost
    have matched : r.domain.any (entryMatches std geo req.targetHost) =
        ((entries.flatMap Prod.fst).any (·.isMatch (hostName std req.targetHost)) ||
          (std.parseIP req.targetHost).any (cidrsContain (entries.flatMap Prod.snd))) := by
      rw [byName, byAddress, Bool.eq_iff_iff, Bool.or_eq_true]
      simp only [List.any_eq_true, ← exists_or]
      refine exists_congr fun d => ?_
      cases isCountry std d <;> simp
    have kinds : entries.flatMap Prod.fst ≠ [] ∨ entries.flatMap Prod.snd ≠ [] := by
      obtain ⟨d, member⟩ := exists_mem_of_ne_nil _ filled
      rw [names, countries]
      cases kind : isCountry std d with
      | true => exact .inr ⟨d, member, kind⟩
      | false => exact .inl ⟨d, member, kind⟩
    rw [← names, ← countries, ← byName, ← byAddress, matched]
    exact isMatch_listed kinds req

def countryGeo : GeoDB :=
  { geoIPCIDRs := fun _ => [⟨.v4 0x01020300, 24⟩], geoSiteDomainRules := fun _ => []
    geositeMatchers := fun _ => none }

def hostRequest (host : Text) : Request := ⟨"tcp".toList, host, 443, none, [], []⟩

def addressAndCountry : Match := { domain := ["full:1.2.3.4".toList, "geoip:ru".toList] }

theorem domain_list_or_both :
    ∃ part, compileRule addressStdlib countryGeo addressAndCountry [] = .ok part ∧
      part.isMatch addressStdlib (hostRequest "1.2.3.4".toList) =
        addressAndCountry.domain.any (entryMatches addressStdlib countryGeo "1.2.3.4".toList) := by
  have done : compileRule addressStdlib countryGeo addressAndCountry [] =
      .ok ⟨[], [.full "1.2.3.4".toList], [⟨.v4 0x01020300, 24⟩], [], [], [], [], []⟩ := rfl
  obtain ⟨part, alone, -, -, exact⟩ := domain_list_or_iff done
  exact ⟨part, alone, (exact (hostRequest _) (by simp [addressAndCountry])).mpr fun _ _ => rfl⟩

/-- The host satisfies the first entry, and the second one keeps the rule from matching. -/
theorem country_shadows_name :
    (compileRule sampleStdlib countryGeo { domain := ["full:a.b".toList] } []).toOption.any
        (·.isMatch sampleStdlib (hostRequest "a.b".toList)) = true ∧
      entryMatches sampleStdlib countryGeo "a.b".toList "full:a.b".toList = true ∧
      (compileRule sampleStdlib countryGeo
        { domain := ["full:a.b".toList, "geoip:ru".toList] } []).toOption.map
          (·.isMatch sampleStdlib (hostRequest "a.b".toList)) = some false := by
  decide +kernel
end Tamizdat.Routing
