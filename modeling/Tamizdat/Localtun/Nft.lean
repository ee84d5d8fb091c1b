/- source: internal/localtun/selective_linux.go
   digest: The emitted classifier, which decides as the first matching rule of the policy does. -/

import Tamizdat.Localtun.Policy

set_option autoImplicit false

namespace Tamizdat.Localtun
open Machine Machine.Prefixes Routing

/-- A TCP or UDP packet at the classifier. Both addresses are of one family. -/
structure Packet where
  iifname : Text
  /-- `fib daddr type local`. -/
  daddrLocal : Bool
  saddr : Addr
  daddr : Addr
  family : saddr.is4 = daddr.is4
  proto : Network
  dport : UInt16
  mark : BitVec 32

inductive Outcome
  | passes (mark : BitVec 32)
  | drops | rejects
deriving DecidableEq

inductive Verdict
  | returns
  /-- `meta mark set (meta mark & 0xffffff00) | 0x9d return`. -/
  | marks | drop
  /-- `reject with icmpv6 addr-unreachable`. -/
  | reject
deriving DecidableEq

inductive SetName
  | bypassV4 | bypassV6
  | rule4 (index : Nat)
  | rule6 (index : Nat)
deriving DecidableEq

/-- The elements of a set: given, or added by ChinaDNS as it resolves the domains of a group. -/
inductive Elements
  | static (prefixes : List Prefix)
  | resolved (domains : List Text)

inductive Expr
  | iifname (names : List Text)
  | fibDaddrLocal
  | l4proto (protos : List Network)
  | thDport (ranges : List PortRange)
  | nfproto4 | nfproto6
  | ipSaddr (prefixes : List Prefix)
  | ip6Saddr (prefixes : List Prefix)
  | ipDaddr (set : SetName)
  | ip6Daddr (set : SetName)

structure Line where
  exprs : List Expr
  verdict : Verdict

structure Table where
  sets : List (SetName × Elements)
  classify : List Line

def nftProtos (network : Text) : List Network :=
  if network = "tcp".toList then [.tcp]
  else if network = "udp".toList then [.udp]
  else [.tcp, .udp]

def nftNetworkExpr (network : Text) : Expr := .l4proto (nftProtos network)

def IngressAction.verdict4 : IngressAction → Verdict
  | .direct => .returns
  | .tunnel => .marks
  | .block => .drop

def IngressAction.verdict6 : IngressAction → Verdict
  | .direct => .returns
  | .tunnel => .reject
  | .block => .drop

section
variable (rule : IngressRule)
def nftBase (iif : Expr) : List Expr :=
  iif :: nftNetworkExpr rule.network :: if rule.ports = [] then [] else [.thDport rule.ports]

def IngressRule.hasDestination : Bool :=
  0 < rule.domains.length + rule.ipv4.length + rule.ipv6.length

def nftRuleLines (iif : Expr) : List Line :=
  let base := nftBase rule iif
  let action4 := rule.action.verdict4
  let action6 := rule.action.verdict6
  if rule.hasDestination = false then
    if rule.source4 = [] ∧ rule.source6 = [] then
      if action4 = action6 then [⟨base, action4⟩]
      else [⟨base ++ [.nfproto4], action4⟩, ⟨base ++ [.nfproto6], action6⟩]
    else
      (if rule.source4 = [] then [] else [⟨base ++ [.ipSaddr rule.source4], action4⟩]) ++
        if rule.source6 = [] then [] else [⟨base ++ [.ip6Saddr rule.source6], action6⟩]
  else
    (if (rule.domains ≠ [] ∨ rule.ipv4 ≠ []) ∧ rule.source6 = [] then
        [⟨base ++ (if rule.source4 = [] then [] else [.ipSaddr rule.source4]) ++
          [.ipDaddr (.rule4 rule.index)], action4⟩]
      else []) ++
      if (rule.domains ≠ [] ∨ rule.ipv6 ≠ []) ∧ rule.source4 = [] then
        [⟨base ++ (if rule.source6 = [] then [] else [.ip6Saddr rule.source6]) ++
          [.ip6Daddr (.rule6 rule.index)], action6⟩]
      else []

def bypassV4 (bypassPrivate : Bool) : List Prefix :=
  [⟨.v4 0x00000000, 8⟩, ⟨.v4 0x7f000000, 8⟩, ⟨.v4 0xa9fe0000, 16⟩, ⟨.v4 0xc6120000, 15⟩,
    ⟨.v4 0xe0000000, 4⟩, ⟨.v4 0xf0000000, 4⟩] ++
    if bypassPrivate then
      [⟨.v4 0x0a000000, 8⟩, ⟨.v4 0x64400000, 10⟩, ⟨.v4 0xac100000, 12⟩, ⟨.v4 0xc0a80000, 16⟩]
    else []

def bypassV6 : List Prefix :=
  [⟨.v6 0, 128⟩, ⟨.v6 1, 128⟩, ⟨.v6 0xfe800000000000000000000000000000, 10⟩,
    ⟨.v6 0xfc000000000000000000000000000000, 7⟩, ⟨.v6 0xff000000000000000000000000000000, 8⟩]

def nftRuleSets : List (SetName × Elements) :=
  if rule.domains ≠ [] then
    [(.rule4 rule.index, .resolved rule.domains), (.rule6 rule.index, .resolved rule.domains)]
  else
    (if rule.ipv4 = [] then [] else [(.rule4 rule.index, .static rule.ipv4)]) ++
      if rule.ipv6 = [] then [] else [(.rule6 rule.index, .static rule.ipv6)]
end

def fallbackAction (fallbackTag : Text) : IngressAction :=
  if trimSpace fallbackTag = [] ∨ trimSpace fallbackTag = "direct".toList then .direct
  else if trimSpace fallbackTag = "block".toList then .block
  else .tunnel

def nftFallbackLines (fallbackTag : Text) (iif : Expr) : List Line :=
  if fallbackAction fallbackTag = .direct then []
  else nftRuleLines { action := fallbackAction fallbackTag } iif

def nftConfig (bypassPrivate : Bool) (fallbackTag : Text) (policy : IngressPolicy)
    (ifaces : List Text) : Table where
  sets := (.bypassV4, .static (bypassV4 bypassPrivate)) :: (.bypassV6, .static bypassV6) ::
    policy.rules.flatMap nftRuleSets
  classify :=
    let iif := .iifname ifaces
    ⟨[iif, .fibDaddrLocal], .returns⟩ ::
    ⟨[iif, .l4proto [.tcp, .udp], .thDport [⟨853, 853⟩]], .drop⟩ ::
    ⟨[iif, .ipDaddr .bypassV4], .returns⟩ ::
    ⟨[iif, .ip6Daddr .bypassV6], .returns⟩ ::
    policy.rules.flatMap (fun rule => nftRuleLines rule iif) ++ nftFallbackLines fallbackTag iif

section

-- `resolved d a` says that ChinaDNS has resolved the domain `d` to the address `a`.
variable (resolved : Text → Addr → Bool)
def Elements.has (a : Addr) : Elements → Bool
  | .static prefixes => prefixes.any (·.contains a)
  | .resolved domains => domains.any (resolved · a)

def Table.has (table : Table) (name : SetName) (a : Addr) : Bool :=
  (table.sets.lookup name).any (Elements.has resolved a)

def Expr.holds (table : Table) (p : Packet) : Expr → Bool
  | .iifname names => names.contains p.iifname
  | .fibDaddrLocal => p.daddrLocal
  | .l4proto protos => protos.contains p.proto
  | .thDport ranges => portInRanges p.dport.toNat ranges
  | .nfproto4 => p.daddr.is4
  | .nfproto6 => !p.daddr.is4
  | .ipSaddr prefixes => p.saddr.is4 && prefixes.any (·.contains p.saddr)
  | .ip6Saddr prefixes => !p.saddr.is4 && prefixes.any (·.contains p.saddr)
  | .ipDaddr set => p.daddr.is4 && table.has resolved set p.daddr
  | .ip6Daddr set => !p.daddr.is4 && table.has resolved set p.daddr

def Verdict.outcome (p : Packet) : Verdict → Outcome
  | .returns => .passes p.mark
  | .marks => .passes (p.mark &&& 0xffffff00 ||| 0x9d)
  | .drop => .drops
  | .reject => .rejects

def Line.applies (table : Table) (p : Packet) (line : Line) : Bool :=
  line.exprs.all (Expr.holds resolved table p)

def decided (table : Table) (p : Packet) (lines : List Line) : Option Outcome :=
  (lines.find? (Line.applies resolved table p)).map fun line => line.verdict.outcome p

def Table.evaluate (table : Table) (p : Packet) : Outcome :=
  (decided resolved table p table.classify).getD (.passes p.mark)
end
variable (resolved : Text → Addr → Bool)
variable (rule : IngressRule)
def IngressRule.allowsSource (a : Addr) : Bool :=
  (rule.source4 = [] && rule.source6 = []) || (rule.source4 ++ rule.source6).any (·.contains a)

def IngressRule.allowsDestination (a : Addr) : Bool :=
  !rule.hasDestination || rule.domains.any (resolved · a) ||
    (rule.ipv4 ++ rule.ipv6).any (·.contains a)

def IngressRule.allowsService (proto : Network) (port : Int) : Bool :=
  (rule.network = [] || networkMatches rule.network proto.text) &&
    (rule.ports = [] || portInRanges port rule.ports)

def IngressRule.selects (p : Packet) (rule : IngressRule) : Bool :=
  rule.allowsService p.proto p.dport.toNat && rule.allowsSource p.saddr &&
    rule.allowsDestination resolved p.daddr

def IngressAction.outcome (p : Packet) : IngressAction → Outcome
  | .direct => .passes p.mark
  | .block => .drops
  | .tunnel => if p.daddr.is4 then .passes (p.mark &&& 0xffffff00 ||| 0x9d) else .rejects

def firstMatch (fallback : IngressAction) (rules : List IngressRule) (p : Packet) : Outcome :=
  (((rules.find? (IngressRule.selects resolved p)).map (·.action)).getD fallback).outcome p

/-- No line is emitted for a rule with a destination and with sources of both families. -/
def IngressRule.lost : Bool := rule.hasDestination && rule.source4 ≠ [] && rule.source6 ≠ []
end Tamizdat.Localtun
open List Option
namespace Tamizdat.Localtun
open Machine Machine.Prefixes Routing
open Expr (holds ip6Daddr ipDaddr)
open IngressRule (allowsDestination allowsSource lost selects)
variable {resolved : Text → Addr → Bool} {table : Table} {p : Packet} {rule : IngressRule}
  {ifaces : List Text}

@[simp] lemma decided_nil : decided resolved table p [] = none := rfl

lemma decided_append (front back : List Line) : decided resolved table p (front ++ back) =
      (decided resolved table p front).or (decided resolved table p back) := by
  rw [decided, decided, decided, find?_append, map_or]

lemma decided_cons (line : Line) (lines : List Line) : decided resolved table p (line :: lines) =
      if line.applies resolved table p then some (line.verdict.outcome p)
      else decided resolved table p lines := by
  rw [decided, find?_cons]
  cases line.applies resolved table p <;> rfl

lemma applies_append (front back : List Expr) (verdict : Verdict) :
    Line.applies resolved table p ⟨front ++ back, verdict⟩ =
      (front.all (holds resolved table p) && back.all (holds resolved table p)) := by
  rw [Line.applies, all_append]
lemma contains_nftProtos : ∀ network ∈ networks, ∀ proto : Network,
    (nftProtos network).contains proto = networkMatches network proto.text := by
  intro network listed proto
  cases proto <;> revert network <;> decide

lemma holds_nftNetworkExpr (known : rule.network = [] ∨ rule.network ∈ networks) :
    (nftNetworkExpr rule.network).holds resolved table p =
      (rule.network = [] || networkMatches rule.network p.proto.text) := by
  rw [nftNetworkExpr, holds]
  rcases known with empty | listed
  · rw [empty]
    cases p.proto <;> decide
  · rw [contains_nftProtos rule.network listed]
    have named : rule.network ≠ [] := by
      intro empty
      rw [empty] at listed
      revert listed
      decide
    simp [named]

lemma all_nftBase {ifaces} (known : rule.network = [] ∨ rule.network ∈ networks)
    (managed : p.iifname ∈ ifaces) :
    (nftBase rule (.iifname ifaces)).all (holds resolved table p) =
      rule.allowsService p.proto p.dport.toNat := by
  have iif : (Expr.iifname ifaces).holds resolved table p = true := by
    simpa [holds] using managed
  rw [nftBase, all_cons, all_cons, iif, Bool.true_and, holds_nftNetworkExpr known,
    IngressRule.allowsService]
  split_ifs with any
  · simp [any]
  · simp [any, holds]

lemma lookup_cons_apply (k name : SetName) (elements : Elements)
    (sets : List (SetName × Elements)) :
    ((name, elements) :: sets).lookup k = if k = name then some elements else sets.lookup k := by
  rw [lookup_cons]
  by_cases same : k = name
  · simp [same]
  · rw [beq_eq_false_iff_ne.mpr same, if_neg same]

lemma lookup_nftRuleSets_ne {i rule} (other : rule.index ≠ i) :
    (nftRuleSets rule).lookup (.rule4 i) = none ∧ (nftRuleSets rule).lookup (.rule6 i) = none := by
  have distinct : i ≠ rule.index := Ne.symm other
  unfold nftRuleSets
  split_ifs <;> simp [lookup_cons_apply, distinct]

lemma lookup_flatMap_nftRuleSets {name rule} {rules : List IngressRule}
    (named : name = .rule4 rule.index ∨ name = .rule6 rule.index) (member : rule ∈ rules)
    (distinct : rules.Pairwise fun a b => a.index ≠ b.index) :
    (rules.flatMap nftRuleSets).lookup name = (nftRuleSets rule).lookup name := by
  have others : ∀ other : IngressRule, other.index ≠ rule.index →
      (nftRuleSets other).lookup name = none := by
    intro other differs
    rcases named with rfl | rfl
    · exact (lookup_nftRuleSets_ne differs).1
    · exact (lookup_nftRuleSets_ne differs).2
  have absent : ∀ rest : List IngressRule, (∀ other ∈ rest, other.index ≠ rule.index) →
      (rest.flatMap nftRuleSets).lookup name = none := by
    intro rest differ
    induction rest with
    | nil => rfl
    | cons other rest ih =>
      rw [flatMap_cons, lookup_append, others other (differ other mem_cons_self), none_or]
      exact ih fun third later => differ third (mem_cons_of_mem other later)
  obtain ⟨front, back, rfl⟩ := append_of_mem member
  rw [pairwise_append] at distinct
  obtain ⟨-, behind, before⟩ := distinct
  rw [flatMap_append, lookup_append, flatMap_cons, lookup_append,
    absent front fun other inFront => before other inFront rule mem_cons_self,
    absent back fun other inBack => Ne.symm ((pairwise_cons.mp behind).1 other inBack),
    none_or, or_none]

lemma has_nftConfig {rule} (resolved : Text → Addr → Bool) (bypassPrivate : Bool)
    (fallbackTag : Text)
    (ifaces : List Text) {policy : IngressPolicy} (formed : policy.Formed)
    (member : rule ∈ policy.rules) (a : Addr) :
    (rule.domains ≠ [] ∨ rule.ipv4 ≠ [] →
      (nftConfig bypassPrivate fallbackTag policy ifaces).has resolved (.rule4 rule.index) a =
        (rule.domains.any (resolved · a) || rule.ipv4.any (·.contains a))) ∧
    (rule.domains ≠ [] ∨ rule.ipv6 ≠ [] →
      (nftConfig bypassPrivate fallbackTag policy ifaces).has resolved (.rule6 rule.index) a =
        (rule.domains.any (resolved · a) || rule.ipv6.any (·.contains a))) := by
  have distinct : policy.rules.Pairwise fun a b => a.index ≠ b.index := by
    rw [pairwise_iff_getElem]
    intro i j inside later order same
    have first := (formed i _ (getElem?_eq_getElem inside)).1
    have second := (formed j _ (getElem?_eq_getElem later)).1
    omega
  obtain ⟨i, here⟩ := mem_iff_getElem?.mp member
  have shaped := (formed i rule here).2
  have skip {name : SetName} (own : name = .rule4 rule.index ∨ name = .rule6 rule.index) :
      (nftConfig bypassPrivate fallbackTag policy ifaces).sets.lookup name =
        (nftRuleSets rule).lookup name := by
    rw [← lookup_flatMap_nftRuleSets own member distinct]
    rcases own with rfl | rfl <;> simp [nftConfig, lookup_cons_apply]
  rw [Table.has, Table.has, skip (.inl rfl), skip (.inr rfl)]
  by_cases named : rule.domains = []
  · constructor
    · intro some4
      have given : rule.ipv4 ≠ [] := by simpa [named] using some4
      simp [nftRuleSets, named, given, Elements.has]
    · intro some6
      have given : rule.ipv6 ≠ [] := by simpa [named] using some6
      by_cases none4 : rule.ipv4 = [] <;>
        simp [nftRuleSets, named, none4, given, Elements.has, lookup_cons_apply]
  · obtain ⟨none4, none6⟩ := shaped.exclusive named
    simp [nftRuleSets, named, none4, none6, Elements.has, lookup_cons_apply]

section
variable {prefixes : List Prefix} {a : Addr}
lemma any_contains_of_family {four} (family : ∀ q ∈ prefixes, q.addr.is4 = four)
    (other : a.is4 ≠ four) : prefixes.any (·.contains a) = false := by
  rw [List.any_eq_false]
  intro q member inside
  exact other ((Prefix.is4_of_contains inside).trans (family q member))

lemma outcome_verdict4 (four : p.daddr.is4 = true) (action : IngressAction) :
    action.verdict4.outcome p = action.outcome p := by
  cases action <;> simp [IngressAction.verdict4, Verdict.outcome, IngressAction.outcome, four]

lemma outcome_verdict6 (six : p.daddr.is4 = false) (action : IngressAction) :
    action.verdict6.outcome p = action.outcome p := by
  cases action <;> simp [IngressAction.verdict6, Verdict.outcome, IngressAction.outcome, six]

lemma decided_optional (emitted : Prop) [Decidable emitted] (line : Line) :
    decided resolved table p (if emitted then [line] else []) =
      if decide emitted && line.applies resolved table p then some (line.verdict.outcome p)
      else none := by
  by_cases present : emitted
  · rw [if_pos present, decided_cons, decided_nil, decide_eq_true present, Bool.true_and]
  · rw [if_neg present, decided_nil, decide_eq_false present, Bool.false_and,
      if_neg Bool.false_ne_true]

lemma all_optional (absent : Prop) [Decidable absent] (expr : Expr) :
    (if absent then [] else [expr]).all (holds resolved table p) =
      (decide absent || expr.holds resolved table p) := by
  by_cases none : absent <;> simp [none]

lemma decided_open (network : rule.network = [] ∨
    rule.network ∈ networks) (managed : p.iifname ∈ ifaces)
    (noDestination : rule.hasDestination = false)
    (noSource : rule.source4 = [] ∧ rule.source6 = []) :
    decided resolved table p (nftRuleLines rule (.iifname ifaces)) =
      if rule.allowsService p.proto p.dport.toNat then some (rule.action.outcome p) else none := by
  have base : (nftBase rule (.iifname ifaces)).all (holds resolved table p) =
      rule.allowsService p.proto p.dport.toNat := all_nftBase network managed
  simp only [nftRuleLines, noDestination, if_true, noSource, and_self]
  split_ifs with same allowed allowed
  · rw [decided_cons, Line.applies, base, if_pos allowed]
    cases four : p.daddr.is4 with
    | true => rw [outcome_verdict4 four]
    | false => rw [same, outcome_verdict6 four]
  · rw [decided_cons, Line.applies, base, if_neg allowed, decided_nil]
  · rw [decided_cons, decided_cons, applies_append, applies_append, base, allowed]
    cases four : p.daddr.is4 with
    | true => simp [holds, four, outcome_verdict4 four]
    | false => simp [holds, four, outcome_verdict6 four]
  · rw [decided_cons, decided_cons, applies_append, applies_append, base,
      eq_false_of_ne_true allowed]
    simp

lemma isEmpty_imp_any (empty : prefixes = []) : prefixes.any (·.contains a) = false := by
  rw [empty, any_nil]

lemma decided_sources (formed : rule.Formed) (managed : p.iifname ∈ ifaces)
    (noDestination : rule.hasDestination = false)
    (sources : ¬ (rule.source4 = [] ∧ rule.source6 = [])) :
    decided resolved table p (nftRuleLines rule (.iifname ifaces)) =
      if rule.allowsService p.proto p.dport.toNat && rule.allowsSource p.saddr then
        some (rule.action.outcome p)
      else none := by
  have base : (nftBase rule (.iifname ifaces)).all (holds resolved table p) =
      rule.allowsService p.proto p.dport.toNat := all_nftBase formed.network managed
  have named : (decide (rule.source4 = []) && decide (rule.source6 = [])) = false := by
    simpa using sources
  simp only [nftRuleLines, noDestination, if_true, if_neg sources]
  rw [← ite_not, ← ite_not (rule.source6 = []), decided_append, decided_optional, decided_optional,
    applies_append, applies_append, base, all_cons, all_cons, all_nil, Bool.and_true,
    Bool.and_true, allowsSource, named, Bool.false_or, any_append]
  cases four : p.daddr.is4 with
  | true =>
    have saddr4 : p.saddr.is4 = true := p.family.trans four
    have none6 : rule.source6.any (·.contains p.saddr) = false :=
      any_contains_of_family formed.separated.source6 (by simp [saddr4])
    rw [outcome_verdict4 four]
    simp only [holds, saddr4, none6, Bool.true_and, Bool.not_true,
      Bool.and_false, Bool.false_eq_true, if_false, or_none, Bool.or_false]
    by_cases empty : rule.source4 = []
    · simp [isEmpty_imp_any empty]
    · simp [empty]
  | false =>
    have saddr6 : p.saddr.is4 = false := p.family.trans four
    have none4 : rule.source4.any (·.contains p.saddr) = false :=
      any_contains_of_family formed.separated.source4 (by simp [saddr6])
    rw [outcome_verdict6 four]
    simp only [holds, saddr6, none4, Bool.true_and, Bool.not_false,
      Bool.and_false, Bool.false_eq_true, if_false, none_or, Bool.false_or]
    by_cases empty : rule.source6 = []
    · simp [isEmpty_imp_any empty]
    · simp [empty]

lemma line_of_family {held dst service src} {own other : List Prefix}
    (has : rule.domains ≠ [] ∨ prefixes ≠ [] →
      held = (rule.domains.any (resolved · dst) || prefixes.any (·.contains dst))) :
    (decide ((rule.domains ≠ [] ∨ prefixes ≠ []) ∧ other = []) &&
        (service && (decide (own = []) || own.any (·.contains src)) && held)) =
      (service && (decide (own = []) && decide (other = []) || own.any (·.contains src)) &&
        (rule.domains.any (resolved · dst) || prefixes.any (·.contains dst)) &&
        !(decide (own ≠ []) && decide (other ≠ []))) := by
  by_cases active : rule.domains ≠ [] ∨ prefixes ≠ []
  · rw [has active, Bool.decide_and, decide_eq_true active, Bool.true_and, decide_not, decide_not]
    by_cases foreign : other = []
    · simp [foreign]
    · by_cases empty : own = [] <;> simp [foreign, empty]
  · have none : rule.domains = [] ∧ prefixes = [] := by
      rw [not_or] at active
      exact ⟨not_not.mp active.1, not_not.mp active.2⟩
    simp [none]

variable (formed : rule.Formed) (managed : p.iifname ∈ ifaces)
  (has4 : rule.domains ≠ [] ∨ rule.ipv4 ≠ [] → table.has resolved (.rule4 rule.index) p.daddr =
    (rule.domains.any (resolved · p.daddr) || rule.ipv4.any (·.contains p.daddr)))
  (has6 : rule.domains ≠ [] ∨ rule.ipv6 ≠ [] → table.has resolved (.rule6 rule.index) p.daddr =
    (rule.domains.any (resolved · p.daddr) || rule.ipv6.any (·.contains p.daddr)))
include formed managed has4 has6
lemma decided_destination (destined : rule.hasDestination = true) :
    decided resolved table p (nftRuleLines rule (.iifname ifaces)) =
      if rule.selects resolved p && !rule.lost then some (rule.action.outcome p) else none := by
  have base : (nftBase rule (.iifname ifaces)).all (holds resolved table p) =
      rule.allowsService p.proto p.dport.toNat := all_nftBase formed.network managed
  simp only [nftRuleLines, destined, Bool.true_eq_false, if_false]
  rw [decided_append, decided_optional, decided_optional, applies_append, applies_append,
    all_append, all_append, base, all_optional, all_optional, all_cons,
    all_cons, all_nil, Bool.and_true, Bool.and_true, selects,
    allowsSource, allowsDestination, lost, destined,
    Bool.not_true, Bool.false_or, Bool.true_and, any_append, any_append]
  cases four : p.daddr.is4 with
  | true =>
    have saddr4 : p.saddr.is4 = true := p.family.trans four
    have none6 : rule.source6.any (·.contains p.saddr) = false :=
      any_contains_of_family formed.separated.source6 (by simp [saddr4])
    have far6 : rule.ipv6.any (·.contains p.daddr) = false :=
      any_contains_of_family formed.separated.ipv6 (by simp [four])
    simp only [holds, four, saddr4, Bool.true_and, Bool.not_true, Bool.false_and, Bool.and_false,
      Bool.false_eq_true, if_false, or_none]
    rw [line_of_family has4, outcome_verdict4 four, none6, far6, Bool.or_false, Bool.or_false]
  | false =>
    have saddr6 : p.saddr.is4 = false := p.family.trans four
    have none4 : rule.source4.any (·.contains p.saddr) = false :=
      any_contains_of_family formed.separated.source4 (by simp [saddr6])
    have far4 : rule.ipv4.any (·.contains p.daddr) = false :=
      any_contains_of_family formed.separated.ipv4 (by simp [four])
    simp only [holds, four, saddr6, Bool.true_and, Bool.not_false, Bool.false_and, Bool.and_false,
      Bool.false_eq_true, if_false, none_or]
    rw [line_of_family has6, outcome_verdict6 four, none4, far4, Bool.false_or, Bool.false_or,
      Bool.and_comm (decide (rule.source6 = [])), Bool.and_comm (decide (rule.source6 ≠ []))]

lemma decided_nftRuleLines : decided resolved table p (nftRuleLines rule (.iifname ifaces)) =
      if rule.selects resolved p && !rule.lost then some (rule.action.outcome p) else none := by
  by_cases destined : rule.hasDestination = true
  · exact decided_destination formed managed has4 has6 destined
  · have noDestination : rule.hasDestination = false := eq_false_of_ne_true destined
    have kept : rule.lost = false := by rw [lost, noDestination]; rfl
    have anywhere : rule.allowsDestination resolved p.daddr = true := by
      rw [allowsDestination, noDestination]
      rfl
    rw [kept, Bool.not_false, Bool.and_true, selects, anywhere, Bool.and_true]
    by_cases noSource : rule.source4 = [] ∧ rule.source6 = []
    · have anyone : rule.allowsSource p.saddr = true := by simp [allowsSource, noSource]
      rw [anyone, Bool.and_true]
      exact decided_open formed.network managed noDestination noSource
    · exact decided_sources formed managed noDestination noSource
end
section

/-- The packets of the policy: on a managed interface, not for this host, not DNS over TLS, and
to a destination that is not bypassed. -/
structure Classified (bypassPrivate : Bool) (ifaces : List Text) (p : Packet) : Prop where
  managed : p.iifname ∈ ifaces
  remote : p.daddrLocal = false
  notDoT : p.dport ≠ 853
  routed : ((bypassV4 bypassPrivate).any (·.contains p.daddr) ||
    bypassV6.any (·.contains p.daddr)) = false

variable {bypassPrivate : Bool} (classified : Classified bypassPrivate ifaces p)
include classified
variable {fallbackTag : Text} {policy : IngressPolicy}
lemma decided_classify : decided resolved (nftConfig bypassPrivate fallbackTag policy ifaces) p
        (nftConfig bypassPrivate fallbackTag policy ifaces).classify =
      (decided resolved (nftConfig bypassPrivate fallbackTag policy ifaces) p
        (policy.rules.flatMap fun rule => nftRuleLines rule (.iifname ifaces))).or
      (decided resolved (nftConfig bypassPrivate fallbackTag policy ifaces) p
        (nftFallbackLines fallbackTag (.iifname ifaces))) := by
  obtain ⟨-, remote, notDoT, routed⟩ := classified
  rw [Bool.or_eq_false_iff] at routed
  have port : portInRanges p.dport.toNat [⟨853, 853⟩] = false := by
    have differs : p.dport.toNat ≠ 853 := fun same => notDoT (UInt16.toNat_inj.mp same)
    simp only [portInRanges, any_cons, any_nil, Bool.or_false, decide_eq_false_iff_not]
    omega
  have four : (nftConfig bypassPrivate fallbackTag policy ifaces).has resolved .bypassV4 p.daddr =
      false := by
    exact routed.1
  have six : (nftConfig bypassPrivate fallbackTag policy ifaces).has resolved .bypassV6 p.daddr =
      false := by
    exact routed.2
  rw [← decided_append]
  conv_lhs => rw [show (nftConfig bypassPrivate fallbackTag policy ifaces).classify =
    ⟨[.iifname ifaces, .fibDaddrLocal], .returns⟩ ::
    ⟨[.iifname ifaces, .l4proto [.tcp, .udp], .thDport [⟨853, 853⟩]], .drop⟩ ::
    ⟨[.iifname ifaces, .ipDaddr .bypassV4], .returns⟩ ::
    ⟨[.iifname ifaces, .ip6Daddr .bypassV6], .returns⟩ ::
    (policy.rules.flatMap (fun rule => nftRuleLines rule (.iifname ifaces)) ++
      nftFallbackLines fallbackTag (.iifname ifaces)) from rfl]
  rw [decided_cons, decided_cons, decided_cons, decided_cons]
  simp [Line.applies, holds, remote, port, four, six]

lemma decided_rules (formed : policy.Formed) {rules : List IngressRule}
    (among : ∀ rule ∈ rules, rule ∈ policy.rules) :
    decided resolved (nftConfig bypassPrivate fallbackTag policy ifaces) p
        (rules.flatMap fun rule => nftRuleLines rule (.iifname ifaces)) =
      ((rules.filter fun rule => !rule.lost).find? (selects resolved p)).map
        fun rule => rule.action.outcome p := by
  induction rules with
  | nil => rfl
  | cons rule rules ih =>
    have member := among rule mem_cons_self
    obtain ⟨i, here⟩ := mem_iff_getElem?.mp member
    obtain ⟨has4, has6⟩ :=
      has_nftConfig resolved bypassPrivate fallbackTag ifaces formed member p.daddr
    rw [flatMap_cons, decided_append,
      decided_nftRuleLines (formed i rule here).2 classified.managed has4 has6,
      ih fun other later => among other (mem_cons_of_mem rule later)]
    cases gone : rule.lost with
    | true => simp [gone]
    | false =>
      cases selected : rule.selects resolved p with
      | true | false => simp [gone, selected]

lemma decided_fallback (table : Table) :
    (decided resolved table p (nftFallbackLines fallbackTag (.iifname ifaces))).getD
        (.passes p.mark) = (fallbackAction fallbackTag).outcome p := by
  unfold nftFallbackLines
  split_ifs with direct
  · rw [direct]
    rfl
  · rw [decided_open (.inl rfl) classified.managed rfl ⟨rfl, rfl⟩]
    rfl

lemma evaluate_nftConfig (formed : policy.Formed) :
    (nftConfig bypassPrivate fallbackTag policy ifaces).evaluate resolved p =
      firstMatch resolved (fallbackAction fallbackTag) (policy.rules.filter fun rule => !rule.lost)
        p := by
  rw [Table.evaluate, decided_classify classified, decided_rules classified formed fun _ => id,
    firstMatch]
  cases (policy.rules.filter fun rule => !rule.lost).find? (selects resolved p) with
  | none => exact decided_fallback classified _
  | some rule => rfl
end

/-- The emitted classifier does what the first matching rule of the policy says exactly if leaving
out the rules that have a destination and sources of both families makes no difference to it. -/
theorem classify_eq_firstMatch_iff {std : Stdlib} {snap : Option Snapshot} {userName : Text}
    {policy : IngressPolicy} (built : buildIngressPolicy std snap userName = .ok policy)
    {resolved : Text → Addr → Bool} {bypassPrivate : Bool} {fallbackTag : Text}
    {ifaces : List Text} {p : Packet} (classified : Classified bypassPrivate ifaces p) :
    (nftConfig bypassPrivate fallbackTag policy ifaces).evaluate resolved p =
        firstMatch resolved (fallbackAction fallbackTag) policy.rules p ↔
      firstMatch resolved (fallbackAction fallbackTag) (policy.rules.filter fun rule => !rule.lost)
          p = firstMatch resolved (fallbackAction fallbackTag) policy.rules p := by
  rw [evaluate_nftConfig classified (formed_buildIngressPolicy built)]

def blocking (source : List Text) : Snapshot where
  rules := [⟨10, "block".toList, { ip := ["203.0.113.0/24".toList], source := source }⟩]
  geoDB := none

def samplePacket : Packet where
  iifname := "br-lan".toList
  daddrLocal := false
  saddr := .v4 0xc0a80105
  daddr := .v4 0xcb007107
  family := rfl
  proto := .tcp
  dport := 443
  mark := 0

lemma classified_samplePacket : Classified false ["br-lan".toList] samplePacket where
  managed := mem_singleton.mpr rfl
  remote := rfl
  notDoT := by decide
  routed := by decide

def blockedPolicy (source4 source6 : List Prefix) : IngressPolicy where
  rules :=
    [{ action := .block, ipv4 := [⟨.v4 0xcb007100, 24⟩], source4 := source4, source6 := source6 }]

/-- A rule that the classifier leaves out stands before one that does the same. -/
def leftOut : Snapshot where
  rules := (blocking ["192.168.1.0/24".toList, "fd00::/8".toList]).rules ++
    (blocking ["192.168.1.0/24".toList]).rules
  geoDB := none

theorem classify_eq_firstMatch_left_out : ∃ policy,
    buildIngressPolicy sampleStdlib (some leftOut) "lan".toList = .ok policy ∧
      policy.rules.map (·.lost) = [true, false] ∧
      (nftConfig false "direct".toList policy ["br-lan".toList]).evaluate (fun _ _ => false)
        samplePacket = .drops := by
  refine ⟨_, rfl, by decide +kernel, ?_⟩
  exact ((@classify_eq_firstMatch_iff sampleStdlib (some leftOut) "lan".toList _ rfl _ _ _ _ _
    classified_samplePacket).mpr (by decide +kernel)).trans (by decide +kernel)

theorem both_families_not_blocked : buildIngressPolicy sampleStdlib
        (some (blocking ["192.168.1.0/24".toList, "fd00::/8".toList])) "lan".toList =
        .ok (blockedPolicy [⟨.v4 0xc0a80100, 24⟩] [⟨.v6 0xfd000000000000000000000000000000, 8⟩]) ∧
      Classified false ["br-lan".toList] samplePacket ∧
      firstMatch (fun _ _ => false) (fallbackAction "direct".toList)
        (blockedPolicy [⟨.v4 0xc0a80100, 24⟩] [⟨.v6 0xfd000000000000000000000000000000, 8⟩]).rules
        samplePacket = .drops ∧
      (nftConfig false "direct".toList
        (blockedPolicy [⟨.v4 0xc0a80100, 24⟩] [⟨.v6 0xfd000000000000000000000000000000, 8⟩])
        ["br-lan".toList]).evaluate (fun _ _ => false) samplePacket = .passes 0 := by
  refine ⟨by decide +kernel, classified_samplePacket, by decide +kernel, by decide +kernel⟩
end Tamizdat.Localtun
