import Sweety.CidrAgreement

namespace Sweety.AccessControl

open ConfigModel HttpText ProxyProtocol StableSort CidrAgreement

/-!
# The decision of the access rules

The rules that cannot be parsed are left out, the others are sorted by their
priority, and the first that matches decides.  This is the action of the rule
that is least in the order of priority and place among those that apply.
-/

/-- The priority of a rule. -/
def priority (rule : AccessRule) : Nat :=
  rule.priority.toNat

/-- The source of a rule can be parsed. -/
def parses (ipv6 : Ipv6Text) (rule : AccessRule) : Bool :=
  (IpMatcher.parse? ipv6 rule.source.toList).isSome

/-- The source of a rule can be parsed and matches the address. -/
def applies (ipv6 : Ipv6Text) (ip : IpAddr) (rule : AccessRule) : Bool :=
  match IpMatcher.parse? ipv6 rule.source.toList with
  | some matcher =>
      matcher.matches? ip == some true
  | none =>
      false

/-- The decision for an address under the rules of a location. -/
def decision?
    (ipv6 : Ipv6Text)
    (rules : List AccessRule)
    (ip : IpAddr) :
    Option AccessAction :=
  checkAccess? ip (compileRules ipv6 rules)

section Decision

variable
  {ipv6 : Ipv6Text}
  {ip : IpAddr}

/-- A parsed matcher tests every address without a panic. -/
theorem exists_matches?
    {text : List Char}
    {matcher : IpMatcher}
    (isMatcher : IpMatcher.parse? ipv6 text = some matcher)
    (ip : IpAddr) :
    ∃ isMatch, matcher.matches? ip = some isMatch := by
  by_cases isAll : IsAll text
  · have word : eqIgnoreAsciiCase (trim text) "all".toList = true := isAll
    unfold IpMatcher.parse? at isMatcher
    dsimp only at isMatcher
    rw [if_pos word] at isMatcher
    cases isMatcher
    exact ⟨true, rfl⟩
  · rw [ipMatcher_parse?_eq isAll] at isMatcher
    obtain ⟨network, isWritten, isMatcher⟩ :=
      Option.bind_eq_some_iff.mp isMatcher
    have within : network.2 ≤ width network.1 := by
      apply Nat.le_of_not_lt
      intro beyond
      rw [if_pos beyond] at isMatcher
      nomatch isMatcher
    obtain ⟨made, isMade, matches_⟩ :=
      matches_of_written isAll isWritten within
    rw [ipMatcher_parse?_eq isAll, isWritten, Option.bind_some,
      isMatcher] at isMade
    cases isMade
    exact ⟨_, matches_.matches?_eq⟩

/-- On parsed rules, the check is the search for the first that applies. -/
theorem checkAccess?_compiled (rules : List AccessRule) :
    checkAccess? ip
        ((rules.filterMap (compileRule? ipv6)).map Prod.snd) =
      some
        ((rules.find? (applies ipv6 ip)).elim .allow fun rule =>
          rule.action) := by
  induction rules with
  | nil =>
      rfl
  | cons rule rest inductionHypothesis =>
      cases isMatcher : IpMatcher.parse? ipv6 rule.source.toList with
      | none =>
          have notCompiled : compileRule? ipv6 rule = none := by
            rw [compileRule?, isMatcher]
            rfl
          have notApplied : ¬applies ipv6 ip rule = true := by
            rw [applies, isMatcher]
            exact Bool.false_ne_true
          rw [List.filterMap_cons_none notCompiled,
            List.find?_cons_of_neg notApplied]
          exact inductionHypothesis
      | some matcher =>
          have isCompiled :
              compileRule? ipv6 rule =
                some (rule.priority, ⟨rule.action, matcher⟩) := by
            rw [compileRule?, isMatcher]
            rfl
          obtain ⟨isMatch, tested⟩ := exists_matches? isMatcher ip
          have isApplied : applies ipv6 ip rule = isMatch := by
            rw [applies, isMatcher]
            dsimp only
            rw [tested]
            cases isMatch with
            | false =>
                rfl
            | true =>
                rfl
          rw [List.filterMap_cons_some isCompiled, List.map_cons,
            checkAccess?]
          dsimp only
          rw [tested]
          cases isMatch with
          | false =>
              rw [List.find?_cons_of_neg (by rw [isApplied]; decide)]
              exact inductionHypothesis
          | true =>
              rw [List.find?_cons_of_pos isApplied]
              rfl

/-- The decision is that of the first rule that applies, once sorted. -/
theorem decision?_eq (rules : List AccessRule) :
    decision? ipv6 rules ip =
      some
        (((sortByKey priority rules).find? (applies ipv6 ip)).elim .allow
          fun rule => rule.action) := by
  have keeps (rule : AccessRule) (compiled : U16 × CompiledAccessRule)
      (isCompiled : compileRule? ipv6 rule = some compiled) :
      compiled.1.toNat = priority rule := by
    obtain ⟨matcher, -, rfl⟩ := Option.map_eq_some_iff.mp isCompiled
    rfl
  rw [decision?, compileRules, sortByKey_filterMap keeps,
    checkAccess?_compiled]

/-- Only rules that are parsed have a part in the decision. -/
theorem decision?_congr
    {rules others : List AccessRule}
    (same :
      rules.filter (parses ipv6) = others.filter (parses ipv6)) :
    decision? ipv6 rules ip = decision? ipv6 others ip := by
  have compiled (listed : List AccessRule) :
      listed.filterMap (compileRule? ipv6) =
        (listed.filter (parses ipv6)).filterMap (compileRule? ipv6) := by
    rw [List.filterMap_filter]
    apply List.filterMap_congr
    intro rule _
    cases isMatcher : IpMatcher.parse? ipv6 rule.source.toList with
    | none =>
        simp [compileRule?, parses, isMatcher]
    | some matcher =>
        simp [parses, isMatcher]
  rw [decision?, decision?, compileRules, compileRules, compiled rules, same,
    ← compiled others]

/-- The rule that decides has the least priority and place. -/
structure ByPriority
    (ipv6 : Ipv6Text)
    (rules : List AccessRule)
    (ip : IpAddr) :
    Prop where
  /-- The least rule that applies decides. -/
  decides :
    ∀ place rule,
      IsBest priority (applies ipv6 ip) rules place rule →
        decision? ipv6 rules ip = some rule.action
  /-- Where some rule applies, there is a least one. -/
  exists_least :
    (∃ rule ∈ rules, applies ipv6 ip rule = true) →
      ∃ place rule, IsBest priority (applies ipv6 ip) rules place rule
  /-- Where none applies, the address is allowed. -/
  allows :
    (∀ rule ∈ rules, ¬applies ipv6 ip rule = true) →
      decision? ipv6 rules ip = some .allow
  /-- Rules of different priorities can be permuted. -/
  permuted :
    ∀ others,
      (∀ value,
        withKey priority value others = withKey priority value rules) →
        decision? ipv6 others ip = decision? ipv6 rules ip
  /-- Rules that cannot be parsed can be left out. -/
  unparsable :
    ∀ others,
      others.filter (parses ipv6) = rules.filter (parses ipv6) →
        decision? ipv6 others ip = decision? ipv6 rules ip

theorem decision_byPriority
    (ipv6 : Ipv6Text)
    (rules : List AccessRule)
    (ip : IpAddr) :
    ByPriority ipv6 rules ip := by
  constructor
  · intro place rule best
    have first := find?_sortByKey_eq_some_iff.mpr ⟨place, best⟩
    rw [decision?_eq, first]
    rfl
  · rintro ⟨rule, member, isApplied⟩
    have found :
        ((sortByKey priority rules).find?
          (applies ipv6 ip)).isSome = true :=
      List.find?_isSome.mpr ⟨rule, mem_sortByKey.mpr member, isApplied⟩
    obtain ⟨least, isLeast⟩ := Option.isSome_iff_exists.mp found
    obtain ⟨place, best⟩ := find?_sortByKey_eq_some_iff.mp isLeast
    exact ⟨place, least, best⟩
  · intro noneApplies
    rw [decision?_eq, find?_sortByKey_eq_none_iff.mpr noneApplies]
    rfl
  · intro others same
    rw [decision?_eq, decision?_eq, sortByKey_congr same]
  · intro others same
    exact decision?_congr same

end Decision

end Sweety.AccessControl
