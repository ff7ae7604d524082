import Sweety.CidrAgreement

namespace Sweety.RealIp

open HttpText ProxyProtocol

/-!
# The chain of forwarding proxies

Each proxy appends to `X-Forwarded-For` the address that it was reached from.
The recursive mode reads the list from the right and stops at the first address
that is not trusted, so what stands left of it does not matter.
-/

/-! ## Parts of a list -/

section Parts

variable
  {part : List Char}
  {parts : List (List Char)}

/-- Lists that are glued by a comma are split one after the other. -/
theorem splitOn_comma (front rest : List Char) :
    (front ++ ',' :: rest).splitOn ',' =
      front.splitOn ',' ++ rest.splitOn ',' :=
  List.splitOn_append_cons_self front rest

/-- The header value that a text, a part and further parts make. -/
def chain
    (front part : List Char)
    (parts : List (List Char)) :
    List Char :=
  front ++ ',' :: (part ++ parts.flatMap (',' :: ·))

theorem splitOn_parts
    (onePart : ',' ∉ part)
    (oneEach : ∀ other ∈ parts, ',' ∉ other) :
    (part ++ parts.flatMap (',' :: ·)).splitOn ',' = part :: parts := by
  induction parts generalizing part with
  | nil =>
      rw [List.flatMap_nil, List.append_nil,
        List.splitOn_eq_singleton onePart]
  | cons next rest inductionHypothesis =>
      have oneNext := oneEach next List.mem_cons_self
      have oneRest : ∀ other ∈ rest, ',' ∉ other :=
        fun other member => oneEach other (List.mem_cons_of_mem _ member)
      rw [List.flatMap_cons, List.cons_append, splitOn_comma,
        List.splitOn_eq_singleton onePart,
        inductionHypothesis oneNext oneRest]
      rfl

theorem splitOn_chain
    (front : List Char)
    (onePart : ',' ∉ part)
    (oneEach : ∀ other ∈ parts, ',' ∉ other) :
    (chain front part parts).splitOn ',' =
      front.splitOn ',' ++ part :: parts := by
  rw [chain, splitOn_comma, splitOn_parts onePart oneEach]

end Parts

/-- One part of a list that names an address, blanks around it or not. -/
structure Names
    (ipv6 : Ipv6Text)
    (part : List Char)
    (ip : IpAddr) :
    Prop where
  onePart : ',' ∉ part
  isIp : ipv6.parseIp? (trim part) = some ip

/-! ## The search from the right -/

section Search

variable
  {ipv6 : Ipv6Text}
  {compiled : CompiledRealIp}

/-- The part names a trusted address. -/
def NamesTrusted
    (ipv6 : Ipv6Text)
    (compiled : CompiledRealIp)
    (part : List Char) :
    Prop :=
  ∃ ip, Names ipv6 part ip ∧ compiled.isTrusted? ip = some true

theorem firstUntrusted?_of_trusted
    {parts : List (List Char)}
    (allTrusted : ∀ part ∈ parts, NamesTrusted ipv6 compiled part)
    (more : List (List Char)) :
    compiled.firstUntrusted? ipv6 (parts ++ more) =
      compiled.firstUntrusted? ipv6 more := by
  induction parts with
  | nil =>
      rfl
  | cons part rest inductionHypothesis =>
      obtain ⟨ip, names, isTrusted⟩ := allTrusted part List.mem_cons_self
      rw [List.cons_append, CompiledRealIp.firstUntrusted?, names.isIp]
      dsimp only
      rw [isTrusted]
      exact inductionHypothesis fun other member =>
        allTrusted other (List.mem_cons_of_mem _ member)

theorem firstUntrusted?_of_untrusted
    {part : List Char}
    {ip : IpAddr}
    (names : Names ipv6 part ip)
    (notTrusted : compiled.isTrusted? ip = some false)
    (more : List (List Char)) :
    compiled.firstUntrusted? ipv6 (part :: more) = some (some ip) := by
  rw [CompiledRealIp.firstUntrusted?, names.isIp]
  dsimp only
  rw [notTrusted]

/-- What the recursive mode makes of the parts of the list. -/
def recursiveResult?
    (ipv6 : Ipv6Text)
    (compiled : CompiledRealIp)
    (parts : List (List Char)) :
    Option (Option IpAddr) :=
  match compiled.firstUntrusted? ipv6 parts.reverse with
  | some (some ip) =>
      some (some ip)
  | some none =>
      some (parts.head?.bind fun part => ipv6.parseIp? (trim part))
  | none =>
      none

/-- The recursive mode, for a connection from a trusted proxy. -/
theorem extractRealIp?_recursive
    {connIp : IpAddr}
    (isXff :
      eqIgnoreAsciiCase compiled.header.toList
        "X-Forwarded-For".toList = true)
    (recursive : compiled.recursive = true)
    (connTrusted : compiled.isTrusted? connIp = some true)
    (text : List Char) :
    compiled.extractRealIp? ipv6 connIp (some text) =
      recursiveResult? ipv6 compiled (text.splitOn ',') := by
  unfold CompiledRealIp.extractRealIp? recursiveResult?
  rw [connTrusted]
  dsimp only
  rw [if_pos isXff, if_pos recursive]
  cases compiled.firstUntrusted? ipv6 (text.splitOn ',').reverse with
  | none =>
      rfl
  | some found =>
      cases found with
      | none =>
          rfl
      | some ip =>
          rfl

theorem extractRealIp?_chain
    {connIp client : IpAddr}
    {front part : List Char}
    {proxies : List (List Char)}
    (isXff :
      eqIgnoreAsciiCase compiled.header.toList
        "X-Forwarded-For".toList = true)
    (recursive : compiled.recursive = true)
    (connTrusted : compiled.isTrusted? connIp = some true)
    (names : Names ipv6 part client)
    (notTrusted : compiled.isTrusted? client = some false)
    (allTrusted : ∀ proxy ∈ proxies, NamesTrusted ipv6 compiled proxy) :
    compiled.extractRealIp? ipv6 connIp
        (some (chain front part proxies)) =
      some (some client) := by
  have oneEach : ∀ proxy ∈ proxies, ',' ∉ proxy := by
    intro proxy member
    obtain ⟨ip, proxyNames, -⟩ := allTrusted proxy member
    exact proxyNames.onePart
  have fromRight :
      ((chain front part proxies).splitOn ',').reverse =
        proxies.reverse ++ part :: (front.splitOn ',').reverse := by
    rw [splitOn_chain front names.onePart oneEach, List.reverse_append,
      List.reverse_cons, List.append_assoc]
    rfl
  have trustedFromRight :
      ∀ proxy ∈ proxies.reverse, NamesTrusted ipv6 compiled proxy :=
    fun proxy member => allTrusted proxy (List.mem_reverse.mp member)
  rw [extractRealIp?_recursive isXff recursive connTrusted,
    recursiveResult?, fromRight,
    firstUntrusted?_of_trusted trustedFromRight,
    firstUntrusted?_of_untrusted names notTrusted]

theorem extractRealIp?_of_not_trusted
    {connIp : IpAddr}
    (notTrusted : compiled.isTrusted? connIp = some false)
    (header : Option (List Char)) :
    compiled.extractRealIp? ipv6 connIp header = some none := by
  unfold CompiledRealIp.extractRealIp?
  rw [notTrusted]

end Search

/-! ## Trust -/

/-- The address is in one of the trusted networks. -/
def CompiledRealIp.Trusts (compiled : CompiledRealIp) (ip : IpAddr) : Prop :=
  ∃ entry ∈ compiled.trusted,
    CidrAgreement.InNetwork entry.network entry.prefixLen ip

instance (compiled : CompiledRealIp) (ip : IpAddr) :
    Decidable (compiled.Trusts ip) :=
  inferInstanceAs (Decidable (∃ entry ∈ compiled.trusted, _))

theorem anyContains?_eq
    {entries : List CidrEntry}
    (wellFormed :
      ∀ entry ∈ entries,
        entry.prefixLen ≤ AccessControl.width entry.network)
    (ip : IpAddr) :
    anyContains? ip entries =
      some
        (entries.any fun entry =>
          decide
            (CidrAgreement.InNetwork entry.network entry.prefixLen ip)) := by
  induction entries with
  | nil =>
      rfl
  | cons entry rest inductionHypothesis =>
      have within := wellFormed entry List.mem_cons_self
      have wellFormedRest := fun other member =>
        wellFormed other (List.mem_cons_of_mem _ member)
      rw [anyContains?, CidrAgreement.contains?_eq_cidrContains?,
        CidrAgreement.cidrContains?_eq within, List.any_cons,
        inductionHypothesis wellFormedRest]
      cases decide
          (CidrAgreement.InNetwork entry.network entry.prefixLen ip) with
      | false =>
          rfl
      | true =>
          rfl

/-- For prefixes within their addresses, trust is membership. -/
theorem isTrusted?_eq
    {compiled : CompiledRealIp}
    (wellFormed :
      ∀ entry ∈ compiled.trusted,
        entry.prefixLen ≤ AccessControl.width entry.network)
    (ip : IpAddr) :
    compiled.isTrusted? ip = some (decide (compiled.Trusts ip)) := by
  rw [CompiledRealIp.isTrusted?, anyContains?_eq wellFormed]
  congr 1
  rw [Bool.eq_iff_iff, List.any_eq_true, decide_eq_true_iff]
  simp only [CompiledRealIp.Trusts, decide_eq_true_eq]

/-! ## The law of the chain -/

/-- The address that is extracted does not depend on the left of the list. -/
structure NotSpoofed (ipv6 : Ipv6Text) (compiled : CompiledRealIp) :
    Prop where
  /-- Left of trusted proxies, the first other address is the client. -/
  client :
    ∀ connIp client front part proxies,
      compiled.isTrusted? connIp = some true →
        compiled.isTrusted? client = some false →
          Names ipv6 part client →
            (∀ proxy ∈ proxies, NamesTrusted ipv6 compiled proxy) →
              compiled.extractRealIp? ipv6 connIp
                  (some (chain front part proxies)) =
                some (some client)
  /-- Nothing is taken from a connection that is not trusted. -/
  stranger :
    ∀ connIp header,
      compiled.isTrusted? connIp = some false →
        compiled.extractRealIp? ipv6 connIp header = some none
  /-- Trust is membership in a network, where the prefixes are in range. -/
  trust :
    (∀ entry ∈ compiled.trusted,
      entry.prefixLen ≤ AccessControl.width entry.network) →
      ∀ ip, compiled.isTrusted? ip = some (decide (compiled.Trusts ip))

theorem notSpoofed_of_recursive
    (ipv6 : Ipv6Text)
    (compiled : CompiledRealIp)
    (isXff :
      eqIgnoreAsciiCase compiled.header.toList
        "X-Forwarded-For".toList = true)
    (recursive : compiled.recursive = true) :
    NotSpoofed ipv6 compiled := by
  constructor
  · intro connIp client front part proxies connTrusted notTrusted names
      allTrusted
    exact extractRealIp?_chain isXff recursive connTrusted names notTrusted
      allTrusted
  · intro connIp header notTrusted
    exact extractRealIp?_of_not_trusted notTrusted header
  · exact isTrusted?_eq

/-- With one trusted network, in the recursive mode. -/
theorem notSpoofed_private :
    NotSpoofed CidrAgreement.noIpv6
      ⟨[⟨.v4 ⟨10, 0, 0, 0⟩, 8⟩], "X-Forwarded-For", true⟩ :=
  notSpoofed_of_recursive _ _ (by decide) rfl

end Sweety.RealIp
