import Sweety.AccessControl
import Sweety.LeadingBits

namespace Sweety.CidrAgreement

open HttpText ProxyProtocol RealIp LeadingBits
open AccessControl (IpMatcher width cidrContains?)

/-!
# The two readers of networks

The proxies that a site trusts and the sources of its access rules are networks
in the same notation, read and compared by two pieces of code.  Only the one of
the access rules looks at the length of the prefix; the other accepts one that
is longer than the address and panics at the first comparison.
-/

/-! ## Networks -/

/--
The address is in the network: of the same family, with the same first bits.
-/
def InNetwork (network : IpAddr) (prefixLen : Nat) (ip : IpAddr) : Prop :=
  match network, ip with
  | .v4 network, .v4 ip =>
      SharesPrefix prefixLen network.octets ip.octets
  | .v6 network, .v6 ip =>
      SharesPrefix prefixLen network.octets ip.octets
  | _, _ =>
      False

instance
    (network : IpAddr)
    (prefixLen : Nat)
    (ip : IpAddr) :
    Decidable (InNetwork network prefixLen ip) :=
  match network, ip with
  | .v4 network, .v4 ip =>
      inferInstanceAs
        (Decidable (SharesPrefix prefixLen network.octets ip.octets))
  | .v6 network, .v6 ip =>
      inferInstanceAs
        (Decidable (SharesPrefix prefixLen network.octets ip.octets))
  | .v4 _, .v6 _ | .v6 _, .v4 _ =>
      inferInstanceAs (Decidable False)

section Comparison

variable
  {network ip : IpAddr}
  {prefixLen : Nat}

theorem contained?_eq
    {first second : List UInt8}
    {bits : Nat}
    (isFirst : 8 * first.length = bits)
    (isSecond : 8 * second.length = bits)
    (within : prefixLen ≤ bits) :
    contained? bits prefixLen first second =
      some (decide (SharesPrefix prefixLen first second)) := by
  unfold contained?
  by_cases isZero : prefixLen = 0
  · have shares : SharesPrefix prefixLen first second := by
      intro index inPrefix
      omega
    rw [if_pos isZero, decide_eq_true shares]
  · rw [if_neg isZero, if_pos within]
    have sameLength : first.length = second.length := by
      omega
    subst isFirst
    have comparison := bigEndian_and_mask_eq_iff sameLength within
    exact congrArg some (decide_eq_decide.mpr comparison)

/-- Within the width of the address the comparison is the membership. -/
theorem cidrContains?_eq
    (within : prefixLen ≤ width network) :
    cidrContains? network prefixLen ip =
      some (decide (InNetwork network prefixLen ip)) := by
  cases network with
  | v4 network =>
      cases ip with
      | v4 ip =>
          exact contained?_eq rfl rfl within
      | v6 ip =>
          rfl
  | v6 network =>
      cases ip with
      | v4 ip =>
          rfl
      | v6 ip =>
          exact contained?_eq
            (by rw [network.sixteen]) (by rw [ip.sixteen]) within

/-- Both implementations compare in the same way. -/
theorem contains?_eq_cidrContains? (entry : CidrEntry) :
    entry.contains? ip = cidrContains? entry.network entry.prefixLen ip := by
  unfold CidrEntry.contains? cidrContains?
  cases entry.network with
  | v4 network =>
      cases ip with
      | v4 ip =>
          rfl
      | v6 ip =>
          rfl
  | v6 network =>
      cases ip with
      | v4 ip =>
          rfl
      | v6 ip =>
          rfl

/-- An address alone is the network of all its bits. -/
theorem inNetwork_width_iff :
    InNetwork network (width network) ip ↔ network = ip := by
  cases network with
  | v4 network =>
      cases ip with
      | v4 ip =>
          have sameBits :
              SharesPrefix 32 network.octets ip.octets ↔
                network.octets = ip.octets :=
            @sharesPrefix_all_iff network.octets ip.octets rfl
          rw [InNetwork, width, sameBits, IpAddr.v4.injEq]
          constructor
          · intro sameOctets
            cases network
            cases ip
            simpa only [Ipv4Addr.octets, List.cons.injEq, and_true,
              Ipv4Addr.mk.injEq] using sameOctets
          · rintro rfl
            rfl
      | v6 ip =>
          exact ⟨False.elim, nofun⟩
  | v6 network =>
      cases ip with
      | v4 ip =>
          exact ⟨False.elim, nofun⟩
      | v6 ip =>
          have sameBits :
              SharesPrefix (8 * network.octets.length) network.octets
                  ip.octets ↔
                network.octets = ip.octets :=
            sharesPrefix_all_iff (by rw [network.sixteen, ip.sixteen])
          rw [network.sixteen] at sameBits
          rw [InNetwork, width, sameBits, IpAddr.v6.injEq]
          constructor
          · intro sameOctets
            cases network
            cases ip
            cases sameOctets
            rfl
          · rintro rfl
            rfl

end Comparison

/-! ## The two readers -/

section Reading

variable
  {ipv6 : Ipv6Text}
  {text : List Char}

/-- The network and the length of the prefix that a text writes. -/
def written? (ipv6 : Ipv6Text) (text : List Char) :
    Option (IpAddr × Nat) :=
  match splitOnce? '/' (trim text) with
  | some (ipText, prefixText) =>
      match ipv6.parseIp? ipText, fromStrRadix? 10 (2 ^ 8) prefixText with
      | some ip, some prefixLen =>
          some (ip, prefixLen)
      | _, _ =>
          none
  | none =>
      (ipv6.parseIp? (trim text)).map fun ip => (ip, width ip)

/-- The text is the word for every address. -/
def IsAll (text : List Char) : Prop :=
  eqIgnoreAsciiCase (trim text) "all".toList = true

theorem cidrEntry_parse?_eq :
    CidrEntry.parse? ipv6 text =
      (written? ipv6 text).map fun network => ⟨network.1, network.2⟩ := by
  unfold CidrEntry.parse? written?
  cases splitOnce? '/' (trim text) with
  | none =>
      cases ipv6.parseIp? (trim text) with
      | none =>
          rfl
      | some ip =>
          cases ip <;> rfl
  | some parts =>
      dsimp only
      cases ipv6.parseIp? parts.1 with
      | none =>
          rfl
      | some ip =>
          cases fromStrRadix? 10 (2 ^ 8) parts.2 with
          | none =>
              rfl
          | some prefixLen =>
              rfl

/-- A matcher for a written network, made the way the text was written. -/
inductive Matches (network : IpAddr) (prefixLen : Nat) :
    IpMatcher → Prop where
  | exact
      (isWidth : prefixLen = width network) :
      Matches network prefixLen (.exact network)
  | cidr
      (within : prefixLen ≤ width network) :
      Matches network prefixLen (.cidr network prefixLen)

theorem Matches.matches?_eq
    {network ip : IpAddr}
    {prefixLen : Nat}
    {matcher : IpMatcher}
    (made : Matches network prefixLen matcher) :
    matcher.matches? ip =
      some (decide (InNetwork network prefixLen ip)) := by
  cases made with
  | exact isWidth =>
      subst isWidth
      have same :
          (network == ip) =
            decide (InNetwork network (width network) ip) := by
        rw [beq_eq_decide]
        exact decide_eq_decide.mpr inNetwork_width_iff.symm
      exact congrArg some same
  | cidr within =>
      exact cidrContains?_eq within

/-- The reader of access rules checks the length of a written prefix. -/
theorem ipMatcher_parse?_eq (notAll : ¬IsAll text) :
    IpMatcher.parse? ipv6 text =
      (written? ipv6 text).bind fun network =>
        if width network.1 < network.2 then
          none
        else if (splitOnce? '/' (trim text)).isSome then
          some (.cidr network.1 network.2)
        else
          some (.exact network.1) := by
  unfold IpMatcher.parse? written?
  dsimp only
  have otherWord : ¬eqIgnoreAsciiCase (trim text) "all".toList = true :=
    notAll
  rw [if_neg otherWord]
  cases splitOnce? '/' (trim text) with
  | none =>
      cases ipv6.parseIp? (trim text) with
      | none =>
          rfl
      | some ip =>
          exact (if_neg (Nat.lt_irrefl _)).symm
  | some parts =>
      dsimp only
      cases ipv6.parseIp? parts.1 with
      | none =>
          rfl
      | some ip =>
          cases fromStrRadix? 10 (2 ^ 8) parts.2 with
          | none =>
              rfl
          | some prefixLen =>
              rfl

theorem width_of_not_slash
    {network : IpAddr × Nat}
    (isWritten : written? ipv6 text = some network)
    (noSlash : ¬(splitOnce? '/' (trim text)).isSome = true) :
    network.2 = width network.1 := by
  unfold written? at isWritten
  rw [Option.not_isSome_iff_eq_none.mp noSlash] at isWritten
  obtain ⟨ip, -, rfl⟩ := Option.map_eq_some_iff.mp isWritten
  rfl

/-- A prefix within the address is accepted, as the network it writes. -/
theorem matches_of_written
    {network : IpAddr × Nat}
    (notAll : ¬IsAll text)
    (isWritten : written? ipv6 text = some network)
    (within : network.2 ≤ width network.1) :
    ∃ matcher,
      IpMatcher.parse? ipv6 text = some matcher ∧
        Matches network.1 network.2 matcher := by
  rw [ipMatcher_parse?_eq notAll, isWritten, Option.bind_some,
    if_neg (Nat.not_lt.mpr within)]
  by_cases slash : (splitOnce? '/' (trim text)).isSome = true
  · rw [if_pos slash]
    exact ⟨_, rfl, .cidr within⟩
  · rw [if_neg slash]
    exact ⟨_, rfl, .exact (width_of_not_slash isWritten slash)⟩

end Reading

/-! ## Agreement -/

/-- The readers agree on a text, and what they accept is compared rightly. -/
structure Agree (ipv6 : Ipv6Text) (text : List Char) : Prop where
  /-- The same texts are accepted. -/
  accepted :
    (CidrEntry.parse? ipv6 text).isSome =
      (IpMatcher.parse? ipv6 text).isSome
  /-- An accepted mask is not wider than the address. -/
  masks :
    ∀ entry, CidrEntry.parse? ipv6 text = some entry →
      entry.prefixLen ≤ width entry.network
  /-- A trusted network contains the addresses in it. -/
  trusted :
    ∀ entry ip, CidrEntry.parse? ipv6 text = some entry →
      entry.contains? ip =
        some (decide (InNetwork entry.network entry.prefixLen ip))
  /-- A rule matches the addresses in the same network. -/
  matched :
    ∀ entry matcher ip, CidrEntry.parse? ipv6 text = some entry →
      IpMatcher.parse? ipv6 text = some matcher →
        matcher.matches? ip =
          some (decide (InNetwork entry.network entry.prefixLen ip))

section Agreement

variable
  {ipv6 : Ipv6Text}
  {text : List Char}

/-- Some address of the other family is in no network of this one. -/
theorem exists_not_inNetwork (network : IpAddr) (prefixLen : Nat) :
    ∃ ip, ¬InNetwork network prefixLen ip := by
  cases network with
  | v4 network =>
      exact ⟨.v6 ⟨List.replicate 16 0, rfl⟩, id⟩
  | v6 network =>
      exact ⟨.v4 ⟨0, 0, 0, 0⟩, id⟩

/-- Padded with blanks, the word for every address is no network. -/
theorem not_agree_of_isAll (isAll : IsAll text) : ¬Agree ipv6 text := by
  intro agree
  have isParsed : IpMatcher.parse? ipv6 text = some .all := by
    have word : eqIgnoreAsciiCase (trim text) "all".toList = true := isAll
    unfold IpMatcher.parse?
    dsimp only
    rw [if_pos word]
  have accepted := agree.accepted
  rw [isParsed] at accepted
  obtain ⟨entry, isEntry⟩ := Option.isSome_iff_exists.mp accepted
  obtain ⟨ip, outside⟩ :=
    exists_not_inNetwork entry.network entry.prefixLen
  have everyAddress := agree.matched entry .all ip isEntry isParsed
  rw [decide_eq_false outside] at everyAddress
  nomatch everyAddress

theorem agree_of_not_written
    (notAll : ¬IsAll text)
    (notWritten : written? ipv6 text = none) :
    Agree ipv6 text := by
  have noEntry : CidrEntry.parse? ipv6 text = none := by
    rw [cidrEntry_parse?_eq, notWritten]
    rfl
  have noMatcher : IpMatcher.parse? ipv6 text = none := by
    rw [ipMatcher_parse?_eq notAll, notWritten]
    rfl
  constructor
  · rw [noEntry, noMatcher]
    rfl
  · intro entry isEntry
    rw [noEntry] at isEntry
    nomatch isEntry
  · intro entry ip isEntry
    rw [noEntry] at isEntry
    nomatch isEntry
  · intro entry matcher ip isEntry
    rw [noEntry] at isEntry
    nomatch isEntry

theorem agree_of_written
    {network : IpAddr × Nat}
    (notAll : ¬IsAll text)
    (isWritten : written? ipv6 text = some network)
    (within : network.2 ≤ width network.1) :
    Agree ipv6 text := by
  obtain ⟨matcher, isMatcher, made⟩ :=
    matches_of_written notAll isWritten within
  have isEntry :
      CidrEntry.parse? ipv6 text = some ⟨network.1, network.2⟩ := by
    rw [cidrEntry_parse?_eq, isWritten]
    rfl
  constructor
  · rw [isEntry, isMatcher]
    rfl
  · intro entry isRead
    rw [isEntry] at isRead
    cases isRead
    exact within
  · intro entry ip isRead
    rw [isEntry] at isRead
    cases isRead
    rw [contains?_eq_cidrContains?]
    exact cidrContains?_eq within
  · intro entry otherMatcher ip isRead isOther
    rw [isEntry] at isRead
    rw [isMatcher] at isOther
    cases isRead
    cases isOther
    exact made.matches?_eq

/-- A prefix behind a slash is not longer than the address before it. -/
def PrefixFits (ipv6 : Ipv6Text) (text : List Char) : Prop :=
  ∀ ipText prefixText ip prefixLen,
    trim text = ipText ++ '/' :: prefixText → '/' ∉ ipText →
      ipv6.parseIp? ipText = some ip →
        fromStrRadix? 10 (2 ^ 8) prefixText = some prefixLen →
          prefixLen ≤ width ip

theorem prefixFits_iff :
    PrefixFits ipv6 text ↔
      ∀ network, written? ipv6 text = some network →
        network.2 ≤ width network.1 := by
  constructor
  · intro fits network isWritten
    unfold written? at isWritten
    cases isSplit : splitOnce? '/' (trim text) with
    | none =>
        rw [isSplit] at isWritten
        obtain ⟨ip, -, rfl⟩ := Option.map_eq_some_iff.mp isWritten
        exact Nat.le_refl _
    | some parts =>
        obtain ⟨isText, noSlash⟩ := splitOnce?_eq_some_iff.mp isSplit
        rw [isSplit] at isWritten
        dsimp only at isWritten
        split at isWritten
        · rename_i ip prefixLen isIp isLength
          cases isWritten
          exact fits parts.1 parts.2 ip prefixLen isText noSlash isIp isLength
        · nomatch isWritten
  · intro within ipText prefixText ip prefixLen isText noSlash isIp isLength
    apply within (ip, prefixLen)
    rw [written?, isText, splitOnce?_append noSlash]
    dsimp only
    rw [isIp, isLength]

/--
The readers agree on a text exactly if it is not the padded word for every
address and the prefix that it writes is not longer than its address.
-/
theorem agree_iff :
    Agree ipv6 text ↔ ¬IsAll text ∧ PrefixFits ipv6 text := by
  rw [prefixFits_iff]
  constructor
  · intro agree
    refine ⟨fun isAll => not_agree_of_isAll isAll agree, ?_⟩
    intro network isWritten
    apply agree.masks ⟨network.1, network.2⟩
    rw [cidrEntry_parse?_eq, isWritten]
    rfl
  · rintro ⟨notAll, within⟩
    cases isWritten : written? ipv6 text with
    | none =>
        exact agree_of_not_written notAll isWritten
    | some network =>
        exact agree_of_written notAll isWritten (within network isWritten)

/-- An IPv6 address that is never written. -/
def noIpv6 : Ipv6Text :=
  ⟨fun _ => [], fun _ => none⟩

/-- A network of 33 bits is trusted, and its own address makes it panic. -/
theorem not_agree_prefix_33 :
    eqIgnoreAsciiCase "10.0.0.0/33".toList "all".toList = false ∧
    CidrEntry.parse? noIpv6 "10.0.0.0/33".toList =
      some ⟨.v4 ⟨10, 0, 0, 0⟩, 33⟩ ∧
    CidrEntry.contains? ⟨.v4 ⟨10, 0, 0, 0⟩, 33⟩ (.v4 ⟨10, 0, 0, 0⟩) = none ∧
    IpMatcher.parse? noIpv6 "10.0.0.0/33".toList = none ∧
    ¬Agree noIpv6 "10.0.0.0/33".toList := by
  have isEntry :
      CidrEntry.parse? noIpv6 "10.0.0.0/33".toList =
        some ⟨.v4 ⟨10, 0, 0, 0⟩, 33⟩ := by
    decide
  have notMatcher :
      IpMatcher.parse? noIpv6 "10.0.0.0/33".toList = none := by
    decide
  refine ⟨by decide, isEntry, by decide, notMatcher, fun agree => ?_⟩
  have accepted := agree.accepted
  rw [isEntry, notMatcher] at accepted
  nomatch accepted

end Agreement

end Sweety.CidrAgreement
