import Sweety.ProxyProtocol

namespace Sweety.AddressReading

open HttpText FirstOccurrence ProxyProtocol

/-!
# The spellings of an address

The standard library reads an IPv6 address as eight groups, of which `::` stands
for one or more that are zero and an IPv4 address for the last two.  An IPv4
address is four decimal numbers there.  What it does not read, the resolver
still may: `inet_addr` takes up to four numbers, each in decimal, octal or
hexadecimal digits, and the last one fills the octets that remain.
-/

/-! ## IPv6 -/

/-- A group: up to four hexadecimal digits. -/
def parseGroup? (text : List Char) : Option (List UInt8) :=
  if text = [] ∨ 4 < text.length then
    none
  else
    (digitsValue? 16 (2 ^ 16) text 0).map fun value =>
      [UInt8.ofNat (value / 2 ^ 8), UInt8.ofNat value]

/-- The last group, or an IPv4 address instead of the last two. -/
def parseLastGroup? (text : List Char) : Option (List UInt8) :=
  (parseIpv4? text).map Ipv4Addr.octets <|> parseGroup? text

/-- The octets of groups of which the last one is read by `readLast?`. -/
def groupsOctets? (readLast? : List Char → Option (List UInt8)) :
    List (List Char) → Option (List UInt8)
  | [] =>
      some []
  | [group] =>
      readLast? group
  | group :: others =>
      (parseGroup? group).bind fun octets =>
        (groupsOctets? readLast? others).map (octets ++ ·)

/-- The groups between two colons, or none at all. -/
def partOctets? (readLast? : List Char → Option (List UInt8))
    (text : List Char) : Option (List UInt8) :=
  if text = [] then
    some []
  else
    groupsOctets? readLast? (text.splitOn ':')

/-- What stands before and behind the first `::`. -/
def cutAtGap? : List Char → Option (List Char × List Char)
  | ':' :: ':' :: rest =>
      some ([], rest)
  | char :: rest =>
      (cutAtGap? rest).map fun parts => (char :: parts.1, parts.2)
  | [] =>
      none

/-- The octets that an IPv6 address spells. -/
def ipv6Octets? (text : List Char) : Option (List UInt8) :=
  match cutAtGap? text with
  | some (head, tail) =>
      (partOctets? parseGroup? head).bind fun head =>
        (partOctets? parseLastGroup? tail).bind fun tail =>
          if head.length + tail.length ≤ 14 then
            some
              (head ++ List.replicate (16 - (head.length + tail.length)) 0 ++
                tail)
          else
            none
  | none =>
      partOctets? parseLastGroup? text

/-- `parse::<Ipv6Addr>`. -/
def parseIpv6? (text : List Char) : Option Ipv6Addr :=
  (ipv6Octets? text).bind fun octets =>
    if sixteen : octets.length = 16 then
      some ⟨octets, sixteen⟩
    else
      none

/-- `parse::<IpAddr>`. -/
def parseIpAddr? (text : List Char) : Option IpAddr :=
  (parseIpv4? text).map .v4 <|> (parseIpv6? text).map .v6

example :
    (parseIpv6? "2001:db8::ffff:1.2.3.4".toList).map (·.octets) =
      some [0x20, 1, 0x0d, 0xb8, 0, 0, 0, 0, 0, 0, 0xff, 0xff, 1, 2, 3, 4] := by
  decide

/-! ### Characters -/

/-- A character of the spelling of an address. -/
def IsAddressChar (char : Char) : Prop :=
  char = ':' ∨ char = '.' ∨ (digitValue? 16 char).isSome = true

theorem isAddressChar_of_digit
    {char : Char}
    (isDigit : (digitValue? 16 char).isSome = true) :
    IsAddressChar char :=
  .inr (.inr isDigit)

/-- A decimal digit is a hexadecimal one. -/
theorem isSome_digitValue?_sixteen
    {radix : Nat}
    {char : Char}
    (small : radix ≤ 16)
    (isDigit : (digitValue? radix char).isSome = true) :
    (digitValue? 16 char).isSome = true := by
  obtain ⟨value, isValue⟩ := Option.isSome_iff_exists.mp isDigit
  obtain ⟨isValue, below⟩ := Option.filter_eq_some_iff.mp isValue
  have below : value < radix := of_decide_eq_true below
  refine Option.isSome_iff_exists.mpr ⟨value, ?_⟩
  exact Option.filter_eq_some_iff.mpr
    ⟨isValue, decide_eq_true (Nat.lt_of_lt_of_le below small)⟩

theorem isAddressChar_of_parseGroup?
    {text : List Char}
    {octets : List UInt8}
    (isRead : parseGroup? text = some octets) :
    ∀ char ∈ text, IsAddressChar char := by
  unfold parseGroup? at isRead
  split at isRead
  · nomatch isRead
  · obtain ⟨value, isValue, -⟩ := Option.map_eq_some_iff.mp isRead
    intro char member
    exact isAddressChar_of_digit (isSome_of_digitsValue? isValue char member)

theorem isAddressChar_of_parseOctet?
    {text : List Char}
    {octet : UInt8}
    (isRead : parseOctet? text = some octet) :
    ∀ char ∈ text, IsAddressChar char := by
  unfold parseOctet? at isRead
  split at isRead
  · nomatch isRead
  · obtain ⟨value, isValue, -⟩ := Option.map_eq_some_iff.mp isRead
    intro char member
    exact isAddressChar_of_digit (isSome_digitValue?_sixteen (by decide)
      (isSome_of_digitsValue? isValue char member))

theorem isAddressChar_of_parseIpv4?
    {text : List Char}
    {ip : Ipv4Addr}
    (isRead : parseIpv4? text = some ip) :
    ∀ char ∈ text, IsAddressChar char := by
  intro char member
  rcases eq_or_exists_mem_splitOn '.' member with isDot | inPart
  · exact .inr (.inl isDot)
  · obtain ⟨part, isPart, inPart⟩ := inPart
    unfold parseIpv4? at isRead
    split at isRead
    · rename_i first second third fourth isSplit
      rw [isSplit] at isPart
      split at isRead
      · rename_i isFirst isSecond isThird isFourth
        simp only [List.mem_cons, List.not_mem_nil, or_false] at isPart
        rcases isPart with rfl | rfl | rfl | rfl
        · exact isAddressChar_of_parseOctet? isFirst char inPart
        · exact isAddressChar_of_parseOctet? isSecond char inPart
        · exact isAddressChar_of_parseOctet? isThird char inPart
        · exact isAddressChar_of_parseOctet? isFourth char inPart
      · nomatch isRead
    · nomatch isRead

theorem isAddressChar_of_parseLastGroup?
    {text : List Char}
    {octets : List UInt8}
    (isRead : parseLastGroup? text = some octets) :
    ∀ char ∈ text, IsAddressChar char := by
  unfold parseLastGroup? at isRead
  cases isIpv4 : parseIpv4? text with
  | some ip =>
      exact isAddressChar_of_parseIpv4? isIpv4
  | none =>
      rw [isIpv4] at isRead
      exact isAddressChar_of_parseGroup? isRead

section Groups

variable
  {readLast? : List Char → Option (List UInt8)}
  (readsAddress : ∀ text octets, readLast? text = some octets →
    ∀ char ∈ text, IsAddressChar char)

include readsAddress

theorem isAddressChar_of_groupsOctets?
    {groups : List (List Char)}
    {octets : List UInt8}
    (isRead : groupsOctets? readLast? groups = some octets) :
    ∀ group ∈ groups, ∀ char ∈ group, IsAddressChar char := by
  induction groups generalizing octets with
  | nil =>
      intro group member
      nomatch member
  | cons first others inductionHypothesis =>
      cases others with
      | nil =>
          intro group member
          rw [List.mem_singleton] at member
          subst member
          exact readsAddress _ _ isRead
      | cons second others =>
          obtain ⟨front, isFront, isRead⟩ := Option.bind_eq_some_iff.mp isRead
          obtain ⟨behind, isBehind, -⟩ := Option.map_eq_some_iff.mp isRead
          intro group member
          rcases List.mem_cons.mp member with rfl | inOthers
          · exact isAddressChar_of_parseGroup? isFront
          · exact inductionHypothesis isBehind group inOthers

theorem isAddressChar_of_partOctets?
    {text : List Char}
    {octets : List UInt8}
    (isRead : partOctets? readLast? text = some octets) :
    ∀ char ∈ text, IsAddressChar char := by
  unfold partOctets? at isRead
  split at isRead
  · rename_i isNil
    intro char member
    rw [isNil] at member
    nomatch member
  · intro char member
    rcases eq_or_exists_mem_splitOn ':' member with isColon | inPart
    · exact .inl isColon
    · obtain ⟨group, isGroup, inGroup⟩ := inPart
      exact isAddressChar_of_groupsOctets? readsAddress isRead
        group isGroup char inGroup

end Groups

/-- The two parts with the gap between them are the text. -/
theorem eq_of_cutAtGap?
    {text head tail : List Char}
    (isCut : cutAtGap? text = some (head, tail)) :
    text = head ++ ':' :: ':' :: tail := by
  fun_induction cutAtGap? text generalizing head with
  | case1 rest =>
      cases isCut
      rfl
  | case2 char rest notGap inductionHypothesis =>
      obtain ⟨parts, isParts, same⟩ := Option.map_eq_some_iff.mp isCut
      cases same
      rw [inductionHypothesis isParts]
      rfl
  | case3 =>
      nomatch isCut

section Accepted

variable
  {text : List Char}
  {ip : Ipv6Addr}

theorem octets_of_parseIpv6?
    (isRead : parseIpv6? text = some ip) :
    ipv6Octets? text = some ip.octets := by
  obtain ⟨octets, isOctets, isRead⟩ := Option.bind_eq_some_iff.mp isRead
  split at isRead
  · cases isRead
    exact isOctets
  · nomatch isRead

/-- No other characters stand in the spelling of an IPv6 address. -/
theorem isAddressChar_of_parseIpv6?
    (isRead : parseIpv6? text = some ip) :
    ∀ char ∈ text, IsAddressChar char := by
  have isOctets := octets_of_parseIpv6? isRead
  unfold ipv6Octets? at isOctets
  split at isOctets
  · rename_i head tail isCut
    obtain ⟨front, isFront, isOctets⟩ := Option.bind_eq_some_iff.mp isOctets
    obtain ⟨behind, isBehind, -⟩ := Option.bind_eq_some_iff.mp isOctets
    rw [eq_of_cutAtGap? isCut]
    intro char member
    simp only [List.mem_append, List.mem_cons] at member
    rcases member with inHead | isColon | isColon | inTail
    · exact isAddressChar_of_partOctets?
        (fun _ _ => isAddressChar_of_parseGroup?) isFront char inHead
    · exact .inl isColon
    · exact .inl isColon
    · exact isAddressChar_of_partOctets?
        (fun _ _ => isAddressChar_of_parseLastGroup?) isBehind char inTail
  · exact isAddressChar_of_partOctets?
      (fun _ _ => isAddressChar_of_parseLastGroup?) isOctets

theorem length_le_of_parseLastGroup?
    {octets : List UInt8}
    (isRead : parseLastGroup? text = some octets) :
    octets.length ≤ 4 := by
  unfold parseLastGroup? at isRead
  cases isIpv4 : parseIpv4? text with
  | some ip =>
      rw [isIpv4] at isRead
      cases isRead
      exact Nat.le_refl _
  | none =>
      rw [isIpv4] at isRead
      have isGroup : parseGroup? text = some octets := isRead
      unfold parseGroup? at isGroup
      split at isGroup
      · nomatch isGroup
      · obtain ⟨value, -, rfl⟩ := Option.map_eq_some_iff.mp isGroup
        exact Nat.le_add_left 2 2

/-- Sixteen octets take more than one group. -/
theorem colon_mem_of_parseIpv6?
    (isRead : parseIpv6? text = some ip) :
    ':' ∈ text := by
  by_contra noColon
  have isOctets := octets_of_parseIpv6? isRead
  have sixteen := ip.sixteen
  unfold ipv6Octets? at isOctets
  split at isOctets
  · rename_i head tail isCut
    rw [eq_of_cutAtGap? isCut] at noColon
    exact noColon (List.mem_append_right head List.mem_cons_self)
  · unfold partOctets? at isOctets
    split at isOctets
    · rw [← Option.some.inj isOctets] at sixteen
      nomatch sixteen
    · have isWhole : text.splitOn ':' = [text] :=
        List.splitOn_eq_singleton noColon
      rw [isWhole] at isOctets
      have short := length_le_of_parseLastGroup? isOctets
      omega

end Accepted

/-! ## Numbers and dots -/

/-- A number in the notation of C. -/
def cNumber? : List Char → Option Nat
  | [] =>
      none
  | '0' :: 'x' :: digits | '0' :: 'X' :: digits =>
      if digits = [] then
        none
      else
        digitsValue? 16 (2 ^ 32) digits 0
  | '0' :: digits =>
      digitsValue? 8 (2 ^ 32) digits 0
  | digits =>
      digitsValue? 10 (2 ^ 32) digits 0

/-- The numbers of the parts. -/
def cNumbers? : List (List Char) → Option (List Nat)
  | [] =>
      some []
  | part :: others =>
      (cNumber? part).bind fun number =>
        (cNumbers? others).map (number :: ·)

/-- The address of up to four numbers. -/
def fromNumbers? : List Nat → Option Nat
  | [a] =>
      if a < 2 ^ 32 then
        some a
      else
        none
  | [a, b] =>
      if a < 2 ^ 8 ∧ b < 2 ^ 24 then
        some (a * 2 ^ 24 + b)
      else
        none
  | [a, b, c] =>
      if a < 2 ^ 8 ∧ b < 2 ^ 8 ∧ c < 2 ^ 16 then
        some (a * 2 ^ 24 + b * 2 ^ 16 + c)
      else
        none
  | [a, b, c, d] =>
      if a < 2 ^ 8 ∧ b < 2 ^ 8 ∧ c < 2 ^ 8 ∧ d < 2 ^ 8 then
        some (a * 2 ^ 24 + b * 2 ^ 16 + c * 2 ^ 8 + d)
      else
        none
  | _ =>
      none

/-- `inet_addr`. -/
def inetAddr? (text : List Char) : Option Ipv4Addr :=
  ((cNumbers? (text.splitOn '.')).bind fromNumbers?).map fun number =>
    ⟨UInt8.ofNat (number / 2 ^ 24), UInt8.ofNat (number / 2 ^ 16),
      UInt8.ofNat (number / 2 ^ 8), UInt8.ofNat number⟩

example : inetAddr? "0x7f.1".toList = some ⟨127, 0, 0, 1⟩ := by
  decide

/-- A character of numbers and dots. -/
def IsNumberChar (char : Char) : Prop :=
  char = '.' ∨ char = 'x' ∨ char = 'X' ∨ (digitValue? 16 char).isSome = true

theorem isNumberChar_of_digitsValue?
    {radix bound value : Nat}
    {digits : List Char}
    (small : radix ≤ 16)
    (isRead : digitsValue? radix bound digits 0 = some value) :
    ∀ char ∈ digits, IsNumberChar char := by
  intro char member
  exact .inr (.inr (.inr (isSome_digitValue?_sixteen small
    (isSome_of_digitsValue? isRead char member))))

theorem isNumberChar_of_cNumber?
    {text : List Char}
    {number : Nat}
    (isRead : cNumber? text = some number) :
    ∀ char ∈ text, IsNumberChar char := by
  have isZero : IsNumberChar '0' :=
    .inr (.inr (.inr rfl))
  have hexadecimal :
      ∀ {digits : List Char},
        (if digits = [] then none else digitsValue? 16 (2 ^ 32) digits 0) =
          some number → ∀ char ∈ digits, IsNumberChar char := by
    intro digits isValue
    split at isValue
    · nomatch isValue
    · exact isNumberChar_of_digitsValue? (by decide) isValue
  unfold cNumber? at isRead
  split at isRead
  · nomatch isRead
  · rw [List.forall_mem_cons, List.forall_mem_cons]
    exact ⟨isZero, .inr (.inl rfl), hexadecimal isRead⟩
  · rw [List.forall_mem_cons, List.forall_mem_cons]
    exact ⟨isZero, .inr (.inr (.inl rfl)), hexadecimal isRead⟩
  · rw [List.forall_mem_cons]
    exact ⟨isZero, isNumberChar_of_digitsValue? (by decide) isRead⟩
  · exact isNumberChar_of_digitsValue? (by decide) isRead

theorem isNumberChar_of_cNumbers?
    {parts : List (List Char)}
    {numbers : List Nat}
    (isRead : cNumbers? parts = some numbers) :
    ∀ part ∈ parts, ∀ char ∈ part, IsNumberChar char := by
  induction parts generalizing numbers with
  | nil =>
      intro part member
      nomatch member
  | cons first others inductionHypothesis =>
      obtain ⟨number, isNumber, isRead⟩ := Option.bind_eq_some_iff.mp isRead
      obtain ⟨behind, isBehind, -⟩ := Option.map_eq_some_iff.mp isRead
      intro part member
      rcases List.mem_cons.mp member with rfl | inOthers
      · exact isNumberChar_of_cNumber? isNumber
      · exact inductionHypothesis isBehind part inOthers

/-- No other characters stand in what `inet_addr` takes. -/
theorem isNumberChar_of_inetAddr?
    {text : List Char}
    {ip : Ipv4Addr}
    (isRead : inetAddr? text = some ip) :
    ∀ char ∈ text, IsNumberChar char := by
  obtain ⟨number, isNumber, -⟩ := Option.map_eq_some_iff.mp isRead
  obtain ⟨numbers, isNumbers, -⟩ := Option.bind_eq_some_iff.mp isNumber
  intro char member
  rcases eq_or_exists_mem_splitOn '.' member with isDot | inPart
  · exact .inl isDot
  · obtain ⟨part, isPart, inPart⟩ := inPart
    exact isNumberChar_of_cNumbers? isNumbers part isPart char inPart

end Sweety.AddressReading
