import Sweety.ProxyHeaderReading

namespace Sweety.ProxyProtocol

open HttpText FirstOccurrence

/-!
# PROXY headers, written and read back

Both encoders stay within their buffers, and the parser reads what they wrote,
whatever follows it.
-/

variable {ipv6 : Ipv6Text}

/-! ## Writing -/

section Writing

variable
  {buf bytes more : List UInt8}
  {place capacity : Nat}

theorem writeAt_eq
    (fits : place + bytes.length ≤ buf.length) :
    writeAt place bytes buf =
      some (buf.take place ++ bytes ++
        buf.drop (place + bytes.length)) :=
  if_pos fits

theorem put_eq
    (fits : place + bytes.length ≤ buf.length) :
    put bytes (buf, place) =
      some (buf.take place ++ bytes ++ buf.drop (place + bytes.length),
        place + bytes.length) := by
  rw [put, writeAt_eq fits]
  rfl

theorem put_eq_none
    (behind : buf.length < place + bytes.length) :
    put bytes (buf, place) = none := by
  rw [put, writeAt, if_neg (Nat.not_le.mpr behind)]
  rfl

/-- Two writes in a row are one. -/
theorem put_append (first second : List UInt8) :
    put (first ++ second) = fun cursor => put first cursor >>= put second := by
  funext ⟨buf, place⟩
  rcases Nat.lt_or_ge buf.length (place + first.length) with
    behind | fits
  · rw [put_eq_none behind,
      put_eq_none (by rw [List.length_append]; omega)]
    rfl
  · have isPlace :
        (buf.take place ++ first).length = place + first.length := by
      rw [List.length_append, List.length_take]
      omega
    have isLength :
        (buf.take place ++ first ++
          buf.drop (place + first.length)).length = buf.length := by
      rw [List.length_append, isPlace, List.length_drop]
      omega
    rw [put_eq fits, Option.bind_eq_bind, Option.bind_some]
    rcases Nat.lt_or_ge buf.length
        (place + (first.length + second.length)) with
      behind | fitsBoth
    · rw [put_eq_none (by rw [List.length_append]; omega),
        put_eq_none (by rw [isLength]; omega)]
    · have isRest :
          (buf.take place ++ first ++
              buf.drop (place + first.length)).drop
                (place + first.length + second.length) =
            buf.drop (place + (first.length + second.length)) := by
        rw [← isPlace, ← List.drop_drop, List.drop_left, isPlace,
          List.drop_drop, Nat.add_assoc]
      rw [put_eq (by rw [List.length_append]; omega),
        put_eq (by rw [isLength]; omega), isRest, List.take_left' isPlace]
      simp only [List.append_assoc, List.length_append, Nat.add_assoc]

/-- A buffer of zeros, with some bytes written from its start. -/
def written (capacity : Nat) (bytes : List UInt8) : Cursor :=
  (bytes ++ List.replicate (capacity - bytes.length) 0, bytes.length)

theorem length_written
    (fits : bytes.length ≤ capacity) :
    (written capacity bytes).1.length = capacity := by
  rw [written, List.length_append, List.length_replicate]
  omega

theorem writeAt_written
    (isPlace : bytes.length = place)
    (fits : place + more.length ≤ capacity) :
    writeAt place more (written capacity bytes).1 =
      some (written capacity (bytes ++ more)).1 := by
  subst isPlace
  rw [writeAt_eq (by rw [length_written (by omega)]; exact fits), written,
    List.take_left, ← List.drop_drop, List.drop_left,
    List.drop_replicate, Nat.sub_sub, written, List.length_append]

theorem put_written
    (fits : bytes.length ≤ capacity) :
    put bytes (List.replicate capacity 0, 0) =
      some (written capacity bytes) := by
  rw [put_eq (by rw [List.length_replicate]; omega), written,
    List.take_zero, List.drop_replicate, Nat.zero_add]
  rfl

end Writing

/-! ## Decimal numbers -/

/-- The bytes of a number in decimal. -/
def decimal (number : Nat) : List UInt8 :=
  encodeUtf8 (Nat.toDigits 10 number)

theorem encodeUtf8_digitChar :
    ∀ digit < 10, encodeUtf8 [Nat.digitChar digit] = [digitByte digit] := by
  decide

theorem decimal_of_lt
    {number : Nat}
    (small : number < 10) :
    decimal number = [digitByte number] := by
  rw [decimal, Nat.toDigits_of_lt_base small,
    encodeUtf8_digitChar number small]

theorem decimal_of_le
    {number : Nat}
    (large : 10 ≤ number) :
    decimal number = decimal (number / 10) ++ [digitByte (number % 10)] := by
  rw [decimal, Nat.toDigits_of_base_le (by decide) large,
    encodeUtf8_append,
    encodeUtf8_digitChar (number % 10) (Nat.mod_lt _ (by decide))]
  rfl

/-- `write_u8` writes the number in decimal. -/
theorem u8Digits_eq (value : UInt8) :
    u8Digits value = decimal value.toNat := by
  have small : value.toNat < 256 := value.toNat_lt
  unfold u8Digits
  generalize value.toNat = number at small
  dsimp only
  split
  · rw [decimal_of_le (by omega), decimal_of_le (by omega),
      decimal_of_lt (by omega), Nat.div_div_eq_div_mul]
    rfl
  · split
    · rw [decimal_of_le (by omega), decimal_of_lt (by omega)]
      rfl
    · rw [decimal_of_lt (by omega)]

/-- `write_u16` writes the number in decimal. -/
theorem u16Digits_eq (value : UInt16) :
    u16Digits value = decimal value.toNat := by
  have small : value.toNat < 65536 := value.toNat_lt
  unfold u16Digits
  generalize value.toNat = number at small
  dsimp only
  split
  · rw [decimal_of_le (by omega), decimal_of_le (by omega),
      decimal_of_le (by omega), decimal_of_le (by omega),
      decimal_of_lt (by omega)]
    simp only [Nat.div_div_eq_div_mul]
    rfl
  · split
    · rw [decimal_of_le (by omega), decimal_of_le (by omega),
        decimal_of_le (by omega), decimal_of_lt (by omega)]
      simp only [Nat.div_div_eq_div_mul]
      rfl
    · split
      · rw [decimal_of_le (by omega), decimal_of_le (by omega),
          decimal_of_lt (by omega), Nat.div_div_eq_div_mul]
        rfl
      · split
        · rw [decimal_of_le (by omega), decimal_of_lt (by omega)]
          rfl
        · rw [decimal_of_lt (by omega)]

theorem not_mem_toDigits
    {separator : Char}
    (isSeparator : separator.isDigit = false)
    (number : Nat) :
    separator ∉ Nat.toDigits 10 number := by
  intro member
  have isDigit :=
    Nat.isDigit_of_mem_toDigits (by decide) (by decide) member
  rw [isDigit] at isSeparator
  cases isSeparator

/-- Only zero begins with the digit zero. -/
theorem head?_toDigits_ne_zero
    {number : Nat}
    (positive : 0 < number) :
    (Nat.toDigits 10 number).head? ≠ some '0' := by
  have notZero : ∀ digit < 10, 0 < digit → Nat.digitChar digit ≠ '0' := by
    decide
  induction number using Nat.strongRecOn with
  | ind number inductionHypothesis =>
      by_cases one : number < 10
      · rw [Nat.toDigits_of_lt_base one, List.head?_cons, ne_eq,
          Option.some_inj]
        exact notZero number one positive
      · rw [Nat.toDigits_of_base_le (by decide) (Nat.not_lt.mp one),
          List.head?_append_of_ne_nil _ Nat.toDigits_ne_nil]
        exact inductionHypothesis (number / 10) (by omega) (by omega)

theorem digitsValue?_toDigits
    {bound number : Nat}
    (fits : number < bound) :
    digitsValue? 10 bound (Nat.toDigits 10 number) 0 = some number := by
  have isValue := @foldDigits_toDigits 10 (by decide) (by decide) number
  rw [digitsValue?_eq_some (by decide)
    (isSome_digitValue?_toDigits (by decide) (by decide) number)
    (by rw [isValue]; exact fits), isValue]

/-- An octet is read back. -/
theorem parseOctet?_toDigits (value : UInt8) :
    parseOctet? (Nat.toDigits 10 value.toNat) = some value := by
  have small : value.toNat < 256 := value.toNat_lt
  have short : (Nat.toDigits 10 value.toNat).length ≤ 3 := by
    apply (Nat.length_toDigits_le_iff (by decide) (by decide)).mpr
    omega
  have noZero :
      ¬ (1 < (Nat.toDigits 10 value.toNat).length ∧
        (Nat.toDigits 10 value.toNat).head? = some '0') := by
    rintro ⟨long, isZero⟩
    refine head?_toDigits_ne_zero ?_ isZero
    by_contra notPositive
    rw [Nat.eq_zero_of_not_pos notPositive, Nat.toDigits_zero] at long
    exact absurd long (by decide)
  rw [parseOctet?, if_neg, digitsValue?_toDigits small, Option.map_some,
    UInt8.ofNat_toNat]
  rintro (isEmpty | long | leading)
  · exact Nat.toDigits_ne_nil isEmpty
  · omega
  · exact noZero leading

theorem length_decimal (number : Nat) :
    (decimal number).length = (Nat.toDigits 10 number).length := by
  induction number using Nat.strongRecOn with
  | ind number inductionHypothesis =>
      by_cases one : number < 10
      · rw [decimal_of_lt one, Nat.toDigits_of_lt_base one]
        rfl
      · rw [Nat.not_lt] at one
        rw [decimal_of_le one, Nat.toDigits_of_base_le (by decide) one,
          List.length_append, List.length_append,
          inductionHypothesis (number / 10) (by omega)]
        rfl

theorem length_decimal_le
    {number digits : Nat}
    (positive : 0 < digits)
    (small : number < 10 ^ digits) :
    (decimal number).length ≤ digits := by
  rw [length_decimal]
  exact (Nat.length_toDigits_le_iff (by decide) positive).mpr small

theorem length_decimal_u8 (value : UInt8) :
    (decimal value.toNat).length ≤ 3 := by
  have small : value.toNat < 256 := value.toNat_lt
  exact length_decimal_le (by decide) (by omega)

theorem length_decimal_u16 (value : UInt16) :
    (decimal value.toNat).length ≤ 5 := by
  have small : value.toNat < 65536 := value.toNat_lt
  exact length_decimal_le (by decide) (by omega)

/-- A port is read back. -/
theorem parseU16?_toDigits (value : UInt16) :
    parseU16? (Nat.toDigits 10 value.toNat) = some value.toNat :=
  parseU16?_toDigits_of_lt value.toNat_lt

/-! ## Addresses in text -/

/-- What is relied on for the text of an IPv6 address. -/
structure WritesIpv6 (ipv6 : Ipv6Text) (ip : Ipv6Addr) : Prop where
  readsBack : ipv6.parseIp? (ipv6.display ip) = some (.v6 ip)
  short : (encodeUtf8 (ipv6.display ip)).length ≤ 39
  alphabet :
    ∀ char ∈ ipv6.display ip,
      (digitValue? 16 char).isSome ∨ char = ':' ∨ char = '.'

/-- What is relied on for the text of an address. -/
def WritesIp (ipv6 : Ipv6Text) : IpAddr → Prop
  | .v4 _ =>
      True
  | .v6 ip =>
      WritesIpv6 ipv6 ip

/-- The text of an address. -/
def ipText (ipv6 : Ipv6Text) : IpAddr → List Char
  | .v4 ip =>
      Nat.toDigits 10 ip.first.toNat ++ '.' ::
        (Nat.toDigits 10 ip.second.toNat ++ '.' ::
          (Nat.toDigits 10 ip.third.toNat ++ '.' ::
            Nat.toDigits 10 ip.fourth.toNat))
  | .v6 ip =>
      ipv6.display ip

theorem encodeUtf8_append_cons
    (part rest : List Char)
    (separator : Char) :
    encodeUtf8 (part ++ separator :: rest) =
      encodeUtf8 part ++ (encodeUtf8 [separator] ++ encodeUtf8 rest) := by
  rw [encodeUtf8_append, ← encodeUtf8_append [separator],
    List.singleton_append]

theorem writeIp_eq
    (ip : IpAddr)
    (cursor : Cursor) :
    writeIp ipv6 ip cursor = put (encodeUtf8 (ipText ipv6 ip)) cursor := by
  have dot : encodeUtf8 ['.'] = [46] := rfl
  cases ip with
  | v4 ip =>
      simp only [writeIp, ipText, u8Digits_eq, encodeUtf8_append_cons,
        put_append, dot]
      rfl
  | v6 ip =>
      rfl

/-- The text of an address is short, and has no blank and no line end. -/
structure PlainText (text : List Char) : Prop where
  short : (encodeUtf8 text).length ≤ 39
  noBlank : ' ' ∉ text
  noReturn : '\r' ∉ text

theorem plainText_ipText
    {ip : IpAddr}
    (writes : WritesIp ipv6 ip) :
    PlainText (ipText ipv6 ip) := by
  cases ip with
  | v4 ip =>
      have noBlank := not_mem_toDigits (show ' '.isDigit = false from rfl)
      have noReturn := not_mem_toDigits (show '\r'.isDigit = false from rfl)
      constructor
      · have first := length_decimal_u8 ip.first
        have second := length_decimal_u8 ip.second
        have third := length_decimal_u8 ip.third
        have fourth := length_decimal_u8 ip.fourth
        have dot : (encodeUtf8 ['.']).length = 1 := rfl
        simp only [ipText, encodeUtf8_append_cons, List.length_append, dot]
        unfold decimal at first second third fourth
        omega
      · simp [ipText, noBlank]
      · simp [ipText, noReturn]
  | v6 ip =>
      have other
          {char : Char}
          (isOther : ¬ ((digitValue? 16 char).isSome ∨ char = ':' ∨
            char = '.')) :
          char ∉ ipv6.display ip :=
        fun member => isOther (writes.alphabet char member)
      exact ⟨writes.short, other (by decide), other (by decide)⟩

/-- An address is read back. -/
theorem parseIp?_ipText
    {ip : IpAddr}
    (writes : WritesIp ipv6 ip) :
    ipv6.parseIp? (ipText ipv6 ip) = some ip := by
  cases ip with
  | v4 ip =>
      have noDot := not_mem_toDigits (show '.'.isDigit = false from rfl)
      have parsed : parseIpv4? (ipText ipv6 (.v4 ip)) = some ip := by
        rw [parseIpv4?, ipText]
        simp only [List.splitOn_append_cons_self_of_not_mem (noDot _),
          List.splitOn_eq_singleton (noDot _), parseOctet?_toDigits]
      rw [Ipv6Text.parseIp?, parsed]
      rfl
  | v6 ip =>
      exact writes.readsBack

/-! ## Version 1 -/

/-- The family that a version 1 header names. -/
def familyText? : IpAddr → IpAddr → Option (List Char)
  | .v4 _, .v4 _ =>
      some "TCP4".toList
  | .v6 _, .v6 _ =>
      some "TCP6".toList
  | _, _ =>
      none

/-- The header that a reader is to find. -/
def headerOf (src dst : SocketAddr) : ProxyHeader :=
  match src.ip, dst.ip with
  | .v4 _, .v4 _ | .v6 _, .v6 _ =>
      .proxy src dst
  | .v4 _, .v6 _ | .v6 _, .v4 _ =>
      .localCommand

theorem headerOf_eq (src dst : SocketAddr) :
    headerOf src dst =
      if (familyText? src.ip dst.ip).isSome then
        .proxy src dst
      else
        .localCommand := by
  obtain ⟨srcIp, _⟩ := src
  obtain ⟨dstIp, _⟩ := dst
  cases srcIp <;> cases dstIp <;> rfl

/-- The addresses and the ports of a line. -/
def addressesText
    (ipv6 : Ipv6Text)
    (src dst : SocketAddr) :
    List Char :=
  ipText ipv6 src.ip ++ ' ' ::
    (ipText ipv6 dst.ip ++ ' ' ::
      (Nat.toDigits 10 src.port.toNat ++ ' ' ::
        Nat.toDigits 10 dst.port.toNat))

/-- A line, behind the word that it begins with. -/
def lineText
    (ipv6 : Ipv6Text)
    (src dst : SocketAddr) :
    List Char :=
  match familyText? src.ip dst.ip with
  | some family =>
      family ++ ' ' :: addressesText ipv6 src dst
  | none =>
      "UNKNOWN".toList

/-- The bytes of a version 1 header with this line. -/
def v1Bytes (text : List Char) : List UInt8 :=
  v1Start ++ (encodeUtf8 text ++ [13, 10])

theorem writeAddresses_eq
    (src dst : SocketAddr)
    (cursor : Cursor) :
    writeAddresses ipv6 src dst cursor =
      put (encodeUtf8 (addressesText ipv6 src dst) ++ [13, 10])
        cursor := by
  have blank : encodeUtf8 [' '] = [32] := rfl
  simp only [writeAddresses, addressesText, writeIp_eq, u16Digits_eq,
    encodeUtf8_append_cons, List.append_assoc, put_append, blank]
  rfl

/-- `encode_v1` writes the header at once. -/
theorem encodeV1_eq (src dst : SocketAddr) :
    encodeV1 ipv6 src dst =
      put (v1Bytes (lineText ipv6 src dst))
        (List.replicate v1MaxHeaderLen 0, 0) := by
  have isTcp4 (text : List Char) :
      "TCP4".toList ++ ' ' :: text = "TCP4 ".toList ++ text := rfl
  have isTcp6 (text : List Char) :
      "TCP6".toList ++ ' ' :: text = "TCP6 ".toList ++ text := rfl
  obtain ⟨srcIp, srcPort⟩ := src
  obtain ⟨dstIp, dstPort⟩ := dst
  unfold encodeV1 v1Bytes lineText
  cases srcIp with
  | v4 srcIp =>
      cases dstIp with
      | v4 dstIp =>
          simp only [familyText?, isTcp4,
            encodeUtf8_append _ (addressesText _ _ _), List.append_assoc,
            put_append v1Start,
            put_append (encodeUtf8 "TCP4 ".toList), writeAddresses_eq]
      | v6 dstIp =>
          rw [put_append]
          rfl
  | v6 srcIp =>
      cases dstIp with
      | v4 dstIp =>
          rw [put_append]
          rfl
      | v6 dstIp =>
          simp only [familyText?, isTcp6, encodeUtf8_append,
            List.append_assoc,
            put_append v1Start,
            put_append (encodeUtf8 "TCP6 ".toList), writeAddresses_eq]

/-- The name of a family is one word of four characters. -/
structure IsFamily (family : List Char) : Prop where
  four : (encodeUtf8 family).length = 4
  noBlank : ' ' ∉ family
  noReturn : '\r' ∉ family
  known :
    ∀ text, ¬ "UNKNOWN".toList.isPrefixOf (family ++ ' ' :: text) = true

theorem isFamily_familyText?
    {src dst : IpAddr}
    {family : List Char}
    (isFamily : familyText? src dst = some family) :
    IsFamily family := by
  unfold familyText? at isFamily
  split at isFamily
  · cases isFamily
    exact ⟨rfl, by decide, by decide, fun _ => Bool.false_ne_true⟩
  · cases isFamily
    exact ⟨rfl, by decide, by decide, fun _ => Bool.false_ne_true⟩
  · cases isFamily

section Version1

variable
  {src dst : SocketAddr}
  (writesSrc : WritesIp ipv6 src.ip)
  (writesDst : WritesIp ipv6 dst.ip)

include writesSrc writesDst

theorem length_addressesText :
    (encodeUtf8 (addressesText ipv6 src dst)).length ≤ 91 := by
  have srcShort := (plainText_ipText writesSrc).short
  have dstShort := (plainText_ipText writesDst).short
  have srcPort := length_decimal_u16 src.port
  have dstPort := length_decimal_u16 dst.port
  have blank : (encodeUtf8 [' ']).length = 1 := rfl
  simp only [addressesText, encodeUtf8_append_cons, List.length_append,
    blank]
  unfold decimal at srcPort dstPort
  omega

/-- A header fits in the buffer. -/
theorem length_v1Bytes_le :
    (v1Bytes (lineText ipv6 src dst)).length ≤ v1MaxHeaderLen := by
  have short := length_addressesText writesSrc writesDst
  have blank : (encodeUtf8 [' ']).length = 1 := rfl
  unfold lineText
  split
  · next family isFamily =>
      have four := (isFamily_familyText? isFamily).four
      simp only [v1Bytes, v1Start, v1MaxHeaderLen, encodeUtf8_append_cons,
        List.length_append, List.length_cons, List.length_nil, blank]
      omega
  · decide

/-- A header is one line. -/
theorem return_not_mem_lineText : '\r' ∉ lineText ipv6 src dst := by
  have srcPlain := plainText_ipText writesSrc
  have dstPlain := plainText_ipText writesDst
  have noReturn := not_mem_toDigits (show '\r'.isDigit = false from rfl)
  unfold lineText
  split
  · next family isFamily =>
      have plain := isFamily_familyText? isFamily
      simp [addressesText, plain.noReturn, srcPlain.noReturn,
        dstPlain.noReturn, noReturn]
  · decide

theorem splitN_addressesText
    {family : List Char}
    (noBlank : ' ' ∉ family) :
    splitN ' ' 5 (family ++ ' ' :: addressesText ipv6 src dst) =
      [family, ipText ipv6 src.ip, ipText ipv6 dst.ip,
        Nat.toDigits 10 src.port.toNat,
        Nat.toDigits 10 dst.port.toNat] := by
  have srcPlain := plainText_ipText writesSrc
  have dstPlain := plainText_ipText writesDst
  have noBlankPort := not_mem_toDigits (show ' '.isDigit = false from rfl)
  simp only [addressesText, splitN, splitOnce?_append noBlank,
    splitOnce?_append srcPlain.noBlank, splitOnce?_append dstPlain.noBlank,
    splitOnce?_append (noBlankPort _)]

/-- A line is read back. -/
theorem parseLine_lineText (consumed : Nat) :
    parseLine ipv6 consumed (encodeUtf8 (lineText ipv6 src dst)) =
      .ok (headerOf src dst, consumed) := by
  rw [parseLine_eq (decodeUtf8_encodeUtf8 _), lineText, headerOf_eq]
  cases isFamily : familyText? src.ip dst.ip with
  | some family =>
      have isPlain := isFamily_familyText? isFamily
      dsimp only
      rw [if_neg (isPlain.known _),
        splitN_addressesText writesSrc writesDst isPlain.noBlank,
        parseFields, parseIp?_ipText writesSrc, parseIp?_ipText writesDst,
        parseU16?_toDigits, parseU16?_toDigits]
      simp [orInvalid, bind, Except.bind, pure, Except.pure]
  | none =>
      rfl

end Version1

/-- A line is read up to its end. -/
theorem parse_v1Bytes
    {text : List Char}
    (oneLine : '\r' ∉ text)
    (rest : List UInt8) :
    parse ipv6 (v1Bytes text ++ rest) =
      parseLine ipv6 (v1Bytes text).length (encodeUtf8 text) := by
  have absent : (13 : UInt8) ∉ v1Start ++ encodeUtf8 text := by
    rw [List.mem_append, not_or]
    refine ⟨by decide, ascii_not_mem_encodeUtf8 (by decide : 13 < 128) ?_⟩
    intro char isChar isReturn
    have same : char = '\r' := Char.ext (UInt32.toNat_inj.mp isReturn)
    exact oneLine (same ▸ isChar)
  have isAppend :
      v1Bytes text ++ rest =
        v1Start ++ encodeUtf8 text ++ ([13, 10] ++ rest) := by
    simp only [v1Bytes, List.append_assoc]
  have isEnd :
      position? [13, 10] (v1Bytes text ++ rest) =
        some (v1Start ++ encodeUtf8 text).length := by
    rw [isAppend]
    exact position?_of_not_mem absent
  have isV1 : v1Start <+: v1Bytes text ++ rest := by
    rw [isAppend, List.append_assoc]
    exact List.prefix_append _ _
  have notV2 : ¬ MayBeV2 (v1Bytes text ++ rest) := by
    rintro ⟨after, isSignature⟩
    have isFirst := congrArg List.head? isSignature
    simp [v1Bytes, v1Start, v2Signature] at isFirst
  have long : ¬ (v1Bytes text ++ rest).length < 8 := by
    simp only [v1Bytes, v1Start, List.length_append, List.length_cons]
    omega
  have isLine :
      lineOf (v1Bytes text ++ rest) (v1Start ++ encodeUtf8 text).length =
        encodeUtf8 text := by
    rw [lineOf, isAppend, List.take_left]
    rfl
  rw [parse_eq, if_neg long, if_neg notV2,
    if_pos (List.isPrefixOf_iff_prefix.mpr isV1),
    parseV1_of_end isV1 isEnd, isLine]
  simp only [v1Bytes, List.length_append, Nat.add_assoc, List.length_cons,
    List.length_nil]

/-! ## Version 2 -/

/-- The addresses and the ports of a version 2 header. -/
def v2Addresses
    (srcIp dstIp : List UInt8)
    (srcPort dstPort : UInt16) :
    List UInt8 :=
  srcIp ++ dstIp ++ (beBytes srcPort ++ beBytes dstPort)

/-- The bytes of a version 2 header. -/
def v2Bytes (src dst : SocketAddr) : List UInt8 :=
  match src.ip, dst.ip with
  | .v4 srcIp, .v4 dstIp =>
      v2Signature ++ [v2VersionCommandProxy, v2AfInetStream, 0, 12] ++
        v2Addresses srcIp.octets dstIp.octets src.port dst.port
  | .v6 srcIp, .v6 dstIp =>
      v2Signature ++ [v2VersionCommandProxy, v2AfInet6Stream, 0, 36] ++
        v2Addresses srcIp.octets dstIp.octets src.port dst.port
  | _, _ =>
      v2Signature ++ [v2VersionCommandLocal, 0, 0, 0]

/-- `encode_v2` writes the header from the start of its buffer. -/
theorem encodeV2_eq (src dst : SocketAddr) :
    encodeV2 src dst = some (written 52 (v2Bytes src dst)) := by
  have empty : List.replicate 52 (0 : UInt8) = (written 52 []).1 := rfl
  obtain ⟨srcIp, srcPort⟩ := src
  obtain ⟨dstIp, dstPort⟩ := dst
  unfold encodeV2 v2Bytes
  cases srcIp with
  | v4 srcIp =>
      cases dstIp with
      | v4 dstIp =>
          rfl
      | v6 dstIp =>
          rfl
  | v6 srcIp =>
      cases dstIp with
      | v4 dstIp =>
          rfl
      | v6 dstIp =>
          have srcSixteen := srcIp.sixteen
          have dstSixteen := dstIp.sixteen
          simp (disch := simp [srcSixteen, dstSixteen, v2Signature,
            beBytes]) only [empty, writeAt_written, Option.bind_eq_bind,
            Option.bind_some]
          simp [written, v2Addresses, v2Signature, beBytes, srcSixteen,
            dstSixteen]

/-- A port, written and read. -/
def readBack (port : UInt16) : UInt16 :=
  fromBeBytes (UInt8.ofNat (port.toNat / 2 ^ 8)) (UInt8.ofNat port.toNat)

theorem readBack_eq (port : UInt16) : readBack port = port := by
  have small : port.toNat < 65536 := port.toNat_lt
  apply UInt16.toNat_inj.mp
  rw [readBack, fromBeBytes, UInt16.toNat_ofNat', UInt8.toNat_ofNat',
    UInt8.toNat_ofNat']
  omega

/-- A signed header is read by its fields. -/
theorem parse_signed
    (verCmd family addrLen : UInt8)
    (isVersion : verCmd.toNat / 16 = 2)
    {addresses : List UInt8}
    (isLength : addresses.length = addrLen.toNat)
    (rest : List UInt8) :
    parse ipv6
        (v2Signature ++ [verCmd, family, 0, addrLen] ++ addresses ++
          rest) =
      parseAddress (verCmd.toNat % 16) (family.toNat / 16) addrLen.toNat
        (v2Signature ++ [verCmd, family, 0, addrLen] ++ addresses ++
          rest) := by
  let buf :=
    v2Signature ++ [verCmd, family, 0, addrLen] ++ addresses ++ rest
  have isBuf :
      v2Signature ++ [verCmd, family, 0, addrLen] ++ addresses ++ rest =
        buf := rfl
  have long : 16 + addrLen.toNat ≤ buf.length := by
    simp only [buf, v2Signature, List.length_append, List.length_cons,
      List.length_nil, isLength]
    omega
  have isV2 : MayBeV2 buf := ⟨[], rfl⟩
  have isAddrLen : (fromBeBytes 0 addrLen).toNat = addrLen.toNat := by
    have small : addrLen.toNat < 256 := addrLen.toNat_lt
    rw [fromBeBytes, UInt16.toNat_ofNat', UInt8.toNat_zero]
    omega
  rw [isBuf, parse_eq, if_neg (by omega), if_pos isV2,
    parseV2_eq (by omega)]
  change (if verCmd.toNat / 16 ≠ 2 then _ else
    if buf.length < 16 + (fromBeBytes 0 addrLen).toNat then _ else
      parseAddress (verCmd.toNat % 16) (family.toNat / 16)
        (fromBeBytes 0 addrLen).toNat buf) = _
  rw [if_neg (by omega), isAddrLen, if_neg (by omega)]

/-- A header without addresses. -/
theorem parse_unspecified (rest : List UInt8) :
    parse ipv6
        (v2Signature ++ [v2VersionCommandLocal, 0, 0, 0] ++ rest) =
      .ok (.localCommand, 16) := by
  have parsed :=
    @parse_signed ipv6 v2VersionCommandLocal 0 0 rfl [] rfl rest
  rw [List.append_nil] at parsed
  exact parsed

theorem sliceAt_between
    {before middle after : List UInt8}
    {start stop : Nat}
    (isStart : before.length = start)
    (isStop : start + middle.length = stop) :
    sliceAt (before ++ (middle ++ after)) start stop = .ok middle := by
  subst isStart isStop
  rw [sliceAt_eq (Nat.le_add_right _ _) (by simp),
    ← List.append_assoc, ← List.length_append, List.take_left,
    List.drop_left]

theorem byteAt_behind
    {before after : List UInt8}
    {start : Nat}
    (isStart : before.length = start)
    (index : Nat) :
    byteAt (before ++ after) (start + index) = byteAt after index := by
  subst isStart
  rw [byteAt, byteAt, List.getElem?_append_right (Nat.le_add_right _ _),
    Nat.add_sub_cancel_left]

theorem fromOctets_octets (ip : Ipv6Addr) :
    fromOctets ip.octets = .ok ip :=
  dif_pos ip.sixteen

theorem length_v2Addresses
    (srcIp dstIp : Ipv6Addr)
    (srcPort dstPort : UInt16) :
    (v2Addresses srcIp.octets dstIp.octets srcPort dstPort).length =
      36 := by
  rw [v2Addresses, List.length_append, List.length_append, srcIp.sixteen,
    dstIp.sixteen]
  rfl

/-- Two IPv6 addresses are read back. -/
theorem parseInet6_v2Addresses
    {head : List UInt8}
    (sixteen : head.length = 16)
    (srcIp dstIp : Ipv6Addr)
    (srcPort dstPort : UInt16)
    (rest : List UInt8) :
    parseInet6
        (head ++
          v2Addresses srcIp.octets dstIp.octets srcPort dstPort ++ rest)
        52 =
      .ok (.proxy ⟨.v6 srcIp, srcPort⟩ ⟨.v6 dstIp, dstPort⟩, 52) := by
  have srcSixteen := srcIp.sixteen
  have dstSixteen := dstIp.sixteen
  generalize isBuf :
    head ++ v2Addresses srcIp.octets dstIp.octets srcPort dstPort ++
      rest = buf
  have isSrc : sliceAt buf 16 32 = .ok srcIp.octets := by
    rw [← isBuf, v2Addresses, List.append_assoc, List.append_assoc,
      List.append_assoc]
    exact sliceAt_between sixteen (by omega)
  have isDst : sliceAt buf 32 48 = .ok dstIp.octets := by
    rw [← isBuf, v2Addresses, List.append_assoc, List.append_assoc,
      List.append_assoc, ← List.append_assoc head]
    exact sliceAt_between (by rw [List.length_append]; omega) (by omega)
  have isPort
      (index : Nat) :
      byteAt buf (48 + index) =
        byteAt (beBytes srcPort ++ beBytes dstPort ++ rest) index := by
    rw [← isBuf, v2Addresses, ← List.append_assoc, List.append_assoc]
    apply byteAt_behind
    simp only [List.length_append]
    omega
  rw [parseInet6, isSrc, isDst, isPort 0, isPort 1, isPort 2, isPort 3]
  change (fromOctets srcIp.octets >>= fun src =>
    fromOctets dstIp.octets >>= fun dst => _) = _
  rw [fromOctets_octets, fromOctets_octets]
  change Except.ok
    (ProxyHeader.proxy ⟨.v6 srcIp, readBack srcPort⟩
      ⟨.v6 dstIp, readBack dstPort⟩, 52) = _
  rw [readBack_eq, readBack_eq]

theorem length_v2Bytes_le (src dst : SocketAddr) :
    (v2Bytes src dst).length ≤ 52 := by
  obtain ⟨srcIp, srcPort⟩ := src
  obtain ⟨dstIp, dstPort⟩ := dst
  cases srcIp with
  | v4 srcIp =>
      cases dstIp with
      | v4 dstIp =>
          exact Nat.le_of_ble_eq_true rfl
      | v6 dstIp =>
          exact Nat.le_of_ble_eq_true rfl
  | v6 srcIp =>
      cases dstIp with
      | v4 dstIp =>
          exact Nat.le_of_ble_eq_true rfl
      | v6 dstIp =>
          rw [v2Bytes, List.length_append, length_v2Addresses]
          decide

/-- `parse` reads what `encode_v2` wrote. -/
theorem parse_v2Bytes
    (src dst : SocketAddr)
    (rest : List UInt8) :
    parse ipv6 (v2Bytes src dst ++ rest) =
      .ok (headerOf src dst, (v2Bytes src dst).length) := by
  obtain ⟨srcIp, srcPort⟩ := src
  obtain ⟨dstIp, dstPort⟩ := dst
  unfold v2Bytes headerOf
  cases srcIp with
  | v4 srcIp =>
      cases dstIp with
      | v4 dstIp =>
          rw [parse_signed _ _ _ rfl rfl]
          change Except.ok
            (ProxyHeader.proxy ⟨.v4 srcIp, readBack srcPort⟩
              ⟨.v4 dstIp, readBack dstPort⟩, 28) = _
          rw [readBack_eq, readBack_eq]
          rfl
      | v6 dstIp =>
          exact parse_unspecified rest
  | v6 srcIp =>
      cases dstIp with
      | v4 dstIp =>
          exact parse_unspecified rest
      | v6 dstIp =>
          have isLength :=
            length_v2Addresses srcIp dstIp srcPort dstPort
          rw [parse_signed _ _ _ rfl isLength, List.length_append, isLength]
          exact parseInet6_v2Addresses rfl srcIp dstIp srcPort dstPort rest

/-! ## Both versions -/

/-- An encoder stays within its buffer, and what it wrote is read back. -/
def ReadsBack
    (ipv6 : Ipv6Text)
    (capacity : Nat)
    (encoded : Option Cursor)
    (header : ProxyHeader) :
    Prop :=
  ∃ buf len,
    encoded = some (buf, len) ∧
      buf.length = capacity ∧
      len ≤ capacity ∧
      ∀ rest, parse ipv6 (buf.take len ++ rest) = .ok (header, len)

theorem readsBack_written
    {capacity : Nat}
    {bytes : List UInt8}
    {header : ProxyHeader}
    (fits : bytes.length ≤ capacity)
    (parsed :
      ∀ rest, parse ipv6 (bytes ++ rest) = .ok (header, bytes.length)) :
    ReadsBack ipv6 capacity (some (written capacity bytes)) header := by
  refine ⟨_, _, rfl, length_written fits, fits, ?_⟩
  intro rest
  rw [List.take_left]
  exact parsed rest

/--
Both encoders write within their buffers, and their headers are read back,
whatever follows them.
-/
theorem readsBack_encode
    (src dst : SocketAddr)
    (writesSrc : WritesIp ipv6 src.ip)
    (writesDst : WritesIp ipv6 dst.ip) :
    ReadsBack ipv6 v1MaxHeaderLen (encodeV1 ipv6 src dst)
        (headerOf src dst) ∧
      ReadsBack ipv6 52 (encodeV2 src dst) (headerOf src dst) := by
  constructor
  · have fits := length_v1Bytes_le writesSrc writesDst
    rw [encodeV1_eq, put_written fits]
    apply readsBack_written fits
    intro rest
    rw [parse_v1Bytes (return_not_mem_lineText writesSrc writesDst),
      parseLine_lineText writesSrc writesDst]
  · rw [encodeV2_eq]
    exact readsBack_written (length_v2Bytes_le src dst)
      (parse_v2Bytes src dst)

/-- `2001:db8::1`. -/
def documentationIp : Ipv6Addr where
  octets := [0x20, 1, 0x0d, 0xb8, 0, 0, 0, 0, 0, 0, 0, 0, 0, 0, 0, 1]
  sixteen := rfl

/-- `::1`. -/
def loopbackIp : Ipv6Addr where
  octets := [0, 0, 0, 0, 0, 0, 0, 0, 0, 0, 0, 0, 0, 0, 0, 1]
  sixteen := rfl

/-- The texts of these two addresses. -/
def twoTexts : Ipv6Text where
  display ip :=
    if ip = loopbackIp then "::1".toList else "2001:db8::1".toList
  parse text :=
    if text = "::1".toList then
      some loopbackIp
    else if text = "2001:db8::1".toList then
      some documentationIp
    else
      none

theorem writesIpv6_of_all
    {ipv6 : Ipv6Text}
    {ip : Ipv6Addr}
    (readsBack : ipv6.parseIp? (ipv6.display ip) = some (.v6 ip))
    (short : (encodeUtf8 (ipv6.display ip)).length ≤ 39)
    (alphabet :
      (ipv6.display ip).all (fun char =>
        (digitValue? 16 char).isSome || char == ':' || char == '.') =
        true) :
    WritesIpv6 ipv6 ip := by
  refine ⟨readsBack, short, ?_⟩
  intro char isChar
  simpa [or_assoc] using List.all_eq_true.mp alphabet char isChar

theorem readsBack_documentationIp :
    ReadsBack twoTexts v1MaxHeaderLen
        (encodeV1 twoTexts ⟨.v6 documentationIp, 50000⟩
          ⟨.v6 loopbackIp, 443⟩)
        (.proxy ⟨.v6 documentationIp, 50000⟩ ⟨.v6 loopbackIp, 443⟩) ∧
      ReadsBack twoTexts 52
        (encodeV2 ⟨.v6 documentationIp, 50000⟩ ⟨.v6 loopbackIp, 443⟩)
        (.proxy ⟨.v6 documentationIp, 50000⟩ ⟨.v6 loopbackIp, 443⟩) :=
  readsBack_encode ⟨.v6 documentationIp, 50000⟩ ⟨.v6 loopbackIp, 443⟩
    (writesIpv6_of_all (by decide) (by decide) (by decide))
    (writesIpv6_of_all (by decide) (by decide) (by decide))

end Sweety.ProxyProtocol
