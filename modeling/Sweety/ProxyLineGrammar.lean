import Sweety.ProxyHeaderReading

namespace Sweety.ProxyProtocol

open HttpText FirstOccurrence

/-!
# The grammar of version 1 lines

A version 1 line names a family, two addresses and two ports, or says that they
are not known.  `parse_v1` takes the addresses without a look at the family,
takes a port with a sign, and checks the length of a line only while its end has
not arrived.
-/

/-! ## The grammar -/

/-- The word of a protocol names the family of an address. -/
def Names (word : List Char) : IpAddr → Prop
  | .v4 _ =>
      word = "TCP4".toList
  | .v6 _ =>
      word = "TCP6".toList

/-- The five fields of a line. -/
structure Fields where
  word : List Char
  src : List Char
  dst : List Char
  srcPort : List Char
  dstPort : List Char

namespace Fields

/-- The line consists of the fields, with single blanks between them. -/
def Of (line : List Char) (fields : Fields) : Prop :=
  line.splitOn ' ' =
    [fields.word, fields.src, fields.dst, fields.srcPort, fields.dstPort]

/-- The fields are those of two addresses, in the grammar. -/
structure Spells
    (ipv6 : Ipv6Text)
    (fields : Fields)
    (src dst : SocketAddr) :
    Prop where
  srcIp : ipv6.parseIp? fields.src = some src.ip
  dstIp : ipv6.parseIp? fields.dst = some dst.ip
  srcNamed : Names fields.word src.ip
  dstNamed : Names fields.word dst.ip
  srcPort : Decimal fields.srcPort src.port.toNat
  dstPort : Decimal fields.dstPort dst.port.toNat

/-- What the readers of the standard library make of the fields. -/
structure Reads
    (ipv6 : Ipv6Text)
    (fields : Fields)
    (src dst : SocketAddr) :
    Prop where
  srcIp : ipv6.parseIp? fields.src = some src.ip
  dstIp : ipv6.parseIp? fields.dst = some dst.ip
  srcPort : parseU16? fields.srcPort = some src.port.toNat
  dstPort : parseU16? fields.dstPort = some dst.port.toNat

/-- The word names the family of both addresses, and the ports have no sign. -/
structure Strict (fields : Fields) (src dst : SocketAddr) : Prop where
  srcNamed : Names fields.word src.ip
  dstNamed : Names fields.word dst.ip
  srcPlain : fields.srcPort.head? ≠ some '+'
  dstPlain : fields.dstPort.head? ≠ some '+'

end Fields

/-- `UNKNOWN`, in bytes. -/
def unknownWord : List UInt8 :=
  encodeUtf8 "UNKNOWN".toList

/-- The word of a line, which is what stands before its first blank. -/
def wordOf (bytes : List UInt8) : List UInt8 :=
  bytes.takeWhile fun byte => byte != 32

/-- The longest line, with its end. -/
def maxLine : Nat := 107

/-- What a version 1 header says, in the grammar. -/
def Grammar (ipv6 : Ipv6Text) (buf : List UInt8) : ProxyHeader → Prop
  | .proxy src dst =>
      ∃ headerEnd line fields,
        position? [13, 10] buf = some headerEnd ∧
          headerEnd + 2 ≤ maxLine ∧
          decodeUtf8 (lineOf buf headerEnd) = some line ∧
          Fields.Of line fields ∧
          fields.Spells ipv6 src dst
  | .localCommand =>
      ∃ headerEnd,
        position? [13, 10] buf = some headerEnd ∧
          wordOf (lineOf buf headerEnd) = unknownWord

/-- The parser returns what the grammar says, and nothing else. -/
def Conforms (ipv6 : Ipv6Text) (buf : List UInt8) : Prop :=
  ∀ header,
    (∃ consumed, parseV1 ipv6 buf = .ok (header, consumed)) ↔
      Grammar ipv6 buf header

/--
A line that begins with `UNKNOWN` has it as its word and is in UTF-8, or
neither.
-/
def UnknownOnly (bytes : List UInt8) : Prop :=
  unknownWord <+: bytes →
    (wordOf bytes = unknownWord ↔ (decodeUtf8 bytes).isSome = true)

/-- A line with readable fields is short, and its fields are strict. -/
def StrictOnly (ipv6 : Ipv6Text) (headerEnd : Nat) (bytes : List UInt8) :
    Prop :=
  ∀ line fields src dst,
    decodeUtf8 bytes = some line →
      ¬ "UNKNOWN".toList <+: line →
        Fields.Of line fields →
          fields.Reads ipv6 src dst →
            headerEnd + 2 ≤ maxLine ∧ fields.Strict src dst

/-- The first line of the buffer, if there is one, meets both conditions. -/
def Regular (ipv6 : Ipv6Text) (buf : List UInt8) : Prop :=
  ∀ headerEnd,
    position? [13, 10] buf = some headerEnd →
      UnknownOnly (lineOf buf headerEnd) ∧
        StrictOnly ipv6 headerEnd (lineOf buf headerEnd)

/-! ## Fields -/

section Splitting

variable
  {separator : Char}
  {text front rest : List Char}

theorem splitOn_of_splitOnce?
    (isSplit : splitOnce? separator text = some (front, rest)) :
    text.splitOn separator = front :: rest.splitOn separator := by
  obtain ⟨rfl, absent⟩ := splitOnce?_eq_some_iff.mp isSplit
  exact List.splitOn_append_cons_self_of_not_mem absent rest

/-- Cutting a number of parts is cutting all, if the last has no separator. -/
theorem splitN_eq_iff
    {parts : List (List Char)}
    {last : List Char} :
    splitN separator (parts.length + 1) text = parts ++ [last] ∧
        separator ∉ last ↔
      text.splitOn separator = parts ++ [last] := by
  induction parts generalizing text with
  | nil =>
      constructor
      · rintro ⟨isText, absent⟩
        cases isText
        exact List.splitOn_eq_singleton absent
      · intro isSplit
        cases isOnce : splitOnce? separator text with
        | none =>
            have absent := splitOnce?_eq_none_iff.mp isOnce
            rw [List.splitOn_eq_singleton absent] at isSplit
            cases isSplit
            exact ⟨rfl, absent⟩
        | some parts =>
            rw [splitOn_of_splitOnce? isOnce] at isSplit
            have noRest := (List.cons.inj isSplit).2
            exact absurd noRest (List.splitOn_ne_nil _ _)
  | cons head tail inductionHypothesis =>
      rw [List.length_cons, splitN]
      cases isOnce : splitOnce? separator text with
      | none =>
          have absent := splitOnce?_eq_none_iff.mp isOnce
          rw [List.splitOn_eq_singleton absent]
          constructor
          · rintro ⟨isText, -⟩
            exact isText
          · intro isText
            have isLength := congrArg List.length isText
            simp at isLength
      | some cut =>
          obtain ⟨part, others⟩ := cut
          rw [splitOn_of_splitOnce? isOnce]
          dsimp only
          rw [List.cons_append, List.cons.injEq, List.cons.injEq,
            ← inductionHypothesis, and_assoc]

end Splitting

section Ports

variable {text : List Char}

/-- A number has no blank. -/
theorem blank_not_mem_of_parseU16?
    {value : Nat}
    (isRead : parseU16? text = some value) :
    ' ' ∉ text := by
  have noBlank {digits : List Char}
      (isDigits : digitsValue? 10 (2 ^ 16) digits 0 = some value) :
      ' ' ∉ digits := by
    intro member
    nomatch isSome_of_digitsValue? isDigits ' ' member
  rcases digits_of_fromStrRadix? isRead with isDigits | ⟨digits, rfl, isDigits⟩
  · exact noBlank isDigits
  · intro member
    rcases List.mem_cons.mp member with isSign | inDigits
    · nomatch isSign
    · exact noBlank isDigits inDigits

/-- A number that is read fits its type. -/
theorem lt_of_parseU16?
    {value : Nat}
    (isRead : parseU16? text = some value) :
    value < 2 ^ 16 := by
  rcases digits_of_fromStrRadix? isRead with isDigits | ⟨digits, -, isDigits⟩
  · exact lt_of_digitsValue? (by decide) isDigits
  · exact lt_of_digitsValue? (by decide) isDigits

/-- A port in decimal digits is one that is read and has no sign. -/
theorem decimal_port_iff {port : UInt16} :
    Decimal text port.toNat ↔
      parseU16? text = some port.toNat ∧ text.head? ≠ some '+' := by
  rw [parseU16?, fromStrRadix?_decimal_iff (by decide)]
  exact (and_iff_left port.toNat_lt).symm

end Ports

section Lines

variable
  {ipv6 : Ipv6Text}
  {line : List Char}
  {fields others : Fields}
  {src dst : SocketAddr}
  {headerEnd consumed : Nat}
  {bytes buf : List UInt8}

theorem Fields.Of.unique
    (ofLine : Fields.Of line fields)
    (alsoOfLine : Fields.Of line others) :
    fields = others := by
  have same := ofLine.symm.trans alsoOfLine
  cases fields
  cases others
  simp only [List.cons.injEq] at same
  obtain ⟨rfl, rfl, rfl, rfl, rfl, -⟩ := same
  rfl

/-- The grammar asks for what is read, and for strict fields. -/
theorem Fields.spells_iff :
    fields.Spells ipv6 src dst ↔
      fields.Reads ipv6 src dst ∧ fields.Strict src dst := by
  constructor
  · intro spells
    obtain ⟨srcPort, srcPlain⟩ := decimal_port_iff.mp spells.srcPort
    obtain ⟨dstPort, dstPlain⟩ := decimal_port_iff.mp spells.dstPort
    exact ⟨⟨spells.srcIp, spells.dstIp, srcPort, dstPort⟩,
      ⟨spells.srcNamed, spells.dstNamed, srcPlain, dstPlain⟩⟩
  · rintro ⟨reads, strict⟩
    exact ⟨reads.srcIp, reads.dstIp, strict.srcNamed, strict.dstNamed,
      decimal_port_iff.mpr ⟨reads.srcPort, strict.srcPlain⟩,
      decimal_port_iff.mpr ⟨reads.dstPort, strict.dstPlain⟩⟩

/-- The fields that are cut off are those of the line. -/
theorem splitN_fields_iff
    {value : Nat}
    (isRead : parseU16? fields.dstPort = some value) :
    splitN ' ' 5 line =
        [fields.word, fields.src, fields.dst, fields.srcPort,
          fields.dstPort] ↔
      Fields.Of line fields := by
  have noBlank := blank_not_mem_of_parseU16? isRead
  have cut :=
    @splitN_eq_iff ' ' line
      [fields.word, fields.src, fields.dst, fields.srcPort] fields.dstPort
  rw [and_iff_left noBlank] at cut
  exact cut

/-- A reader that goes on has found a value. -/
theorem bind_orInvalid_eq_ok_iff
    {α β : Type}
    {text : String}
    {found : Option α}
    {next : α → Except ParseError β}
    {result : β} :
    (orInvalid text found >>= next) = .ok result ↔
      ∃ value, found = some value ∧ next value = .ok result := by
  cases found with
  | none =>
      constructor
      · intro isOk
        cases isOk
      · rintro ⟨value, isFound, -⟩
        cases isFound
  | some value =>
      constructor
      · intro isOk
        exact ⟨value, rfl, isOk⟩
      · rintro ⟨other, isFound, isOk⟩
        cases isFound
        exact isOk

/-- The addresses that `parse_v1` returns are those that are read. -/
theorem parseFields_eq_ok_iff
    {header : ProxyHeader}
    {place : Nat} :
    parseFields ipv6 consumed (splitN ' ' 5 line) = .ok (header, place) ↔
      place = consumed ∧
        ∃ fields src dst,
          header = .proxy src dst ∧
            Fields.Of line fields ∧
            fields.Reads ipv6 src dst := by
  constructor
  · intro isOk
    unfold parseFields at isOk
    split at isOk
    · next word srcText dstText srcPort dstPort isSplit =>
        obtain ⟨srcIp, isSrc, isOk⟩ := bind_orInvalid_eq_ok_iff.mp isOk
        obtain ⟨dstIp, isDst, isOk⟩ := bind_orInvalid_eq_ok_iff.mp isOk
        obtain ⟨srcNumber, isSrcPort, isOk⟩ :=
          bind_orInvalid_eq_ok_iff.mp isOk
        obtain ⟨dstNumber, isDstPort, isOk⟩ :=
          bind_orInvalid_eq_ok_iff.mp isOk
        cases isOk
        have srcSmall := lt_of_parseU16? isSrcPort
        have dstSmall := lt_of_parseU16? isDstPort
        refine ⟨rfl, ⟨word, srcText, dstText, srcPort, dstPort⟩, _, _, rfl,
          (splitN_fields_iff isDstPort).mp isSplit, isSrc, isDst, ?_, ?_⟩
        · rw [isSrcPort, UInt16.toNat_ofNat', Nat.mod_eq_of_lt srcSmall]
        · rw [isDstPort, UInt16.toNat_ofNat', Nat.mod_eq_of_lt dstSmall]
    · nomatch isOk
  · rintro ⟨rfl, fields, src, dst, rfl, ofLine, reads⟩
    rw [(splitN_fields_iff reads.dstPort).mpr ofLine, parseFields,
      reads.srcIp, reads.dstIp, reads.srcPort, reads.dstPort]
    simp only [orInvalid, bind, Except.bind, UInt16.ofNat_toNat]
    rfl

/-- A line of the grammar does not begin with `UNKNOWN`. -/
theorem Fields.Spells.not_unknown
    (spells : fields.Spells ipv6 src dst)
    (ofLine : Fields.Of line fields) :
    ¬ "UNKNOWN".toList <+: line := by
  have isFamily :
      fields.word = "TCP4".toList ∨ fields.word = "TCP6".toList := by
    have named := spells.srcNamed
    cases isIp : src.ip with
    | v4 ip =>
        rw [isIp] at named
        exact Or.inl named
    | v6 ip =>
        rw [isIp] at named
        exact Or.inr named
  cases isOnce : splitOnce? ' ' line with
  | none =>
      have absent := splitOnce?_eq_none_iff.mp isOnce
      rw [Fields.Of, List.splitOn_eq_singleton absent] at ofLine
      nomatch ofLine
  | some cut =>
      obtain ⟨front, rest⟩ := cut
      rw [Fields.Of, splitOn_of_splitOnce? isOnce] at ofLine
      obtain ⟨rfl, -⟩ := splitOnce?_eq_some_iff.mp isOnce
      have isWord : front = fields.word := (List.cons.inj ofLine).1
      intro isUnknown
      rcases isFamily with isTcp | isTcp
      · rw [isWord, isTcp] at isUnknown
        nomatch (List.cons_prefix_cons.mp isUnknown).1
      · rw [isWord, isTcp] at isUnknown
        nomatch (List.cons_prefix_cons.mp isUnknown).1

/-! ## The two outcomes -/

/-- A line is taken for an unknown one if its text begins with the word. -/
theorem parseLine_local_iff :
    (∃ place, parseLine ipv6 consumed bytes = .ok (.localCommand, place)) ↔
      unknownWord <+: bytes ∧ (decodeUtf8 bytes).isSome = true := by
  cases isLine : decodeUtf8 bytes with
  | none =>
      rw [parseLine, isLine]
      constructor
      · rintro ⟨place, isOk⟩
        cases isOk
      · rintro ⟨-, isText⟩
        cases isText
  | some line =>
      rw [parseLine_eq isLine, eq_encodeUtf8_of_decodeUtf8 isLine,
        unknownWord, encodeUtf8_prefix_iff, ← List.isPrefixOf_iff_prefix]
      split
      · next isUnknown =>
          exact iff_of_true ⟨consumed, rfl⟩ ⟨isUnknown, rfl⟩
      · next notUnknown =>
          constructor
          · rintro ⟨place, isOk⟩
            obtain ⟨-, fields, src, dst, isProxy, -⟩ :=
              parseFields_eq_ok_iff.mp isOk
            cases isProxy
          · rintro ⟨isUnknown, -⟩
            exact absurd isUnknown notUnknown

/-- The addresses of a line are those that are read of its fields. -/
theorem parseLine_proxy_iff :
    (∃ place, parseLine ipv6 consumed bytes = .ok (.proxy src dst, place)) ↔
      ∃ line fields,
        decodeUtf8 bytes = some line ∧
          ¬ "UNKNOWN".toList <+: line ∧
          Fields.Of line fields ∧
          fields.Reads ipv6 src dst := by
  cases isLine : decodeUtf8 bytes with
  | none =>
      rw [parseLine, isLine]
      constructor
      · rintro ⟨place, isOk⟩
        cases isOk
      · rintro ⟨line, fields, isText, -⟩
        cases isText
  | some line =>
      rw [parseLine_eq isLine]
      simp only [List.isPrefixOf_iff_prefix]
      split
      · next isUnknown =>
          constructor
          · rintro ⟨place, isOk⟩
            cases isOk
          · rintro ⟨other, fields, isText, notUnknown, -⟩
            cases isText
            exact absurd isUnknown notUnknown
      · next notUnknown =>
          constructor
          · rintro ⟨place, isOk⟩
            obtain ⟨-, fields, first, second, isProxy, ofLine, reads⟩ :=
              parseFields_eq_ok_iff.mp isOk
            cases isProxy
            exact ⟨line, fields, rfl, notUnknown, ofLine, reads⟩
          · rintro ⟨other, fields, isText, -, ofLine, reads⟩
            cases isText
            exact ⟨consumed, parseFields_eq_ok_iff.mpr
              ⟨rfl, fields, src, dst, rfl, ofLine, reads⟩⟩

/-- Unknown lines are as in the grammar. -/
theorem local_conforms_iff :
    ((∃ place, parseLine ipv6 consumed bytes = .ok (.localCommand, place)) ↔
        wordOf bytes = unknownWord) ↔
      UnknownOnly bytes := by
  have begins (isWord : wordOf bytes = unknownWord) :
      unknownWord <+: bytes := by
    rw [← isWord]
    exact List.takeWhile_prefix _
  rw [parseLine_local_iff]
  constructor
  · intro same isUnknown
    rw [← same]
    exact and_iff_right isUnknown
  · intro unknownOnly
    constructor
    · rintro ⟨isUnknown, isText⟩
      exact (unknownOnly isUnknown).mpr isText
    · intro isWord
      exact ⟨begins isWord, (unknownOnly (begins isWord)).mp isWord⟩

/-- Lines with addresses are as in the grammar. -/
theorem proxy_conforms_iff :
    (∀ src dst,
        (∃ place,
            parseLine ipv6 consumed bytes = .ok (.proxy src dst, place)) ↔
          ∃ line fields,
            headerEnd + 2 ≤ maxLine ∧
              decodeUtf8 bytes = some line ∧
              Fields.Of line fields ∧
              fields.Spells ipv6 src dst) ↔
      StrictOnly ipv6 headerEnd bytes := by
  simp only [parseLine_proxy_iff]
  constructor
  · intro same line fields src dst isText notUnknown ofLine reads
    obtain ⟨other, others, isShort, isOther, ofOther, spells⟩ :=
      (same src dst).mp ⟨line, fields, isText, notUnknown, ofLine, reads⟩
    cases isText.symm.trans isOther
    obtain rfl := ofLine.unique ofOther
    exact ⟨isShort, (Fields.spells_iff.mp spells).2⟩
  · intro strictOnly src dst
    constructor
    · rintro ⟨line, fields, isText, notUnknown, ofLine, reads⟩
      obtain ⟨isShort, strict⟩ :=
        strictOnly line fields src dst isText notUnknown ofLine reads
      exact ⟨line, fields, isShort, isText, ofLine,
        Fields.spells_iff.mpr ⟨reads, strict⟩⟩
    · rintro ⟨line, fields, -, isText, ofLine, spells⟩
      exact ⟨line, fields, isText, spells.not_unknown ofLine, ofLine,
        (Fields.spells_iff.mp spells).1⟩

theorem conforms_of_end
    (isV1 : v1Start <+: buf)
    (isEnd : position? [13, 10] buf = some headerEnd) :
    Conforms ipv6 buf ↔
      UnknownOnly (lineOf buf headerEnd) ∧
        StrictOnly ipv6 headerEnd (lineOf buf headerEnd) := by
  have isLocal :
      Grammar ipv6 buf .localCommand ↔
        wordOf (lineOf buf headerEnd) = unknownWord := by
    constructor
    · rintro ⟨other, isOther, isWord⟩
      cases isEnd.symm.trans isOther
      exact isWord
    · intro isWord
      exact ⟨headerEnd, isEnd, isWord⟩
  have isProxy (src dst : SocketAddr) :
      Grammar ipv6 buf (.proxy src dst) ↔
        ∃ line fields,
          headerEnd + 2 ≤ maxLine ∧
            decodeUtf8 (lineOf buf headerEnd) = some line ∧
            Fields.Of line fields ∧
            fields.Spells ipv6 src dst := by
    constructor
    · rintro ⟨other, line, fields, isOther, spelled⟩
      cases isEnd.symm.trans isOther
      exact ⟨line, fields, spelled⟩
    · rintro ⟨line, fields, spelled⟩
      exact ⟨headerEnd, line, fields, isEnd, spelled⟩
  rw [← @local_conforms_iff ipv6 (headerEnd + 2),
    ← @proxy_conforms_iff ipv6 headerEnd (headerEnd + 2)]
  unfold Conforms
  rw [parseV1_of_end isV1 isEnd]
  constructor
  · intro conforms
    exact ⟨(conforms .localCommand).trans isLocal,
      fun src dst => (conforms (.proxy src dst)).trans (isProxy src dst)⟩
  · rintro ⟨localConforms, proxyConforms⟩ header
    cases header with
    | localCommand =>
        exact localConforms.trans isLocal.symm
    | proxy src dst =>
        exact (proxyConforms src dst).trans (isProxy src dst).symm

/-- The parser keeps to the grammar where the first line is regular. -/
theorem conforms_iff_of_start (isV1 : v1Start <+: buf) :
    Conforms ipv6 buf ↔ Regular ipv6 buf := by
  cases isEnd : position? [13, 10] buf with
  | some headerEnd =>
      rw [conforms_of_end isV1 isEnd, Regular, isEnd]
      constructor
      · intro isRegular other isOther
        cases isOther
        exact isRegular
      · intro isRegular
        exact isRegular headerEnd rfl
  | none =>
      have regular : Regular ipv6 buf := by
        intro headerEnd isOther
        rw [isEnd] at isOther
        cases isOther
      have fails (header : ProxyHeader) (place : Nat) :
          parseV1 ipv6 buf ≠ .ok (header, place) := by
        rw [parseV1, isEnd]
        dsimp only
        split
        · intro isOk
          cases isOk
        · intro isOk
          cases isOk
      refine iff_of_true (fun header => ?_) regular
      constructor
      · rintro ⟨place, isOk⟩
        exact absurd isOk (fails header place)
      · intro inGrammar
        cases header with
        | localCommand =>
            obtain ⟨headerEnd, isOther, -⟩ := inGrammar
            rw [isEnd] at isOther
            cases isOther
        | proxy src dst =>
            obtain ⟨headerEnd, line, fields, isOther, -⟩ := inGrammar
            rw [isEnd] at isOther
            cases isOther

/-- A buffer that begins with the word is not one of version 2. -/
theorem parse_eq_parseV1 (isV1 : v1Start <+: buf) :
    parse ipv6 buf = parseV1 ipv6 buf := by
  obtain ⟨rest, rfl⟩ := isV1
  have notV2 : ¬ MayBeV2 (v1Start ++ rest) := by
    intro isV2
    nomatch (List.cons_prefix_cons.mp isV2).1
  rw [parse_eq]
  by_cases short : (v1Start ++ rest).length < 8
  · rw [if_pos short]
    cases isEnd : position? [13, 10] (v1Start ++ rest) with
    | none =>
        have small : (v1Start ++ rest).length < v1MaxHeaderLen :=
          Nat.lt_trans short (by decide)
        rw [parseV1, isEnd]
        exact (if_pos small).symm
    | some headerEnd =>
        have late := six_le_headerEnd (List.prefix_append _ _) isEnd
        have within := (position?_eq_some_iff.mp isEnd).1.1
        rw [List.length_cons, List.length_singleton] at within
        omega
  · have begins : v1Start.isPrefixOf (v1Start ++ rest) = true :=
      List.isPrefixOf_iff_prefix.mpr (List.prefix_append _ _)
    rw [if_neg short, if_neg notV2, if_pos begins]

/--
On every buffer that begins with `PROXY`, what is parsed is what the grammar
says exactly where the first line is regular.
-/
theorem parseV1_conforms_iff (ipv6 : Ipv6Text) (rest : List UInt8) :
    parse ipv6 (v1Start ++ rest) = parseV1 ipv6 (v1Start ++ rest) ∧
      (Conforms ipv6 (v1Start ++ rest) ↔
        Regular ipv6 (v1Start ++ rest)) :=
  ⟨parse_eq_parseV1 (List.prefix_append _ _),
    conforms_iff_of_start (List.prefix_append _ _)⟩

end Lines

/-! ## Another family -/

/-- A reader of no IPv6 address. -/
def noIpv6 : Ipv6Text where
  display := fun _ => []
  parse := fun _ => none

/-- A line with the word of the other family. -/
def otherFamily : List UInt8 :=
  encodeUtf8 "PROXY TCP6 192.0.2.1 192.0.2.2 1000 2000\r\n".toList

theorem parseV1_otherFamily :
    parseV1 noIpv6 otherFamily =
      .ok (.proxy ⟨.v4 ⟨192, 0, 2, 1⟩, 1000⟩ ⟨.v4 ⟨192, 0, 2, 2⟩, 2000⟩,
        42) := by
  decide

/-- The code takes addresses of IPv4 behind `TCP6`. -/
theorem not_conforms_otherFamily : ¬ Conforms noIpv6 otherFamily := by
  intro conforms
  obtain ⟨headerEnd, line, fields, isEnd, -, isText, ofLine, spells⟩ :=
    (conforms _).mp ⟨_, parseV1_otherFamily⟩
  have isStop : position? [13, 10] otherFamily = some 40 := by decide
  cases isStop.symm.trans isEnd
  have isLine :
      decodeUtf8 (lineOf otherFamily 40) =
        some "TCP6 192.0.2.1 192.0.2.2 1000 2000".toList := by
    decide
  cases isLine.symm.trans isText
  have isWord : fields.word = "TCP6".toList :=
    (List.cons.inj ofLine).1.symm
  have named : fields.word = "TCP4".toList := spells.srcNamed
  rw [isWord] at named
  nomatch named

end Sweety.ProxyProtocol
