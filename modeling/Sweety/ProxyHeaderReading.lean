import Mathlib.Tactic.IntervalCases
import Sweety.PrefixParser
import Sweety.ProxyProtocol

namespace Sweety.ProxyProtocol

open HttpText FirstOccurrence PrefixParser

/-!
# PROXY headers that arrive in parts

The parser is called each time its buffer has grown.  What it makes of a stream
does not depend on the reads, except for a version 1 line that is longer than
the limit: the limit is checked only while the end of the line has not arrived.
-/

variable {ipv6 : Ipv6Text}

/-! ## Reading in range -/

section Range

variable
  {buf : List UInt8}
  {index : Nat}

theorem byteAt_eq (within : index < buf.length) :
    byteAt buf index = .ok buf[index] := by
  rw [byteAt, List.getElem?_eq_getElem within]

theorem byteAt_append
    (more : List UInt8)
    (within : index < buf.length) :
    byteAt (buf ++ more) index = byteAt buf index := by
  rw [byteAt, byteAt, List.getElem?_append_left within]

theorem sliceAt_eq
    {start stop : Nat}
    (ordered : start ≤ stop)
    (within : stop ≤ buf.length) :
    sliceAt buf start stop = .ok ((buf.take stop).drop start) := by
  rw [sliceAt, if_pos ⟨ordered, within⟩]

theorem sliceAt_append
    {start stop : Nat}
    (more : List UInt8)
    (ordered : start ≤ stop)
    (within : stop ≤ buf.length) :
    sliceAt (buf ++ more) start stop = sliceAt buf start stop := by
  rw [sliceAt_eq ordered within, sliceAt_eq ordered (by simp; omega),
    List.take_append_of_le_length within]

theorem fromOctets_slice
    {start : Nat}
    (within : start + 16 ≤ buf.length) :
    ∃ ip, fromOctets ((buf.take (start + 16)).drop start) = .ok ip := by
  have sixteen : ((buf.take (start + 16)).drop start).length = 16 := by
    rw [List.length_drop, List.length_take]
    omega
  exact ⟨_, dif_pos sixteen⟩

end Range

/-! ## Version 2 -/

section Version2

variable
  {buf : List UInt8}
  {command family addrLen total : Nat}

theorem parseInet_ok
    (within : 28 ≤ buf.length) :
    ∃ header, parseInet buf total = .ok (header, total) := by
  unfold parseInet
  simp (disch := omega) only [byteAt_eq]
  exact ⟨_, rfl⟩

theorem parseInet6_ok
    (within : 52 ≤ buf.length) :
    ∃ header, parseInet6 buf total = .ok (header, total) := by
  obtain ⟨src, isSrc⟩ :=
    fromOctets_slice (show 16 + 16 ≤ buf.length by omega)
  obtain ⟨dst, isDst⟩ :=
    fromOctets_slice (show 32 + 16 ≤ buf.length by omega)
  refine ⟨.proxy ⟨.v6 src, fromBeBytes buf[48] buf[49]⟩
    ⟨.v6 dst, fromBeBytes buf[50] buf[51]⟩, ?_⟩
  unfold parseInet6
  simp (disch := omega) only [byteAt_eq, sliceAt_eq]
  change (fromOctets _ >>= fun src => fromOctets _ >>= _) = _
  rw [isSrc, isDst]
  rfl

/-- An address that has arrived is a header, or refused. -/
theorem parseAddress_cases
    (within : 16 + addrLen ≤ buf.length) :
    (∃ header,
      parseAddress command family addrLen buf =
        .ok (header, 16 + addrLen)) ∨
    ∃ text,
      parseAddress command family addrLen buf =
        .error (.invalid text) := by
  unfold parseAddress
  split
  · exact .inl ⟨_, rfl⟩
  · split
    · exact .inr ⟨_, rfl⟩
    · split
      · split
        · exact .inr ⟨_, rfl⟩
        · exact .inl (parseInet_ok (by omega))
      · split
        · split
          · exact .inr ⟨_, rfl⟩
          · exact .inl (parseInet6_ok (by omega))
        · exact .inl ⟨_, rfl⟩

/-- What follows an address is not read. -/
theorem parseAddress_append
    (more : List UInt8)
    (within : 16 + addrLen ≤ buf.length) :
    parseAddress command family addrLen (buf ++ more) =
      parseAddress command family addrLen buf := by
  unfold parseAddress
  split
  · rfl
  · split
    · rfl
    · split
      · split
        · rfl
        · unfold parseInet
          simp (disch := omega) only [byteAt_append]
      · split
        · split
          · rfl
          · unfold parseInet6
            simp (disch := omega) only [byteAt_append, sliceAt_append]
        · rfl

/-- The fields before the address. -/
theorem parseV2_eq
    (long : 16 ≤ buf.length) :
    parseV2 buf =
      if buf[12].toNat / 16 ≠ 2 then
        .error (.invalid "v2 版本号不是 2")
      else if buf.length < 16 + (fromBeBytes buf[14] buf[15]).toNat then
        .error .incomplete
      else
        parseAddress (buf[12].toNat % 16) (buf[13].toNat / 16)
          (fromBeBytes buf[14] buf[15]).toNat buf := by
  unfold parseV2
  rw [if_neg (by omega)]
  simp (disch := omega) only [byteAt_eq]
  rfl

theorem parseV2_cases (buf : List UInt8) :
    parseV2 buf = .error .incomplete ∨
      (∃ header consumed,
        parseV2 buf = .ok (header, consumed) ∧ consumed ≤ buf.length) ∨
      ∃ text, parseV2 buf = .error (.invalid text) := by
  by_cases long : 16 ≤ buf.length
  · rw [parseV2_eq long]
    split
    · exact .inr (.inr ⟨_, rfl⟩)
    · split
      · exact .inl rfl
      · next arrived =>
          rw [Nat.not_lt] at arrived
          rcases parseAddress_cases arrived with
            ⟨header, isHeader⟩ | ⟨text, isInvalid⟩
          · exact .inr (.inl ⟨header, _, isHeader, arrived⟩)
          · exact .inr (.inr ⟨text, isInvalid⟩)
  · left
    rw [parseV2, if_pos (by omega)]

theorem settles_parseV2 (buf more : List UInt8) :
    Settles (· == .incomplete) (parseV2 buf) (parseV2 (buf ++ more)) := by
  by_cases long : 16 ≤ buf.length
  · have longer : 16 ≤ (buf ++ more).length := by
      rw [List.length_append]
      omega
    rw [parseV2_eq long, parseV2_eq longer]
    simp (disch := omega) only [List.getElem_append_left]
    apply Settles.ite
    · intro _
      exact .refl _
    · intro _
      by_cases arrived :
          buf.length < 16 + (fromBeBytes buf[14] buf[15]).toNat
      · rw [if_pos arrived]
        exact .of_undecided _ rfl
      · rw [if_neg arrived, if_neg (by rw [List.length_append]; omega),
          parseAddress_append more (by omega)]
        exact .refl _
  · rw [parseV2, if_pos (by omega)]
    exact .of_undecided _ rfl

end Version2

/-! ## Version 1 -/

/-- The text of a version 1 line that names two addresses, or none. -/
def AcceptsLine (ipv6 : Ipv6Text) (bytes : List UInt8) : Prop :=
  ∃ line,
    decodeUtf8 bytes = some line ∧
      ("UNKNOWN".toList <+: line ∨
        ∃ family src dst srcPort dstPort,
          splitN ' ' 5 line = [family, src, dst, srcPort, dstPort] ∧
            (ipv6.parseIp? src).isSome ∧
            (ipv6.parseIp? dst).isSome ∧
            (parseU16? srcPort).isSome ∧
            (parseU16? dstPort).isSome)

section Version1

variable
  {buf more : List UInt8}
  {consumed : Nat}

theorem parseFields_ok
    {family src dst srcPort dstPort : List Char}
    (isSrc : (ipv6.parseIp? src).isSome)
    (isDst : (ipv6.parseIp? dst).isSome)
    (isSrcPort : (parseU16? srcPort).isSome)
    (isDstPort : (parseU16? dstPort).isSome) :
    ∃ header,
      parseFields ipv6 consumed [family, src, dst, srcPort, dstPort] =
        .ok (header, consumed) := by
  obtain ⟨srcIp, isSrc⟩ := Option.isSome_iff_exists.mp isSrc
  obtain ⟨dstIp, isDst⟩ := Option.isSome_iff_exists.mp isDst
  obtain ⟨srcNumber, isSrcPort⟩ := Option.isSome_iff_exists.mp isSrcPort
  obtain ⟨dstNumber, isDstPort⟩ := Option.isSome_iff_exists.mp isDstPort
  rw [parseFields, isSrc, isDst, isSrcPort, isDstPort]
  exact ⟨_, rfl⟩

/-- Fields of which one is refused. -/
theorem parseFields_cases (parts : List (List Char)) :
    (∃ family src dst srcPort dstPort,
      parts = [family, src, dst, srcPort, dstPort] ∧
        (ipv6.parseIp? src).isSome ∧
        (ipv6.parseIp? dst).isSome ∧
        (parseU16? srcPort).isSome ∧
        (parseU16? dstPort).isSome) ∨
    ∃ text,
      parseFields ipv6 consumed parts = .error (.invalid text) := by
  unfold parseFields
  split
  · next family src dst srcPort dstPort =>
      cases isSrc : ipv6.parseIp? src with
      | none =>
          exact .inr ⟨_, rfl⟩
      | some srcIp =>
          cases isDst : ipv6.parseIp? dst with
          | none =>
              exact .inr ⟨_, rfl⟩
          | some dstIp =>
              cases isSrcPort : parseU16? srcPort with
              | none =>
                  exact .inr ⟨_, rfl⟩
              | some srcNumber =>
                  cases isDstPort : parseU16? dstPort with
                  | none =>
                      exact .inr ⟨_, rfl⟩
                  | some dstNumber =>
                      exact .inl ⟨family, src, dst, srcPort, dstPort, rfl,
                        by simp [isSrc], by simp [isDst],
                        by simp [isSrcPort], by simp [isDstPort]⟩
  · exact .inr ⟨_, rfl⟩

theorem parseLine_eq
    {bytes : List UInt8}
    {line : List Char}
    (isLine : decodeUtf8 bytes = some line) :
    parseLine ipv6 consumed bytes =
      if "UNKNOWN".toList.isPrefixOf line then
        .ok (.localCommand, consumed)
      else
        parseFields ipv6 consumed (splitN ' ' 5 line) := by
  rw [parseLine, isLine]
  rfl

theorem parseLine_of_accepts
    {bytes : List UInt8}
    (accepts : AcceptsLine ipv6 bytes) :
    ∃ header,
      parseLine ipv6 consumed bytes = .ok (header, consumed) := by
  obtain ⟨line, isLine, isUnknown | ⟨family, src, dst, srcPort, dstPort,
    isSplit, isSrc, isDst, isSrcPort, isDstPort⟩⟩ := accepts
  · refine ⟨.localCommand, ?_⟩
    rw [parseLine_eq isLine,
      if_pos (List.isPrefixOf_iff_prefix.mpr isUnknown)]
  · rw [parseLine_eq isLine]
    split
    · exact ⟨_, rfl⟩
    · rw [isSplit]
      exact parseFields_ok isSrc isDst isSrcPort isDstPort

theorem parseLine_of_not_accepts
    {bytes : List UInt8}
    (refuses : ¬ AcceptsLine ipv6 bytes) :
    ∃ text,
      parseLine ipv6 consumed bytes = .error (.invalid text) := by
  cases isLine : decodeUtf8 bytes with
  | none =>
      rw [parseLine, isLine]
      exact ⟨_, rfl⟩
  | some line =>
      rw [parseLine_eq isLine]
      split
      · next isUnknown =>
          exact absurd
            ⟨line, isLine, .inl (List.isPrefixOf_iff_prefix.mp isUnknown)⟩
            refuses
      · rcases @parseFields_cases ipv6 consumed (splitN ' ' 5 line) with
          accepted | isInvalid
        · exact absurd ⟨line, isLine, .inr accepted⟩ refuses
        · exact isInvalid

/-- A line ends behind the word that it begins with. -/
theorem six_le_headerEnd
    {headerEnd : Nat}
    (isV1 : v1Start <+: buf)
    (isEnd : position? [13, 10] buf = some headerEnd) :
    6 ≤ headerEnd := by
  obtain ⟨rest, rfl⟩ := isV1
  obtain ⟨⟨_, stands⟩, _⟩ := position?_eq_some_iff.mp isEnd
  by_contra early
  obtain ⟨after, isDrop⟩ := stands
  have isFirst := congrArg List.head? isDrop
  have early : headerEnd < 6 := Nat.not_le.mp early
  interval_cases headerEnd <;> simp [v1Start] at isFirst

/-- The line of a version 1 header, without the word that it begins with. -/
def lineOf (buf : List UInt8) (headerEnd : Nat) : List UInt8 :=
  (buf.take headerEnd).drop 6

theorem parseV1_of_end
    {headerEnd : Nat}
    (isV1 : v1Start <+: buf)
    (isEnd : position? [13, 10] buf = some headerEnd) :
    parseV1 ipv6 buf =
      parseLine ipv6 (headerEnd + 2) (lineOf buf headerEnd) := by
  have within := (position?_eq_some_iff.mp isEnd).1.1
  rw [parseV1, isEnd]
  dsimp only
  rw [sliceAt_eq (six_le_headerEnd isV1 isEnd)
    (Nat.le_of_add_right_le within)]
  rfl

end Version1

/-! ## Both versions -/

section Both

variable {buf more : List UInt8}

/-- The buffer is, or may yet become, one with the signature. -/
def MayBeV2 (buf : List UInt8) : Prop :=
  buf.take 12 <+: v2Signature

instance (buf : List UInt8) : Decidable (MayBeV2 buf) :=
  inferInstanceAs (Decidable (buf.take 12 <+: v2Signature))

theorem isSignedIf_eq
    {condition : Prop}
    [Decidable condition]
    (long : condition → 12 ≤ buf.length) :
    isSignedIf condition buf =
      .ok (decide (condition ∧ MayBeV2 buf)) := by
  by_cases holds : condition
  · have twelve : (buf.take 12).length = v2Signature.length := by
      rw [List.length_take, Nat.min_eq_left (long holds)]
      rfl
    have isEqual :
        (buf.take 12 == v2Signature) = decide (MayBeV2 buf) := by
      rw [Bool.eq_iff_iff, beq_iff_eq, decide_eq_true_iff]
      constructor
      · intro same
        rw [MayBeV2, same]
      · intro isPrefix
        exact isPrefix.eq_of_length twelve
    simp only [isSignedIf, holds, decide_true, if_true, true_and,
      sliceAt_eq (Nat.zero_le 12) (long holds), ← isEqual]
    rfl
  · simp [isSignedIf, holds]

/-- The parser without the order of its length checks. -/
theorem parse_eq (ipv6 : Ipv6Text) (buf : List UInt8) :
    parse ipv6 buf =
      if buf.length < 8 then
        .error .incomplete
      else if MayBeV2 buf then
        parseV2 buf
      else if v1Start.isPrefixOf buf then
        parseV1 ipv6 buf
      else
        .error (.invalid "既非 v1 也非 v2 格式") := by
  have shortPrefix :
      buf.length < 12 →
        (buf.isPrefixOf v2Signature = true ↔ MayBeV2 buf) := by
    intro short
    rw [MayBeV2, List.take_of_length_le (Nat.le_of_lt short),
      List.isPrefixOf_iff_prefix]
  unfold parse
  rw [isSignedIf_eq (by omega), isSignedIf_eq (by omega)]
  simp only [bind, Except.bind, decide_eq_true_eq]
  congr 1
  by_cases isV2 : MayBeV2 buf
  · rw [if_pos isV2]
    by_cases long : 16 ≤ buf.length
    · rw [if_pos ⟨long, isV2⟩]
    · have asks : parseV2 buf = .error .incomplete := by
        rw [parseV2, if_pos (by omega)]
      rw [if_neg (by simp [long]), asks]
      by_cases signed : 12 ≤ buf.length
      · rw [if_pos ⟨⟨by omega, signed⟩, isV2⟩]
      · rw [if_neg (by simp [signed]),
          if_pos ⟨by omega, (shortPrefix (by omega)).mpr isV2⟩]
  · have notPrefix :
        ¬ (buf.length < 12 ∧ buf.isPrefixOf v2Signature = true) := by
      rintro ⟨short, isPrefix⟩
      exact isV2 ((shortPrefix short).mp isPrefix)
    rw [if_neg (by simp [isV2]), if_neg (by simp [isV2]), if_neg notPrefix,
      if_neg isV2]

/-- A signature that arrives has begun to arrive before. -/
theorem MayBeV2.of_append
    (isV2 : MayBeV2 (buf ++ more)) :
    MayBeV2 buf := by
  refine List.IsPrefix.trans ?_ isV2
  rw [List.take_append]
  exact List.prefix_append _ _

theorem mayBeV2_append
    (long : 12 ≤ buf.length) :
    MayBeV2 (buf ++ more) ↔ MayBeV2 buf := by
  rw [MayBeV2, MayBeV2, List.take_append_of_le_length long]

theorem isPrefixOf_v1Start_append
    (long : 8 ≤ buf.length) :
    v1Start.isPrefixOf (buf ++ more) = v1Start.isPrefixOf buf := by
  rw [Bool.eq_iff_iff, List.isPrefixOf_iff_prefix,
    List.isPrefixOf_iff_prefix]
  constructor
  · intro isV1
    apply List.prefix_of_prefix_length_le isV1 (List.prefix_append _ _)
    simp only [v1Start, List.length_cons, List.length_nil]
    omega
  · intro isV1
    exact isV1.trans (List.prefix_append _ _)

/-- A buffer asks for more, is a header of its own bytes, or is refused. -/
theorem parse_cases (ipv6 : Ipv6Text) (buf : List UInt8) :
    parse ipv6 buf = .error .incomplete ∨
      (∃ header consumed,
        parse ipv6 buf = .ok (header, consumed) ∧
          consumed ≤ buf.length) ∨
      ∃ text, parse ipv6 buf = .error (.invalid text) := by
  rw [parse_eq]
  split
  · exact .inl rfl
  · split
    · exact parseV2_cases buf
    · split
      · next isV1 =>
          rw [List.isPrefixOf_iff_prefix] at isV1
          cases isEnd : position? [13, 10] buf with
          | none =>
              rw [parseV1, isEnd]
              dsimp only
              split
              · exact .inl rfl
              · exact .inr (.inr ⟨_, rfl⟩)
          | some headerEnd =>
              have within := (position?_eq_some_iff.mp isEnd).1.1
              rw [parseV1_of_end isV1 isEnd]
              by_cases accepts : AcceptsLine ipv6 (lineOf buf headerEnd)
              · obtain ⟨header, isHeader⟩ := parseLine_of_accepts accepts
                exact .inr (.inl ⟨header, _, isHeader, within⟩)
              · exact .inr (.inr (parseLine_of_not_accepts accepts))
      · exact .inr (.inr ⟨_, rfl⟩)

end Both

/-! ## Streams -/

/-- What becomes of a buffer, or of a stream. -/
inductive Outcome where
  | header (header : ProxyHeader) (consumed : Nat)
  | rejected
  | more
  | outOfRange
  deriving Repr, DecidableEq

/-- The outcome of a result; how it was refused is left out. -/
def outcome : Except ParseError (ProxyHeader × Nat) → Outcome
  | .ok (header, consumed) =>
      .header header consumed
  | .error .incomplete =>
      .more
  | .error (.invalid _) =>
      .rejected
  | .error .outOfRange =>
      .outOfRange

/-- The parser is called after each read, until it does not ask for more. -/
def receive (ipv6 : Ipv6Text) (reads : List (List UInt8)) : Outcome :=
  outcome (readUntil (· == .incomplete) (parse ipv6) [] reads)

/-- A version 1 line that is accepted, and longer than the limit. -/
def LongLine (ipv6 : Ipv6Text) (stream : List UInt8) : Prop :=
  v1Start <+: stream ∧
    ∃ headerEnd,
      position? [13, 10] stream = some headerEnd ∧
        v1MaxHeaderLen < headerEnd + 2 ∧
        AcceptsLine ipv6 (lineOf stream headerEnd)

/-- The reads make no difference, and none leaves the buffer. -/
structure Independent (ipv6 : Ipv6Text) (stream : List UInt8) : Prop where
  same :
    ∀ first second : List (List UInt8),
      first.flatten = stream →
      second.flatten = stream →
        receive ipv6 first = receive ipv6 second
  settled :
    ∀ front middle back,
      stream = front ++ middle ++ back →
      outcome (parse ipv6 front) ≠ .more →
        outcome (parse ipv6 (front ++ middle)) =
          outcome (parse ipv6 front)
  bounded :
    ∀ front back header consumed,
      stream = front ++ back →
      parse ipv6 front = .ok (header, consumed) →
        consumed ≤ front.length
  inRange :
    ∀ front back,
      stream = front ++ back →
        parse ipv6 front ≠ .error .outOfRange

section Streams

variable {buf more : List UInt8}

/-- A long line stays one when the stream goes on. -/
theorem LongLine.append
    (isLong : LongLine ipv6 buf) :
    LongLine ipv6 (buf ++ more) := by
  obtain ⟨isV1, headerEnd, isEnd, exceeds, accepts⟩ := isLong
  have within := (position?_eq_some_iff.mp isEnd).1.1
  refine ⟨isV1.trans (List.prefix_append _ _), headerEnd,
    position?_append isEnd, exceeds, ?_⟩
  rw [lineOf, List.take_append_of_le_length (Nat.le_of_add_right_le within)]
  exact accepts

/-- What was decided about a version 1 header stays, if it is not long. -/
theorem outcome_parseV1_append
    (isV1 : v1Start <+: buf)
    (notLong : ¬ LongLine ipv6 (buf ++ more))
    (decided : outcome (parseV1 ipv6 buf) ≠ .more) :
    outcome (parseV1 ipv6 (buf ++ more)) =
      outcome (parseV1 ipv6 buf) := by
  have stillV1 : v1Start <+: buf ++ more :=
    isV1.trans (List.prefix_append _ _)
  cases isEnd : position? [13, 10] buf with
  | some headerEnd =>
      have within := (position?_eq_some_iff.mp isEnd).1.1
      rw [parseV1_of_end isV1 isEnd,
        parseV1_of_end stillV1 (position?_append isEnd), lineOf, lineOf,
        List.take_append_of_le_length (Nat.le_of_add_right_le within)]
  | none =>
      have long : ¬ buf.length < v1MaxHeaderLen := by
        intro short
        apply decided
        rw [parseV1, isEnd]
        simp only [if_pos short, outcome]
      have rejected : outcome (parseV1 ipv6 buf) = .rejected := by
        rw [parseV1, isEnd]
        simp only [if_neg long, outcome]
      rw [rejected]
      cases isLater : position? [13, 10] (buf ++ more) with
      | none =>
          have longer : ¬ (buf ++ more).length < v1MaxHeaderLen := by
            rw [List.length_append]
            omega
          rw [parseV1, isLater]
          simp only [if_neg longer, outcome]
      | some headerEnd =>
          have late := length_lt_of_position?_append isEnd isLater
          have refuses :
              ¬ AcceptsLine ipv6 (lineOf (buf ++ more) headerEnd) := by
            intro accepts
            refine notLong ⟨stillV1, headerEnd, isLater, ?_, accepts⟩
            exact Nat.lt_of_le_of_lt (Nat.not_lt.mp long) late
          obtain ⟨text, isInvalid⟩ := parseLine_of_not_accepts refuses
          rw [parseV1_of_end stillV1 isLater, isInvalid, outcome]

/-- What was decided about a buffer stays, if it has no long line. -/
theorem outcome_parse_append
    (notLong : ¬ LongLine ipv6 (buf ++ more))
    (decided : outcome (parse ipv6 buf) ≠ .more) :
    outcome (parse ipv6 (buf ++ more)) = outcome (parse ipv6 buf) := by
  have long : ¬ buf.length < 8 := by
    intro short
    apply decided
    rw [parse_eq, if_pos short, outcome]
  have longer : ¬ (buf ++ more).length < 8 := by
    rw [List.length_append]
    omega
  rw [parse_eq ipv6 buf, if_neg long] at decided ⊢
  rw [parse_eq ipv6 (buf ++ more), if_neg longer]
  by_cases isV2 : MayBeV2 buf
  · rw [if_pos isV2] at decided ⊢
    rcases settles_parseV2 buf more with ⟨error, isError, asks⟩ | same
    · rw [isError, beq_iff_eq.mp asks] at decided
      exact absurd rfl decided
    · have sixteen : 16 ≤ buf.length := by
        by_contra short
        apply decided
        rw [parseV2, if_pos (Nat.not_le.mp short), outcome]
      rw [if_pos ((mayBeV2_append (by omega)).mpr isV2), same]
  · have notV2 : ¬ MayBeV2 (buf ++ more) := fun isV2' =>
      isV2 isV2'.of_append
    rw [if_neg isV2] at decided ⊢
    rw [if_neg notV2, isPrefixOf_v1Start_append (Nat.not_lt.mp long)]
    by_cases isV1 : v1Start.isPrefixOf buf = true
    · rw [if_pos isV1] at decided ⊢
      rw [if_pos isV1]
      exact outcome_parseV1_append (List.isPrefixOf_iff_prefix.mp isV1)
        notLong decided
    · rw [if_neg isV1, if_neg isV1]

/-- Without a long line, the reads give what the whole stream gives. -/
theorem receive_eq
    {reads : List (List UInt8)}
    (notLong : ¬ LongLine ipv6 reads.flatten) :
    receive ipv6 reads = outcome (parse ipv6 reads.flatten) := by
  obtain ⟨front, back, isStream, isResult, ended⟩ :=
    readUntil_eq (· == .incomplete) (parse ipv6) [] reads
  rw [List.nil_append] at isStream
  rw [receive, isResult]
  rw [isStream] at notLong ⊢
  rcases ended with rfl | decided
  · rw [List.append_nil]
  · refine (outcome_parse_append notLong ?_).symm
    intro asks
    rcases parse_cases ipv6 front with isMore | ⟨header, consumed, isOk, _⟩ |
      ⟨text, isInvalid⟩
    · rw [isMore] at decided
      cases decided
    · rw [isOk] at asks
      cases asks
    · rw [isInvalid] at asks
      cases asks

/-- A version 1 header is parsed as one. -/
theorem parse_of_v1
    (isV1 : v1Start <+: buf)
    (long : 8 ≤ buf.length) :
    parse ipv6 buf = parseV1 ipv6 buf := by
  have notV2 : ¬ MayBeV2 buf := by
    obtain ⟨rest, rfl⟩ := isV1
    intro isV2
    have isFirst := List.isPrefixOf_iff_prefix.mpr isV2
    simp [v1Start, v2Signature] at isFirst
  rw [parse_eq, if_neg (Nat.not_lt.mpr long), if_neg notV2,
    if_pos (List.isPrefixOf_iff_prefix.mpr isV1)]

theorem readUntil_start
    (read : List UInt8)
    (later : List (List UInt8)) :
    readUntil (· == .incomplete) (parse ipv6) [] (read :: later) =
      readUntil (· == .incomplete) (parse ipv6) read later :=
  rfl

/--
A long line is refused if a read ends before it, and accepted if none does.
-/
theorem not_same_of_longLine
    {stream : List UInt8}
    (isLong : LongLine ipv6 stream) :
    receive ipv6 [stream.take v1MaxHeaderLen,
        stream.drop v1MaxHeaderLen] ≠
      receive ipv6 [stream] := by
  obtain ⟨isV1, headerEnd, isEnd, exceeds, accepts⟩ := isLong
  have within : headerEnd + 2 ≤ stream.length :=
    (position?_eq_some_iff.mp isEnd).1.1
  have isLimit : v1MaxHeaderLen = 108 := rfl
  obtain ⟨header, isHeader⟩ := parseLine_of_accepts accepts
  have whole :
      receive ipv6 [stream] = .header header (headerEnd + 2) := by
    rw [receive, readUntil_start, readUntil, parse_of_v1 isV1 (by omega),
      parseV1_of_end isV1 isEnd, isHeader, outcome]
  have front : (stream.take v1MaxHeaderLen).length = v1MaxHeaderLen := by
    rw [List.length_take]
    omega
  have frontV1 : v1Start <+: stream.take v1MaxHeaderLen := by
    apply List.prefix_of_prefix_length_le isV1 (List.take_prefix _ _)
    rw [front]
    decide
  have noEnd : position? [13, 10] (stream.take v1MaxHeaderLen) = none := by
    cases isEarly : position? [13, 10] (stream.take v1MaxHeaderLen) with
    | none =>
        rfl
    | some early =>
        have fits := (position?_eq_some_iff.mp isEarly).1.1
        have isPlace :=
          @position?_append _ _ _ _ (stream.drop v1MaxHeaderLen) _ isEarly
        rw [List.take_append_drop, isEnd] at isPlace
        cases isPlace
        rw [front] at fits
        simp only [List.length_cons, List.length_nil] at fits
        omega
  have refused :
      parse ipv6 (stream.take v1MaxHeaderLen) =
        .error (.invalid "v1 头超过最大长度") := by
    rw [parse_of_v1 frontV1 (by omega), parseV1, noEnd]
    simp only [front, Nat.lt_irrefl, if_false]
  have cut :
      receive ipv6
          [stream.take v1MaxHeaderLen, stream.drop v1MaxHeaderLen] =
        .rejected := by
    rw [receive, readUntil_start, readUntil, refused]
    rfl
  rw [cut, whole]
  nofun

end Streams

/--
What becomes of a stream is independent of the reads exactly when the stream has
no version 1 line that is accepted and longer than the limit.
-/
theorem independent_iff (ipv6 : Ipv6Text) (stream : List UInt8) :
    Independent ipv6 stream ↔ ¬ LongLine ipv6 stream := by
  constructor
  · intro independent isLong
    refine not_same_of_longLine isLong (independent.same _ _ ?_ ?_)
    · simp
    · simp
  · intro notLong
    refine ⟨?_, ?_, ?_, ?_⟩
    · intro first second isFirst isSecond
      rw [receive_eq (isFirst ▸ notLong), receive_eq (isSecond ▸ notLong),
        isFirst, isSecond]
    · rintro front middle back rfl decided
      exact outcome_parse_append
        (fun isLong => notLong isLong.append) decided
    · rintro front back header consumed - isOk
      rcases parse_cases ipv6 front with
        isMore | ⟨_, _, isHeader, within⟩ | ⟨text, isInvalid⟩
      · rw [isMore] at isOk
        cases isOk
      · rw [isHeader] at isOk
        cases isOk
        exact within
      · rw [isInvalid] at isOk
        cases isOk
    · rintro front back - isOut
      rcases parse_cases ipv6 front with
        isMore | ⟨_, _, isHeader, _⟩ | ⟨text, isInvalid⟩
      · rw [isMore] at isOut
        cases isOut
      · rw [isHeader] at isOut
        cases isOut
      · rw [isInvalid] at isOut
        cases isOut

/-- A line of 115 bytes without addresses. -/
def longUnknown : List UInt8 :=
  encodeUtf8 "PROXY UNKNOWN".toList ++ List.replicate 100 120 ++ [13, 10]

/-- The line is refused after a read of 108 bytes, and accepted in one read. -/
theorem not_independent_longUnknown :
    ¬ ∃ ipv6, Independent ipv6 longUnknown := by
  rintro ⟨ipv6, independent⟩
  have isLong : LongLine ipv6 longUnknown := by
    refine ⟨by decide, 113, by decide, by decide,
      "UNKNOWN".toList ++ List.replicate 100 'x', by decide, .inl ?_⟩
    exact List.prefix_append _ _
  refine not_same_of_longLine isLong (independent.same _ _ ?_ ?_)
  · decide
  · decide

end Sweety.ProxyProtocol
