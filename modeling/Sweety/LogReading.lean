import Sweety.AccessLog

namespace Sweety.LogReading

open HttpText EscapedText AccessLog

/-!
# Lines of the access log that are read back

A reader of the Combined format splits a line at its quotes, honouring
backslashes.  This module says which entries it gets back.
-/

/-! ## The reader -/

/-- The text between the first and the last blank. -/
def betweenBlanks? (text : List Char) : Option (List Char) :=
  (splitOnce? ' ' text).bind fun parts =>
    (splitOnce? ' ' parts.2.reverse).map fun ends => ends.2.reverse

/-- What a reader takes from a line. -/
structure LoggedFields where
  uri : List Char
  referer : List Char
  userAgent : List Char
  deriving Repr, DecidableEq

/-- Read a line: the second, fourth and sixth of its pieces. -/
def readLine? (line : List Char) : Option LoggedFields :=
  (readPiece line).bind fun lead =>
  (readPiece lead.2).bind fun request =>
  (readPiece request.2).bind fun numbers =>
  (readPiece numbers.2).bind fun referer =>
  (readPiece referer.2).bind fun gap =>
  (readPiece gap.2).bind fun userAgent =>
  (betweenBlanks? request.1).map fun uri =>
    ⟨uri, referer.1, userAgent.1⟩

/-- The fields of an entry that a client decides about. -/
def loggedFields (entry : AccessLogEntry) : LoggedFields :=
  ⟨entry.uri, entry.referer, entry.userAgent⟩

/-! ## What should hold of a line -/

/-- A text without quotes and line breaks. -/
structure Quiet (text : List Char) : Prop where
  noQuote : '"' ∉ text
  noNewline : '\n' ∉ text
  noReturn : '\r' ∉ text

/-- The fields that a client does not decide about. -/
structure PlainEntry (entry : AccessLogEntry) : Prop where
  clientIp : Quiet entry.clientIp
  method : Quiet entry.method
  version : Quiet entry.httpVersion
  noBlankIp : ' ' ∉ entry.clientIp
  noBlankMethod : ' ' ∉ entry.method
  noBlankVersion : ' ' ∉ entry.httpVersion

/-- The line is one line and is read back. -/
structure Unforgeable (line : List Char) (entry : AccessLogEntry) : Prop where
  noNewline : '\n' ∉ line
  noReturn : '\r' ∉ line
  isRead : readLine? line = some (loggedFields entry)

/-- No backslash, and ASCII alone where something is escaped. -/
structure CleanField (text : List Char) : Prop where
  noBackslash : '\\' ∉ text
  ascii :
    text.any isDangerous = true → ∀ char ∈ text, char.toNat < 128

/-- The version ends in no escape, and the fields are clean. -/
structure CleanEntry (entry : AccessLogEntry) : Prop where
  version : escapesFrom false entry.httpVersion = false
  uri : CleanField entry.uri
  referer : CleanField entry.referer
  userAgent : CleanField entry.userAgent

/-! ## Fields that are read back -/

/-- What is read of a field without backslashes. -/
def fieldRead (text : List Char) : List Char :=
  text.flatMap (readBack (writeChar text))

theorem readPiece_sanitize
    {text : List Char}
    (noBackslash : '\\' ∉ text)
    (rest : List Char) :
    readPiece (sanitizeLogField text ++ rest) =
      (readPiece rest).map (putAll (fieldRead text)) := by
  rw [readPiece, sanitizeLogField_eq]
  refine readFrom_flatMap ?_ rest
  intro char member
  exact writes_writeChar member fun isBackslash =>
    noBackslash (isBackslash ▸ member)

theorem length_le_fieldRead
    {text : List Char}
    (noBackslash : '\\' ∉ text) :
    text.length ≤ (fieldRead text).length := by
  refine length_le_flatMap fun char member => ?_
  have notBackslash : char ≠ '\\' :=
    fun isBackslash => noBackslash (isBackslash ▸ member)
  exact ((writes_writeChar member notBackslash).readBack_visible notBackslash).1

/-- A field is read back exactly when it is clean. -/
theorem fieldRead_eq_self_iff
    {text : List Char}
    (noBackslash : '\\' ∉ text) :
    fieldRead text = text ↔ CleanField text := by
  have notBackslash : ∀ char ∈ text, char ≠ '\\' :=
    fun char member isBackslash => noBackslash (isBackslash ▸ member)
  have eachIff :=
    @flatMap_eq_map_iff _ _ text (readBack (writeChar text)) id
      fun char member =>
        ((writes_writeChar member (notBackslash char member)).readBack_visible
          (notBackslash char member)).1
  rw [List.map_id] at eachIff
  rw [fieldRead, eachIff]
  constructor
  · intro each
    refine ⟨noBackslash, fun escapes char member => ?_⟩
    exact (readBack_writeChar_iff member (notBackslash char member)).mp
      (each char member) escapes
  · intro clean char member
    exact (readBack_writeChar_iff member (notBackslash char member)).mpr
      fun escapes => clean.ascii escapes char member

/-- A field that is read back, whatever follows, has no backslash. -/
theorem noBackslash_of_prefix
    {text tail read rest : List Char}
    {stop : Char}
    (isStop : stop = ' ' ∨ stop = '"')
    (isRead :
      readPiece (sanitizeLogField text ++ stop :: tail) = some (read, rest))
    (isPrefix : text <+: read) :
    '\\' ∉ text := by
  rw [readPiece, sanitizeLogField_eq] at isRead
  refine @backslash_not_mem_leading (writeChar text) text tail stop
    (writeChar_backslash text) ?_ isStop [] read rest List.not_mem_nil isRead
    isPrefix
  intro char member notBackslash
  exact writes_writeChar member notBackslash

/-- A quoted field is read back exactly when it is clean. -/
theorem clean_of_quoted
    {text tail rest : List Char}
    (isRead :
      readPiece (sanitizeLogField text ++ '"' :: tail) =
        some (text, rest)) :
    CleanField text ∧ rest = tail := by
  have noBackslash :=
    noBackslash_of_prefix (Or.inr rfl) isRead (List.prefix_refl text)
  rw [readPiece_sanitize noBackslash] at isRead
  have isSame : (fieldRead text ++ [], tail) = (text, rest) :=
    Option.some.inj isRead
  rw [List.append_nil] at isSame
  obtain ⟨isText, isRest⟩ := Prod.mk.inj isSame
  exact ⟨(fieldRead_eq_self_iff noBackslash).mp isText, isRest.symm⟩

theorem readPiece_quoted
    {text : List Char}
    (clean : CleanField text)
    (tail : List Char) :
    readPiece (sanitizeLogField text ++ '"' :: tail) = some (text, tail) := by
  have isSame := (fieldRead_eq_self_iff clean.noBackslash).mpr clean
  rw [readPiece_sanitize clean.noBackslash, isSame]
  change some (text ++ [], tail) = _
  rw [List.append_nil]

/-! ## The request -/

theorem betweenBlanks?_append
    {front text back : List Char}
    (noBlankFront : ' ' ∉ front)
    (noBlankBack : ' ' ∉ back) :
    betweenBlanks? (front ++ ' ' :: (text ++ ' ' :: back)) = some text := by
  have isFirst :
      splitOnce? ' ' (front ++ ' ' :: (text ++ ' ' :: back)) =
        some (front, text ++ ' ' :: back) :=
    splitOnce?_eq_some_iff.mpr ⟨rfl, noBlankFront⟩
  have isLast :
      splitOnce? ' ' (text ++ ' ' :: back).reverse =
        some (back.reverse, text.reverse) := by
    refine splitOnce?_eq_some_iff.mpr ⟨?_, ?_⟩
    · rw [List.reverse_append, List.reverse_cons, List.append_assoc]
      rfl
    · rw [List.mem_reverse]
      exact noBlankBack
  rw [betweenBlanks?, isFirst, Option.bind_some, isLast, Option.map_some,
    List.reverse_reverse]

theorem eq_of_betweenBlanks?
    {front rest text : List Char}
    (noBlankFront : ' ' ∉ front)
    (isBetween : betweenBlanks? (front ++ ' ' :: rest) = some text) :
    ∃ back, rest = text ++ ' ' :: back ∧ ' ' ∉ back := by
  have isFirst :
      splitOnce? ' ' (front ++ ' ' :: rest) = some (front, rest) :=
    splitOnce?_eq_some_iff.mpr ⟨rfl, noBlankFront⟩
  rw [betweenBlanks?, isFirst, Option.bind_some] at isBetween
  obtain ⟨ends, isEnds, rfl⟩ := Option.map_eq_some_iff.mp isBetween
  obtain ⟨isReverse, noBlank⟩ := splitOnce?_eq_some_iff.mp isEnds
  refine ⟨ends.1.reverse, ?_, by rwa [List.mem_reverse]⟩
  calc
    rest = rest.reverse.reverse := (List.reverse_reverse rest).symm
    _ = (ends.1 ++ ' ' :: ends.2).reverse := by rw [isReverse]
    _ = ends.2.reverse ++ ' ' :: ends.1.reverse := by
      rw [List.reverse_append, List.reverse_cons, List.append_assoc]
      rfl

/-- What follows the last blank begins where a text without blanks begins. -/
theorem length_lt_of_last_blank
    {first second firstBack secondBack : List Char}
    (same : first ++ ' ' :: firstBack = second ++ ' ' :: secondBack)
    (noBlank : ' ' ∉ secondBack)
    (hasBlank : ' ' ∈ firstBack) :
    first.length < second.length := by
  by_contra notLess
  rcases List.append_eq_append_iff.mp same with
    ⟨between, isSecond, isBack⟩ | ⟨between, isFirst, isBack⟩
  · rw [isSecond, List.length_append] at notLess
    have isNil : between = [] :=
      List.eq_nil_of_length_eq_zero (by omega)
    rw [isNil] at isBack
    rw [(List.cons.inj isBack).2] at hasBlank
    exact noBlank hasBlank
  · cases between with
    | nil =>
        rw [(List.cons.inj isBack).2] at noBlank
        exact noBlank hasBlank
    | cons head tail =>
        have isTail : secondBack = tail ++ ' ' :: firstBack :=
          (List.cons.inj isBack).2
        rw [isTail] at noBlank
        exact noBlank (List.mem_append_right _ List.mem_cons_self)

/-- A version is read to the quote behind it if it does not escape it. -/
theorem readPiece_version
    {version : List Char}
    (noQuote : '"' ∉ version)
    (notEscape : escapesFrom false version = false)
    (rest : List Char) :
    readPiece (version ++ '"' :: rest) =
      some (unescapedFrom false version, rest) := by
  rw [readPiece, readFrom_append noQuote, notEscape]
  change some (unescapedFrom false version ++ [], rest) = _
  rw [List.append_nil]

/-- A version that escapes the quote behind it goes on after the quote. -/
theorem blank_mem_of_readPiece_version
    {version tail read rest : List Char}
    (noQuote : '"' ∉ version)
    (isEscape : escapesFrom false version = true)
    (isRead :
      readPiece (version ++ '"' :: ' ' :: tail) = some (read, rest)) :
    ' ' ∈ read := by
  rw [readPiece, readFrom_append noQuote, isEscape] at isRead
  obtain ⟨piece, isPiece, isWhole⟩ := Option.map_eq_some_iff.mp isRead
  obtain ⟨inner, isInner, isRest⟩ := Option.map_eq_some_iff.mp isPiece
  rw [readFrom_char (by decide) (by decide)] at isInner
  obtain ⟨last, -, isLast⟩ := Option.map_eq_some_iff.mp isInner
  cases isLast
  cases isRest
  cases isWhole
  refine List.mem_append_right _ ?_
  exact List.mem_append_right _ (List.mem_cons_self)

section Request

variable
  {method uri version tail : List Char}
  (noQuoteMethod : '"' ∉ method)
  (noBlankMethod : ' ' ∉ method)
  (noQuoteVersion : '"' ∉ version)
  (noBlankVersion : ' ' ∉ version)

/-- The request of a line, and what follows it. -/
def requestText (method uri version tail : List Char) : List Char :=
  method ++
    ' ' :: (sanitizeLogField uri ++ ' ' :: (version ++ '"' :: ' ' :: tail))

include noQuoteMethod noBlankMethod noQuoteVersion noBlankVersion

/-- A clean request is read back. -/
theorem readPiece_request
    (notEscape : escapesFrom false version = false)
    (clean : CleanField uri) :
    ∃ request,
      readPiece (requestText method uri version tail) =
          some (request, ' ' :: tail) ∧
        betweenBlanks? request = some uri := by
  have isUri := (fieldRead_eq_self_iff clean.noBackslash).mpr clean
  have afterUri :
      readPiece (' ' :: (version ++ '"' :: ' ' :: tail)) =
        some (' ' :: unescapedFrom false version, ' ' :: tail) := by
    have isVersion :=
      readPiece_version noQuoteVersion notEscape (' ' :: tail)
    rw [readPiece] at isVersion ⊢
    rw [readFrom_char (by decide) (by decide), isVersion]
    rfl
  refine ⟨unescapedFrom false method ++
    ' ' :: (uri ++ ' ' :: unescapedFrom false version), ?_, ?_⟩
  · rw [requestText, readPiece_append_blank noQuoteMethod,
      readPiece_sanitize clean.noBackslash, isUri, afterUri]
    change some (_ ++ [' '] ++ (uri ++ _), _) = _
    rw [List.append_assoc, List.singleton_append]
    rfl
  · exact betweenBlanks?_append
      (blank_not_mem_unescapedFrom noBlankMethod false)
      (blank_not_mem_unescapedFrom noBlankVersion false)

/-- Only a clean request is read back. -/
theorem clean_of_request
    {request rest : List Char}
    (isRead :
      readPiece (requestText method uri version tail) =
        some (request, rest))
    (isUri : betweenBlanks? request = some uri) :
    escapesFrom false version = false ∧ CleanField uri ∧
      rest = ' ' :: tail := by
  rw [requestText, readPiece_append_blank noQuoteMethod] at isRead
  obtain ⟨⟨afterMethod, last⟩, isAfter, isWhole⟩ :=
    Option.map_eq_some_iff.mp isRead
  obtain ⟨isRequest, isLast⟩ := Prod.mk.inj isWhole
  rw [← isRequest, List.append_assoc, List.singleton_append] at isUri
  obtain ⟨back, isBack, noBlankBack⟩ :=
    eq_of_betweenBlanks?
      (blank_not_mem_unescapedFrom noBlankMethod false) isUri
  have noBackslash : '\\' ∉ uri :=
    noBackslash_of_prefix (Or.inl rfl) isAfter ⟨' ' :: back, isBack.symm⟩
  -- The URI is read without leaving a backslash open, so the version follows.
  rw [readPiece_sanitize noBackslash] at isAfter
  obtain ⟨⟨afterUri, end'⟩, isEnd, isJoined⟩ :=
    Option.map_eq_some_iff.mp isAfter
  rw [readPiece, readFrom_char (by decide) (by decide)] at isEnd
  obtain ⟨⟨afterBlank, final⟩, isFinal, isBlank⟩ :=
    Option.map_eq_some_iff.mp isEnd
  obtain ⟨rfl, rfl⟩ := Prod.mk.inj isBlank
  obtain ⟨isParts, rfl⟩ := Prod.mk.inj isJoined
  have parts : fieldRead uri ++ ' ' :: afterBlank = uri ++ ' ' :: back := by
    rw [← isBack, ← isParts]
    rfl
  have notEscape : escapesFrom false version = false := by
    by_contra isEscape
    have hasBlank :=
      blank_mem_of_readPiece_version noQuoteVersion
        (eq_true_of_ne_false isEscape) isFinal
    have shorter := length_lt_of_last_blank parts noBlankBack hasBlank
    have atLeast := length_le_fieldRead noBackslash
    omega
  have isVersion :=
    readPiece_version noQuoteVersion notEscape (' ' :: tail)
  rw [readPiece] at isVersion
  obtain ⟨rfl, rfl⟩ :=
    Prod.mk.inj (Option.some.inj (isFinal.symm.trans isVersion))
  have isClean : betweenBlanks?
      ([] ++ ' ' :: (fieldRead uri ++ ' ' :: unescapedFrom false version)) =
        some (fieldRead uri) :=
    betweenBlanks?_append List.not_mem_nil
      (blank_not_mem_unescapedFrom noBlankVersion false)
  have isGiven :
      betweenBlanks? ([] ++ ' ' :: (uri ++ ' ' :: back)) = some uri :=
    betweenBlanks?_append List.not_mem_nil noBlankBack
  rw [parts, isGiven] at isClean
  exact ⟨notEscape,
    (fieldRead_eq_self_iff noBackslash).mp (Option.some.inj isClean).symm,
    isLast.symm⟩

end Request

/-! ## Lines -/

/-- A text without line breaks. -/
structure OneLine (text : List Char) : Prop where
  noNewline : '\n' ∉ text
  noReturn : '\r' ∉ text

theorem OneLine.append
    {first second : List Char}
    (isFirst : OneLine first)
    (isSecond : OneLine second) :
    OneLine (first ++ second) where
  noNewline := by
    rw [List.mem_append, not_or]
    exact ⟨isFirst.noNewline, isSecond.noNewline⟩
  noReturn := by
    rw [List.mem_append, not_or]
    exact ⟨isFirst.noReturn, isSecond.noReturn⟩

theorem Quiet.oneLine {text : List Char} (quiet : Quiet text) : OneLine text :=
  ⟨quiet.noNewline, quiet.noReturn⟩

/-- A number is written with digits. -/
theorem quiet_toDecimal (number : Nat) : Quiet (toDecimal number) := by
  have notDigit (char : Char) (below : char.toNat < 48) :
      char ∉ toDecimal number := by
    intro member
    have isDigit :=
      isSome_digitValue?_toDigits (by decide) (by decide) number char member
    have bounds := range_of_digitValue? isDigit
    omega
  exact ⟨notDigit '"' (by decide), notDigit '\n' (by decide),
    notDigit '\r' (by decide)⟩

theorem oneLine_sanitizeByte (byte : UInt8) : OneLine (sanitizeByte byte) := by
  cases isEscaped : isDangerousByte byte with
  | false =>
      rw [sanitizeByte_plain isEscaped]
      have differs
          {code : Char}
          (isCode : isDangerous code = true) :
          code ∉ [Char.ofNat byte.toNat] := by
        intro member
        have same : code.toNat = byte.toNat := by
          rw [List.mem_singleton.mp member, toNat_ofNat_byte]
        rw [isDangerous_iff, same, ← isDangerousByte_iff, isEscaped] at isCode
        cases isCode
      exact ⟨differs rfl, differs rfl⟩
  | true =>
      rw [isDangerousByte, Bool.or_eq_true, Bool.or_eq_true, beq_iff_eq,
        beq_iff_eq, beq_iff_eq] at isEscaped
      rcases isEscaped with (rfl | rfl) | rfl
      · exact ⟨by decide, by decide⟩
      · exact ⟨by decide, by decide⟩
      · exact ⟨by decide, by decide⟩

/-- A field is written without line breaks. -/
theorem oneLine_sanitizeLogField (text : List Char) :
    OneLine (sanitizeLogField text) := by
  rw [sanitizeLogField, any_isDangerousByte]
  split
  · have absent
        {char : Char}
        (notWritten : ∀ byte, char ∉ sanitizeByte byte) :
        char ∉ (encodeUtf8 text).flatMap sanitizeByte := by
      intro member
      obtain ⟨byte, -, inByte⟩ := List.mem_flatMap.mp member
      exact notWritten byte inByte
    exact ⟨absent fun byte => (oneLine_sanitizeByte byte).noNewline,
      absent fun byte => (oneLine_sanitizeByte byte).noReturn⟩
  · rename_i notEscaped
    have absent
        {char : Char}
        (isEscaped : isDangerous char = true) :
        char ∉ text :=
      fun member =>
        notEscaped (List.any_eq_true.mpr ⟨char, member, isEscaped⟩)
    exact ⟨absent rfl, absent rfl⟩

/-- The text of a line before the request, without the blank behind it. -/
def leadText (time : List Char) (entry : AccessLogEntry) : List Char :=
  entry.clientIp ++ " - - [".toList ++ time ++ "]".toList

/-- The numbers of a line, with the blank before them. -/
def numbersText (entry : AccessLogEntry) : List Char :=
  toDecimal entry.status ++ " ".toList ++ toDecimal entry.bytesSent

/-- The text of a line behind the last quote. -/
def endText (entry : AccessLogEntry) : List Char :=
  " ".toList ++ toDecimal entry.durationMs ++ "ms".toList

/-- The text behind the request. -/
def afterRequest (entry : AccessLogEntry) : List Char :=
  numbersText entry ++
    ' ' :: '"' :: (sanitizeLogField entry.referer ++
      '"' :: ' ' :: '"' :: (sanitizeLogField entry.userAgent ++
        '"' :: endText entry))

/-- A line in its pieces. -/
theorem combinedLine_eq (time : List Char) (entry : AccessLogEntry) :
    combinedLine time entry =
      leadText time entry ++
        ' ' :: '"' :: requestText entry.method entry.uri entry.httpVersion
          (afterRequest entry) := by
  have blank : " ".toList = [' '] := rfl
  have bracket : "] \"".toList = "]".toList ++ [' ', '"'] := rfl
  have opening : " \"".toList = [' ', '"'] := rfl
  have closing : "\" ".toList = ['"', ' '] := rfl
  have between : "\" \"".toList = ['"', ' ', '"'] := rfl
  unfold combinedLine leadText requestText afterRequest numbersText endText
  rw [blank, bracket, opening, closing, between]
  simp only [List.append_assoc, List.cons_append, List.nil_append]

section Entry

variable
  {time : List Char}
  {entry : AccessLogEntry}
  (quietTime : Quiet time)
  (plain : PlainEntry entry)

include quietTime plain

theorem quiet_leadText : Quiet (leadText time entry) := by
  have absent
      {char : Char}
      (notIp : char ∉ entry.clientIp)
      (notFirst : char ∉ " - - [".toList)
      (notTime : char ∉ time)
      (notLast : char ∉ "]".toList) :
      char ∉ leadText time entry := by
    rw [leadText, List.mem_append, List.mem_append, List.mem_append, not_or,
      not_or, not_or]
    exact ⟨⟨⟨notIp, notFirst⟩, notTime⟩, notLast⟩
  exact
    ⟨absent plain.clientIp.noQuote (by decide) quietTime.noQuote (by decide),
      absent plain.clientIp.noNewline (by decide) quietTime.noNewline
        (by decide),
      absent plain.clientIp.noReturn (by decide) quietTime.noReturn
        (by decide)⟩

/-- The Combined line is one line. -/
theorem oneLine_combinedLine : OneLine (combinedLine time entry) := by
  have literal (text : String)
      (noNewline : '\n' ∉ text.toList)
      (noReturn : '\r' ∉ text.toList) :
      OneLine text.toList :=
    ⟨noNewline, noReturn⟩
  have blank : OneLine " ".toList := literal " " (by decide) (by decide)
  have closing : OneLine "\" ".toList :=
    literal "\" " (by decide) (by decide)
  unfold combinedLine
  exact plain.clientIp.oneLine
    |>.append (literal " - - [" (by decide) (by decide))
    |>.append quietTime.oneLine
    |>.append (literal "] \"" (by decide) (by decide))
    |>.append plain.method.oneLine
    |>.append blank
    |>.append (oneLine_sanitizeLogField entry.uri)
    |>.append blank
    |>.append plain.version.oneLine
    |>.append closing
    |>.append (quiet_toDecimal entry.status).oneLine
    |>.append blank
    |>.append (quiet_toDecimal entry.bytesSent).oneLine
    |>.append (literal " \"" (by decide) (by decide))
    |>.append (oneLine_sanitizeLogField entry.referer)
    |>.append (literal "\" \"" (by decide) (by decide))
    |>.append (oneLine_sanitizeLogField entry.userAgent)
    |>.append closing
    |>.append (quiet_toDecimal entry.durationMs).oneLine
    |>.append (literal "ms" (by decide) (by decide))

/-- The request stands behind the first quote. -/
theorem readPiece_combinedLine :
    ∃ lead,
      readPiece (combinedLine time entry) =
        some
          (lead, requestText entry.method entry.uri entry.httpVersion
            (afterRequest entry)) := by
  have isLead :=
    readPiece_append_blank (quiet_leadText quietTime plain).noQuote
      ('"' :: requestText entry.method entry.uri entry.httpVersion
        (afterRequest entry))
  rw [combinedLine_eq, isLead]
  exact ⟨_, rfl⟩

omit quietTime plain

/-- What stands between the request and the referer. -/
theorem readPiece_numbers (entry : AccessLogEntry) :
    ∃ numbers,
      readPiece (' ' :: afterRequest entry) =
        some
          (numbers, sanitizeLogField entry.referer ++
            '"' :: ' ' :: '"' :: (sanitizeLogField entry.userAgent ++
              '"' :: endText entry)) := by
  have noQuote : '"' ∉ ' ' :: numbersText entry := by
    have notBlank : '"' ∉ " ".toList := by
      decide
    unfold numbersText
    rw [List.mem_cons, not_or, List.mem_append, List.mem_append, not_or,
      not_or]
    exact ⟨by decide,
      ⟨(quiet_toDecimal entry.status).noQuote, notBlank⟩,
      (quiet_toDecimal entry.bytesSent).noQuote⟩
  have isNumbers :=
    readPiece_append_blank noQuote
      ('"' :: (sanitizeLogField entry.referer ++
        '"' :: ' ' :: '"' :: (sanitizeLogField entry.userAgent ++
          '"' :: endText entry)))
  rw [afterRequest, ← List.cons_append, isNumbers]
  exact ⟨_, rfl⟩

theorem readPiece_gap (rest : List Char) :
    readPiece (' ' :: '"' :: rest) = some ([' '], rest) := by
  rw [readPiece, readFrom_char (by decide) (by decide)]
  rfl

include quietTime plain

/-- The line of a clean entry is read back. -/
theorem readLine?_combinedLine (clean : CleanEntry entry) :
    readLine? (combinedLine time entry) = some (loggedFields entry) := by
  obtain ⟨lead, isLead⟩ := readPiece_combinedLine quietTime plain
  obtain ⟨request, isRequest, isUri⟩ :=
    @readPiece_request entry.method entry.uri entry.httpVersion
      (afterRequest entry) plain.method.noQuote plain.noBlankMethod
      plain.version.noQuote plain.noBlankVersion clean.version clean.uri
  obtain ⟨numbers, isNumbers⟩ := readPiece_numbers entry
  rw [readLine?, isLead, Option.bind_some, isRequest, Option.bind_some,
    isNumbers, Option.bind_some, readPiece_quoted clean.referer,
    Option.bind_some, readPiece_gap, Option.bind_some,
    readPiece_quoted clean.userAgent, Option.bind_some, isUri]
  rfl

/-- Only the line of a clean entry is read back. -/
theorem clean_of_readLine?
    (isRead : readLine? (combinedLine time entry) = some (loggedFields entry)) :
    CleanEntry entry := by
  obtain ⟨lead, isLead⟩ := readPiece_combinedLine quietTime plain
  rw [readLine?, isLead, Option.bind_some] at isRead
  obtain ⟨⟨request, rest⟩, isRequest, isRead⟩ :=
    Option.bind_eq_some_iff.mp isRead
  obtain ⟨⟨numbers, afterNumbers⟩, isNumbers, isRead⟩ :=
    Option.bind_eq_some_iff.mp isRead
  obtain ⟨⟨referer, afterReferer⟩, isReferer, isRead⟩ :=
    Option.bind_eq_some_iff.mp isRead
  obtain ⟨⟨gap, afterGap⟩, isGap, isRead⟩ :=
    Option.bind_eq_some_iff.mp isRead
  obtain ⟨⟨userAgent, afterAgent⟩, isAgent, isRead⟩ :=
    Option.bind_eq_some_iff.mp isRead
  obtain ⟨uri, isUri, isFields⟩ := Option.map_eq_some_iff.mp isRead
  obtain ⟨rfl, rfl, rfl⟩ := LoggedFields.mk.inj isFields
  -- Each piece that is read back ends where it should, so the next one begins
  -- there.
  obtain ⟨version, cleanUri, rfl⟩ :=
    clean_of_request plain.method.noQuote plain.noBlankMethod
      plain.version.noQuote plain.noBlankVersion isRequest isUri
  obtain ⟨digits, isDigits⟩ := readPiece_numbers entry
  obtain ⟨-, rfl⟩ :=
    Prod.mk.inj (Option.some.inj (isNumbers.symm.trans isDigits))
  obtain ⟨cleanReferer, rfl⟩ := clean_of_quoted isReferer
  obtain ⟨-, rfl⟩ :=
    Prod.mk.inj (Option.some.inj (isGap.symm.trans (readPiece_gap _)))
  obtain ⟨cleanAgent, -⟩ := clean_of_quoted isAgent
  exact ⟨version, cleanUri, cleanReferer, cleanAgent⟩

end Entry

/--
A line is one line, and is read back exactly when its entry is clean; so clean
entries with other fields have other lines.
-/
theorem combined_line_unforgeable_iff
    {time : List Char}
    (quietTime : Quiet time)
    {entry : AccessLogEntry}
    (plain : PlainEntry entry) :
    (Unforgeable (combinedLine time entry) entry ↔ CleanEntry entry) ∧
      (CleanEntry entry →
        ∀ other,
          PlainEntry other →
            CleanEntry other →
              combinedLine time entry = combinedLine time other →
                loggedFields entry = loggedFields other) := by
  have isOneLine := oneLine_combinedLine quietTime plain
  refine ⟨⟨?_, ?_⟩, ?_⟩
  · intro unforgeable
    exact clean_of_readLine? quietTime plain unforgeable.isRead
  · intro clean
    exact ⟨isOneLine.noNewline, isOneLine.noReturn,
      readLine?_combinedLine quietTime plain clean⟩
  · intro clean other otherPlain otherClean sameLine
    have isRead := readLine?_combinedLine quietTime plain clean
    rw [sameLine, readLine?_combinedLine quietTime otherPlain otherClean]
      at isRead
    exact (Option.some.inj isRead).symm

/-- A request of a browser, with some user agent. -/
def browserEntry (uri userAgent : String) : AccessLogEntry where
  clientIp := "192.0.2.1".toList
  method := "GET".toList
  uri := uri.toList
  httpVersion := "HTTP/1.1".toList
  status := 200
  bytesSent := 5
  referer := ['-']
  userAgent := userAgent.toList
  durationMs := 1
  site := "demo".toList

/-- The time of a line. -/
def logTime : List Char :=
  "01/Jan/2025:00:00:00 +0000".toList

theorem quiet_logTime : Quiet logTime :=
  ⟨by decide, by decide, by decide⟩

theorem plain_browserEntry (uri userAgent : String) :
    PlainEntry (browserEntry uri userAgent) := by
  have quietIp : Quiet "192.0.2.1".toList :=
    ⟨by decide, by decide, by decide⟩
  have quietMethod : Quiet "GET".toList :=
    ⟨by decide, by decide, by decide⟩
  have quietVersion : Quiet "HTTP/1.1".toList :=
    ⟨by decide, by decide, by decide⟩
  have noBlankIp : ' ' ∉ "192.0.2.1".toList := by
    decide
  have noBlankMethod : ' ' ∉ "GET".toList := by
    decide
  have noBlankVersion : ' ' ∉ "HTTP/1.1".toList := by
    decide
  exact ⟨quietIp, quietMethod, quietVersion, noBlankIp, noBlankMethod,
    noBlankVersion⟩

/-- A line with a quote in the user agent is read back. -/
theorem combined_line_with_quote :
    Unforgeable (combinedLine logTime (browserEntry "/" "a\"b"))
      (browserEntry "/" "a\"b") := by
  have cleanUri : CleanField "/".toList :=
    ⟨by decide, fun escapes => absurd escapes (by decide)⟩
  have cleanReferer : CleanField ['-'] :=
    ⟨by decide, fun escapes => absurd escapes (by decide)⟩
  have cleanAgent : CleanField "a\"b".toList := by
    refine ⟨by decide, fun _ char member => ?_⟩
    have isOne : char = 'a' ∨ char = '"' ∨ char = 'b' := by
      simpa using member
    rcases isOne with rfl | rfl | rfl <;> decide
  exact
    (combined_line_unforgeable_iff quiet_logTime
      (plain_browserEntry "/" "a\"b")).1.mpr
        ⟨by decide, cleanUri, cleanReferer, cleanAgent⟩

/-- A backslash and an `n` are written like a line break. -/
theorem backslash_forges_line :
    ¬ ∀ (time : List Char) (entry : AccessLogEntry),
      Quiet time →
        PlainEntry entry →
          Unforgeable (combinedLine time entry) entry ∧
            ∀ other,
              PlainEntry other →
                combinedLine time entry = combinedLine time other →
                  loggedFields entry = loggedFields other := by
  intro claimed
  have sameWritten :
      sanitizeLogField "a\\nb".toList = sanitizeLogField "a\nb".toList := by
    decide
  have sameLine :
      combinedLine logTime (browserEntry "/" "a\\nb") =
        combinedLine logTime (browserEntry "/" "a\nb") := by
    unfold combinedLine
    exact congrArg
      (fun written => _ ++ written ++ "\" ".toList ++ _ ++ "ms".toList)
      sameWritten
  have sameFields :=
    (claimed logTime (browserEntry "/" "a\\nb") quiet_logTime
      (plain_browserEntry _ _)).2 _ (plain_browserEntry _ _) sameLine
  exact absurd sameFields (by decide)

end Sweety.LogReading
