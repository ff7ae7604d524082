import Sweety.BodyIntegrity
import Sweety.LineBreaks
import Sweety.Rfc7230

namespace Sweety.ForwardRequest

open FirstOccurrence HttpText LineBreaks Rfc7230 SegmentedReader

/-!
# The request head as a backend reads it

The head that `send_recv_pooled` writes, whatever the client put into the values
of its headers: a backend reads back exactly the lines that the proxy meant,
finds the empty line at the end only, and takes the body in the coding in which
it is sent.
-/

/-! ## The lines -/

/-- The line of a header that is passed on. -/
def passedLine (header : String × String) : List Char :=
  header.1.toList ++ ": ".toList ++ sanitize header.2.toList

namespace Request

/-- The headers that are passed on. -/
def passedHeaders (request : Request) : List (String × String) :=
  request.extraHeaders.filter fun header => !isOwnHeader header.1.toList

/-- The request line. -/
def requestLine (request : Request) : List Char :=
  request.method.toList ++ ' ' :: request.path.toList ++ " HTTP/1.1".toList

/-- The lines that say how the body is sent. -/
def framingLines (request : Request) : List (List Char) :=
  if request.hasBody then
    (match request.knownContentLength with
      | none =>
          ["Transfer-Encoding: chunked".toList]
      | some length =>
          ["Content-Length: ".toList ++ Nat.toDigits 10 length]) ++
      if request.hasExpectContinue then
        ["Expect: 100-continue".toList]
      else
        []
  else
    []

/-- The lines after the request line. -/
def headerLines (request : Request) : List (List Char) :=
  ("Host: ".toList ++ request.host.toList) ::
    request.passedHeaders.map passedLine ++
    ["X-Real-IP: ".toList ++ sanitize request.clientIp.toList,
      "X-Forwarded-For: ".toList ++ sanitize request.clientIp.toList,
      "X-Forwarded-Proto: ".toList ++ sanitize request.clientProto.toList,
      "Connection: keep-alive".toList] ++
    request.framingLines

/-- All lines of the head. -/
def headLines (request : Request) : List (List Char) :=
  request.requestLine :: request.headerLines

/-- What the head is made of, apart from the values of headers. -/
structure Plain (request : Request) : Prop where
  method : OneLine request.method.toList
  path : OneLine request.path.toList
  host : OneLine request.host.toList
  tokens :
    ∀ header ∈ request.extraHeaders,
      header.1.toList ≠ [] ∧
        ∀ char ∈ header.1.toList, isTokenChar char = true

end Request

/-! ## Sanitising -/

theorem oneLine_append
    {first second : List Char}
    (isFirst : OneLine first)
    (isSecond : OneLine second) :
    OneLine (first ++ second) :=
  ⟨by simp [isFirst.1, isSecond.1], by simp [isFirst.2, isSecond.2]⟩

/-- A byte that is copied as a character is not a line break. -/
theorem copied_ne
    {byte : UInt8}
    (notReturn : byte ≠ 13)
    (notFeed : byte ≠ 10) :
    Char.ofNat byte.toNat ≠ '\r' ∧ Char.ofNat byte.toNat ≠ '\n' := by
  have small := byte.toNat_lt
  have isValid : byte.toNat.isValidChar := .inl (by omega)
  have isCode : (Char.ofNat byte.toNat).toNat = byte.toNat := by
    rw [Char.ofNat, dif_pos isValid]
    rfl
  constructor
  · intro isReturn
    rw [isReturn] at isCode
    exact notReturn (UInt8.toNat_inj.mp isCode.symm)
  · intro isFeed
    rw [isFeed] at isCode
    exact notFeed (UInt8.toNat_inj.mp isCode.symm)

/-- What is left of a value is one line. -/
theorem oneLine_sanitize (text : List Char) :
    OneLine (sanitize text) := by
  unfold sanitize
  split
  case isTrue =>
    have noBreak :
        ∀ char ∈ (encodeUtf8 text).map fun byte =>
            if byte = 13 ∨ byte = 10 then
              ' '
            else
              Char.ofNat byte.toNat,
          char ≠ '\r' ∧ char ≠ '\n' := by
      intro char isChar
      obtain ⟨byte, _, rfl⟩ := List.mem_map.mp isChar
      split
      case isTrue =>
        decide
      case isFalse isOther =>
        exact copied_ne (fun isReturn => isOther (.inl isReturn))
          (fun isFeed => isOther (.inr isFeed))
    exact
      ⟨fun isReturn => (noBreak _ isReturn).1 rfl,
        fun isFeed => (noBreak _ isFeed).2 rfl⟩
  case isFalse noBreak =>
    constructor
    · intro isReturn
      exact noBreak (List.any_eq_true.mpr ⟨_, isReturn, rfl⟩)
    · intro isFeed
      exact noBreak (List.any_eq_true.mpr ⟨_, isFeed, rfl⟩)

/-- One line is written as it is. -/
theorem sanitize_of_oneLine
    {text : List Char}
    (isLine : OneLine text) :
    sanitize text = text := by
  rw [sanitize, if_neg]
  intro breaks
  obtain ⟨char, isChar, isBreak⟩ := List.any_eq_true.mp breaks
  simp only [Bool.or_eq_true, beq_iff_eq] at isBreak
  rcases isBreak with rfl | rfl
  · exact isLine.1 isChar
  · exact isLine.2 isChar

theorem oneLine_of_token
    {name : List Char}
    (token : ∀ char ∈ name, isTokenChar char = true) :
    OneLine name :=
  ⟨fun isReturn => absurd (token _ isReturn) (by decide),
    fun isFeed => absurd (token _ isFeed) (by decide)⟩

/-! ## The head is the block of its lines -/

theorem encodeUtf8_block (lines : List (List Char)) :
    encodeUtf8 (block '\r' '\n' lines) =
      block 13 10 (lines.map encodeUtf8) := by
  have lineEnd : encodeUtf8 ['\r', '\n'] = [13, 10] :=
    rfl
  induction lines with
  | nil =>
      exact lineEnd
  | cons line others inductionHypothesis =>
      have isText :
          block '\r' '\n' (line :: others) =
            line ++ (['\r', '\n'] ++ block '\r' '\n' others) :=
        rfl
      rw [isText, encodeUtf8_append, encodeUtf8_append, lineEnd,
        inductionHypothesis]
      rfl

/-- The bytes of a line of text. -/
theorem isLine_encodeUtf8
    {line : List Char}
    (isLine : OneLine line)
    (nonempty : line ≠ []) :
    IsLine 13 10 (encodeUtf8 line) where
  nonempty isNil := by
    have longer := length_le_encodeUtf8 line
    rw [isNil, List.length_nil, Nat.le_zero, List.length_eq_zero_iff]
      at longer
    exact nonempty longer
  noReturn := by
    apply ascii_not_mem_encodeUtf8 (by decide : 13 < 128)
    intro char isChar isReturn
    have same : char = '\r' := Char.ext (UInt32.toNat_inj.mp isReturn)
    exact isLine.1 (same ▸ isChar)
  noFeed := newline_not_mem_encodeUtf8 isLine.2

namespace Request

variable {request : Request}

/-- The line of a header with a name that is a token. -/
theorem headerLine_eq
    {header : String × String}
    (token : ∀ char ∈ header.1.toList, isTokenChar char = true) :
    headerLine header.1.toList header.2.toList =
      passedLine header ++ ['\r', '\n'] := by
  have sameName := sanitize_of_oneLine (oneLine_of_token token)
  rw [headerLine, sameName, passedLine]
  rfl

theorem flatMap_headerLine
    {headers : List (String × String)}
    (tokens :
      ∀ header ∈ headers,
        ∀ char ∈ header.1.toList, isTokenChar char = true) :
    (headers.flatMap fun header =>
        if isOwnHeader header.1.toList then
          []
        else
          headerLine header.1.toList header.2.toList) =
      ((headers.filter fun header =>
            !isOwnHeader header.1.toList).map passedLine).flatMap
        fun line => line ++ ['\r', '\n'] := by
  induction headers with
  | nil =>
      rfl
  | cons header others inductionHypothesis =>
      obtain ⟨token, otherTokens⟩ := List.forall_mem_cons.mp tokens
      have isRest := inductionHypothesis otherTokens
      by_cases isOwn : isOwnHeader header.1.toList = true
      · simp [isOwn, isRest]
      · simp [isOwn, isRest, headerLine_eq token]

theorem framing_eq (request : Request) :
    request.framing =
      request.framingLines.flatMap fun line => line ++ ['\r', '\n'] := by
  unfold framing framingLines
  cases request.hasBody with
  | false =>
      rfl
  | true =>
      cases request.knownContentLength <;>
        cases request.hasExpectContinue <;>
          simp

/-- The text of the head is the block of its lines. -/
theorem headText_eq
    (tokens :
      ∀ header ∈ request.extraHeaders,
        ∀ char ∈ header.1.toList, isTokenChar char = true) :
    request.headText = block '\r' '\n' request.headLines := by
  have isOwnLine (name value : List Char) (isName : OneLine name) :
      headerLine name value =
        name ++ ": ".toList ++ sanitize value ++ ['\r', '\n'] := by
    rw [headerLine, sanitize_of_oneLine isName]
    rfl
  rw [headText, flatMap_headerLine tokens, framing_eq,
    isOwnLine _ _ ⟨by decide, by decide⟩,
    isOwnLine _ _ ⟨by decide, by decide⟩,
    isOwnLine _ _ ⟨by decide, by decide⟩, block_eq_flatMap]
  simp [headLines, headerLines, requestLine, passedHeaders]

/-! ## Each line is one line -/

theorem oneLine_toDigits (number : Nat) :
    OneLine (Nat.toDigits 10 number) := by
  have areDigits :=
    @isSome_digitValue?_toDigits 10 (by decide) (by decide) number
  exact
    ⟨fun isReturn => absurd (areDigits _ isReturn) (by decide),
      fun isFeed => absurd (areDigits _ isFeed) (by decide)⟩

/-- The line of a header that is passed on is one line. -/
theorem oneLine_passedLine
    {header : String × String}
    (token : ∀ char ∈ header.1.toList, isTokenChar char = true) :
    OneLine (passedLine header) :=
  oneLine_append
    (oneLine_append (oneLine_of_token token) ⟨by decide, by decide⟩)
    (oneLine_sanitize _)

theorem oneLine_framingLines (request : Request) :
    ∀ line ∈ request.framingLines, OneLine line ∧ line ≠ [] := by
  unfold framingLines
  split
  case isTrue =>
    intro line isLine
    rcases List.mem_append.mp isLine with isFirst | isExpect
    · split at isFirst
      all_goals
        obtain rfl := List.mem_singleton.mp isFirst
      · exact ⟨⟨by decide, by decide⟩, by decide⟩
      · refine
          ⟨oneLine_append ⟨by decide, by decide⟩ (oneLine_toDigits _), ?_⟩
        simp
    · split at isExpect
      · obtain rfl := List.mem_singleton.mp isExpect
        exact ⟨⟨by decide, by decide⟩, by decide⟩
      · cases isExpect
  case isFalse =>
    simp

theorem oneLine_headLines (plain : request.Plain) :
    ∀ line ∈ request.headLines, OneLine line ∧ line ≠ [] := by
  have blank : OneLine [' '] := ⟨by decide, by decide⟩
  have isRequestLine : OneLine request.requestLine := by
    have isText :
        request.requestLine =
          request.method.toList ++ ([' '] ++
            (request.path.toList ++ " HTTP/1.1".toList)) := by
      simp [requestLine]
    rw [isText]
    have isEnd := oneLine_append plain.path
      (show OneLine " HTTP/1.1".toList from ⟨by decide, by decide⟩)
    exact oneLine_append plain.method (oneLine_append blank isEnd)
  have isHost : OneLine ("Host: ".toList ++ request.host.toList) :=
    oneLine_append ⟨by decide, by decide⟩ plain.host
  have isOwn (name text : List Char) (isName : OneLine name) :
      OneLine (name ++ sanitize text) :=
    oneLine_append isName (oneLine_sanitize text)
  intro line isLine
  simp only [headLines, headerLines, List.mem_cons, List.mem_append,
    List.mem_map, List.not_mem_nil, or_false] at isLine
  rcases isLine with
    rfl | ((rfl | ⟨header, isPassed, rfl⟩) | rfl | rfl | rfl | rfl) |
      isFraming
  · exact ⟨isRequestLine, by simp [requestLine]⟩
  · exact ⟨isHost, by simp⟩
  · have isHeader := List.mem_of_mem_filter isPassed
    have token := (plain.tokens header isHeader).2
    exact ⟨oneLine_passedLine token, by simp [passedLine]⟩
  · exact ⟨isOwn _ _ ⟨by decide, by decide⟩, by simp⟩
  · exact ⟨isOwn _ _ ⟨by decide, by decide⟩, by simp⟩
  · exact ⟨isOwn _ _ ⟨by decide, by decide⟩, by simp⟩
  · exact ⟨⟨by decide, by decide⟩, by decide⟩
  · exact oneLine_framingLines request line isFraming

/-- The bytes of the head are the block of the bytes of its lines. -/
theorem head_eq (plain : request.Plain) :
    request.head = block 13 10 (request.headLines.map encodeUtf8) := by
  rw [head, headText_eq fun header isHeader =>
    (plain.tokens header isHeader).2, encodeUtf8_block]

theorem isLine_headLines (plain : request.Plain) :
    ∀ line ∈ request.headLines.map encodeUtf8, IsLine 13 10 line := by
  intro bytes isBytes
  obtain ⟨line, isLine, rfl⟩ := List.mem_map.mp isBytes
  obtain ⟨oneLine, nonempty⟩ := oneLine_headLines plain line isLine
  exact isLine_encodeUtf8 oneLine nonempty

end Request

/-! ## What the head says of the body -/

/-- The name of a header line. -/
def lineName (line : List Char) : List Char :=
  line.takeWhile (· != ':')

/-- The lines that a backend takes the end of the body from. -/
def announcements (lines : List (List Char)) : List (List Char) :=
  lines.filter fun line =>
    eqIgnoreAsciiCase (lineName line) "transfer-encoding".toList ||
      eqIgnoreAsciiCase (lineName line) "content-length".toList

/-- A body in the chunked coding. -/
def chunkedBody (chunks : List (List UInt8)) : List UInt8 :=
  ((chunks.filter fun chunk => !chunk.isEmpty).flatMap fun chunk =>
      encodeUtf8 (toHex chunk.length) ++ [13, 10] ++ chunk ++ [13, 10]) ++
    ascii "0\r\n\r\n"

/-- The name of a line is what stands before its first colon. -/
theorem lineName_append
    {name : List Char}
    (noColon : ':' ∉ name)
    (text : List Char) :
    lineName (name ++ ':' :: text) = name := by
  have allOther : ∀ char ∈ name, (char != ':') = true := by
    intro char isChar
    apply bne_iff_ne.mpr
    rintro rfl
    exact noColon isChar
  rw [lineName, List.takeWhile_append_of_pos allOther]
  simp

/-- A line of another name is passed by. -/
theorem announcements_cons_other
    {name : List Char}
    (noColon : ':' ∉ name)
    (notCoding : eqIgnoreAsciiCase name "transfer-encoding".toList = false)
    (notLength : eqIgnoreAsciiCase name "content-length".toList = false)
    (text : List Char)
    (lines : List (List Char)) :
    announcements ((name ++ ':' :: text) :: lines) = announcements lines := by
  simp only [announcements, List.filter_cons, lineName_append noColon,
    notCoding, notLength, Bool.or_self, Bool.false_eq_true, if_false]

/-- The same for a line that begins with the name, a colon and a space. -/
theorem announcements_cons_labelled
    {label name : List Char}
    (isLabel : label = name ++ [':', ' '])
    (noColon : ':' ∉ name)
    (notCoding : eqIgnoreAsciiCase name "transfer-encoding".toList = false)
    (notLength : eqIgnoreAsciiCase name "content-length".toList = false)
    (value : List Char)
    (lines : List (List Char)) :
    announcements ((label ++ value) :: lines) = announcements lines := by
  subst isLabel
  rw [List.append_assoc]
  exact
    announcements_cons_other noColon notCoding notLength (' ' :: value) lines

/-- A line with the length of the body is one of those. -/
theorem announcements_cons_length
    (number : List Char)
    (lines : List (List Char)) :
    announcements (("Content-Length: ".toList ++ number) :: lines) =
      ("Content-Length: ".toList ++ number) :: announcements lines := by
  have isLabel :
      "Content-Length: ".toList = "Content-Length".toList ++ [':', ' '] :=
    rfl
  have isName :
      lineName ("Content-Length: ".toList ++ number) =
        "Content-Length".toList := by
    rw [isLabel, List.append_assoc]
    exact lineName_append (by decide) (' ' :: number)
  have isSame :
      eqIgnoreAsciiCase "Content-Length".toList
        "content-length".toList = true :=
    rfl
  simp only [announcements, List.filter_cons, isName, isSame, Bool.or_true,
    if_true]

/-- A backend that is asked to go on is told nothing of the body by that. -/
theorem announcements_cons_expect (lines : List (List Char)) :
    announcements ("Expect: 100-continue".toList :: lines) =
      announcements lines :=
  @announcements_cons_labelled "Expect: ".toList "Expect".toList rfl
    (by decide) rfl rfl "100-continue".toList lines

namespace Request

variable {request : Request}

theorem announcements_passedLine
    {header : String × String}
    (token : ∀ char ∈ header.1.toList, isTokenChar char = true)
    (passed : isOwnHeader header.1.toList = false)
    (lines : List (List Char)) :
    announcements (passedLine header :: lines) = announcements lines := by
  have noColon : ':' ∉ header.1.toList := fun isColon =>
    absurd (token _ isColon) (by decide)
  simp only [isOwnHeader, Bool.or_eq_false_iff] at passed
  have isText :
      passedLine header =
        header.1.toList ++ ':' :: ' ' :: sanitize header.2.toList := by
    simp [passedLine]
  rw [isText, announcements_cons_other noColon passed.1.2 passed.1.1]

/-- Headers that are passed on say nothing of the body. -/
theorem announcements_passedHeaders
    (tokens :
      ∀ header ∈ request.extraHeaders,
        ∀ char ∈ header.1.toList, isTokenChar char = true)
    (lines : List (List Char)) :
    announcements (request.passedHeaders.map passedLine ++ lines) =
      announcements lines := by
  have passed :
      ∀ header ∈ request.passedHeaders,
        header ∈ request.extraHeaders ∧
          isOwnHeader header.1.toList = false := by
    intro header isPassed
    obtain ⟨isHeader, notOwn⟩ := List.mem_filter.mp isPassed
    exact ⟨isHeader, by simpa using notOwn⟩
  generalize request.passedHeaders = headers at passed ⊢
  induction headers with
  | nil =>
      rfl
  | cons header others inductionHypothesis =>
      obtain ⟨⟨isHeader, notOwn⟩, arePassed⟩ :=
        List.forall_mem_cons.mp passed
      rw [List.map_cons, List.cons_append,
        announcements_passedLine (tokens header isHeader) notOwn,
        inductionHypothesis arePassed]

/-- The line that the end of the body is taken from, if there is a body. -/
def announcement? (request : Request) : List (List Char) :=
  if request.hasBody then
    match request.knownContentLength with
    | none =>
        ["Transfer-Encoding: chunked".toList]
    | some length =>
        ["Content-Length: ".toList ++ Nat.toDigits 10 length]
  else
    []

theorem announcements_framingLines :
    announcements request.framingLines = request.announcement? := by
  unfold framingLines announcement?
  cases request.hasBody with
  | false =>
      rfl
  | true =>
      cases request.knownContentLength with
      | none =>
          cases request.hasExpectContinue <;> rfl
      | some length =>
          cases request.hasExpectContinue with
          | false =>
              exact announcements_cons_length (Nat.toDigits 10 length) []
          | true =>
              refine
                (announcements_cons_length (Nat.toDigits 10 length) _).trans ?_
              exact congrArg _ (announcements_cons_expect [])

/-- The head has one line about the body, if there is one. -/
theorem announcements_headerLines
    (tokens :
      ∀ header ∈ request.extraHeaders,
        ∀ char ∈ header.1.toList, isTokenChar char = true) :
    announcements request.headerLines = request.announcement? := by
  have isHost :=
    @announcements_cons_labelled "Host: ".toList "Host".toList rfl
      (by decide) rfl rfl
  have isRealIp :=
    @announcements_cons_labelled "X-Real-IP: ".toList "X-Real-IP".toList rfl
      (by decide) rfl rfl
  have isForwardedFor :=
    @announcements_cons_labelled "X-Forwarded-For: ".toList
      "X-Forwarded-For".toList rfl (by decide) rfl rfl
  have isForwardedProto :=
    @announcements_cons_labelled "X-Forwarded-Proto: ".toList
      "X-Forwarded-Proto".toList rfl (by decide) rfl rfl
  have isConnection (lines : List (List Char)) :
      announcements ("Connection: keep-alive".toList :: lines) =
        announcements lines :=
    @announcements_cons_labelled "Connection: ".toList "Connection".toList rfl
      (by decide) rfl rfl "keep-alive".toList lines
  rw [headerLines, List.cons_append, List.cons_append, List.append_assoc,
    isHost, announcements_passedHeaders tokens, List.cons_append, isRealIp,
    List.cons_append, isForwardedFor, List.cons_append, isForwardedProto,
    List.cons_append, isConnection, List.nil_append,
    announcements_framingLines]

end Request

/-! ## The whole head -/

/--
A backend reads the head as it was meant: it gets the lines that the proxy
wrote, whatever follows them, and takes the body in the coding that it is sent
in.
-/
structure ReadsAsMeant (request : Request) : Prop where
  lines :
    ∀ rest,
      readBlock? 13 10 (request.head ++ rest) =
        some (request.headLines.map encodeUtf8, rest)
  blankLine :
    ∀ index,
      StandsAt [13, 10, 13, 10] request.head index →
        index + 4 = request.head.length
  oneAnnouncement : (announcements request.headerLines).length ≤ 1
  bodiless :
    request.hasBody = false → announcements request.headerLines = []
  piped :
    ∀ chunks conn after,
      request.hasBody = true →
      pipeRequestBody request.useChunked (wholeBody chunks) conn =
        (none, after) →
      (announcements request.headerLines =
          ["Transfer-Encoding: chunked".toList] ∧
        after.sent = conn.sent ++ chunkedBody chunks) ∨
      ∃ length,
        announcements request.headerLines =
          ["Content-Length: ".toList ++ Nat.toDigits 10 length] ∧
        after.sent = conn.sent ++ chunks.flatten

theorem encodedBody_chunked (chunks : List (List UInt8)) :
    encodedBody true chunks = chunkedBody chunks := by
  induction chunks with
  | nil =>
      rfl
  | cons chunk others inductionHypothesis =>
      cases chunk with
      | nil =>
          exact inductionHypothesis
      | cons byte shorter =>
          have isFirst :
              (chunkWrites true (byte :: shorter)).flatten =
                encodeUtf8 (toHex (byte :: shorter).length) ++ [13, 10] ++
                  (byte :: shorter) ++ [13, 10] := by
            have lineEnd : ascii "\r\n" = [13, 10] :=
              rfl
            simp [chunkWrites, lineEnd]
          have isRest :
              chunkedBody ((byte :: shorter) :: others) =
                encodeUtf8 (toHex (byte :: shorter).length) ++ [13, 10] ++
                  (byte :: shorter) ++ [13, 10] ++ chunkedBody others := by
            simp [chunkedBody]
          rw [encodedBody, bodyWrites_cons, List.flatten_append, isFirst,
            isRest, ← inductionHypothesis, encodedBody]

theorem encodedBody_plain (chunks : List (List UInt8)) :
    encodedBody false chunks = chunks.flatten := by
  induction chunks with
  | nil =>
      rfl
  | cons chunk others inductionHypothesis =>
      cases chunk with
      | nil =>
          exact inductionHypothesis
      | cons byte shorter =>
          rw [encodedBody, bodyWrites_cons, List.flatten_append,
            ← encodedBody, inductionHypothesis]
          simp [chunkWrites]

/-- The body is piped in the coding that the head says. -/
theorem sent_pipeRequestBody
    {request : Request}
    {chunks : List (List UInt8)}
    {conn after : Conn}
    (hasBody : request.hasBody = true)
    (piped :
      pipeRequestBody request.useChunked (wholeBody chunks) conn =
        (none, after)) :
    (request.announcement? = ["Transfer-Encoding: chunked".toList] ∧
      after.sent = conn.sent ++ chunkedBody chunks) ∨
    ∃ length,
      request.announcement? =
        ["Content-Length: ".toList ++ Nat.toDigits 10 length] ∧
      after.sent = conn.sent ++ chunks.flatten := by
  obtain ⟨others, sameBody, _, rfl⟩ := pipeRequestBody_done piped
  obtain rfl := wholeBody_injective sameBody
  have isSent :
      (conn.wrote (bodyWrites request.useChunked chunks)).sent =
        conn.sent ++ encodedBody request.useChunked chunks :=
    rfl
  rw [isSent, Request.announcement?, if_pos hasBody]
  cases isLength : request.knownContentLength with
  | none =>
      have chunked : request.useChunked = true := by
        simp [Request.useChunked, hasBody, isLength]
      left
      rw [chunked, encodedBody_chunked]
      exact ⟨rfl, rfl⟩
  | some length =>
      have notChunked : request.useChunked = false := by
        simp [Request.useChunked, isLength]
      right
      rw [notChunked, encodedBody_plain]
      exact ⟨length, rfl, rfl⟩

/-- A value with a whole request in it. -/
def smuggling : Request where
  method := "POST"
  path := "/upload"
  host := "a.example"
  extraHeaders :=
    [("X-Note", "1\r\nContent-Length: 0\r\n\r\nGET /admin HTTP/1.1"),
      ("Content-Length", "5")]
  clientIp := "10.0.0.9"
  clientProto := "http"

end Sweety.ForwardRequest
