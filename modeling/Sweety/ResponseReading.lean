import Sweety.Rfc7230
import Sweety.UpstreamResponse

namespace Sweety.UpstreamResponse

open HttpText SegmentedReader Rfc7230

/-!
# How well-formed responses are read

One specification for each reading function: what it returns, and what it leaves
in the reader, when the reader holds the bytes of a well-formed part of a
response, in whatever segments they come.
-/

variable
  {reader : Reader}
  {rest : List UInt8}
  {back : List (Event IoError)}

/-! ## Lines -/

/-- A line that is held is read, up to and including its newline. -/
theorem readTextLine_spec
    {line : List Char}
    (holds : Holds reader (encodeUtf8 (line ++ crlf) ++ rest) back)
    (oneLine : '\n' ∉ line) :
    ∃ after,
      readTextLine reader = (.ok (line ++ crlf), after) ∧
        Holds after rest back := by
  have split :
      encodeUtf8 (line ++ crlf) ++ rest =
        encodeUtf8 (line ++ ['\r']) ++ newline :: rest := by
    simp [encodeUtf8, crlf, newline, String.utf8EncodeChar]
  have noNewline : '\n' ∉ line ++ ['\r'] := by
    simp [oneLine]
  rw [split] at holds
  obtain ⟨after, isRead, held⟩ :=
    readLine_spec [] holds (newline_not_mem_encodeUtf8 noNewline)
  refine ⟨after, ?_, held⟩
  have isLine :
      [] ++ encodeUtf8 (line ++ ['\r']) ++ [newline] =
        encodeUtf8 (line ++ crlf) := by
    simp [encodeUtf8, crlf, newline, String.utf8EncodeChar]
  rw [readTextLine, isRead, isLine]
  simp only [decodeUtf8_encodeUtf8]

/-- A line that is held is skipped. -/
theorem skipLine_spec
    {line : List Char}
    (holds : Holds reader (encodeUtf8 (line ++ crlf) ++ rest) back)
    (oneLine : '\n' ∉ line) :
    ∃ after, skipLine reader = some after ∧ Holds after rest back := by
  obtain ⟨after, isLine, held⟩ := readTextLine_spec holds oneLine
  exact ⟨after, by simp [skipLine, isLine], held⟩

/-- The blank line is trimmed to nothing. -/
theorem trim_crlf : trim crlf = [] := by
  decide

/-! ## The head -/

/-- The characters of a token are visible. -/
theorem visible_of_isTokenChar
    {char : Char}
    (isToken : isTokenChar char = true) :
    32 < char.toNat ∧ char.toNat < 127 := by
  unfold isTokenChar at isToken
  rcases Bool.or_eq_true_iff.mp isToken with alphanum | punctuation
  · have ranges :
        ((char.val ≥ 'A'.val ∧ char.val ≤ 'Z'.val : Bool) ||
            (char.val ≥ 'a'.val && char.val ≤ 'z'.val) ||
          (char.val ≥ '0'.val && char.val ≤ '9'.val)) = true :=
      alphanum
    simp [UInt32.le_iff_toNat_le] at ranges
    omega
  · have all :
        "!#$%&'*+-.^_`|~".toList.all
          (fun mark => 32 < mark.toNat ∧ mark.toNat < 127) = true := by
      decide
    exact of_decide_eq_true
      (List.all_eq_true.mp all char (List.contains_iff_mem.mp punctuation))

theorem isWhitespace_of_visible
    {char : Char}
    (visible : 32 < char.toNat ∧ char.toNat < 127) :
    isWhitespace char = false := by
  unfold isWhitespace
  simp
  omega

/-- A field is not mistaken for the blank line. -/
theorem trim_fieldLine_ne_nil (field : Field) :
    trim field.line ≠ [] := by
  intro blank
  obtain ⟨first, others, isName⟩ :=
    List.exists_cons_of_ne_nil field.nonempty
  have inName : first ∈ field.name := by
    rw [isName]
    exact List.mem_cons_self
  have space :=
    trim_eq_nil_iff.mp blank first (by simp [Field.line, inName])
  rw [isWhitespace_of_visible
    (visible_of_isTokenChar (field.token first inName))] at space
  cases space

/-- One pass of the header loop, for a line that is not blank. -/
def ResponseHead.addRawLine
    (head : ResponseHead)
    (line : List Char) :
    ResponseHead :=
  if respMaxLineLen < byteLength line then
    { head with headerCount := head.headerCount + 1 }
  else
    head.addLine (trim line)

/-- The header loop over all fields of a head. -/
def ResponseHead.addFields
    (head : ResponseHead)
    (fields : List Field) :
    ResponseHead :=
  fields.foldl (fun head field => head.addRawLine field.line) head

theorem headerCount_addRawLine_le
    (head : ResponseHead)
    (line : List Char) :
    (head.addRawLine line).headerCount ≤ head.headerCount + 1 := by
  unfold ResponseHead.addRawLine
  split
  · exact Nat.le_refl _
  · unfold ResponseHead.addLine
    split
    · exact Nat.le_succ _
    · exact Nat.le_refl _

theorem newline_not_mem_field
    (field : Field) :
    '\n' ∉ field.name ++ ':' :: field.text := by
  intro member
  rcases List.mem_append.mp member with inName | inText
  · have visible := visible_of_isTokenChar (field.token _ inName)
    exact absurd visible.1 (by decide)
  · rcases List.mem_cons.mp inText with isColon | inText
    · exact absurd isColon (by decide)
    · exact field.oneLine.2 inText

section HeaderLoop

variable
  {head : ResponseHead}
  {after : Reader}
  {line : List Char}

/-- One pass of the header loop. -/
theorem readHeaders_step
    (below : ¬ respMaxHeaders ≤ head.headerCount)
    (isLine : readTextLine reader = (.ok line, after)) :
    readHeaders head reader =
      if respMaxLineLen < byteLength line then
        readHeaders
          { head with headerCount := head.headerCount + 1 } after
      else if trim line = [] then
        (.ok head, after)
      else
        readHeaders (head.addLine (trim line)) after := by
  simp only [readHeaders_eq head reader, if_neg below, isLine]

theorem readHeaders_of_field
    (below : ¬ respMaxHeaders ≤ head.headerCount)
    (isLine : readTextLine reader = (.ok line, after))
    (notBlank : trim line ≠ []) :
    readHeaders head reader =
      readHeaders (head.addRawLine line) after := by
  rw [readHeaders_step below isLine, if_neg notBlank,
    ResponseHead.addRawLine]
  split <;> rfl

theorem readHeaders_of_blank
    (below : ¬ respMaxHeaders ≤ head.headerCount)
    (isLine : readTextLine reader = (.ok crlf, after)) :
    readHeaders head reader = (.ok head, after) := by
  have short : ¬ respMaxLineLen < byteLength crlf := by
    decide
  rw [readHeaders_step below isLine, if_neg short, if_pos trim_crlf]

end HeaderLoop

/-- The first field is the first line of what is written. -/
theorem encodeUtf8_fields (field : Field) (others : List Field) :
    encodeUtf8 ((field :: others).flatMap Field.line ++ crlf) =
      encodeUtf8 (field.name ++ ':' :: field.text ++ crlf) ++
        encodeUtf8 (others.flatMap Field.line ++ crlf) := by
  rw [← encodeUtf8_append]
  simp [Field.line]

/-- The header loop reads all fields and the blank line, if they are few. -/
theorem readHeaders_spec
    (fields : List Field)
    (head : ResponseHead)
    (holds :
      Holds reader
        (encodeUtf8 (fields.flatMap Field.line ++ crlf) ++ rest) back)
    (few : head.headerCount + fields.length < respMaxHeaders) :
    ∃ after,
      readHeaders head reader = (.ok (head.addFields fields), after) ∧
        Holds after rest back := by
  have below : ¬ respMaxHeaders ≤ head.headerCount := by
    omega
  induction fields generalizing head reader with
  | nil =>
      have blank :
          Holds reader (encodeUtf8 ([] ++ crlf) ++ rest) back :=
        holds
      obtain ⟨after, isLine, held⟩ := readTextLine_spec blank (by simp)
      exact ⟨after, readHeaders_of_blank below isLine, held⟩
  | cons field others inductionHypothesis =>
      rw [encodeUtf8_fields, List.append_assoc] at holds
      obtain ⟨middle, isLine, held⟩ :=
        readTextLine_spec holds (newline_not_mem_field field)
      have oneMore := headerCount_addRawLine_le head field.line
      rw [List.length_cons] at few
      obtain ⟨after, isHead, finallyHeld⟩ :=
        inductionHypothesis (head.addRawLine field.line) held
          (by omega) (by omega)
      refine ⟨after, ?_, finallyHeld⟩
      rw [readHeaders_of_field below isLine
        (trim_fieldLine_ne_nil field)]
      exact isHead

/-! ## The status line -/

theorem digitValue?_digitChar :
    ∀ digit < 10, digitValue? 10 (Nat.digitChar digit) = some digit := by
  decide

/-- The digits of a status code parse to it. -/
theorem parseU16?_statusDigits
    {status : Nat}
    (threeDigits : 100 ≤ status ∧ status < 1000) :
    parseU16? (statusDigits status) = some status := by
  obtain ⟨low, high⟩ := threeDigits
  have hundreds := digitValue?_digitChar (status / 100) (by omega)
  have tens := digitValue?_digitChar (status / 10 % 10) (by omega)
  have ones := digitValue?_digitChar (status % 10) (by omega)
  have value : foldDigits 10 0 (statusDigits status) = status := by
    simp only [foldDigits, statusDigits, List.foldl_cons,
      List.foldl_nil, hundreds, tens, ones, Option.getD_some]
    omega
  have digits :
      ∀ char ∈ statusDigits status,
        (digitValue? 10 char).isSome = true := by
    simp [statusDigits, hundreds, tens, ones]
  have nonempty : statusDigits status ≠ [] :=
    List.cons_ne_nil _ _
  have fits : foldDigits 10 0 (statusDigits status) < 2 ^ 16 := by
    omega
  rw [parseU16?,
    fromStrRadix?_eq_some (by decide) nonempty digits fits, value]

/-- The code of a status line. -/
theorem parseStatusCode_statusLine (head : Head) :
    parseStatusCode head.statusLine = head.status := by
  have visibleDigit :
      ∀ digit < 10, isWhitespace (Nat.digitChar digit) = false := by
    decide
  have minorVisible : isWhitespace head.minor = false := by
    apply isWhitespace_of_visible
    have isDigit := head.minorDigit
    simp [Char.isDigit, UInt32.le_iff_toNat_le] at isDigit
    omega
  obtain ⟨low, high⟩ := head.threeDigits
  have words :
      head.statusLine =
        (protocol ++ [head.minor]) ++
          ' ' :: (statusDigits head.status ++
            ' ' :: (head.reason ++ crlf)) := by
    simp [Head.statusLine]
  have protocolVisible :
      ∀ char ∈ protocol ++ [head.minor], isWhitespace char = false := by
    intro char member
    have fixed : protocol.any isWhitespace = false := by
      decide
    rcases List.mem_append.mp member with inProtocol | isMinor
    · exact Bool.eq_false_iff.mpr
        (List.any_eq_false.mp fixed char inProtocol)
    · rw [List.mem_singleton.mp isMinor]
      exact minorVisible
  have digitsVisible :
      ∀ char ∈ statusDigits head.status, isWhitespace char = false := by
    have hundreds := visibleDigit (head.status / 100) (by omega)
    have tens := visibleDigit (head.status / 10 % 10) (by omega)
    have ones := visibleDigit (head.status % 10) (by omega)
    simp [statusDigits, hundreds, tens, ones]
  have second :
      (splitWhitespace head.statusLine)[1]? =
        some (statusDigits head.status) := by
    rw [splitWhitespace, words,
      List.splitOnP_append_cons_of_forall_mem protocolVisible ' ' rfl,
      List.splitOnP_append_cons_of_forall_mem digitsVisible ' ' rfl]
    simp [statusDigits]
  rw [parseStatusCode, second]
  simp [parseU16?_statusDigits head.threeDigits]

/-! ## Chunk sizes -/

/-- Where the hexadecimal digits are. -/
theorem range_of_hexDigit
    {char : Char}
    (isDigit : (digitValue? 16 char).isSome = true) :
    (48 ≤ char.toNat ∧ char.toNat ≤ 57) ∨
      (97 ≤ char.toNat ∧ char.toNat ≤ 102) ∨
      (65 ≤ char.toNat ∧ char.toNat ≤ 70) := by
  have bounds (low high : Char) (within : low ≤ char ∧ char ≤ high) :
      low.toNat ≤ char.toNat ∧ char.toNat ≤ high.toNat :=
    within
  unfold digitValue? at isDigit
  split at isDigit
  · rename_i within
    exact .inl (bounds '0' '9' within)
  · split at isDigit
    · rename_i within
      exact .inr (.inl (bounds 'a' 'f' within))
    · split at isDigit
      · rename_i within
        exact .inr (.inr (bounds 'A' 'F' within))
      · cases isDigit

/-- What is left of a size line when its end is trimmed. -/
theorem takeWhile_trim_line (sizeLine : SizeLine) :
    (trim sizeLine.line).takeWhile (· != ';') = sizeLine.digits := by
  have visible :
      ∀ char ∈ sizeLine.digits, isWhitespace char = false := by
    intro char member
    have range := range_of_hexDigit (sizeLine.hexadecimal char member)
    apply isWhitespace_of_visible
    omega
  have noSemicolon :
      ∀ char ∈ sizeLine.digits, (char != ';') = true := by
    intro char member
    have range := range_of_hexDigit (sizeLine.hexadecimal char member)
    rw [bne_iff_ne]
    rintro rfl
    exact absurd range (by decide)
  rw [SizeLine.line, List.append_assoc,
    trim_append sizeLine.nonempty visible,
    List.takeWhile_append_of_pos noSemicolon, List.append_right_eq_self]
  rcases sizeLine.semicolon with none | some
  · rw [none]
    decide
  · obtain ⟨others, isExtension⟩ :
        ∃ others, sizeLine.extensions = ';' :: others := by
      cases isList : sizeLine.extensions with
      | nil =>
          rw [isList] at some
          cases some
      | cons first others =>
          rw [isList] at some
          rw [Option.some.inj some]
          exact ⟨others, rfl⟩
    have kept :=
      List.rdropWhile_prefix isWhitespace
        (l := ';' :: (others ++ crlf))
    rw [isExtension, List.cons_append]
    cases isKept :
        (';' :: (others ++ crlf)).rdropWhile isWhitespace with
    | nil =>
        rfl
    | cons first more =>
        rw [isKept, List.cons_prefix_cons] at kept
        rw [kept.1]
        rfl

/-- A size line announces its size. -/
theorem chunkSize_line
    {sizeLine : SizeLine}
    (fits : sizeLine.size < 2 ^ 64) :
    chunkSize sizeLine.line = sizeLine.size := by
  rw [chunkSize, takeWhile_trim_line, parseHex?,
    fromStrRadix?_eq_some (by decide) sizeLine.nonempty
      sizeLine.hexadecimal fits]
  rfl

theorem newline_not_mem_sizeLine (sizeLine : SizeLine) :
    '\n' ∉ sizeLine.digits ++ sizeLine.extensions := by
  intro member
  rcases List.mem_append.mp member with inDigits | inExtensions
  · have range := range_of_hexDigit (sizeLine.hexadecimal _ inDigits)
    exact absurd range (by decide)
  · exact sizeLine.oneLine.2 inExtensions

/-- A size line that is held is read. -/
theorem readTextLine_sizeLine
    (sizeLine : SizeLine)
    (holds : Holds reader (encodeUtf8 sizeLine.line ++ rest) back) :
    ∃ after,
      readTextLine reader = (.ok sizeLine.line, after) ∧
        Holds after rest back :=
  readTextLine_spec holds (newline_not_mem_sizeLine sizeLine)

theorem sizeLine_ne_nil (sizeLine : SizeLine) :
    sizeLine.line ≠ [] := by
  simp [SizeLine.line, crlf]

/-! ## Bodies of a given length -/

/-- A body of the announced length is read whole. -/
theorem readExactBody_spec
    (bytes : List UInt8)
    (holds : Holds reader (bytes ++ rest) back)
    (fits : bytes.length ≤ bufferedMaxBody) :
    ∃ after,
      readExactBody bytes.length reader = (.ok bytes [], after) ∧
        Holds after rest back := by
  obtain ⟨after, isRead, held⟩ :=
    readLoop_spec bytes rest [] holds (by decide : 0 < 65536)
  refine ⟨after, ?_, held⟩
  rw [readExactBody, Nat.min_eq_left fits, isRead]
  rfl

/-- It is also streamed whole, unless the client leaves. -/
theorem streamLength_spec
    (receives : Nat → Bool)
    (bytes : List UInt8)
    (pieces : Pieces)
    (holds : Holds reader (bytes ++ rest) back) :
    ∃ sent after ok,
      streamLength receives bytes.length pieces reader =
          (sent, .ended ok, after) ∧
        (ok = true → Holds after rest back) := by
  revert pieces
  refine Holds.part_induction
    (motive := fun bytes reader =>
      ∀ pieces,
        ∃ sent after ok,
          streamLength receives bytes.length pieces reader =
              (sent, .ended ok, after) ∧
            (ok = true → Holds after rest back))
    (by decide : 0 < streamChunk) ?_ ?_ holds
  · intro reader held pieces
    refine ⟨pieces, reader, true, ?_, fun _ => held⟩
    rw [streamLength, if_pos List.length_nil]
  · intro first others later reader middle isRead inductionHypothesis pieces
    rw [streamLength, if_neg (by simp), isRead]
    dsimp only
    split
    · rw [length_sub_of_append]
      exact inductionHypothesis (pieces ++ [.ok (first :: others)])
    · exact ⟨pieces, middle, false, rfl, nofun⟩

/-! ## Chunked bodies on the buffered path -/

section Buffered

variable
  {collectTrailers : Bool}
  {body : List UInt8}
  {line : List Char}
  {after : Reader}

/-- One pass of the loop over chunks, for a chunk that is read whole. -/
theorem readChunkedBody_of_chunk
    {bytes : List UInt8}
    {afterData next : Reader}
    (isLine : readTextLine reader = (.ok line, after))
    (nonempty : line ≠ [])
    (short : ¬ maxSizeLine < byteLength line)
    (more : chunkSize line ≠ 0)
    (fits :
      ¬ (chunkedMaxChunk < chunkSize line ∨
        chunkedMaxBody < body.length + chunkSize line))
    (isData :
      readLoop (chunkSize line) (chunkSize line) [] after =
        (.full bytes, afterData))
    (skipped : skipLine afterData = some next) :
    readChunkedBody collectTrailers body reader =
      readChunkedBody collectTrailers (body ++ bytes) next := by
  rw [readChunkedBody_eq]
  simp only [isLine, isData, skipped, if_neg nonempty, if_neg short,
    if_neg more, if_neg fits]

/-- The last pass, for the chunk of size 0. -/
theorem readChunkedBody_of_last
    (isLine : readTextLine reader = (.ok line, after))
    (nonempty : line ≠ [])
    (short : ¬ maxSizeLine < byteLength line)
    (last : chunkSize line = 0) :
    readChunkedBody collectTrailers body reader =
      readChunkedEnd collectTrailers body after := by
  rw [readChunkedBody_eq]
  simp only [isLine, if_neg nonempty, if_neg short, if_pos last]

/-- One pass of the trailer loop. -/
theorem readTrailers_step
    {trailers : List (List Char × List Char)}
    (below : ¬ chunkedMaxTrailers ≤ trailers.length)
    (isLine : readTextLine reader = (.ok line, after)) :
    readTrailers trailers reader =
      if trim line = [] then
        (some trailers, after)
      else
        match splitOnce? ':' (trim line) with
        | none =>
            readTrailers trailers after
        | some (name, value) =>
            readTrailers (trailers ++ [(trim name, trim value)])
              after := by
  have unfolded := readTrailers_eq trailers reader
  rw [if_neg below, isLine] at unfolded
  exact unfolded

end Buffered

/-- The size that is read off a chunk. -/
theorem chunkSize_chunk
    {chunk : Chunk}
    (fits : chunk.data.length < 2 ^ 64) :
    chunkSize chunk.sizeLine.line = chunk.data.length := by
  rw [← chunk.exact] at fits ⊢
  exact chunkSize_line fits

/-- The limits of the buffered path on a single chunk. -/
def BufferedChunk (chunk : Chunk) : Prop :=
  byteLength chunk.sizeLine.line ≤ maxSizeLine ∧
    chunk.data.length ≤ chunkedMaxChunk

/-- The data of some chunks, in order. -/
def chunksData (chunks : List Chunk) : List UInt8 :=
  chunks.flatMap Chunk.data

/-- Chunks within the limits are read one by one. -/
theorem readChunkedBody_chunks
    (collectTrailers : Bool)
    (chunks : List Chunk)
    (body : List UInt8)
    (holds : Holds reader (chunks.flatMap Chunk.bytes ++ rest) back)
    (within : ∀ chunk ∈ chunks, BufferedChunk chunk)
    (fits :
      body.length + (chunksData chunks).length ≤ chunkedMaxBody) :
    ∃ after,
      readChunkedBody collectTrailers body reader =
          readChunkedBody collectTrailers (body ++ chunksData chunks)
            after ∧
        Holds after rest back := by
  induction chunks generalizing body reader with
  | nil =>
      refine ⟨reader, ?_, holds⟩
      rw [chunksData, List.flatMap_nil, List.append_nil]
  | cons chunk others inductionHypothesis =>
      obtain ⟨short, small⟩ := within chunk List.mem_cons_self
      have size : chunkSize chunk.sizeLine.line = chunk.data.length :=
        chunkSize_chunk (Nat.lt_of_le_of_lt small (by decide))
      have total :
          (chunksData (chunk :: others)).length =
            chunk.data.length + (chunksData others).length := by
        simp [chunksData]
      have positive := List.length_pos_iff.mpr chunk.nonempty
      simp only [List.flatMap_cons, Chunk.bytes,
        List.append_assoc] at holds
      obtain ⟨afterLine, isLine, lineHeld⟩ :=
        readTextLine_sizeLine chunk.sizeLine holds
      obtain ⟨afterData, isData, dataHeld⟩ :=
        readLoop_spec chunk.data _ [] lineHeld positive
      have blank :
          Holds afterData
            (encodeUtf8 ([] ++ crlf) ++
              (others.flatMap Chunk.bytes ++ rest)) back :=
        dataHeld
      obtain ⟨next, skipped, nextHeld⟩ := skipLine_spec blank (by simp)
      obtain ⟨after, goesOn, finallyHeld⟩ :=
        inductionHypothesis (body ++ chunk.data) nextHeld
          (fun other member =>
            within other (List.mem_cons_of_mem chunk member))
          (by rw [List.length_append]; omega)
      refine ⟨after, ?_, finallyHeld⟩
      have oneChunk :
          readChunkedBody collectTrailers body reader =
            readChunkedBody collectTrailers (body ++ chunk.data)
              next := by
        apply readChunkedBody_of_chunk isLine
          (sizeLine_ne_nil chunk.sizeLine)
        · exact Nat.not_lt.mpr short
        · rw [size]
          exact Nat.ne_of_gt positive
        · rw [size]
          omega
        · rw [size]
          exact isData
        · exact skipped
      rw [oneChunk, goesOn, List.append_assoc]
      rfl

/-- Few trailers are read up to and including the blank line. -/
theorem readTrailers_spec
    (fields : List Field)
    (trailers : List (List Char × List Char))
    (holds :
      Holds reader
        (encodeUtf8 (fields.flatMap Field.line ++ crlf) ++ rest) back)
    (few : trailers.length + fields.length < chunkedMaxTrailers) :
    ∃ all after,
      readTrailers trailers reader = (some all, after) ∧
        Holds after rest back := by
  induction fields generalizing trailers reader with
  | nil =>
      have blank :
          Holds reader (encodeUtf8 ([] ++ crlf) ++ rest) back :=
        holds
      obtain ⟨after, isLine, held⟩ := readTextLine_spec blank (by simp)
      refine ⟨trailers, after, ?_, held⟩
      rw [readTrailers_step (Nat.not_le.mpr few) isLine]
      exact if_pos trim_crlf
  | cons field others inductionHypothesis =>
      rw [encodeUtf8_fields, List.append_assoc] at holds
      obtain ⟨middle, isLine, held⟩ :=
        readTextLine_spec holds (newline_not_mem_field field)
      rw [List.length_cons] at few
      have notBlank :
          trim (field.name ++ ':' :: field.text ++ crlf) ≠ [] :=
        trim_fieldLine_ne_nil field
      rw [readTrailers_step (by omega) isLine, if_neg notBlank]
      split
      · exact inductionHypothesis trailers held (by omega)
      · apply inductionHypothesis _ held
        rw [List.length_append, List.length_singleton]
        omega

/-- The trailers that a decoder reads to their end. -/
def TrailersRead (collectTrailers : Bool) (trailers : List Field) : Prop :=
  if collectTrailers then
    trailers.length < chunkedMaxTrailers
  else
    trailers = []

/-- The end of a chunked body is read up to and including the blank line. -/
theorem readChunkedEnd_spec
    {collectTrailers : Bool}
    {trailers : List Field}
    (body : List UInt8)
    (holds :
      Holds reader
        (encodeUtf8 (trailers.flatMap Field.line ++ crlf) ++ rest) back)
    (areRead : TrailersRead collectTrailers trailers) :
    ∃ all after,
      readChunkedEnd collectTrailers body reader =
          (.ok body all, after) ∧
        Holds after rest back := by
  cases collectTrailers with
  | true =>
      have few : ([] : List (List Char × List Char)).length +
          trailers.length < chunkedMaxTrailers := by
        rw [List.length_nil, Nat.zero_add]
        exact areRead
      obtain ⟨all, after, isRead, held⟩ :=
        readTrailers_spec trailers [] holds few
      refine ⟨all, after, ?_, held⟩
      simp only [readChunkedEnd, isRead, ↓reduceIte]
  | false =>
      have none : trailers = [] := areRead
      subst none
      have blank :
          Holds reader (encodeUtf8 ([] ++ crlf) ++ rest) back :=
        holds
      obtain ⟨after, skipped, held⟩ := skipLine_spec blank (by simp)
      refine ⟨[], after, ?_, held⟩
      simp only [readChunkedEnd, skipped, Bool.false_eq_true, ↓reduceIte]

/-- A chunked body within the limits of the buffered path. -/
structure BufferedChunks
    (collectTrailers : Bool)
    (body : ChunkedBody) :
    Prop where
  chunks : ∀ chunk ∈ body.chunks, BufferedChunk chunk
  fits : (chunksData body.chunks).length ≤ chunkedMaxBody
  last : byteLength body.last.line ≤ maxSizeLine
  trailers : TrailersRead collectTrailers body.trailers

/-- A chunked body within the limits is read whole, to its end. -/
theorem readChunkedBody_spec
    {collectTrailers : Bool}
    {body : ChunkedBody}
    (holds : Holds reader (body.bytes ++ rest) back)
    (within : BufferedChunks collectTrailers body) :
    ∃ all after,
      readChunkedBody collectTrailers [] reader =
          (.ok (chunksData body.chunks) all, after) ∧
        Holds after rest back := by
  rw [ChunkedBody.bytes, encodeUtf8_append, encodeUtf8_append] at holds
  simp only [List.append_assoc] at holds
  obtain ⟨afterChunks, goesOn, chunksHeld⟩ :=
    readChunkedBody_chunks collectTrailers body.chunks [] holds
      within.chunks (by simpa using within.fits)
  obtain ⟨afterLine, isLine, lineHeld⟩ :=
    readTextLine_sizeLine body.last chunksHeld
  rw [← List.append_assoc, ← encodeUtf8_append] at lineHeld
  obtain ⟨all, after, isEnd, held⟩ :=
    readChunkedEnd_spec (chunksData body.chunks) lineHeld
      within.trailers
  refine ⟨all, after, ?_, held⟩
  have zero : chunkSize body.last.line = 0 := by
    rw [chunkSize_line (by rw [body.zero]; decide), body.zero]
  rw [goesOn, List.nil_append,
    readChunkedBody_of_last isLine (sizeLine_ne_nil body.last)
      (Nat.not_lt.mpr within.last) zero]
  exact isEnd

/-! ## Chunked bodies on the streaming path -/

section Streaming

variable
  {receives : Nat → Bool}
  {pieces : Pieces}
  {line : List Char}
  {after : Reader}

/-- One pass of the streaming task, for a chunk that is read whole. -/
theorem streamChunked_of_chunk
    {bytes lineEnd : List UInt8}
    {afterData next : Reader}
    (isLine : readTextLine reader = (.ok line, after))
    (nonempty : line ≠ [])
    (short : ¬ maxSizeLine < byteLength line)
    (fits : ¬ streamChunkedMaxChunk < chunkSize line)
    (more : chunkSize line ≠ 0)
    (isData :
      readLoop (chunkSize line) (chunkSize line) [] after =
        (.full bytes, afterData))
    (isCrlf : readLoop 2 2 [] afterData = (.full lineEnd, next)) :
    streamChunked receives pieces reader =
      if receives pieces.length then
        streamChunked receives (pieces ++ [.ok bytes]) next
      else
        (pieces, .ended false, afterData) := by
  rw [streamChunked_eq]
  simp only [isLine, isData, isCrlf, if_neg nonempty, if_neg short,
    if_neg fits, if_neg more]

/-- A chunk beyond the limits ends the task without success. -/
theorem streamChunked_of_refused
    (isLine : readTextLine reader = (.ok line, after))
    (refused :
      maxSizeLine < byteLength line ∨
        streamChunkedMaxChunk < chunkSize line) :
    streamChunked receives pieces reader =
      (pieces, .ended false, after) := by
  rw [streamChunked_eq]
  simp only [isLine]
  split
  · rfl
  · split
    · rfl
    · rename_i short
      rw [if_pos (refused.resolve_left short)]

/-- The last pass, for the chunk of size 0 and a line after it. -/
theorem streamChunked_of_last
    {next : Reader}
    (isLine : readTextLine reader = (.ok line, after))
    (nonempty : line ≠ [])
    (short : ¬ maxSizeLine < byteLength line)
    (last : chunkSize line = 0)
    (skipped : skipLine after = some next) :
    streamChunked receives pieces reader =
      (pieces, .ended true, next) := by
  have fits : ¬ streamChunkedMaxChunk < chunkSize line := by
    rw [last]
    exact Nat.not_lt_zero _
  rw [streamChunked_eq]
  simp only [isLine, skipped, if_neg nonempty, if_neg short, if_neg fits,
    if_pos last]

end Streaming

/-- A chunked body that the streaming path reads to its end or refuses. -/
structure StreamedChunks (body : ChunkedBody) : Prop where
  sizes : ∀ chunk ∈ body.chunks, chunk.data.length < 2 ^ 64
  noTrailers : body.trailers = []

/-- Chunks are streamed to their end, or the task ends without success. -/
theorem streamChunked_chunks
    (receives : Nat → Bool)
    (chunks : List Chunk)
    (last : SizeLine)
    (pieces : Pieces)
    (holds :
      Holds reader
        (chunks.flatMap Chunk.bytes ++
          (encodeUtf8 last.line ++ (encodeUtf8 crlf ++ rest)))
        back)
    (sizes : ∀ chunk ∈ chunks, chunk.data.length < 2 ^ 64)
    (zero : last.size = 0) :
    ∃ sent after ok,
      streamChunked receives pieces reader =
          (sent, .ended ok, after) ∧
        (ok = true → Holds after rest back) := by
  induction chunks generalizing pieces reader with
  | nil =>
      obtain ⟨afterLine, isLine, lineHeld⟩ :=
        readTextLine_sizeLine last holds
      by_cases short : maxSizeLine < byteLength last.line
      · exact ⟨pieces, afterLine, false,
          streamChunked_of_refused isLine (.inl short), nofun⟩
      · have blank :
            Holds afterLine (encodeUtf8 ([] ++ crlf) ++ rest) back :=
          lineHeld
        obtain ⟨after, skipped, held⟩ := skipLine_spec blank (by simp)
        have isZero : chunkSize last.line = 0 := by
          rw [chunkSize_line (by rw [zero]; decide), zero]
        refine ⟨pieces, after, true, ?_, fun _ => held⟩
        exact streamChunked_of_last isLine (sizeLine_ne_nil last) short
          isZero skipped
  | cons chunk others inductionHypothesis =>
      have size := chunkSize_chunk (sizes chunk List.mem_cons_self)
      have positive := List.length_pos_iff.mpr chunk.nonempty
      simp only [List.flatMap_cons, Chunk.bytes,
        List.append_assoc] at holds
      obtain ⟨afterLine, isLine, lineHeld⟩ :=
        readTextLine_sizeLine chunk.sizeLine holds
      by_cases refused :
          maxSizeLine < byteLength chunk.sizeLine.line ∨
            streamChunkedMaxChunk < chunkSize chunk.sizeLine.line
      · exact ⟨pieces, afterLine, false,
          streamChunked_of_refused isLine refused, nofun⟩
      · obtain ⟨short, fits⟩ := not_or.mp refused
        obtain ⟨afterData, isData, dataHeld⟩ :=
          readLoop_spec chunk.data _ [] lineHeld positive
        obtain ⟨next, isCrlf, nextHeld⟩ :=
          readLoop_spec (encodeUtf8 crlf) _ [] dataHeld
            (by decide : 0 < 2)
        have oneChunk :
            streamChunked receives pieces reader =
              if receives pieces.length then
                streamChunked receives (pieces ++ [.ok chunk.data])
                  next
              else
                (pieces, .ended false, afterData) := by
          apply streamChunked_of_chunk isLine
            (sizeLine_ne_nil chunk.sizeLine) short fits
          · rw [size]
            exact Nat.ne_of_gt positive
          · rw [size]
            exact isData
          · exact isCrlf
        rw [oneChunk]
        split
        · apply inductionHypothesis _ nextHeld
          intro other member
          exact sizes other (List.mem_cons_of_mem chunk member)
        · exact ⟨pieces, afterData, false, rfl, nofun⟩

/-- A chunked body without trailers is streamed to its end, or not at all. -/
theorem streamChunked_spec
    (receives : Nat → Bool)
    {body : ChunkedBody}
    (holds : Holds reader (body.bytes ++ rest) back)
    (streamed : StreamedChunks body) :
    ∃ sent after ok,
      streamChunked receives [] reader = (sent, .ended ok, after) ∧
        (ok = true → Holds after rest back) := by
  have wire :
      body.bytes ++ rest =
        body.chunks.flatMap Chunk.bytes ++
          (encodeUtf8 body.last.line ++ (encodeUtf8 crlf ++ rest)) := by
    simp [ChunkedBody.bytes, streamed.noTrailers, encodeUtf8_append]
  rw [wire] at holds
  exact streamChunked_chunks receives body.chunks body.last [] holds
    streamed.sizes body.zero

end Sweety.UpstreamResponse
