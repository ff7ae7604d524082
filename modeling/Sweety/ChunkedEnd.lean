import Sweety.ChunkedRoundTrip
import Sweety.LineBreaks

namespace Sweety.ChunkedEnd

open HttpText Rfc7230 LineBreaks

/-!
# Chunks without an end

The chunks that were written so far are no chunked body by RFC 7230, and neither
is any beginning of them: a reader of the format asks for more.
-/

/-- A text without a line break is read back from its bytes and a line end. -/
theorem line_unique
    {first second : List Char}
    {firstRest secondRest : List UInt8}
    (isFirst : OneLine first)
    (isSecond : OneLine second)
    (same :
      encodeUtf8 (first ++ crlf) ++ firstRest =
        encodeUtf8 (second ++ crlf) ++ secondRest) :
    first = second ∧ firstRest = secondRest := by
  have reads
      {text : List Char}
      (oneLine : OneLine text)
      (rest : List UInt8) :
      readLine? 13 10 (encodeUtf8 (text ++ crlf) ++ rest) =
        some (encodeUtf8 text, rest) := by
    have noReturn : (13 : UInt8) ∉ encodeUtf8 text := by
      apply ascii_not_mem_encodeUtf8 (by decide : 13 < 128)
      intro char isChar isReturn
      have isCr : char = '\r' := Char.ext (UInt32.toNat_inj.mp isReturn)
      exact oneLine.1 (isCr ▸ isChar)
    have isText :
        encodeUtf8 (text ++ crlf) ++ rest =
          encodeUtf8 text ++ 13 :: 10 :: rest := by
      rw [encodeUtf8_append, List.append_assoc]
      rfl
    rw [isText]
    exact readLine?_append noReturn rest
  have sameLine := reads isFirst firstRest
  rw [same, reads isSecond secondRest] at sameLine
  obtain ⟨sameBytes, sameRest⟩ := Prod.mk.inj (Option.some.inj sameLine)
  have sameText := congrArg decodeUtf8 sameBytes
  rw [decodeUtf8_encodeUtf8, decodeUtf8_encodeUtf8] at sameText
  exact ⟨(Option.some.inj sameText).symm, sameRest.symm⟩

/-- The text of a size line. -/
def sizeText (sizeLine : SizeLine) : List Char :=
  sizeLine.digits ++ sizeLine.extensions

theorem oneLine_sizeText (sizeLine : SizeLine) :
    OneLine (sizeText sizeLine) := by
  have noDigit {char : Char} (notDigit : digitValue? 16 char = none) :
      char ∉ sizeLine.digits := by
    intro isDigit
    have isSome := sizeLine.hexadecimal char isDigit
    rw [notDigit] at isSome
    cases isSome
  constructor
  · intro isReturn
    rcases List.mem_append.mp isReturn with isDigit | isExtension
    · exact noDigit (by decide) isDigit
    · exact sizeLine.oneLine.1 isExtension
  · intro isFeed
    rcases List.mem_append.mp isFeed with isDigit | isExtension
    · exact noDigit (by decide) isDigit
    · exact sizeLine.oneLine.2 isExtension

/-- The digits end where the extensions begin. -/
theorem takeWhile_sizeText (sizeLine : SizeLine) :
    (sizeText sizeLine).takeWhile
        (fun char => (digitValue? 16 char).isSome) =
      sizeLine.digits := by
  rw [sizeText, List.takeWhile_append_of_pos sizeLine.hexadecimal]
  rcases sizeLine.semicolon with isNil | isSemicolon
  · rw [isNil, List.takeWhile_nil, List.append_nil]
  · cases isExtensions : sizeLine.extensions with
    | nil =>
        rw [List.takeWhile_nil, List.append_nil]
    | cons char others =>
        rw [isExtensions] at isSemicolon
        cases isSemicolon
        have notDigit : (digitValue? 16 ';').isSome = false := by
          decide
        rw [List.takeWhile_cons, if_neg (by simp [notDigit]),
          List.append_nil]

/-- Two size lines before some bytes announce the same size. -/
theorem size_unique
    {first second : SizeLine}
    {firstRest secondRest : List UInt8}
    (same :
      encodeUtf8 first.line ++ firstRest =
        encodeUtf8 second.line ++ secondRest) :
    first.size = second.size ∧ firstRest = secondRest := by
  obtain ⟨sameText, sameRest⟩ :=
    line_unique (oneLine_sizeText first) (oneLine_sizeText second) same
  refine ⟨?_, sameRest⟩
  rw [SizeLine.size, SizeLine.size, ← takeWhile_sizeText first, sameText,
    takeWhile_sizeText second]

/-- A chunk does not announce the size 0. -/
theorem size_ne_zero (chunk : Chunk) : chunk.sizeLine.size ≠ 0 := by
  rw [chunk.exact]
  exact fun isZero => chunk.nonempty (List.length_eq_zero_iff.mp isZero)

/-- The bytes of a chunk hold its data. -/
theorem chunk_unique
    {first second : Chunk}
    {firstRest secondRest : List UInt8}
    (same : first.bytes ++ firstRest = second.bytes ++ secondRest) :
    first.data.length = second.data.length ∧ firstRest = secondRest := by
  rw [Chunk.bytes, Chunk.bytes, List.append_assoc, List.append_assoc,
    List.append_assoc, List.append_assoc] at same
  obtain ⟨sameSize, sameRest⟩ := size_unique same
  rw [first.exact, second.exact] at sameSize
  have sameData := (List.append_inj sameRest sameSize).2
  exact ⟨sameSize, List.append_cancel_left sameData⟩

/-- A chunk is not the last chunk. -/
theorem chunk_ne_last
    {chunk : Chunk}
    {last : SizeLine}
    {rest after : List UInt8}
    (zero : last.size = 0) :
    chunk.bytes ++ rest ≠ encodeUtf8 last.line ++ after := by
  intro same
  rw [Chunk.bytes, List.append_assoc, List.append_assoc] at same
  exact size_ne_zero chunk ((size_unique same).1.trans zero)

/-- Chunks that a body begins with hold no more data than it. -/
theorem length_data_le
    {chunks others : List Chunk}
    {last : SizeLine}
    {after : List UInt8}
    (zero : last.size = 0)
    (isPrefix :
      chunks.flatMap Chunk.bytes <+:
        others.flatMap Chunk.bytes ++ (encodeUtf8 last.line ++ after)) :
    (chunks.flatMap Chunk.data).length ≤
      (others.flatMap Chunk.data).length := by
  obtain ⟨rest, isBody⟩ := isPrefix
  induction chunks generalizing others with
  | nil =>
      exact Nat.zero_le _
  | cons chunk more inductionHypothesis =>
      rw [List.flatMap_cons, List.append_assoc] at isBody
      cases others with
      | nil =>
          exact absurd isBody (chunk_ne_last zero)
      | cons other later =>
          rw [List.flatMap_cons, List.append_assoc] at isBody
          obtain ⟨sameLength, isMore⟩ := chunk_unique isBody
          have fewer := inductionHypothesis isMore
          rw [List.flatMap_cons, List.flatMap_cons, List.length_append,
            List.length_append, sameLength]
          exact Nat.add_le_add_left fewer _

/-- Chunks do not begin with a whole chunked body. -/
theorem not_prefix_chunks
    (chunks : List Chunk)
    (body : ChunkedBody) :
    ¬ body.bytes <+: chunks.flatMap Chunk.bytes := by
  obtain ⟨bodyChunks, last, trailers, zero⟩ := body
  rintro ⟨rest, isChunks⟩
  rw [ChunkedBody.bytes] at isChunks
  dsimp only at isChunks zero
  induction chunks generalizing bodyChunks with
  | nil =>
      have isNil := List.append_eq_nil_iff.mp isChunks
      have isEnd := (List.append_eq_nil_iff.mp isNil.1).2
      have longer :=
        length_le_encodeUtf8
          (last.line ++ trailers.flatMap Field.line ++ crlf)
      rw [isEnd, List.length_append, List.length_append] at longer
      exact absurd longer (by simp [crlf])
  | cons chunk others inductionHypothesis =>
      cases bodyChunks with
      | nil =>
          have isLast :
              chunk.bytes ++ others.flatMap Chunk.bytes =
                encodeUtf8 last.line ++
                  (encodeUtf8 (trailers.flatMap Field.line ++ crlf) ++
                    rest) := by
            simpa [encodeUtf8_append] using isChunks.symm
          exact chunk_ne_last zero isLast
      | cons bodyChunk bodyOthers =>
          rw [List.flatMap_cons, List.flatMap_cons, List.append_assoc,
            List.append_assoc] at isChunks
          have isOthers := (chunk_unique isChunks).2
          rw [← List.append_assoc] at isOthers
          exact inductionHypothesis bodyOthers isOthers

end Sweety.ChunkedEnd
