import Sweety.BodyIntegrity
import Sweety.ResponseReading

namespace Sweety.ChunkedRoundTrip

open HttpText SegmentedReader UpstreamResponse ForwardRequest Rfc7230

/-!
# Chunked bodies, written and read back

What `pipe_request_body` writes in chunked mode is a chunked body by RFC 7230,
and `read_chunked_body` reads it back: the same bytes, no trailers, and nothing
of what comes after it.
-/

/-! ## Size lines -/

/-- A number is written with hexadecimal digits only. -/
theorem hexadecimal_toHex (number : Nat) :
    ∀ char ∈ toHex number, (digitValue? 16 char).isSome = true :=
  isSome_digitValue?_toDigits (by decide) (by decide) number

/-- The digits of a number have its value. -/
theorem hexValue_toHex (number : Nat) : hexValue (toHex number) = number :=
  foldDigits_toDigits (by decide) (by decide) number

/-- The size line that is written before a chunk of this size. -/
def sizeLine (size : Nat) : SizeLine where
  digits := toHex size
  extensions := []
  nonempty := Nat.toDigits_ne_nil
  hexadecimal := hexadecimal_toHex size
  semicolon := .inl rfl
  oneLine := ⟨List.not_mem_nil, List.not_mem_nil⟩

theorem size_sizeLine (size : Nat) : (sizeLine size).size = size :=
  hexValue_toHex size

/-- A character takes up to four bytes. -/
theorem byteLength_le (text : List Char) :
    byteLength text ≤ 4 * text.length := by
  induction text with
  | nil =>
      exact Nat.le_refl 0
  | cons char rest inductionHypothesis =>
      have width := Char.utf8Size_le_four char
      simp only [byteLength, List.map_cons, List.sum_cons,
        List.length_cons] at inductionHypothesis ⊢
      omega

/-- The size line of a chunk within the limit is short. -/
theorem byteLength_sizeLine_le
    {size : Nat}
    (small : size ≤ chunkedMaxChunk) :
    byteLength (sizeLine size).line ≤ maxSizeLine := by
  have digits : (toHex size).length ≤ 8 := by
    apply (Nat.length_toDigits_le_iff (by decide) (by decide)).mpr
    exact Nat.lt_of_le_of_lt small (by decide)
  have total :
      (sizeLine size).line.length = (toHex size).length + 2 := by
    simp [SizeLine.line, sizeLine, crlf]
  calc
    byteLength (sizeLine size).line ≤
        4 * (sizeLine size).line.length := byteLength_le _
    _ ≤ 4 * 10 := by omega
    _ ≤ maxSizeLine := by decide

/-! ## What is written -/

/-- A chunk as it is written. -/
def chunk (data : List UInt8) (nonempty : data ≠ []) : Chunk where
  sizeLine := sizeLine data.length
  data := data
  nonempty := nonempty
  exact := size_sizeLine data.length

theorem bytes_chunk
    (data : List UInt8)
    (nonempty : data ≠ []) :
    (chunk data nonempty).bytes = (chunkWrites true data).flatten := by
  have ends : ascii "\r\n" = encodeUtf8 crlf := rfl
  simp [Chunk.bytes, chunk, sizeLine, SizeLine.line, chunkWrites, ends,
    encodeUtf8_append]

/-- The chunks of a body; an empty piece is not sent. -/
def sentChunks : List (List UInt8) → List Chunk
  | [] =>
      []
  | [] :: rest =>
      sentChunks rest
  | (byte :: others) :: rest =>
      chunk (byte :: others) (List.cons_ne_nil byte others) ::
        sentChunks rest

/-- The data of the chunks is the data of the pieces. -/
theorem chunksData_sentChunks (pieces : List (List UInt8)) :
    chunksData (sentChunks pieces) = pieces.flatten := by
  induction pieces with
  | nil =>
      rfl
  | cons piece rest inductionHypothesis =>
      cases piece with
      | nil =>
          exact inductionHypothesis
      | cons byte others =>
          rw [chunksData] at inductionHypothesis ⊢
          rw [sentChunks, List.flatMap_cons, inductionHypothesis]
          rfl

/-- A body of pieces within the limit has chunks within the limits. -/
theorem bufferedChunk_of_mem_sentChunks
    {pieces : List (List UInt8)}
    (small : ∀ piece ∈ pieces, piece.length ≤ chunkedMaxChunk) :
    ∀ sent ∈ sentChunks pieces, BufferedChunk sent := by
  induction pieces with
  | nil =>
      intro sent member
      cases member
  | cons piece rest inductionHypothesis =>
      have later :=
        inductionHypothesis fun other member =>
          small other (List.mem_cons_of_mem piece member)
      cases piece with
      | nil =>
          exact later
      | cons byte others =>
          have fits := small (byte :: others) List.mem_cons_self
          intro sent member
          rcases List.mem_cons.mp member with rfl | inRest
          · exact ⟨byteLength_sizeLine_le fits, fits⟩
          · exact later sent inRest

/-- The last chunk, as it is written. -/
def lastLine : SizeLine :=
  sizeLine 0

/-- The bytes of a body in chunked mode. -/
theorem encodedBody_eq (pieces : List (List UInt8)) :
    encodedBody true pieces =
      (sentChunks pieces).flatMap Chunk.bytes ++
        encodeUtf8 (lastLine.line ++ crlf) := by
  induction pieces with
  | nil =>
      rfl
  | cons piece rest inductionHypothesis =>
      cases piece with
      | nil =>
          exact inductionHypothesis
      | cons byte others =>
          rw [encodedBody] at inductionHypothesis ⊢
          rw [bodyWrites_cons, List.flatten_append, inductionHypothesis,
            sentChunks, List.flatMap_cons, bytes_chunk,
            List.append_assoc]

/-! ## What is read back -/

variable
  {reader : Reader}
  {rest : List UInt8}
  {back : List (Event IoError)}

/-- The blank line after the last chunk is read, and there are no trailers. -/
theorem readChunkedEnd_blank
    (collectTrailers : Bool)
    (body : List UInt8)
    (holds : Holds reader (encodeUtf8 crlf ++ rest) back) :
    ∃ after,
      readChunkedEnd collectTrailers body reader =
          (.ok body [], after) ∧
        Holds after rest back := by
  have blank : Holds reader (encodeUtf8 ([] ++ crlf) ++ rest) back :=
    holds
  cases collectTrailers with
  | true =>
      obtain ⟨after, isLine, held⟩ := readTextLine_spec blank (by simp)
      have none : readTrailers [] reader = (some [], after) := by
        rw [readTrailers_step (by decide) isLine]
        exact if_pos trim_crlf
      refine ⟨after, ?_, held⟩
      simp only [readChunkedEnd, none, ↓reduceIte]
  | false =>
      obtain ⟨after, skipped, held⟩ := skipLine_spec blank (by simp)
      refine ⟨after, ?_, held⟩
      simp only [readChunkedEnd, skipped, Bool.false_eq_true, ↓reduceIte]

/-- A body in chunked mode is read back, up to its end and no further. -/
theorem readChunkedBody_encodedBody
    {pieces : List (List UInt8)}
    (collectTrailers : Bool)
    (small : ∀ piece ∈ pieces, piece.length ≤ chunkedMaxChunk)
    (fits : pieces.flatten.length ≤ chunkedMaxBody)
    (holds : Holds reader (encodedBody true pieces ++ rest) back) :
    ∃ after,
      readChunkedBody collectTrailers [] reader =
          (.ok pieces.flatten [], after) ∧
        Holds after rest back := by
  rw [encodedBody_eq, encodeUtf8_append, List.append_assoc,
    List.append_assoc] at holds
  rw [← chunksData_sentChunks] at fits ⊢
  obtain ⟨afterChunks, goesOn, chunksHeld⟩ :=
    readChunkedBody_chunks collectTrailers (sentChunks pieces) [] holds
      (bufferedChunk_of_mem_sentChunks small)
      (by rwa [List.length_nil, Nat.zero_add])
  obtain ⟨afterLine, isLine, lineHeld⟩ :=
    readTextLine_sizeLine lastLine chunksHeld
  obtain ⟨after, isEnd, held⟩ :=
    readChunkedEnd_blank collectTrailers (chunksData (sentChunks pieces))
      lineHeld
  refine ⟨after, ?_, held⟩
  rw [goesOn, List.nil_append,
    readChunkedBody_of_last isLine (sizeLine_ne_nil lastLine)
      (by decide) (by decide)]
  exact isEnd

/--
Whatever pieces within the limits are piped in chunked mode to a writer that
takes them, the bytes written are decoded to the pieces again.  The decoder is
given them in any segments, with any bytes behind them, and leaves exactly the
bytes behind.
-/
theorem readChunkedBody_pipeRequestBody
    (pieces : List (List UInt8))
    (small : ∀ piece ∈ pieces, piece.length ≤ chunkedMaxChunk)
    (fits : pieces.flatten.length ≤ chunkedMaxBody)
    (writer : Conn)
    (fresh : writer.sent = [])
    (takes : ∀ outcome ∈ writer.writes, outcome = .ok) :
    ∃ written,
      pipeRequestBody true (wholeBody pieces) writer = (none, written) ∧
        ∀ collectTrailers reader segments rest back,
          reader.reads = segments ++ back →
            (∀ event ∈ segments, event.isData = true) →
            reader.buffer ++ segments.flatMap Event.bytes =
                written.sent ++ rest →
            ∃ after left,
              readChunkedBody collectTrailers [] reader =
                  (.ok pieces.flatten [], after) ∧
                after.reads = left ++ back ∧
                (∀ event ∈ left, event.isData = true) ∧
                after.buffer ++ left.flatMap Event.bytes = rest := by
  have accepts :
      writer.Accepts (bodyWrites true pieces).length := by
    intro outcome member
    exact takes outcome (List.mem_of_mem_take member)
  refine ⟨_, pipeRequestBody_whole accepts, ?_⟩
  intro collectTrailers reader segments rest back isReads isData delivered
  have sent :
      (writer.wrote (bodyWrites true pieces)).sent =
        encodedBody true pieces := by
    rw [Conn.wrote, fresh]
    rfl
  rw [sent] at delivered
  obtain ⟨after, isRead, left, isLeft, leftData, isRest⟩ :=
    readChunkedBody_encodedBody collectTrailers small fits
      ⟨segments, isReads, isData, delivered⟩
  exact ⟨after, left, isRead, isLeft, leftData, isRest⟩

/-- Three pieces, one of them empty, with the next message behind them. -/
theorem readChunkedBody_three_pieces :
    ∃ written after left,
      pipeRequestBody true (wholeBody [[1, 2], [], [3]]) ⟨[], [], []⟩ =
          (none, written) ∧
        readChunkedBody true []
            ⟨written.sent, Event.ofBytes (ascii "HTTP/1.1 ")⟩ =
          (.ok [1, 2, 3] [], after) ∧
        after.reads = left ++ [] ∧
        after.buffer ++ left.flatMap Event.bytes = ascii "HTTP/1.1 " := by
  obtain ⟨written, piped, isDecoded⟩ :=
    readChunkedBody_pipeRequestBody [[1, 2], [], [3]] (by decide)
      (by decide) ⟨[], [], []⟩ rfl (by simp)
  obtain ⟨after, left, isRead, isLeft, _, isRest⟩ :=
    isDecoded true ⟨written.sent, Event.ofBytes (ascii "HTTP/1.1 ")⟩
      (Event.ofBytes (ascii "HTTP/1.1 ")) (ascii "HTTP/1.1 ") []
      (List.append_nil _).symm (by decide)
      (by rw [flatMap_ofBytes])
  exact ⟨written, after, left, piped, isRead, isLeft, isRest⟩

end Sweety.ChunkedRoundTrip
