import Sweety.BrokenReading
import Sweety.ChunkedRoundTrip

namespace Sweety.UpstreamResponse

open HttpText SegmentedReader Rfc7230

/-!
# Two decoders of chunked bodies

The buffered path and the streaming path each have a decoder of their own.  They
read the chunks that are within the limits of both alike, and stand at the same
place after each of them; this module says what each of them does at the first
place where they do not go on together.
-/

/-! ## Chunks that both read -/

/-- A size line that is read and is not too long. -/
structure SizeRead
    (reader : Reader)
    (line : List Char)
    (after : Reader) :
    Prop where
  isLine : readTextLine reader = (.ok line, after)
  nonempty : line ≠ []
  short : byteLength line ≤ maxSizeLine

/--
Both decoders read a chunk: its size is within the limits of both, all of its
data is there, and a line end follows.
-/
inductive ReadsChunk
    (total : Nat)
    (reader : Reader) :
    List UInt8 → Reader → Prop where
  | intro
      {line : List Char}
      {data : List UInt8}
      {after afterData next : Reader}
      (sizeRead : SizeRead reader line after)
      (positive : 0 < chunkSize line)
      (small : chunkSize line ≤ streamChunkedMaxChunk)
      (within : total + chunkSize line ≤ chunkedMaxBody)
      (isData :
        readLoop (chunkSize line) (chunkSize line) [] after =
          (.full data, afterData))
      (isEnd : readTextLine afterData = (.ok crlf, next)) :
      ReadsChunk total reader data next

/-- A line end is skipped by its length, too. -/
theorem readLoop_of_crlf
    {reader next : Reader}
    (isEnd : readTextLine reader = (.ok crlf, next)) :
    readLoop 2 2 [] reader = (.full [13, 10], next) := by
  unfold readTextLine at isEnd
  split at isEnd
  · next bytes after isLine =>
      split at isEnd
      · next line isText =>
          obtain ⟨isOk, rfl⟩ := Prod.mk.inj isEnd
          obtain rfl := LineText.ok.inj isOk
          obtain rfl := eq_encodeUtf8_of_decodeUtf8 isText
          exact (readLoop_of_readLine (by decide) isLine
            List.not_mem_nil (by decide) (by decide)).1
      · cases isEnd
  · cases isEnd
  · cases isEnd

theorem skipLine_of_ok
    {reader next : Reader}
    {line : List Char}
    (isLine : readTextLine reader = (.ok line, next)) :
    skipLine reader = some next := by
  rw [skipLine, isLine]

/-- What is small enough for the stream is within the limits of the buffer. -/
theorem fits_buffered
    {size total : Nat}
    (small : size ≤ streamChunkedMaxChunk)
    (within : total + size ≤ chunkedMaxBody) :
    ¬ (chunkedMaxChunk < size ∨ chunkedMaxBody < total + size) := by
  have below : streamChunkedMaxChunk ≤ chunkedMaxChunk := by decide
  rintro (large | long)
  · exact Nat.not_lt.mpr (small.trans below) large
  · exact Nat.not_lt.mpr within long

section Step

variable
  {collectTrailers : Bool}
  {body data : List UInt8}
  {reader next : Reader}

/-- One pass of the buffered loop, for a chunk that both read. -/
theorem ReadsChunk.buffered
    (reads : ReadsChunk body.length reader data next) :
    readChunkedBody collectTrailers body reader =
      readChunkedBody collectTrailers (body ++ data) next := by
  obtain ⟨sizeRead, positive, small, within, isData, isEnd⟩ := reads
  exact readChunkedBody_of_chunk sizeRead.isLine sizeRead.nonempty
    (Nat.not_lt.mpr sizeRead.short) (Nat.ne_of_gt positive)
    (fits_buffered small within) isData (skipLine_of_ok isEnd)

/-- One pass of the streaming loop, for a chunk that both read. -/
theorem ReadsChunk.streamed
    {total : Nat}
    (reads : ReadsChunk total reader data next)
    (pieces : Pieces) :
    streamChunked takesAll pieces reader =
      streamChunked takesAll (pieces ++ [.ok data]) next := by
  obtain ⟨sizeRead, positive, small, within, isData, isEnd⟩ := reads
  rw [streamChunked_of_chunk sizeRead.isLine sizeRead.nonempty
    (Nat.not_lt.mpr sizeRead.short) (Nat.not_lt.mpr small)
    (Nat.ne_of_gt positive) isData (readLoop_of_crlf isEnd)]
  rfl

/-- A chunk takes something off what is pending. -/
theorem ReadsChunk.pending_lt
    {total : Nat}
    (reads : ReadsChunk total reader data next) :
    pending next < pending reader := by
  cases reads with
  | @intro line _ after afterData _ sizeRead positive _ _ isData isEnd =>
      have lineRead :=
        pending_readTextLine_lt sizeRead.isLine sizeRead.nonempty
      have dataRead :=
        pending_readLoop_le positive (chunkSize line) [] after
      have endRead := pending_readTextLine_le afterData
      rw [isData] at dataRead
      rw [isEnd] at endRead
      dsimp only at dataRead endRead
      omega

end Step

/-! ## Where they no longer go on together -/

/--
Both take the body as complete: a line announces no size, and no trailer that
would be collected follows.
-/
inductive EndsBody (collectTrailers : Bool) (reader : Reader) : Prop where
  | intro
      {line : List Char}
      {after next : Reader}
      (sizeRead : SizeRead reader line after)
      (last : chunkSize line = 0)
      (skipped : skipLine after = some next)
      (noTrailer :
        collectTrailers = true →
          ∀ text final,
            readTextLine after = (.ok text, final) → trim text = [])

/-- The upstream fails in a chunk, or falls silent. -/
inductive FailsBody (total : Nat) (reader : Reader) : Prop where
  | silentLine
      {after : Reader}
      (isLine : readTextLine reader = (.stall, after))
  | silentEnd
      {line : List Char}
      {after : Reader}
      (sizeRead : SizeRead reader line after)
      (last : chunkSize line = 0)
      (waits : skipLine after = none)
  | brokenData
      {line : List Char}
      {after afterData : Reader}
      {error : IoError}
      {bytes : List UInt8}
      (sizeRead : SizeRead reader line after)
      (positive : 0 < chunkSize line)
      (small : chunkSize line ≤ streamChunkedMaxChunk)
      (within : total + chunkSize line ≤ chunkedMaxBody)
      (isData :
        readLoop (chunkSize line) (chunkSize line) [] after =
          (.error error bytes, afterData))
      (hard : error.kind ≠ .unexpectedEof)
  | silentData
      {line : List Char}
      {after afterData : Reader}
      {bytes : List UInt8}
      (sizeRead : SizeRead reader line after)
      (positive : 0 < chunkSize line)
      (small : chunkSize line ≤ streamChunkedMaxChunk)
      (within : total + chunkSize line ≤ chunkedMaxBody)
      (isData :
        readLoop (chunkSize line) (chunkSize line) [] after =
          (.stall bytes, afterData))

/--
Both stop before a chunk: there is no further size line, or it is too long, or
what it announces is beyond the limits of both.
-/
inductive StopsBody (total : Nat) (reader : Reader) : Prop where
  | ended
      {after : Reader}
      (isLine : readTextLine reader = (.ok [], after))
  | broken
      {error : IoError}
      {before : List Char}
      {after : Reader}
      (isLine : readTextLine reader = (.error error before, after))
  | longLine
      {line : List Char}
      {after : Reader}
      (isLine : readTextLine reader = (.ok line, after))
      (nonempty : line ≠ [])
      (long : maxSizeLine < byteLength line)
  | refused
      {line : List Char}
      {after : Reader}
      (sizeRead : SizeRead reader line after)
      (large : streamChunkedMaxChunk < chunkSize line)
      (beyond :
        chunkedMaxChunk < chunkSize line ∨
          chunkedMaxBody < total + chunkSize line)

/--
The decoders part here: trailers are collected by one of them, the limits
differ, or what is read does not have the form of a chunk.
-/
inductive Parts
    (collectTrailers : Bool)
    (total : Nat)
    (reader : Reader) :
    Prop where
  | trailer
      {line text : List Char}
      {after final : Reader}
      (sizeRead : SizeRead reader line after)
      (last : chunkSize line = 0)
      (collects : collectTrailers = true)
      (isText : readTextLine after = (.ok text, final))
      (isTrailer : trim text ≠ [])
  | largeChunk
      {line : List Char}
      {after : Reader}
      (sizeRead : SizeRead reader line after)
      (large : streamChunkedMaxChunk < chunkSize line)
      (small : chunkSize line ≤ chunkedMaxChunk)
      (within : total + chunkSize line ≤ chunkedMaxBody)
  | largeBody
      {line : List Char}
      {after : Reader}
      (sizeRead : SizeRead reader line after)
      (positive : 0 < chunkSize line)
      (small : chunkSize line ≤ streamChunkedMaxChunk)
      (beyond : chunkedMaxBody < total + chunkSize line)
  | cutData
      {line : List Char}
      {after afterData : Reader}
      {bytes : List UInt8}
      (sizeRead : SizeRead reader line after)
      (positive : 0 < chunkSize line)
      (isData :
        readLoop (chunkSize line) (chunkSize line) [] after =
            (.eof bytes, afterData) ∨
          ∃ error,
            error.kind = .unexpectedEof ∧
              readLoop (chunkSize line) (chunkSize line) [] after =
                (.error error bytes, afterData))
  | noLineEnd
      {line : List Char}
      {after afterData : Reader}
      {data : List UInt8}
      (sizeRead : SizeRead reader line after)
      (positive : 0 < chunkSize line)
      (isData :
        readLoop (chunkSize line) (chunkSize line) [] after =
          (.full data, afterData))
      (noEnd : ∀ next, readTextLine afterData ≠ (.ok crlf, next))

section Endings

variable
  {collectTrailers : Bool}
  {body : List UInt8}
  {pieces : Pieces}
  {reader : Reader}

/-- Both end with what they have read, at the same place. -/
theorem EndsBody.result
    (ends : EndsBody collectTrailers reader) :
    ∃ next,
      readChunkedBody collectTrailers body reader =
          (.ok body [], next) ∧
        streamChunked takesAll pieces reader =
          (pieces, .ended true, next) := by
  cases ends with
  | @intro line after next sizeRead last skipped noTrailer =>
      have short := Nat.not_lt.mpr sizeRead.short
      refine ⟨next, ?_, streamChunked_of_last sizeRead.isLine
        sizeRead.nonempty short last skipped⟩
      rw [readChunkedBody_of_last sizeRead.isLine sizeRead.nonempty short
        last, readChunkedEnd]
      cases collectTrailers with
      | false =>
          rw [if_neg Bool.false_ne_true, skipped]
      | true =>
          have isTrailers : readTrailers [] after = (some [], next) := by
            rw [readTrailers_eq, if_neg (by decide)]
            unfold skipLine at skipped
            split at skipped
            · cases skipped
            · next result final notStall isRead =>
                obtain rfl := Option.some.inj skipped
                rw [isRead]
                cases result with
                | ok text =>
                    exact if_pos (noTrailer rfl text _ isRead)
                | error error before =>
                    rfl
                | stall =>
                    exact (notStall rfl).elim
          rw [if_pos rfl, isTrailers]

/-- Both stop with what they have read, at the same place. -/
theorem StopsBody.result
    (stops : StopsBody body.length reader) :
    ∃ after,
      readChunkedBody collectTrailers body reader =
          (.ok body [], after) ∧
        streamChunked takesAll pieces reader =
          (pieces, .ended false, after) := by
  rw [readChunkedBody_eq, streamChunked_eq]
  cases stops with
  | @ended after isLine =>
      rw [isLine]
      exact ⟨after, rfl, rfl⟩
  | @broken error before after isLine =>
      rw [isLine]
      exact ⟨after, rfl, rfl⟩
  | @longLine line after isLine nonempty long =>
      rw [isLine]
      refine ⟨after, ?_, ?_⟩
      · simp only [if_neg nonempty, if_pos long]
      · simp only [if_neg nonempty, if_pos long]
  | @refused line after sizeRead large beyond =>
      have short := Nat.not_lt.mpr sizeRead.short
      have more : chunkSize line ≠ 0 := Nat.ne_of_gt (by omega)
      rw [sizeRead.isLine]
      refine ⟨after, ?_, ?_⟩
      · simp only [if_neg sizeRead.nonempty, if_neg short, if_neg more,
          if_pos beyond]
      · simp only [if_neg sizeRead.nonempty, if_neg short, if_pos large]

/-- Neither takes the body as complete, and none has read further. -/
structure NeitherAccepts
    (buffered : BodyResult × Reader)
    (streamed : Pieces × StreamEnd × Reader) :
    Prop where
  refused : ¬ Succeeds buffered
  ended : streamed.2.1 ≠ .ended true
  place : buffered.1 ≠ .hang → buffered.2 = streamed.2.2

theorem neitherAccepts_of_hang
    {after : Reader}
    {streamed : Pieces × StreamEnd × Reader}
    (ended : streamed.2.1 ≠ .ended true) :
    NeitherAccepts (.hang, after) streamed := by
  refine ⟨?_, ended, fun waits => absurd rfl waits⟩
  rintro ⟨_, _, _, isOk⟩
  cases isOk

theorem FailsBody.result
    (fails : FailsBody body.length reader) :
    NeitherAccepts (readChunkedBody collectTrailers body reader)
      (streamChunked takesAll pieces reader) := by
  cases fails with
  | @silentLine after isLine =>
      rw [readChunkedBody_eq, streamChunked_eq, isLine]
      apply neitherAccepts_of_hang
      rintro ⟨⟩
  | @silentEnd line after sizeRead last waits =>
      have short := Nat.not_lt.mpr sizeRead.short
      have isEnd :
          ∃ final,
            readChunkedEnd collectTrailers body after =
              (.hang, final) := by
        unfold readChunkedEnd
        cases collectTrailers with
        | false =>
            rw [if_neg Bool.false_ne_true, waits]
            exact ⟨_, rfl⟩
        | true =>
            unfold skipLine at waits
            split at waits
            · next final isStall =>
                rw [if_pos rfl, readTrailers_eq, if_neg (by decide),
                  isStall]
                exact ⟨_, rfl⟩
            · cases waits
      obtain ⟨final, isEnd⟩ := isEnd
      rw [readChunkedBody_of_last sizeRead.isLine sizeRead.nonempty short
        last, isEnd, streamChunked_eq]
      apply neitherAccepts_of_hang
      simp [sizeRead.isLine, sizeRead.nonempty, short, last, waits]
  | @brokenData line after afterData error bytes sizeRead positive small
      within isData hard =>
      have short := Nat.not_lt.mpr sizeRead.short
      have more := Nat.ne_of_gt positive
      have fits := fits_buffered small within
      rw [readChunkedBody_eq, streamChunked_eq]
      simp only [sizeRead.isLine, isData, if_neg sizeRead.nonempty,
        if_neg short, if_neg more, if_neg fits,
        if_neg (Nat.not_lt.mpr small), if_neg hard]
      refine ⟨?_, ?_, fun _ => rfl⟩
      · rintro ⟨_, _, _, isOk⟩
        cases isOk
      · rintro ⟨⟩
  | @silentData line after afterData bytes sizeRead positive small within
      isData =>
      have short := Nat.not_lt.mpr sizeRead.short
      have more := Nat.ne_of_gt positive
      have fits := fits_buffered small within
      rw [readChunkedBody_eq, streamChunked_eq]
      simp only [sizeRead.isLine, isData, if_neg sizeRead.nonempty,
        if_neg short, if_neg more, if_neg fits,
        if_neg (Nat.not_lt.mpr small)]
      apply neitherAccepts_of_hang
      rintro ⟨⟩

end Endings

section Cases

variable
  {reader after : Reader}
  {line : List Char}

/-- What comes after a line without a size. -/
theorem SizeRead.last_cases
    (sizeRead : SizeRead reader line after)
    (collectTrailers : Bool)
    (total : Nat)
    (last : chunkSize line = 0) :
    EndsBody collectTrailers reader ∨
      FailsBody total reader ∨
      StopsBody total reader ∨
      Parts collectTrailers total reader := by
  cases skipped : skipLine after with
  | none =>
      exact .inr (.inl (.silentEnd sizeRead last skipped))
  | some next =>
      by_cases trailer :
          collectTrailers = true ∧
            ∃ text final,
              readTextLine after = (.ok text, final) ∧ trim text ≠ []
      · obtain ⟨collects, text, final, isText, isTrailer⟩ := trailer
        exact .inr (.inr (.inr
          (.trailer sizeRead last collects isText isTrailer)))
      · refine .inl (.intro sizeRead last skipped ?_)
        intro collects text final isText
        by_contra isTrailer
        exact trailer ⟨collects, text, final, isText, isTrailer⟩

/-- What comes after a line with a size. -/
theorem SizeRead.chunk_cases
    (sizeRead : SizeRead reader line after)
    (collectTrailers : Bool)
    (total : Nat)
    (positive : 0 < chunkSize line) :
    (∃ data next, ReadsChunk total reader data next) ∨
      EndsBody collectTrailers reader ∨
      FailsBody total reader ∨
      StopsBody total reader ∨
      Parts collectTrailers total reader := by
  by_cases small : chunkSize line ≤ streamChunkedMaxChunk
  · by_cases within : total + chunkSize line ≤ chunkedMaxBody
    · cases isRead : readLoop (chunkSize line) (chunkSize line) [] after with
      | mk result afterData =>
          cases result with
          | full data =>
              by_cases isEnd :
                  ∃ next, readTextLine afterData = (.ok crlf, next)
              · obtain ⟨next, isEnd⟩ := isEnd
                exact .inl ⟨data, next,
                  .intro sizeRead positive small within isRead isEnd⟩
              · refine .inr (.inr (.inr (.inr
                  (.noLineEnd sizeRead positive isRead ?_))))
                intro next isLine
                exact isEnd ⟨next, isLine⟩
          | eof bytes =>
              exact .inr (.inr (.inr (.inr
                (.cutData sizeRead positive (.inl isRead)))))
          | error error bytes =>
              by_cases soft : error.kind = .unexpectedEof
              · exact .inr (.inr (.inr (.inr
                  (.cutData sizeRead positive
                    (.inr ⟨error, soft, isRead⟩)))))
              · exact .inr (.inr (.inl
                  (.brokenData sizeRead positive small within isRead
                    soft)))
          | stall bytes =>
              exact .inr (.inr (.inl
                (.silentData sizeRead positive small within isRead)))
    · exact .inr (.inr (.inr (.inr
        (.largeBody sizeRead positive small (Nat.not_le.mp within)))))
  · rw [Nat.not_le] at small
    by_cases beyond :
        chunkedMaxChunk < chunkSize line ∨
          chunkedMaxBody < total + chunkSize line
    · exact .inr (.inr (.inr (.inl (.refused sizeRead small beyond))))
    · exact .inr (.inr (.inr (.inr
        (.largeChunk sizeRead small (by omega) (by omega)))))

end Cases

/-- Every place is one of these, or both read a chunk there. -/
theorem step_cases
    (collectTrailers : Bool)
    (total : Nat)
    (reader : Reader) :
    (∃ data next, ReadsChunk total reader data next) ∨
      EndsBody collectTrailers reader ∨
      FailsBody total reader ∨
      StopsBody total reader ∨
      Parts collectTrailers total reader := by
  cases isRead : readTextLine reader with
  | mk result after =>
      cases result with
      | stall =>
          exact .inr (.inr (.inl (.silentLine isRead)))
      | error error before =>
          exact .inr (.inr (.inr (.inl (.broken isRead))))
      | ok line =>
          by_cases nonempty : line = []
          · subst nonempty
            exact .inr (.inr (.inr (.inl (.ended isRead))))
          · by_cases short : byteLength line ≤ maxSizeLine
            · have sizeRead : SizeRead reader line after :=
                ⟨isRead, nonempty, short⟩
              by_cases last : chunkSize line = 0
              · exact .inr (sizeRead.last_cases collectTrailers total last)
              · exact sizeRead.chunk_cases collectTrailers total
                  (Nat.pos_of_ne_zero last)
            · exact .inr (.inr (.inr (.inl
                (.longLine isRead nonempty (Nat.not_le.mp short)))))

/-! ## Whole bodies -/

/-- The bytes and the place at which the decoders leave the connection. -/
structure SameBytes (collectTrailers : Bool) (reader : Reader) :
    Prop where
  bytes :
    ∀ body trailers after,
      readChunkedBody collectTrailers [] reader =
          (.ok body trailers, after) →
        delivered (streamChunked takesAll [] reader).1 = body
  place :
    (readChunkedBody collectTrailers [] reader).1 ≠ .hang →
      (readChunkedBody collectTrailers [] reader).2 =
        (streamChunked takesAll [] reader).2.2

/-- The decoders make the same of a body. -/
structure Agree (collectTrailers : Bool) (reader : Reader) : Prop extends
    SameBytes collectTrailers reader where
  accepted :
    Succeeds (readChunkedBody collectTrailers [] reader) ↔
      (streamChunked takesAll [] reader).2.1 = .ended true

/-- Both decoders get to a place, with the same bytes. -/
structure GoesOn
    (collectTrailers : Bool)
    (reader : Reader)
    (body : List UInt8)
    (pieces : Pieces)
    (stop : Reader) :
    Prop where
  buffered :
    readChunkedBody collectTrailers [] reader =
      readChunkedBody collectTrailers body stop
  streamed :
    streamChunked takesAll [] reader =
      streamChunked takesAll pieces stop
  same : delivered pieces = body

section Whole

variable
  {collectTrailers : Bool}
  {body : List UInt8}
  {pieces : Pieces}
  {reader stop : Reader}

theorem GoesOn.refl :
    GoesOn collectTrailers reader [] [] reader :=
  ⟨rfl, rfl, rfl⟩

theorem GoesOn.step
    {data : List UInt8}
    {next : Reader}
    (goesOn : GoesOn collectTrailers reader body pieces stop)
    (reads : ReadsChunk body.length stop data next) :
    GoesOn collectTrailers reader (body ++ data) (pieces ++ [.ok data])
      next where
  buffered := goesOn.buffered.trans reads.buffered
  streamed := goesOn.streamed.trans (reads.streamed pieces)
  same := by
    rw [delivered_append, goesOn.same, pieceBytes]

theorem GoesOn.sameBytes_of_result
    {trailers : List (List Char × List Char)}
    {next : Reader}
    {ok : Bool}
    (goesOn : GoesOn collectTrailers reader body pieces stop)
    (buffered :
      readChunkedBody collectTrailers body stop =
        (.ok body trailers, next))
    (streamed :
      streamChunked takesAll pieces stop = (pieces, .ended ok, next)) :
    SameBytes collectTrailers reader where
  bytes := by
    intro other others after isOk
    rw [goesOn.buffered, buffered] at isOk
    cases isOk
    rw [goesOn.streamed, streamed, goesOn.same]
  place _ := by
    rw [goesOn.buffered, buffered, goesOn.streamed, streamed]

/-- Every body is read alike up to a place where a decoder ends. -/
theorem GoesOn.exists_stop
    (goesOn : GoesOn collectTrailers reader body pieces stop) :
    ∃ whole all final,
      GoesOn collectTrailers reader whole all final ∧
        (EndsBody collectTrailers final ∨
          FailsBody whole.length final ∨
          StopsBody whole.length final ∨
          Parts collectTrailers whole.length final) := by
  -- Each chunk takes something off what is pending.
  induction isPending : pending stop using Nat.strongRecOn
    generalizing body pieces stop with
  | ind amount inductionHypothesis =>
      rcases step_cases collectTrailers body.length stop with
        ⟨data, next, reads⟩ | ends
      · exact inductionHypothesis (pending next)
          (isPending ▸ reads.pending_lt) (goesOn.step reads) rfl
      · exact ⟨body, pieces, stop, goesOn, ends⟩

theorem GoesOn.agree_of_ends
    (goesOn : GoesOn collectTrailers reader body pieces stop)
    (ends : EndsBody collectTrailers stop) :
    Agree collectTrailers reader ∧
      Succeeds (readChunkedBody collectTrailers [] reader) := by
  obtain ⟨next, buffered, streamed⟩ := @ends.result _ body pieces
  have succeeds : Succeeds (readChunkedBody collectTrailers [] reader) :=
    ⟨body, [], next, goesOn.buffered.trans buffered⟩
  refine ⟨⟨goesOn.sameBytes_of_result buffered streamed, ?_⟩, succeeds⟩
  rw [goesOn.streamed, streamed]
  exact iff_of_true succeeds rfl

theorem GoesOn.agree_of_fails
    (goesOn : GoesOn collectTrailers reader body pieces stop)
    (fails : FailsBody body.length stop) :
    Agree collectTrailers reader ∧
      ¬ Succeeds (readChunkedBody collectTrailers [] reader) := by
  have neither := @fails.result collectTrailers body pieces
  rw [← goesOn.buffered, ← goesOn.streamed] at neither
  refine ⟨⟨⟨?_, neither.place⟩, iff_of_false neither.refused neither.ended⟩,
    neither.refused⟩
  intro other trailers after isOk
  exact absurd ⟨other, trailers, after, isOk⟩ neither.refused

end Whole

/-! ## A chunk between the limits -/

/-- A body of one chunk. -/
def oneChunk (data : List UInt8) (nonempty : data ≠ []) : ChunkedBody where
  chunks := [ChunkedRoundTrip.chunk data nonempty]
  last := ChunkedRoundTrip.sizeLine 0
  trailers := []
  zero := ChunkedRoundTrip.size_sizeLine 0

/-- The buffered path reads a chunk that the streaming path refuses. -/
theorem not_agree_of_large
    {data : List UInt8}
    (nonempty : data ≠ [])
    (large : streamChunkedMaxChunk < data.length)
    (small : data.length ≤ chunkedMaxChunk) :
    ¬ Agree false ⟨(oneChunk data nonempty).bytes, []⟩ := by
  intro agree
  let body := oneChunk data nonempty
  have isData : chunksData body.chunks = data := List.append_nil data
  have isSize :
      chunkSize (ChunkedRoundTrip.sizeLine data.length).line =
        data.length := by
    have isChunkSize :=
      @chunkSize_chunk (ChunkedRoundTrip.chunk data nonempty)
    exact isChunkSize (Nat.lt_of_le_of_lt small (by decide))
  have holds : Holds (⟨body.bytes, []⟩ : Reader) (body.bytes ++ []) [] :=
    ⟨[], rfl, nofun, by simp⟩
  have within : BufferedChunks false body := by
    refine ⟨?_, ?_, ?_, rfl⟩
    · intro chunk isChunk
      obtain rfl := List.mem_singleton.mp isChunk
      exact ⟨ChunkedRoundTrip.byteLength_sizeLine_le small, small⟩
    · rw [isData]
      exact Nat.le_trans small (by decide)
    · exact ChunkedRoundTrip.byteLength_sizeLine_le (Nat.zero_le _)
  obtain ⟨trailers, after, buffered, _⟩ :=
    readChunkedBody_spec holds within
  have startsWith :
      ∃ rest,
        body.bytes ++ [] =
          encodeUtf8 (ChunkedRoundTrip.sizeLine data.length).line ++
            rest := by
    simp only [body, oneChunk, ChunkedBody.bytes, List.flatMap_cons,
      Chunk.bytes, ChunkedRoundTrip.chunk, List.append_assoc]
    exact ⟨_, rfl⟩
  obtain ⟨rest, isStart⟩ := startsWith
  rw [isStart] at holds
  obtain ⟨afterLine, isLine, _⟩ :=
    readTextLine_sizeLine (ChunkedRoundTrip.sizeLine data.length) holds
  have refused :=
    @streamChunked_of_refused _ takesAll [] _ _ isLine
      (.inr (by rw [isSize]; exact large))
  have isEmpty := agree.bytes _ _ _ buffered
  rw [refused, isData] at isEmpty
  exact nonempty isEmpty.symm

end Sweety.UpstreamResponse
