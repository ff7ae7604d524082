import Sweety.ResponseReading

namespace Sweety.UpstreamResponse

open HttpText SegmentedReader Rfc7230

/-!
# How broken responses are read

What the reading functions return when the source breaks off, with an error or
without, in the middle of a chunked body or of one with a length.  The byte at
which it breaks off is `cut`; the reader holds the bytes before it.
-/

variable
  {reader : Reader}
  {bytes : List UInt8}
  {back : List (Event IoError)}

/-! ## Lines -/

/-- What reading a line that is cut short leaves. -/
theorem readTextLine_broken
    (holds : Holds reader bytes back)
    (broken : Broken back)
    (oneLine : newline ∉ bytes) :
    (back = [] ∧
      ((∃ line, readTextLine reader = (.ok line, ⟨[], []⟩)) ∨
        readTextLine reader = (.error invalidUtf8 [], ⟨[], []⟩))) ∨
    ∃ error rest before,
      back = .error error :: rest ∧
        readTextLine reader = (.error error before, ⟨[], rest⟩) := by
  have isLine := readLine_broken [] holds broken oneLine
  unfold readTextLine
  rw [isLine]
  cases back with
  | nil =>
      refine .inl ⟨rfl, ?_⟩
      simp only [lineBreak]
      cases decodeUtf8 ([] ++ bytes) with
      | none =>
          exact .inr rfl
      | some line =>
          exact .inl ⟨line, rfl⟩
  | cons event rest =>
      obtain ⟨error, rfl⟩ := broken event List.mem_cons_self
      exact .inr ⟨error, rest, _, rfl, rfl⟩

/-- A line that is cut short is skipped, and the break stays broken. -/
theorem skipLine_broken
    (holds : Holds reader bytes back)
    (broken : Broken back)
    (oneLine : newline ∉ bytes) :
    ∃ rest, skipLine reader = some ⟨[], rest⟩ ∧ Broken rest := by
  rcases readTextLine_broken holds broken oneLine with
    ⟨_, ⟨line, isLine⟩ | isLine⟩ | ⟨error, rest, before, rfl, isLine⟩
  · exact ⟨[], by rw [skipLine, isLine], broken_nil⟩
  · exact ⟨[], by rw [skipLine, isLine], broken_nil⟩
  · exact ⟨rest, by rw [skipLine, isLine], broken.tail⟩

theorem holds_nil (back : List (Event IoError)) :
    Holds (⟨[], back⟩ : Reader) [] back :=
  ⟨[], rfl, nofun, rfl⟩

/-- At the break there is an empty line or an error. -/
theorem readTextLine_drained (broken : Broken back) :
    readTextLine ⟨[], back⟩ = (.ok [], ⟨[], []⟩) ∨
      ∃ error rest before,
        readTextLine ⟨[], back⟩ = (.error error before, ⟨[], rest⟩) := by
  cases back with
  | nil =>
      left
      decide +kernel
  | cons event rest =>
      right
      rcases readTextLine_broken (holds_nil _) broken (by simp) with
        ⟨isNil, _⟩ | ⟨error, rest, before, _, isLine⟩
      · cases isNil
      · exact ⟨error, rest, before, isLine⟩

theorem readTextLine_ends
    (ends : Ends reader.reads) :
    (readTextLine reader).1 ≠ .stall ∧
      Ends (readTextLine reader).2.reads := by
  obtain ⟨notStall, stillEnds⟩ := @readLine_ends _ [] reader ends
  unfold readTextLine
  split
  · next isLine =>
      rw [isLine] at stillEnds
      split
      · exact ⟨nofun, stillEnds⟩
      · exact ⟨nofun, stillEnds⟩
  · next isLine =>
      rw [isLine] at stillEnds
      exact ⟨nofun, stillEnds⟩
  · next isLine =>
      rw [isLine] at notStall
      exact absurd rfl notStall

theorem readTrailers_ends
    {trailers : List (List Char × List Char)}
    (ends : Ends reader.reads) :
    ∃ all after, readTrailers trailers reader = (some all, after) := by
  fun_induction readTrailers trailers reader with
  | case1 trailers reader enough =>
      exact ⟨_, _, rfl⟩
  | case2 trailers reader few line after isLine blank =>
      exact ⟨_, _, rfl⟩
  | case3 trailers reader few line after isLine notBlank noColon
      inductionHypothesis =>
      have afterEnds := (readTextLine_ends ends).2
      rw [isLine] at afterEnds
      exact inductionHypothesis afterEnds
  | case4 trailers reader few line after isLine notBlank name value isField
      inductionHypothesis =>
      have afterEnds := (readTextLine_ends ends).2
      rw [isLine] at afterEnds
      exact inductionHypothesis afterEnds
  | case5 trailers reader few error before after isLine =>
      exact ⟨_, _, rfl⟩
  | case6 trailers reader few after isLine =>
      have notStall := (readTextLine_ends ends).1
      rw [isLine] at notStall
      exact absurd rfl notStall

/-! ## Chunk sizes -/

/-- A size line announces its size, or nothing if the size does not fit. -/
theorem chunkSize_line_cases (sizeLine : SizeLine) :
    chunkSize sizeLine.line = 0 ∨
      chunkSize sizeLine.line = sizeLine.size := by
  rw [chunkSize, takeWhile_trim_line]
  cases isParsed : parseHex? sizeLine.digits with
  | none =>
      exact .inl rfl
  | some value =>
      right
      exact fromStrRadix?_eq_foldDigits sizeLine.hexadecimal isParsed

theorem chunkSize_last
    {last : SizeLine}
    (zero : last.size = 0) :
    chunkSize last.line = 0 := by
  rcases chunkSize_line_cases last with isZero | isSize
  · exact isZero
  · rw [isSize, zero]

theorem chunkSize_chunk_cases (chunk : Chunk) :
    chunkSize chunk.sizeLine.line = 0 ∨
      chunkSize chunk.sizeLine.line = chunk.data.length := by
  rw [← chunk.exact]
  exact chunkSize_line_cases chunk.sizeLine

/-! ## Chunked bodies on the buffered path -/

/-- A size line after which no data is read, with `total` bytes before it. -/
def RefusesLine (total : Nat) (line : List Char) : Prop :=
  line = [] ∨ maxSizeLine < byteLength line ∨ chunkSize line = 0 ∨
    chunkedMaxChunk < chunkSize line ∨
    chunkedMaxBody < total + chunkSize line

/-- The source breaks off with an error other than `UnexpectedEof`. -/
def BreaksHard (back : List (Event IoError)) : Prop :=
  ∃ error rest,
    back = .error error :: rest ∧ error.kind ≠ .unexpectedEof

/-- A body was read, with nothing to tell it from a whole one. -/
def Succeeds (result : BodyResult × Reader) : Prop :=
  ∃ body trailers after, result = (.ok body trailers, after)

section Buffered

variable
  {collectTrailers : Bool}
  {body : List UInt8}

theorem readChunkedEnd_ends
    (ends : Ends reader.reads) :
    Succeeds (readChunkedEnd collectTrailers body reader) := by
  unfold readChunkedEnd
  split
  · obtain ⟨trailers, after, isRead⟩ := @readTrailers_ends reader [] ends
    rw [isRead]
    exact ⟨_, _, _, rfl⟩
  · have notStall := (readTextLine_ends ends).1
    unfold skipLine
    split
    · exact ⟨_, _, _, rfl⟩
    · next isSkip =>
        split at isSkip
        · next isLine =>
            rw [isLine] at notStall
            exact absurd rfl notStall
        · cases isSkip

/-- At the break, what was read before is the body. -/
theorem readChunkedBody_drained
    (broken : Broken back) :
    Succeeds (readChunkedBody collectTrailers body ⟨[], back⟩) := by
  rw [readChunkedBody_eq]
  rcases readTextLine_drained broken with isLine | ⟨_, _, _, isLine⟩
  · rw [isLine]
    exact ⟨_, _, _, rfl⟩
  · rw [isLine]
    exact ⟨_, _, _, rfl⟩

/-- After a size line a chunk is refused, or its data is read. -/
theorem readChunkedBody_of_line
    {line : List Char}
    {after : Reader}
    (isLine : readTextLine reader = (.ok line, after))
    (ends : chunkSize line = 0 → Ends after.reads)
    (refused : RefusesLine body.length line) :
    Succeeds (readChunkedBody collectTrailers body reader) := by
  rw [readChunkedBody_eq, isLine]
  simp only
  split
  · exact ⟨_, _, _, rfl⟩
  · next nonempty =>
      split
      · exact ⟨_, _, _, rfl⟩
      · next short =>
          split
          · next isZero =>
              exact readChunkedEnd_ends (ends isZero)
          · next more =>
              have tooLarge :=
                ((refused.resolve_left nonempty).resolve_left
                  short).resolve_left more
              rw [if_pos tooLarge]
              exact ⟨_, _, _, rfl⟩

/-- Data that is cut short is taken for the end, unless it breaks hard. -/
theorem readChunkedBody_of_data
    {line : List Char}
    {after : Reader}
    {data : List UInt8}
    (isLine : readTextLine reader = (.ok line, after))
    (accepted : ¬ RefusesLine body.length line)
    (holds : Holds after data back)
    (broken : Broken back)
    (short : data.length < chunkSize line) :
    Succeeds (readChunkedBody collectTrailers body reader) ↔
      ¬ BreaksHard back := by
  simp only [RefusesLine, not_or] at accepted
  obtain ⟨nonempty, shortLine, more, fits, fitsAll⟩ := accepted
  have isData :=
    readLoop_broken [] holds broken short (Nat.pos_of_ne_zero more)
  have small := not_or.mpr ⟨fits, fitsAll⟩
  cases back with
  | nil =>
      obtain ⟨later, skipped, laterBroken⟩ :=
        skipLine_broken (holds_nil []) broken_nil (by simp)
      have goesOn :
          readChunkedBody collectTrailers body reader =
            readChunkedBody collectTrailers (body ++ ([] ++ data))
              ⟨[], later⟩ := by
        rw [readChunkedBody_eq, isLine]
        simp only [isData, loopBreak, skipped, if_neg nonempty,
          if_neg shortLine, if_neg more, if_neg small]
      rw [goesOn]
      refine iff_of_true (readChunkedBody_drained laterBroken) ?_
      rintro ⟨_, _, isNil, _⟩
      cases isNil
  | cons event rest =>
      obtain ⟨error, rfl⟩ := broken event List.mem_cons_self
      by_cases soft : error.kind = .unexpectedEof
      · obtain ⟨later, skipped, laterBroken⟩ :=
          skipLine_broken (holds_nil rest) broken.tail (by simp)
        have goesOn :
            readChunkedBody collectTrailers body reader =
              readChunkedBody collectTrailers (body ++ ([] ++ data))
                ⟨[], later⟩ := by
          rw [readChunkedBody_eq, isLine]
          simp only [isData, loopBreak, skipped, if_pos soft,
            if_neg nonempty, if_neg shortLine, if_neg more, if_neg small]
        rw [goesOn]
        refine iff_of_true (readChunkedBody_drained laterBroken) ?_
        rintro ⟨_, _, isBack, hard⟩
        cases isBack
        exact hard soft
      · have fails :
            readChunkedBody collectTrailers body reader =
              (.failed error, ⟨[], rest⟩) := by
          rw [readChunkedBody_eq, isLine]
          simp only [isData, loopBreak, if_neg soft, if_neg nonempty,
            if_neg shortLine, if_neg more, if_neg small]
        rw [fails]
        refine iff_of_false ?_ ?_
        · rintro ⟨_, _, _, isOk⟩
          cases isOk
        · exact not_not.mpr ⟨error, rest, rfl, soft⟩

/-- A size line that is cut short is taken for the end of the body. -/
theorem readChunkedBody_of_cut_line
    (holds : Holds reader bytes back)
    (broken : Broken back)
    (oneLine : newline ∉ bytes) :
    Succeeds (readChunkedBody collectTrailers body reader) := by
  rcases readTextLine_broken holds broken oneLine with
    ⟨_, ⟨line, isLine⟩ | isLine⟩ | ⟨error, rest, before, _, isLine⟩
  · by_cases refused : RefusesLine body.length line
    · exact readChunkedBody_of_line isLine (fun _ => broken_nil.ends)
        refused
    · have more : 0 < chunkSize line := by
        simp only [RefusesLine, not_or] at refused
        exact Nat.pos_of_ne_zero refused.2.2.1
      rw [readChunkedBody_of_data isLine refused (holds_nil []) broken_nil
        more]
      rintro ⟨_, _, isNil, _⟩
      cases isNil
  · rw [readChunkedBody_eq, isLine]
    exact ⟨_, _, _, rfl⟩
  · rw [readChunkedBody_eq, isLine]
    exact ⟨_, _, _, rfl⟩

/-- A chunk is refused when it exceeds a limit. -/
theorem refusesLine_iff (total : Nat) (chunk : Chunk) :
    RefusesLine total chunk.sizeLine.line ↔
      ¬ (BufferedChunk chunk ∧
        total + chunk.data.length ≤ chunkedMaxBody) := by
  have positive := List.length_pos_iff.mpr chunk.nonempty
  constructor
  · rintro refused ⟨⟨short, small⟩, fits⟩
    have size : chunkSize chunk.sizeLine.line = chunk.data.length :=
      chunkSize_chunk (Nat.lt_of_le_of_lt small (by decide))
    rw [RefusesLine, size] at refused
    rcases refused with isNil | long | isZero | large | much
    · exact sizeLine_ne_nil _ isNil
    · omega
    · omega
    · omega
    · omega
  · intro exceeds
    rcases chunkSize_chunk_cases chunk with isZero | size
    · exact .inr (.inr (.inl isZero))
    · by_contra accepted
      rw [RefusesLine, size] at accepted
      simp only [not_or, not_lt] at accepted
      obtain ⟨_, short, _, small, fits⟩ := accepted
      exact exceeds ⟨⟨short, small⟩, fits⟩

end Buffered

/-! ## Where a chunked body is cut -/

/-- The chunks up to the one in whose data the cut lies. -/
def brokenChunks? : List Chunk → Nat → Option (List Chunk)
  | [], _ =>
      none
  | chunk :: others, cut =>
      let start := (encodeUtf8 chunk.sizeLine.line).length
      if cut < start then
        none
      else if cut < start + chunk.data.length then
        some [chunk]
      else if cut < chunk.bytes.length then
        none
      else
        (brokenChunks? others (cut - chunk.bytes.length)).map (chunk :: ·)

/-- A line that is cut has no newline. -/
theorem newline_not_mem_take_line
    {line : List Char}
    {cut : Nat}
    (oneLine : '\n' ∉ line)
    (within : cut < (encodeUtf8 (line ++ crlf)).length) :
    newline ∉ (encodeUtf8 (line ++ crlf)).take cut := by
  have split :
      encodeUtf8 (line ++ crlf) = encodeUtf8 (line ++ ['\r']) ++ [newline] := by
    simp [encodeUtf8, crlf, newline, String.utf8EncodeChar]
  rw [split] at within ⊢
  rw [List.length_append, List.length_singleton] at within
  rw [List.take_append_of_le_length (by omega)]
  intro member
  exact newline_not_mem_encodeUtf8 (by simp [oneLine])
    (List.mem_of_mem_take member)

/-- A cut after a part leaves the part and a cut of the rest. -/
theorem take_append_of_le
    {part later : List UInt8}
    {cut : Nat}
    (beyond : part.length ≤ cut) :
    (part ++ later).take cut = part ++ later.take (cut - part.length) := by
  rw [List.take_append, List.take_of_length_le beyond]

section Place

variable
  {later : List UInt8}
  {cut : Nat}

/-- A chunk is followed by its line end. -/
theorem chunk_bytes_append (chunk : Chunk) (later : List UInt8) :
    chunk.bytes ++ later =
      encodeUtf8 chunk.sizeLine.line ++
        (chunk.data ++ (encodeUtf8 crlf ++ later)) := by
  simp only [Chunk.bytes, List.append_assoc]

theorem length_chunk_bytes (chunk : Chunk) :
    chunk.bytes.length =
      (encodeUtf8 chunk.sizeLine.line).length + chunk.data.length + 2 := by
  have two : (encodeUtf8 crlf).length = 2 := by
    decide
  rw [Chunk.bytes, List.length_append, List.length_append, two]

section Chunks

variable
  {chunk : Chunk}
  {others : List Chunk}

theorem brokenChunks?_inLine
    (inLine : cut < (encodeUtf8 chunk.sizeLine.line).length) :
    brokenChunks? (chunk :: others) cut = none := by
  rw [brokenChunks?, if_pos inLine]

theorem brokenChunks?_inData
    (afterLine : ¬ cut < (encodeUtf8 chunk.sizeLine.line).length)
    (inData :
      cut < (encodeUtf8 chunk.sizeLine.line).length + chunk.data.length) :
    brokenChunks? (chunk :: others) cut = some [chunk] := by
  rw [brokenChunks?, if_neg afterLine, if_pos inData]

theorem brokenChunks?_inEnd
    (afterData :
      ¬ cut < (encodeUtf8 chunk.sizeLine.line).length + chunk.data.length)
    (inEnd : cut < chunk.bytes.length) :
    brokenChunks? (chunk :: others) cut = none := by
  have afterLine : ¬ cut < (encodeUtf8 chunk.sizeLine.line).length := by
    omega
  rw [brokenChunks?, if_neg afterLine, if_neg afterData, if_pos inEnd]

theorem brokenChunks?_later
    (afterChunk : ¬ cut < chunk.bytes.length) :
    brokenChunks? (chunk :: others) cut =
      (brokenChunks? others (cut - chunk.bytes.length)).map
        (chunk :: ·) := by
  have whole := length_chunk_bytes chunk
  have afterData :
      ¬ cut <
        (encodeUtf8 chunk.sizeLine.line).length + chunk.data.length := by
    omega
  have afterLine : ¬ cut < (encodeUtf8 chunk.sizeLine.line).length := by
    omega
  rw [brokenChunks?, if_neg afterLine, if_neg afterData, if_neg afterChunk]

/-- The chunks up to a cut begin with the first one. -/
theorem exists_cons_of_brokenChunks?
    {upTo : List Chunk}
    (isBroken : brokenChunks? (chunk :: others) cut = some upTo) :
    ∃ more, upTo = chunk :: more := by
  rw [brokenChunks?] at isBroken
  split at isBroken
  · cases isBroken
  · split at isBroken
    · exact ⟨[], (Option.some.inj isBroken).symm⟩
    · split at isBroken
      · cases isBroken
      · obtain ⟨more, _, rfl⟩ := Option.map_eq_some_iff.mp isBroken
        exact ⟨more, rfl⟩

end Chunks

/-- A line end that is cut has no newline. -/
theorem newline_not_mem_lineEnd
    {count : Nat}
    (short : count < 2) :
    newline ∉ (encodeUtf8 crlf ++ later).take count := by
  have within : count < (encodeUtf8 ([] ++ crlf)).length := by
    have two : (encodeUtf8 ([] ++ crlf)).length = 2 := by
      decide
    omega
  have isEnd : encodeUtf8 crlf = encodeUtf8 ([] ++ crlf) := rfl
  rw [isEnd, List.take_append_of_le_length (Nat.le_of_lt within)]
  exact newline_not_mem_take_line (by simp) within

/-- A cut after a chunk leaves its line end whole. -/
theorem take_lineEnd
    {chunk : Chunk}
    (afterChunk : chunk.bytes.length ≤ cut) :
    (encodeUtf8 crlf ++ later).take
        (cut - (encodeUtf8 chunk.sizeLine.line).length -
          chunk.data.length) =
      encodeUtf8 crlf ++ later.take (cut - chunk.bytes.length) := by
  have whole := length_chunk_bytes chunk
  have two : (encodeUtf8 crlf).length = 2 := by
    decide
  have place :
      cut - (encodeUtf8 chunk.sizeLine.line).length - chunk.data.length -
          (encodeUtf8 crlf).length =
        cut - chunk.bytes.length := by
    omega
  rw [take_append_of_le (by omega), place]

end Place

/-! ## Readers of chunks -/

/--
What a reader of chunks does when its source breaks off.  `quiet state reader`
says that what it makes of the rest is not told from a whole body.
-/
structure CutReader (State : Type) (back : List (Event IoError)) where
  quiet : State → Reader → Prop
  /-- A chunk before which the reader ends. -/
  refuses : State → Chunk → Prop
  next : State → Chunk → State
  cutLine :
    ∀ state reader bytes,
      Broken back →
      Holds reader bytes back →
      newline ∉ bytes →
        quiet state reader
  lastLine :
    ∀ state reader rest (last : SizeLine),
      Broken back →
      Holds reader (encodeUtf8 last.line ++ rest) back →
      last.size = 0 →
        quiet state reader
  refused :
    ∀ state reader rest chunk,
      Broken back ∨ chunk.data.length < 2 ^ 64 →
      Holds reader (encodeUtf8 chunk.sizeLine.line ++ rest) back →
      refuses state chunk →
        quiet state reader
  cutData :
    ∀ state reader data chunk,
      Broken back →
      Holds reader (encodeUtf8 chunk.sizeLine.line ++ data) back →
      ¬ refuses state chunk →
      data.length < chunk.data.length →
        (quiet state reader ↔ ¬ BreaksHard back)
  cutEnd :
    ∀ state reader lineEnd chunk,
      Broken back →
      Holds reader
        (encodeUtf8 chunk.sizeLine.line ++ (chunk.data ++ lineEnd)) back →
      ¬ refuses state chunk →
      lineEnd.length < 2 →
      newline ∉ lineEnd →
        quiet state reader
  whole :
    ∀ state reader rest chunk,
      Holds reader
        (encodeUtf8 chunk.sizeLine.line ++
          (chunk.data ++ (encodeUtf8 crlf ++ rest))) back →
      ¬ refuses state chunk →
        ∃ after,
          Holds after rest back ∧
            (quiet state reader ↔ quiet (next state chunk) after)

namespace CutReader

variable {State : Type} (cutReader : CutReader State back)

/-- No chunk is refused. -/
def AcceptsAll : State → List Chunk → Prop
  | _, [] =>
      True
  | state, chunk :: others =>
      ¬ cutReader.refuses state chunk ∧
        AcceptsAll (cutReader.next state chunk) others

/-- The source breaks hard within the data of a chunk that is read. -/
def Fails (state : State) (chunks : List Chunk) (cut : Nat) : Prop :=
  ∃ upTo,
    brokenChunks? chunks cut = some upTo ∧
      cutReader.AcceptsAll state upTo ∧
      BreaksHard back

variable
  {cutReader}
  {state : State}
  {chunk : Chunk}
  {others : List Chunk}
  {cut : Nat}

theorem not_fails_of_none
    {chunks : List Chunk}
    (isNone : brokenChunks? chunks cut = none) :
    ¬ cutReader.Fails state chunks cut := by
  rintro ⟨upTo, isSome, _⟩
  rw [isNone] at isSome
  cases isSome

theorem not_fails_of_refused
    (refuses : cutReader.refuses state chunk) :
    ¬ cutReader.Fails state (chunk :: others) cut := by
  rintro ⟨upTo, isBroken, accepts, _⟩
  obtain ⟨more, rfl⟩ := exists_cons_of_brokenChunks? isBroken
  exact accepts.1 refuses

theorem fails_inData
    (accepts : ¬ cutReader.refuses state chunk)
    (isBroken : brokenChunks? (chunk :: others) cut = some [chunk]) :
    cutReader.Fails state (chunk :: others) cut ↔ BreaksHard back := by
  constructor
  · rintro ⟨_, _, _, hard⟩
    exact hard
  · intro hard
    exact ⟨[chunk], isBroken, ⟨accepts, trivial⟩, hard⟩

theorem fails_later
    (accepts : ¬ cutReader.refuses state chunk)
    (afterChunk : ¬ cut < chunk.bytes.length) :
    cutReader.Fails state (chunk :: others) cut ↔
      cutReader.Fails (cutReader.next state chunk) others
        (cut - chunk.bytes.length) := by
  simp only [Fails, brokenChunks?_later afterChunk, Option.map_eq_some_iff]
  constructor
  · rintro ⟨_, ⟨more, isBroken, rfl⟩, acceptsAll, hard⟩
    exact ⟨more, isBroken, acceptsAll.2, hard⟩
  · rintro ⟨more, isBroken, acceptsAll, hard⟩
    exact ⟨chunk :: more, ⟨more, isBroken, rfl⟩, ⟨accepts, acceptsAll⟩,
      hard⟩

/--
Chunks that are cut are taken for a whole body unless the source breaks hard
within the data of a chunk that is read.
-/
theorem quiet_cut
    (cutReader : CutReader State back)
    (chunks : List Chunk)
    {last : SizeLine}
    {later : List UInt8}
    (cut : Nat)
    (state : State)
    (broken : Broken back)
    (zero : last.size = 0)
    (holds :
      Holds reader
        ((chunks.flatMap Chunk.bytes ++
          (encodeUtf8 last.line ++ later)).take cut) back) :
    cutReader.quiet state reader ↔ ¬ cutReader.Fails state chunks cut := by
  induction chunks generalizing cut state reader with
  | nil =>
      refine iff_of_true ?_ (not_fails_of_none rfl)
      rw [List.flatMap_nil, List.nil_append] at holds
      by_cases inLine : cut < (encodeUtf8 last.line).length
      · rw [List.take_append_of_le_length (Nat.le_of_lt inLine)] at holds
        exact cutReader.cutLine state reader _ broken holds
          (newline_not_mem_take_line (newline_not_mem_sizeLine last) inLine)
      · rw [take_append_of_le (Nat.not_lt.mp inLine)] at holds
        exact cutReader.lastLine state reader _ last broken holds zero
  | cons chunk others inductionHypothesis =>
      rw [List.flatMap_cons, List.append_assoc, chunk_bytes_append] at holds
      by_cases inLine : cut < (encodeUtf8 chunk.sizeLine.line).length
      · rw [List.take_append_of_le_length (Nat.le_of_lt inLine)] at holds
        refine iff_of_true ?_
          (not_fails_of_none (brokenChunks?_inLine inLine))
        exact cutReader.cutLine state reader _ broken holds
          (newline_not_mem_take_line
            (newline_not_mem_sizeLine chunk.sizeLine) inLine)
      · rw [take_append_of_le (Nat.not_lt.mp inLine)] at holds
        by_cases refuses : cutReader.refuses state chunk
        · exact iff_of_true
            (cutReader.refused state reader _ chunk (.inl broken) holds
              refuses)
            (not_fails_of_refused refuses)
        · by_cases inData :
              cut <
                (encodeUtf8 chunk.sizeLine.line).length + chunk.data.length
          · rw [List.take_append_of_le_length (by omega)] at holds
            rw [fails_inData refuses (brokenChunks?_inData inLine inData)]
            apply cutReader.cutData state reader _ chunk broken holds refuses
            rw [List.length_take]
            omega
          · have size := length_chunk_bytes chunk
            rw [take_append_of_le (by omega)] at holds
            by_cases inEnd : cut < chunk.bytes.length
            · refine iff_of_true ?_
                (not_fails_of_none (brokenChunks?_inEnd inData inEnd))
              apply cutReader.cutEnd state reader _ chunk broken holds refuses
              · rw [List.length_take]
                omega
              · exact newline_not_mem_lineEnd (by omega)
            · rw [take_lineEnd (Nat.not_lt.mp inEnd)] at holds
              obtain ⟨after, held, same⟩ :=
                cutReader.whole state reader _ chunk holds refuses
              rw [same, inductionHypothesis _ _ held,
                fails_later refuses inEnd]

/--
Chunks of which one is refused are taken for a whole body, whatever follows.
-/
theorem quiet_refused
    (cutReader : CutReader State back)
    (chunks : List Chunk)
    {later : List UInt8}
    (state : State)
    (sized : ∀ chunk ∈ chunks, chunk.data.length < 2 ^ 64)
    (refuses : ¬ cutReader.AcceptsAll state chunks)
    (holds : Holds reader (chunks.flatMap Chunk.bytes ++ later) back) :
    cutReader.quiet state reader := by
  induction chunks generalizing state reader with
  | nil =>
      exact absurd trivial refuses
  | cons chunk others inductionHypothesis =>
      obtain ⟨chunkSized, othersSized⟩ := List.forall_mem_cons.mp sized
      rw [List.flatMap_cons, List.append_assoc, chunk_bytes_append] at holds
      by_cases refusesChunk : cutReader.refuses state chunk
      · exact cutReader.refused state reader _ chunk (.inr chunkSized)
          holds refusesChunk
      · obtain ⟨after, held, same⟩ :=
          cutReader.whole state reader _ chunk holds refusesChunk
        rw [same]
        apply inductionHypothesis _ othersSized _ held
        intro acceptsOthers
        exact refuses ⟨refusesChunk, acceptsOthers⟩

end CutReader

/-! ## The buffered path -/

section CutBuffered

variable
  {body : List UInt8}

/-- The data of an accepted chunk is read whole. -/
theorem readChunkedBody_of_accepted
    (collectTrailers : Bool)
    {chunk : Chunk}
    {after : Reader}
    {lineEnd : List UInt8}
    (isLine : readTextLine reader = (.ok chunk.sizeLine.line, after))
    (accepted : ¬ RefusesLine body.length chunk.sizeLine.line)
    (held : Holds after (chunk.data ++ lineEnd) back) :
    ∃ afterData,
      Holds afterData lineEnd back ∧
        ∀ next,
          skipLine afterData = some next →
            readChunkedBody collectTrailers body reader =
              readChunkedBody collectTrailers (body ++ chunk.data)
                next := by
  simp only [RefusesLine, not_or] at accepted
  obtain ⟨nonempty, short, more, small, fits⟩ := accepted
  have size : chunkSize chunk.sizeLine.line = chunk.data.length :=
    (chunkSize_chunk_cases chunk).resolve_left more
  have positive := List.length_pos_iff.mpr chunk.nonempty
  obtain ⟨afterData, isData, dataHeld⟩ :=
    readLoop_spec chunk.data lineEnd [] held positive
  refine ⟨afterData, dataHeld, ?_⟩
  intro next skipped
  apply readChunkedBody_of_chunk isLine nonempty short more
    (not_or.mpr ⟨small, fits⟩) _ skipped
  rw [size]
  exact isData

/-- `read_chunked_body` at a break. -/
def bufferedReader
    (collectTrailers : Bool)
    (back : List (Event IoError)) :
    CutReader (List UInt8) back where
  quiet body reader :=
    Succeeds (readChunkedBody collectTrailers body reader)
  refuses body chunk := RefusesLine body.length chunk.sizeLine.line
  next body chunk := body ++ chunk.data
  cutLine := by
    intro body reader bytes broken holds oneLine
    exact readChunkedBody_of_cut_line holds broken oneLine
  lastLine := by
    intro body reader rest last broken holds zero
    obtain ⟨after, isLine, held⟩ := readTextLine_sizeLine last holds
    exact readChunkedBody_of_line isLine (fun _ => held.ends broken.ends)
      (.inr (.inr (.inl (chunkSize_last zero))))
  refused := by
    intro body reader rest chunk ends holds refuses
    obtain ⟨after, isLine, held⟩ :=
      readTextLine_sizeLine chunk.sizeLine holds
    apply readChunkedBody_of_line isLine _ refuses
    intro isZero
    rcases ends with broken | sized
    · exact held.ends broken.ends
    · rw [chunkSize_chunk sized] at isZero
      exact absurd (List.length_eq_zero_iff.mp isZero) chunk.nonempty
  cutData := by
    intro body reader data chunk broken holds accepts short
    obtain ⟨after, isLine, held⟩ :=
      readTextLine_sizeLine chunk.sizeLine holds
    have size : chunkSize chunk.sizeLine.line = chunk.data.length := by
      simp only [RefusesLine, not_or] at accepts
      exact (chunkSize_chunk_cases chunk).resolve_left accepts.2.2.1
    rw [← size] at short
    exact readChunkedBody_of_data isLine accepts held broken short
  cutEnd := by
    intro body reader lineEnd chunk broken holds accepts _ oneLine
    obtain ⟨after, isLine, held⟩ :=
      readTextLine_sizeLine chunk.sizeLine holds
    obtain ⟨afterData, dataHeld, goesOn⟩ :=
      readChunkedBody_of_accepted collectTrailers isLine accepts held
    obtain ⟨rest, skipped, restBroken⟩ :=
      skipLine_broken dataHeld broken oneLine
    rw [goesOn _ skipped]
    exact readChunkedBody_drained restBroken
  whole := by
    intro body reader rest chunk holds accepts
    obtain ⟨after, isLine, held⟩ :=
      readTextLine_sizeLine chunk.sizeLine holds
    obtain ⟨afterData, dataHeld, goesOn⟩ :=
      readChunkedBody_of_accepted collectTrailers isLine accepts held
    obtain ⟨next, skipped, nextHeld⟩ :=
      @skipLine_spec _ _ _ [] dataHeld (by simp)
    exact ⟨next, nextHeld, by rw [goesOn _ skipped]⟩

/-- The chunks are within the limits of the buffered path. -/
def BufferedWithin (total : Nat) (chunks : List Chunk) : Prop :=
  (∀ chunk ∈ chunks, BufferedChunk chunk) ∧
    total + (chunksData chunks).length ≤ chunkedMaxBody

theorem acceptsAll_bufferedReader
    {collectTrailers : Bool}
    (fits : body.length ≤ chunkedMaxBody)
    (chunks : List Chunk) :
    (bufferedReader collectTrailers back).AcceptsAll body chunks ↔
      BufferedWithin body.length chunks := by
  induction chunks generalizing body with
  | nil =>
      exact iff_of_true trivial ⟨nofun, fits⟩
  | cons chunk others inductionHypothesis =>
      have accepts :
          ¬ RefusesLine body.length chunk.sizeLine.line ↔
            BufferedChunk chunk ∧
              (body ++ chunk.data).length ≤ chunkedMaxBody := by
        rw [refusesLine_iff, not_not, List.length_append]
      have total :
          body.length + (chunksData (chunk :: others)).length =
            (body ++ chunk.data).length + (chunksData others).length := by
        simp [chunksData]
        omega
      constructor
      · rintro ⟨accepted, acceptsOthers⟩
        obtain ⟨isBuffered, fitsChunk⟩ := accepts.mp accepted
        obtain ⟨othersBuffered, fitsOthers⟩ :=
          (inductionHypothesis fitsChunk).mp acceptsOthers
        refine ⟨List.forall_mem_cons.mpr ⟨isBuffered, othersBuffered⟩, ?_⟩
        rw [total]
        exact fitsOthers
      · rintro ⟨allBuffered, fitsAll⟩
        obtain ⟨isBuffered, othersBuffered⟩ :=
          List.forall_mem_cons.mp allBuffered
        rw [total] at fitsAll
        have fitsChunk : (body ++ chunk.data).length ≤ chunkedMaxBody := by
          omega
        exact ⟨accepts.mpr ⟨isBuffered, fitsChunk⟩,
          (inductionHypothesis fitsChunk).mpr ⟨othersBuffered, fitsAll⟩⟩

end CutBuffered

/-! ## The streaming path -/

/-- Every piece is data. -/
def AllData (pieces : Pieces) : Prop :=
  ∀ piece ∈ pieces, ∃ bytes, piece = .ok bytes

theorem AllData.append
    {pieces : Pieces}
    (allData : AllData pieces)
    (bytes : List UInt8) :
    AllData (pieces ++ [.ok bytes]) := by
  intro piece member
  rcases List.mem_append.mp member with wasThere | isNew
  · exact allData piece wasThere
  · exact ⟨bytes, List.mem_singleton.mp isNew⟩

/-- The bytes that a piece brings to the client. -/
def pieceBytes : Except IoError (List UInt8) → List UInt8
  | .ok bytes =>
      bytes
  | .error _ =>
      []

/-- The bytes that the client gets, in order. -/
def delivered (pieces : Pieces) : List UInt8 :=
  pieces.flatMap pieceBytes

theorem delivered_append
    (pieces : Pieces)
    (piece : Except IoError (List UInt8)) :
    delivered (pieces ++ [piece]) =
      delivered pieces ++ pieceBytes piece := by
  simp [delivered]

/-- Nothing tells the body from a whole one. -/
def ReplyBody.Complete : ReplyBody → Prop
  | .streamed pieces =>
      AllData pieces
  | _ =>
      True

/-- A client that takes every piece. -/
def takesAll (_ : Nat) : Bool :=
  true

section CutStreamed

variable
  {pieces : Pieces}

/-- A size line after which the streaming task reads no data. -/
def RefusesStream (line : List Char) : Prop :=
  line = [] ∨ maxSizeLine < byteLength line ∨ chunkSize line = 0 ∨
    streamChunkedMaxChunk < chunkSize line

/-- The limits of the streaming path on a single chunk. -/
def StreamedChunk (chunk : Chunk) : Prop :=
  byteLength chunk.sizeLine.line ≤ maxSizeLine ∧
    chunk.data.length ≤ streamChunkedMaxChunk

theorem streamChunked_drained
    (broken : Broken back) :
    (streamChunked takesAll pieces ⟨[], back⟩).1 = pieces := by
  rw [streamChunked_eq]
  rcases readTextLine_drained broken with isLine | ⟨_, _, _, isLine⟩
  · rw [isLine]
    rfl
  · rw [isLine]

theorem streamChunked_of_line
    {line : List Char}
    {after : Reader}
    (isLine : readTextLine reader = (.ok line, after))
    (refuses : RefusesStream line) :
    (streamChunked takesAll pieces reader).1 = pieces := by
  rw [streamChunked_eq, isLine]
  simp only
  split
  · rfl
  · next nonempty =>
      split
      · rfl
      · next short =>
          split
          · rfl
          · next small =>
              have isZero : chunkSize line = 0 := by
                rcases refuses with isNil | long | isZero | large
                · exact absurd isNil nonempty
                · exact absurd long short
                · exact isZero
                · exact absurd large small
              rw [if_pos isZero]
              split <;> rfl

/-- Data that is cut short ends the task, with an error if it breaks hard. -/
theorem streamChunked_of_data
    {line : List Char}
    {after : Reader}
    {data : List UInt8}
    (isLine : readTextLine reader = (.ok line, after))
    (accepts : ¬ RefusesStream line)
    (holds : Holds after data back)
    (broken : Broken back)
    (short : data.length < chunkSize line)
    (allData : AllData pieces) :
    AllData (streamChunked takesAll pieces reader).1 ↔
      ¬ BreaksHard back := by
  simp only [RefusesStream, not_or] at accepts
  obtain ⟨nonempty, shortLine, more, fits⟩ := accepts
  have isData :=
    readLoop_broken [] holds broken short (Nat.pos_of_ne_zero more)
  cases back with
  | nil =>
      have ended :
          (streamChunked takesAll pieces reader).1 = pieces := by
        rw [streamChunked_eq, isLine]
        simp only [isData, loopBreak, if_neg nonempty, if_neg shortLine,
          if_neg more, if_neg fits]
      rw [ended]
      refine iff_of_true allData ?_
      rintro ⟨_, _, isNil, _⟩
      cases isNil
  | cons event rest =>
      obtain ⟨error, rfl⟩ := broken event List.mem_cons_self
      by_cases soft : error.kind = .unexpectedEof
      · have ended :
            (streamChunked takesAll pieces reader).1 = pieces := by
          rw [streamChunked_eq, isLine]
          simp only [isData, loopBreak, if_pos soft, if_neg nonempty,
            if_neg shortLine, if_neg more, if_neg fits]
        rw [ended]
        refine iff_of_true allData ?_
        rintro ⟨_, _, isBack, hard⟩
        cases isBack
        exact hard soft
      · have ended :
            (streamChunked takesAll pieces reader).1 =
              pieces ++ [.error error] := by
          rw [streamChunked_eq, isLine]
          simp only [isData, loopBreak, if_neg soft, if_neg nonempty,
            if_neg shortLine, if_neg more, if_neg fits]
        rw [ended]
        refine iff_of_false ?_ (not_not.mpr ⟨error, rest, rfl, soft⟩)
        intro isAllData
        obtain ⟨bytes, isOk⟩ :=
          isAllData (.error error) (by simp)
        cases isOk

/-- A size line that is cut short ends the task. -/
theorem streamChunked_of_cut_line
    (holds : Holds reader bytes back)
    (broken : Broken back)
    (oneLine : newline ∉ bytes)
    (allData : AllData pieces) :
    AllData (streamChunked takesAll pieces reader).1 := by
  rcases readTextLine_broken holds broken oneLine with
    ⟨_, ⟨line, isLine⟩ | isLine⟩ | ⟨error, rest, before, _, isLine⟩
  · by_cases refuses : RefusesStream line
    · rw [streamChunked_of_line isLine refuses]
      exact allData
    · have more : 0 < chunkSize line := by
        simp only [RefusesStream, not_or] at refuses
        exact Nat.pos_of_ne_zero refuses.2.2.1
      rw [streamChunked_of_data isLine refuses (holds_nil []) broken_nil
        more allData]
      rintro ⟨_, _, isNil, _⟩
      cases isNil
  · rw [streamChunked_eq, isLine]
    exact allData
  · rw [streamChunked_eq, isLine]
    exact allData

/-- The data of an accepted chunk is sent, whatever follows it. -/
theorem streamChunked_of_accepted
    {chunk : Chunk}
    {after : Reader}
    {lineEnd : List UInt8}
    (pieces : Pieces)
    (isLine : readTextLine reader = (.ok chunk.sizeLine.line, after))
    (accepts : ¬ RefusesStream chunk.sizeLine.line)
    (held : Holds after (chunk.data ++ lineEnd) back) :
    ∃ afterData,
      Holds afterData lineEnd back ∧
        ∀ result next,
          readLoop 2 2 [] afterData = (result, next) →
          (∀ before, result ≠ .stall before) →
            streamChunked takesAll pieces reader =
              streamChunked takesAll (pieces ++ [.ok chunk.data])
                next := by
  simp only [RefusesStream, not_or] at accepts
  obtain ⟨nonempty, short, more, small⟩ := accepts
  have size : chunkSize chunk.sizeLine.line = chunk.data.length :=
    (chunkSize_chunk_cases chunk).resolve_left more
  have positive := List.length_pos_iff.mpr chunk.nonempty
  obtain ⟨afterData, isData, dataHeld⟩ :=
    readLoop_spec chunk.data lineEnd [] held positive
  rw [← size, List.nil_append] at isData
  refine ⟨afterData, dataHeld, ?_⟩
  intro result next isEnd notStall
  rw [streamChunked_eq, isLine]
  simp only [isData, isEnd, if_neg nonempty, if_neg short, if_neg small,
    if_neg more, takesAll, if_true]

/-- A chunk is refused when it exceeds a limit of the streaming path. -/
theorem refusesStream_iff (chunk : Chunk) :
    RefusesStream chunk.sizeLine.line ↔ ¬ StreamedChunk chunk := by
  have positive := List.length_pos_iff.mpr chunk.nonempty
  constructor
  · rintro refuses ⟨short, small⟩
    have size : chunkSize chunk.sizeLine.line = chunk.data.length :=
      chunkSize_chunk (Nat.lt_of_le_of_lt small (by decide))
    rw [RefusesStream, size] at refuses
    rcases refuses with isNil | long | isZero | large
    · exact sizeLine_ne_nil _ isNil
    · omega
    · omega
    · omega
  · intro exceeds
    rcases chunkSize_chunk_cases chunk with isZero | size
    · exact .inr (.inr (.inl isZero))
    · by_contra accepts
      rw [RefusesStream, size] at accepts
      simp only [not_or, not_lt] at accepts
      exact exceeds ⟨accepts.2.1, accepts.2.2.2⟩

/-- The pieces that bring some data. -/
def piecesOf (sent : List (List UInt8)) : Pieces :=
  sent.map .ok

theorem allData_piecesOf (sent : List (List UInt8)) :
    AllData (piecesOf sent) := by
  intro piece member
  obtain ⟨bytes, _, rfl⟩ := List.mem_map.mp member
  exact ⟨bytes, rfl⟩

theorem piecesOf_append (sent : List (List UInt8)) (bytes : List UInt8) :
    piecesOf (sent ++ [bytes]) = piecesOf sent ++ [.ok bytes] :=
  List.map_append

/-- The task for a chunked body at a break. -/
def streamedReader
    (back : List (Event IoError)) :
    CutReader (List (List UInt8)) back where
  quiet sent reader :=
    AllData (streamChunked takesAll (piecesOf sent) reader).1
  refuses _ chunk := RefusesStream chunk.sizeLine.line
  next sent chunk := sent ++ [chunk.data]
  cutLine := by
    intro sent reader bytes broken holds oneLine
    exact streamChunked_of_cut_line holds broken oneLine
      (allData_piecesOf sent)
  lastLine := by
    intro sent reader rest last _ holds zero
    obtain ⟨after, isLine, held⟩ := readTextLine_sizeLine last holds
    rw [streamChunked_of_line isLine
      (.inr (.inr (.inl (chunkSize_last zero))))]
    exact allData_piecesOf sent
  refused := by
    intro sent reader rest chunk _ holds refuses
    obtain ⟨after, isLine, held⟩ :=
      readTextLine_sizeLine chunk.sizeLine holds
    rw [streamChunked_of_line isLine refuses]
    exact allData_piecesOf sent
  cutData := by
    intro sent reader data chunk broken holds accepts short
    obtain ⟨after, isLine, held⟩ :=
      readTextLine_sizeLine chunk.sizeLine holds
    have size : chunkSize chunk.sizeLine.line = chunk.data.length := by
      simp only [RefusesStream, not_or] at accepts
      exact (chunkSize_chunk_cases chunk).resolve_left accepts.2.2.1
    rw [← size] at short
    exact streamChunked_of_data isLine accepts held broken short
      (allData_piecesOf sent)
  cutEnd := by
    intro sent reader lineEnd chunk broken holds accepts short _
    obtain ⟨after, isLine, held⟩ :=
      readTextLine_sizeLine chunk.sizeLine holds
    obtain ⟨afterData, dataHeld, goesOn⟩ :=
      streamChunked_of_accepted (piecesOf sent) isLine accepts held
    have isEnd :=
      readLoop_broken [] dataHeld broken short (by decide : 0 < 2)
    obtain ⟨result, rest, isBreak, notStall, restBroken⟩ :
        ∃ result rest,
          loopBreak ([] ++ lineEnd) back = (result, ⟨[], rest⟩) ∧
            (∀ before, result ≠ .stall before) ∧ Broken rest := by
      cases back with
      | nil =>
          exact ⟨_, [], rfl, nofun, broken_nil⟩
      | cons event rest =>
          obtain ⟨error, rfl⟩ := broken event List.mem_cons_self
          exact ⟨_, rest, rfl, nofun, broken.tail⟩
    rw [goesOn result _ (isEnd.trans isBreak) notStall, ← piecesOf_append,
      streamChunked_drained restBroken]
    exact allData_piecesOf _
  whole := by
    intro sent reader rest chunk holds accepts
    obtain ⟨after, isLine, held⟩ :=
      readTextLine_sizeLine chunk.sizeLine holds
    obtain ⟨afterData, dataHeld, goesOn⟩ :=
      streamChunked_of_accepted (piecesOf sent) isLine accepts held
    obtain ⟨next, isEnd, nextHeld⟩ :=
      readLoop_spec (encodeUtf8 crlf) rest [] dataHeld (by decide : 0 < 2)
    refine ⟨next, nextHeld, ?_⟩
    rw [goesOn _ next isEnd nofun, piecesOf_append]

theorem acceptsAll_streamedReader
    (sent : List (List UInt8))
    (chunks : List Chunk) :
    (streamedReader back).AcceptsAll sent chunks ↔
      ∀ chunk ∈ chunks, StreamedChunk chunk := by
  induction chunks generalizing sent with
  | nil =>
      exact iff_of_true trivial nofun
  | cons chunk others inductionHypothesis =>
      rw [List.forall_mem_cons, ← inductionHypothesis (sent ++ [chunk.data]),
        ← not_not (a := StreamedChunk chunk), ← refusesStream_iff]
      rfl

end CutStreamed

/-! ## Bodies with a length -/

/-- What the buffered path makes of fewer bytes than were announced. -/
theorem readExactBody_broken
    {length : Nat}
    (holds : Holds reader bytes back)
    (broken : Broken back)
    (short : bytes.length < min length bufferedMaxBody) :
    Succeeds (readExactBody length reader) ↔ ¬ BreaksHard back := by
  have isRead :=
    readLoop_broken [] holds broken short (by decide : 0 < 65536)
  unfold readExactBody
  rw [isRead]
  cases back with
  | nil =>
      refine iff_of_true ⟨_, _, _, rfl⟩ ?_
      rintro ⟨_, _, isNil, _⟩
      cases isNil
  | cons event rest =>
      obtain ⟨error, rfl⟩ := broken event List.mem_cons_self
      by_cases soft : error.kind = .unexpectedEof
      · simp only [loopBreak, if_pos soft]
        refine iff_of_true ⟨_, _, _, rfl⟩ ?_
        rintro ⟨_, _, isBack, hard⟩
        cases isBack
        exact hard soft
      · simp only [loopBreak, if_neg soft]
        refine iff_of_false ?_ (not_not.mpr ⟨error, rest, rfl, soft⟩)
        rintro ⟨_, _, _, isOk⟩
        cases isOk

/-- A body that is long enough for the limit is cut there. -/
theorem readExactBody_long
    {length : Nat}
    (holds : Holds reader bytes back)
    (long : min length bufferedMaxBody ≤ bytes.length) :
    Succeeds (readExactBody length reader) := by
  rw [← List.take_append_drop (min length bufferedMaxBody) bytes] at holds
  obtain ⟨after, isRead, _⟩ :=
    readLoop_spec (bytes.take (min length bufferedMaxBody)) _ [] holds
      (by decide : 0 < 65536)
  rw [List.length_take, Nat.min_eq_left long] at isRead
  rw [readExactBody, isRead]
  exact ⟨_, _, _, rfl⟩

/-- A body that ends with the connection is cut at the limit. -/
theorem readToEnd_long
    {body : List UInt8}
    (holds : Holds reader bytes back)
    (long : bufferedMaxBody < body.length + bytes.length)
    (within : body.length ≤ bufferedMaxBody) :
    ∃ all after, readToEnd body reader = (some all, after) := by
  induction lengthIs : bytes.length using Nat.strongRecOn
    generalizing bytes body reader with
  | ind length inductionHypothesis =>
      have nonempty : bytes ≠ [] := by
        rintro rfl
        rw [List.length_nil] at long
        omega
      obtain ⟨first, others, later, after, isRead, rfl, held⟩ :=
        read_some holds nonempty (by decide : 0 < 65536)
      rw [List.length_append] at lengthIs long
      rw [readToEnd]
      split
      · next isNil =>
          rw [isRead] at isNil
          cases isNil
      · next isSome =>
          rw [isRead] at isSome
          obtain ⟨sameBytes, rfl⟩ := Prod.mk.inj isSome
          rw [← Result.ok.inj sameBytes]
          split
          · exact ⟨_, _, rfl⟩
          · next small =>
              apply inductionHypothesis later.length _ held
              · rw [List.length_append, Nat.add_assoc]
                exact long
              · exact Nat.not_lt.mp small
              · rfl
              · rw [List.length_cons] at lengthIs
                omega
      · next isError =>
          rw [isRead] at isError
          cases isError
      · next isStall =>
          rw [isRead] at isStall
          cases isStall

/-- Fewer bytes than were announced are streamed, and then any error. -/
theorem streamLength_broken
    {remaining : Nat}
    {pieces : Pieces}
    (holds : Holds reader bytes back)
    (broken : Broken back)
    (short : bytes.length < remaining)
    (allData : AllData pieces) :
    AllData (streamLength takesAll remaining pieces reader).1 ↔
      back = [] := by
  refine Holds.short_induction
    (motive := fun remaining _ reader =>
      ∀ pieces,
        AllData pieces →
          (AllData (streamLength takesAll remaining pieces reader).1 ↔
            back = []))
    (by decide : 0 < streamChunk) ?_ ?_ holds short pieces allData
  · intro remaining some pieces allData
    rw [streamLength, if_neg some]
    rcases read_broken broken (min remaining streamChunk) with
      ⟨rfl, isRead⟩ | ⟨error, rest, rfl, isRead⟩
    · rw [isRead]
      exact iff_of_true allData rfl
    · rw [isRead]
      refine iff_of_false ?_ (by simp)
      intro isAllData
      obtain ⟨bytes, isOk⟩ := isAllData (.error error) (by simp)
      cases isOk
  · intro remaining first others later reader after some isRead
      inductionHypothesis pieces allData
    have takes : takesAll pieces.length = true := rfl
    rw [streamLength, if_neg some, isRead]
    dsimp only
    rw [if_pos takes]
    apply inductionHypothesis
    intro piece member
    rcases List.mem_append.mp member with wasThere | isNew
    · exact allData piece wasThere
    · exact ⟨_, List.mem_singleton.mp isNew⟩

end Sweety.UpstreamResponse
