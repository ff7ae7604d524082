import Sweety.ChunkedGrammar

namespace Sweety.H1

/-!
# Bodies that the encoder wrote, read again

What the encoder of the HTTP/1 server writes for the pieces of a body is read
back by the decoder from any segments: the same data, and what follows the body
is left.  With a length this needs as many bytes as were announced; the encoder
cuts a longer body off, but a shorter one takes what follows it.
-/

open TransferCoding ItemMachine

/-! ## Chunked bodies -/

/-- The upper-case digits of a size have its value. -/
theorem hexFold_upperHex (number : Nat) :
    hexFold 0 (upperHex number) = number ∧
      ∀ digit ∈ upperHex number, (hexDigit? digit).isSome = true := by
  have isDigit : ∀ digit < 16,
      hexDigit? (UInt8.ofNat (Nat.digitChar digit).toUpper.toNat) =
        some digit := by
    decide
  induction number using Nat.strongRecOn with
  | ind number inductionHypothesis =>
      by_cases isOne : number < 16
      · simp [upperHex, Nat.toDigits_of_lt_base isOne, hexFold,
          isDigit number isOne]
      · have isLast := isDigit (number % 16) (Nat.mod_lt _ (by omega))
        have isSplit :
            upperHex number = upperHex (number / 16) ++
              [UInt8.ofNat (Nat.digitChar (number % 16)).toUpper.toNat] := by
          rw [upperHex, Nat.toDigits_of_base_le (by omega) (by omega)]
          simp [upperHex]
        obtain ⟨hasValue, areDigits⟩ :=
          inductionHypothesis (number / 16) (by omega)
        rw [isSplit, hexFold_append, hasValue]
        constructor
        · simp only [hexFold, isLast, Option.getD_some]
          exact Nat.div_add_mod' number 16
        · simp only [List.mem_append, List.mem_singleton]
          rintro digit (isBefore | rfl)
          · exact areDigits digit isBefore
          · simp [isLast]

/-- The size line that the encoder writes. -/
def writtenLine (size : Nat) (bounded : size < 2 ^ 64) : SizeLine where
  digits := upperHex size
  extension := ⟨[], [], nofun, .inl rfl, nofun, nofun⟩
  hexadecimal := (hexFold_upperHex size).2
  bounded := by
    rw [(hexFold_upperHex size).1]
    exact bounded

/-- The chunks of the pieces that are not empty. -/
def writtenChunks :
    (pieces : List (List UInt8)) →
      (∀ piece ∈ pieces, piece.length < 2 ^ 64) → List Chunk
  | [], _ =>
      []
  | piece :: pieces, bounded =>
      let later := writtenChunks pieces
        (List.forall_mem_cons.mp bounded).2
      if nonempty : piece ≠ [] then
        ⟨writtenLine piece.length (List.forall_mem_cons.mp bounded).1, piece,
          nonempty, (hexFold_upperHex _).1⟩ :: later
      else
        later

/-- The chunked body that the encoder writes for some pieces. -/
def writtenBody
    (pieces : List (List UInt8))
    (bounded : ∀ piece ∈ pieces, piece.length < 2 ^ 64) :
    ChunkedBody where
  chunks := writtenChunks pieces bounded
  last := writtenLine 0 (by decide)
  trailers := []
  zero := (hexFold_upperHex 0).1

theorem data_writtenBody
    (pieces : List (List UInt8))
    (bounded : ∀ piece ∈ pieces, piece.length < 2 ^ 64) :
    (writtenBody pieces bounded).data = pieces.flatten := by
  induction pieces with
  | nil =>
      rfl
  | cons piece pieces inductionHypothesis =>
      have isLater :=
        inductionHypothesis (List.forall_mem_cons.mp bounded).2
      simp only [writtenBody, ChunkedBody.data, writtenChunks] at isLater ⊢
      split_ifs with nonempty
      · simp [isLater]
      · simp_all

/-- The encoder writes the chunked body of the pieces. -/
theorem encodeAll_encodeChunked
    (pieces : List (List UInt8))
    (bounded : ∀ piece ∈ pieces, piece.length < 2 ^ 64)
    (buf : List UInt8) :
    encodeChunked.encodeAll pieces buf =
      some (encodeChunked, buf ++ (writtenBody pieces bounded).bytes) := by
  induction pieces generalizing buf with
  | nil =>
      rfl
  | cons piece pieces inductionHypothesis =>
      have isLater := inductionHypothesis
        (List.forall_mem_cons.mp bounded).2
      by_cases isEmpty : piece = []
      · subst piece
        have isSkipped :
            encodeChunked.encodeAll ([] :: pieces) buf =
              encodeChunked.encodeAll pieces buf := rfl
        rw [isSkipped, isLater]
        rfl
      · have isWritten :
            encodeChunked.encodeAll (piece :: pieces) buf =
              encodeChunked.encodeAll pieces (buf ++ chunkBytes piece) := by
          rw [encodeAll, encode, if_neg isEmpty]
          rfl
        rw [isWritten, isLater]
        simp [writtenBody, ChunkedBody.bytes, writtenChunks, isEmpty,
          chunkBytes, Chunk.bytes, SizeLine.bytes, writtenLine,
          Extension.bytes]

/--
A body that the chunked encoder wrote in any pieces is read back from any
segments: the same data, then the end, and what follows the body is left.
-/
theorem feedSegments_encodeChunked
    {pieces : List (List UInt8)}
    (bounded : ∀ piece ∈ pieces, piece.length < 2 ^ 64) :
    ∃ written,
      encodeChunked.encodeAll pieces ([] : List UInt8) =
          some (encodeChunked, written) ∧
        ∀ segments left, segments.flatten = written ++ left → ∃ fed,
          feedSegments (decodeChunked .size 0) [] segments =
              some (fed, .eof, left) ∧
            fed.flatMap Fed.items = pieces.flatten.map .byte ++ [.eof] := by
  refine ⟨_, encodeAll_encodeChunked pieces bounded [], ?_⟩
  intro segments left arrives
  exact (feedSegments_iff_chunkedBody segments _ left).mpr
    ⟨writtenBody pieces bounded, arrives.symm,
      data_writtenBody pieces bounded⟩

theorem feedSegments_encodeChunked_three_pieces :
    ∃ written,
      encodeChunked.encodeAll [[104, 105], [], [33]] ([] : List UInt8) =
          some (encodeChunked, written) ∧
        ∀ segments left, segments.flatten = written ++ left → ∃ fed,
          feedSegments (decodeChunked .size 0) [] segments =
              some (fed, .eof, left) ∧
            fed.flatMap Fed.items =
              [[104, 105], [], [33]].flatten.map .byte ++ [.eof] :=
  feedSegments_encodeChunked (by decide)

/-! ## Bodies with a length -/

/-- The encoder writes as much as was announced, and counts what is missing. -/
theorem encodeAll_length
    (rem : Nat)
    (pieces : List (List UInt8))
    (buf : List UInt8) :
    (length rem).encodeAll pieces buf =
      some (length (rem - pieces.flatten.length),
        buf ++ pieces.flatten.take rem) := by
  induction pieces generalizing rem buf with
  | nil =>
      simp [encodeAll, encodeEof]
  | cons piece pieces inductionHypothesis =>
      have isEncoded :
          (length rem).encode piece buf =
            some (length (rem - piece.length), buf ++ piece.take rem) := by
        unfold encode
        split_ifs with isEmpty
        · simp [isEmpty]
        · dsimp only
          split_ifs with fits
          · rw [List.take_of_length_le fits]
            rfl
          · have noneLeft : rem - piece.length = 0 := by
              omega
            rw [noneLeft]
            rfl
      rw [encodeAll, isEncoded]
      simp only [Option.bind_eq_bind, Option.bind_some, inductionHypothesis,
        List.flatten_cons, List.length_append, List.take_append,
        List.append_assoc, Nat.sub_sub]

/-- The decoder takes as much as was announced, and leaves the rest. -/
theorem feedSegments_length
    {rem : Nat}
    (positive : 0 < rem)
    (segments : List (List UInt8)) :
    ∃ fed,
      feedSegments (length rem) [] segments =
          some (fed,
            if rem ≤ segments.flatten.length then .eof
            else length (rem - segments.flatten.length),
            segments.flatten.drop rem) ∧
        fed.flatMap Fed.items =
          (segments.flatten.take rem).map .byte ++
            if rem ≤ segments.flatten.length then [.eof] else [] := by
  obtain ⟨rem, rfl⟩ := Nat.exists_eq_succ_of_ne_zero (Nat.ne_of_gt positive)
  have isAwaiting : (length (rem + 1)).Awaiting := ⟨trivial, rfl⟩
  obtain ⟨fed, final, last, isFed, isPieces⟩ :=
    feedSegments_eq_runPieces isAwaiting [] segments
  rw [runPieces_eq rfl, List.nil_append, ← isAwaiting.bytewise_eq,
    bytewise_length] at isPieces
  split_ifs with isEnough
  · have noneLeft : rem + 1 - segments.flatten.length = 0 := by
      omega
    rw [noneLeft, bytewise_length_zero] at isPieces
    obtain ⟨isData, rfl, rfl⟩ := (Outcome.mk.injEq ..).mp isPieces
    exact ⟨fed, isFed, isData.symm⟩
  · have noneBehind : segments.flatten.drop (rem + 1) = [] :=
      List.drop_of_length_le (by omega)
    obtain ⟨missing, isMissing⟩ :=
      Nat.exists_eq_add_of_lt (Nat.not_le.mp isEnough)
    have someLeft :
        rem + 1 - segments.flatten.length = missing + 1 := by
      omega
    rw [someLeft, noneBehind, bytewise_nil] at isPieces
    obtain ⟨isData, rfl, rfl⟩ := (Outcome.mk.injEq ..).mp isPieces
    refine ⟨fed, ?_, isData.symm⟩
    rw [isFed, someLeft, noneBehind]
    rfl

/--
A body that the encoder wrote for an announced length is read back, and what
follows it is left, exactly when the pieces are at least as long as announced.
-/
theorem feedSegments_encodeLength_iff
    {rem : Nat}
    {segments : List (List UInt8)}
    {left : List UInt8}
    (positive : 0 < rem)
    (pieces : List (List UInt8))
    (arrives : ∃ coding written,
      (length rem).encodeAll pieces ([] : List UInt8) =
          some (coding, written) ∧
        segments.flatten = written ++ left) :
    (∃ fed,
      feedSegments (length rem) [] segments = some (fed, .eof, left) ∧
        fed.flatMap Fed.items =
          (pieces.flatten.take rem).map .byte ++ [.eof]) ↔
      rem ≤ pieces.flatten.length := by
  obtain ⟨coding, written, isWritten, isFlat⟩ := arrives
  rw [encodeAll_length] at isWritten
  obtain ⟨-, rfl⟩ := (Prod.mk.injEq ..).mp (Option.some.inj isWritten)
  rw [List.nil_append] at isFlat
  obtain ⟨fed, isFed, isData⟩ := feedSegments_length positive segments
  rw [isFed, isFlat]
  constructor
  · rintro ⟨other, isSame, -⟩
    by_contra tooShort
    have isWhole : pieces.flatten.take rem = pieces.flatten :=
      List.take_of_length_le (by omega)
    simp only [isWhole, List.length_append, Option.some.injEq,
      Prod.mk.injEq] at isSame
    obtain ⟨-, isEnd, isRest⟩ := isSame
    have sameLength := congrArg List.length isRest
    rw [List.length_drop, List.length_append] at sameLength
    split_ifs at isEnd with isEnough
    · omega
  · intro isEnough
    have isLength : (pieces.flatten.take rem).length = rem := by
      rw [List.length_take]
      omega
    have isCovered : rem ≤ (pieces.flatten.take rem ++ left).length := by
      rw [List.length_append]
      omega
    rw [isFlat, if_pos isCovered] at isData
    refine ⟨fed, ?_, ?_⟩
    · rw [if_pos isCovered, List.drop_append_of_le_length (by omega),
        List.drop_of_length_le (by omega), List.nil_append]
    · rw [isData, List.take_append_of_le_length (by omega),
        List.take_of_length_le (by omega)]

theorem feedSegments_encodeLength_three_of_two :
    (∃ fed,
      feedSegments (length 2) [] [[1], [2, 71]] = some (fed, .eof, [71]) ∧
        fed.flatMap Fed.items =
          ([[1], [2, 3]].flatten.take 2).map .byte ++ [.eof]) ↔
      2 ≤ [[(1 : UInt8)], [2, 3]].flatten.length :=
  feedSegments_encodeLength_iff (by decide) [[1], [2, 3]]
    ⟨_, _, encodeAll_length 2 [[1], [2, 3]] [], rfl⟩

end Sweety.H1
