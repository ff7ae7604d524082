import Sweety.ItemMachine
import Sweety.TransferCoding

namespace Sweety.H1

/-!
# Request bodies in any segments

`BodyReader::ready` decodes what the read buffer holds and waits; then the next
read is put behind what it left.  The decoder works on whole buffers, but what
it makes of a body is what it makes of its bytes one by one, so the segments in
which a body arrives do not matter.
-/

/-- What the reader feeds to the body of the request. -/
inductive Fed where
  /-- `feed_data`. -/
  | data (bytes : List UInt8)
  /-- `feed_eof`. -/
  | eof
  /-- `feed_error`. -/
  | error (error : CodecError)
  deriving Repr, DecidableEq

/-- What is taken, what is left of the bound, and what is left. -/
theorem boundedSplit_eq (rem : Nat) (buf : List UInt8) :
    boundedSplit rem buf =
      (buf.take rem, rem - buf.length, buf.drop rem) := by
  unfold boundedSplit
  split_ifs with isShort
  · simp [List.take_of_length_le isShort, List.drop_of_length_le isShort]
  · have noneLeft : rem - buf.length = 0 := by
      omega
    rw [noneLeft]

/-! ## The reader -/

/-- The steps that decoding can take at most. -/
def TransferCoding.weight (coding : TransferCoding) (src : List UInt8) : Nat :=
  match coding with
  | .eof =>
      2 * src.length
  | .decodeChunked .body _ =>
      2 * src.length + 2
  | _ =>
      2 * src.length + 1

theorem weight_le (coding : TransferCoding) (src : List UInt8) :
    coding.weight src ≤ 2 * src.length + 2 := by
  unfold TransferCoding.weight
  split <;> omega

theorem lt_weight
    {coding : TransferCoding}
    (notEof : coding ≠ .eof)
    (src : List UInt8) :
    2 * src.length < coding.weight src := by
  unfold TransferCoding.weight
  split
  · contradiction
  · omega
  · omega

/-- Data of a chunk lowers the weight. -/
theorem weight_decodeLoop_lt
    {state : ChunkedState}
    {size : Nat}
    {src data rest : List UInt8}
    {next : TransferCoding}
    (isData : decodeLoop state size src = (.ok data, next, rest)) :
    next.weight rest <
      (TransferCoding.decodeChunked state size).weight src := by
  induction src generalizing state size with
  | nil =>
      by_cases isEnded : state = .ended
      · subst state
        simp [decodeLoop_eq, ChunkedState.step] at isData
      · simp [decodeLoop_nil isEnded] at isData
  | cons byte bytes inductionHypothesis =>
      by_cases isEnded : state = .ended
      · subst state
        simp [decodeLoop_eq, ChunkedState.step] at isData
      by_cases isBody : state = .body
      · subst state
        rw [decodeLoop_body (List.cons_ne_nil byte bytes),
          boundedSplit_eq] at isData
        simp only [Prod.mk.injEq] at isData
        obtain ⟨-, rfl, rfl⟩ := isData
        cases size with
        | zero =>
            simp [TransferCoding.weight]
        | succ size =>
            have atMost := weight_le
              (.decodeChunked
                (if 0 < size + 1 - (byte :: bytes).length then .body
                  else .bodyCr)
                (size + 1 - (byte :: bytes).length))
              ((byte :: bytes).drop (size + 1))
            have isShorter :
                ((byte :: bytes).drop (size + 1)).length ≤ bytes.length := by
              simp
            simp only [TransferCoding.weight, List.length_cons] at atMost ⊢
            omega
      · rw [decodeLoop_cons isBody isEnded] at isData
        split at isData
        · simp at isData
        · simp at isData
        · split_ifs at isData with isEnd
          · simp at isData
          · have isLess := inductionHypothesis isData
            have atLeast : 2 * (bytes.length + 1) < _ :=
              lt_weight (show TransferCoding.decodeChunked state size ≠ .eof by simp)
                (byte :: bytes)
            exact Nat.lt_of_lt_of_le isLess
              (Nat.le_trans (weight_le _ _) (by omega))

/-- Data of any coding lowers the weight. -/
theorem weight_decode_lt
    {coding next : TransferCoding}
    {src data rest : List UInt8}
    (isData : coding.decode src = some (.ok data, next, rest)) :
    next.weight rest < coding.weight src := by
  unfold TransferCoding.decode at isData
  split at isData
  next => simp at isData
  next => simp at isData
  next => simp at isData
  next => simp at isData
  next rem isPositive =>
    split_ifs at isData with isEmpty
    · simp at isData
    · rw [boundedSplit_eq] at isData
      simp only [Option.some.injEq, Prod.mk.injEq] at isData
      obtain ⟨-, rfl, rfl⟩ := isData
      have positive : 0 < rem := Nat.pos_of_ne_zero (by grind)
      have nonempty := List.length_pos_iff.mpr isEmpty
      simp only [TransferCoding.weight, List.length_drop]
      omega
  next =>
    split_ifs at isData with isEmpty
    · simp at isData
    · simp only [Option.some.injEq, Prod.mk.injEq] at isData
      obtain ⟨-, rfl, rfl⟩ := isData
      have nonempty := List.length_pos_iff.mpr isEmpty
      simp only [TransferCoding.weight, List.length_nil]
      omega
  next =>
    split_ifs at isData with isEmpty
    · simp at isData
    · exact weight_decodeLoop_lt (Option.some.inj isData)
  next =>
    split_ifs at isData with isEmpty
    · simp at isData

/-- `BodyReader::ready`, up to where it waits for the body or for ever. -/
def feed (coding : TransferCoding) (src : List UInt8) :
    Option (List Fed × TransferCoding × List UInt8) :=
  match _isDecoded : coding.decode src with
  | none =>
      none
  | some (.ok bytes, next, rest) => do
      let (fed, final, left) ← feed next rest
      return (.data bytes :: fed, final, left)
  | some (.insufficientData, next, rest)
  | some (.alreadyEof, next, rest)
  | some (.corrupted, next, rest) =>
      some ([], next, rest)
  -- behind the end and behind an error the next turn waits for ever
  | some (.onEof, next, rest) =>
      some ([.eof], next, rest)
  | some (.err error, _, rest) =>
      some ([.error error], .corrupted, rest)
termination_by coding.weight src
decreasing_by
  exact weight_decode_lt _isDecoded

/-! ## Byte by byte -/

/-- What is fed, byte by byte. -/
inductive FedItem where
  | byte (byte : UInt8)
  | eof
  | error (error : CodecError)
  deriving Repr, DecidableEq

/-- The items of what is fed at once. -/
def Fed.items : Fed → List FedItem
  | .data bytes =>
      bytes.map .byte
  | .eof =>
      [.eof]
  | .error failure =>
      [.error failure]

namespace TransferCoding

/-- What a coding does before it reads a byte. -/
def settle : TransferCoding → List FedItem × TransferCoding
  | .length 0 | .decodeChunked .ended _ =>
      ([.eof], .eof)
  | .decodeChunked .body 0 =>
      ([], .decodeChunked .bodyCr 0)
  | coding =>
      ([], coding)

/-- What a coding that has settled does with a byte. -/
def readByte (coding : TransferCoding) (byte : UInt8) :
    List FedItem × TransferCoding :=
  match coding with
  | .length rem =>
      ([.byte byte], .length (rem - 1))
  | .upgrade =>
      ([.byte byte], .upgrade)
  | .decodeChunked .body size =>
      ([.byte byte], .decodeChunked .body (size - 1))
  | .decodeChunked state size =>
      match (state.readByte size byte).next with
      | .error error =>
          ([.error error], .corrupted)
      | .ok none =>
          ([], coding)
      | .ok (some next) =>
          ([], .decodeChunked next (state.readByte size byte).size)
  | coding =>
      ([], coding)

/-- The decoder byte by byte. -/
def byteMachine : ItemMachine TransferCoding UInt8 FedItem where
  stopped coding :=
    coding == .eof || coding == .corrupted
  step coding byte :=
    let (out, next) := coding.readByte byte
    (next.settle.2, out ++ next.settle.1)

/-- What a coding makes of the bytes of a buffer. -/
def bytewise (coding : TransferCoding) (src : List UInt8) :
    ItemMachine.Outcome TransferCoding UInt8 FedItem :=
  (byteMachine.run coding.settle.2 src).after coding.settle.1

/-- A coding of the reader: chunk data that is under way has a size. -/
def Decoding : TransferCoding → Prop
  | .encodeChunked =>
      False
  | .decodeChunked .body size =>
      0 < size
  | _ =>
      True

variable {coding : TransferCoding}

theorem bytewise_nil (coding : TransferCoding) :
    coding.bytewise [] = ⟨coding.settle.1, coding.settle.2, []⟩ := by
  simp [bytewise, ItemMachine.Outcome.after]

/-- A coding that reads: it has settled and has not stopped. -/
def Reading (coding : TransferCoding) : Prop :=
  coding.settle = ([], coding) ∧ coding ≠ .eof ∧ coding ≠ .corrupted

theorem bytewise_cons
    (isReading : coding.Reading)
    (byte : UInt8)
    (rest : List UInt8) :
    coding.bytewise (byte :: rest) =
      ((coding.readByte byte).2.bytewise rest).after
        (coding.readByte byte).1 := by
  obtain ⟨isSettled, notEof, notCorrupted⟩ := isReading
  have isRunning : byteMachine.stopped coding = false := by
    simp [byteMachine, notEof, notCorrupted]
  rw [bytewise, isSettled, ItemMachine.run_cons_of_running isRunning]
  simp [bytewise, byteMachine]

/-- A coding that counts the bytes of the data takes as many of them. -/
theorem bytewise_counting
    {counting : Nat → TransferCoding}
    (counts : ∀ size byte rest,
      (counting (size + 1)).bytewise (byte :: rest) =
        ((counting size).bytewise rest).after [.byte byte])
    (size : Nat)
    (src : List UInt8) :
    (counting size).bytewise src =
      ((counting (size - src.length)).bytewise (src.drop size)).after
        ((src.take size).map .byte) := by
  induction src generalizing size with
  | nil =>
      simp
  | cons byte rest inductionHypothesis =>
      cases size with
      | zero =>
          simp
      | succ size =>
          rw [counts, inductionHypothesis]
          simp

theorem bytewise_length (rem : Nat) (src : List UInt8) :
    (length rem).bytewise src =
      ((length (rem - src.length)).bytewise (src.drop rem)).after
        ((src.take rem).map .byte) := by
  refine bytewise_counting (fun size byte rest => ?_) rem src
  have isReading : (length (size + 1)).Reading :=
    ⟨rfl, nofun, nofun⟩
  exact bytewise_cons isReading byte rest

theorem bytewise_body (size : Nat) (src : List UInt8) :
    (decodeChunked .body size).bytewise src =
      ((decodeChunked .body (size - src.length)).bytewise
        (src.drop size)).after ((src.take size).map .byte) := by
  refine bytewise_counting (fun size byte rest => ?_) size src
  have isReading : (decodeChunked .body (size + 1)).Reading :=
    ⟨rfl, nofun, nofun⟩
  exact bytewise_cons isReading byte rest

theorem bytewise_upgrade (src : List UInt8) :
    upgrade.bytewise src =
      (upgrade.bytewise []).after (src.map .byte) := by
  have isReading : upgrade.Reading :=
    ⟨rfl, nofun, nofun⟩
  induction src with
  | nil =>
      rfl
  | cons byte rest inductionHypothesis =>
      rw [bytewise_cons isReading]
      exact congrArg (ItemMachine.Outcome.after [.byte byte])
        inductionHypothesis

theorem bytewise_eof (src : List UInt8) :
    eof.bytewise src = ⟨[], eof, src⟩ := by
  rw [bytewise, ItemMachine.run_of_stopped rfl]
  rfl

theorem bytewise_corrupted (src : List UInt8) :
    corrupted.bytewise src = ⟨[], corrupted, src⟩ := by
  rw [bytewise, ItemMachine.run_of_stopped rfl]
  rfl

theorem bytewise_length_zero (src : List UInt8) :
    (length 0).bytewise src = ⟨[.eof], eof, src⟩ := by
  rw [bytewise, ItemMachine.run_of_stopped rfl]
  rfl

theorem bytewise_ended (size : Nat) (src : List UInt8) :
    (decodeChunked .ended size).bytewise src = ⟨[.eof], eof, src⟩ := by
  rw [bytewise, ItemMachine.run_of_stopped rfl]
  rfl

/-- Chunk data that is used up is in front of its line end. -/
theorem bytewise_behind_body (size : Nat) (src : List UInt8) :
    (decodeChunked .body size).bytewise src =
      (decodeChunked (if 0 < size then .body else .bodyCr) size).bytewise
        src := by
  cases size with
  | zero =>
      rfl
  | succ size =>
      rfl

theorem decoding_decodeChunked
    {state : ChunkedState}
    {size : Nat}
    (hasSize : state = .body → 0 < size) :
    (decodeChunked state size).Decoding := by
  cases state with
  | body =>
      exact hasSize rfl
  | _ =>
      trivial

/-- A coding of chunks but for chunk data reads a byte as the state does. -/
theorem readByte_decodeChunked
    {state next : ChunkedState}
    {size : Nat}
    {byte : UInt8}
    (notBody : state ≠ .body)
    (isNext : (state.readByte size byte).next = .ok (some next)) :
    (decodeChunked state size).readByte byte =
      ([], .decodeChunked next (state.readByte size byte).size) := by
  cases state with
  | body =>
      exact absurd rfl notBody
  | _ =>
      simp only [readByte, isNext]

theorem readByte_decodeChunked_error
    {state : ChunkedState}
    {size : Nat}
    {byte : UInt8}
    {failure : CodecError}
    (notBody : state ≠ .body)
    (isError : (state.readByte size byte).next = .error failure) :
    (decodeChunked state size).readByte byte =
      ([.error failure], .corrupted) := by
  cases state with
  | body =>
      exact absurd rfl notBody
  | _ =>
      simp only [readByte, isError]

theorem reading_decodeChunked
    {state : ChunkedState}
    {size : Nat}
    (isDecoding : (decodeChunked state size).Decoding)
    (notEnded : state ≠ .ended) :
    (decodeChunked state size).Reading := by
  refine ⟨?_, nofun, nofun⟩
  cases state with
  | body =>
      obtain ⟨size, rfl⟩ := Nat.exists_eq_succ_of_ne_zero
        (Nat.ne_of_gt isDecoding)
      rfl
  | ended =>
      exact absurd rfl notEnded
  | _ =>
      rfl

end TransferCoding

namespace ChunkedState

variable
  {state : ChunkedState}
  {size : Nat}
  {byte : UInt8}

theorem withByte_next
    (rest : List UInt8)
    (read : UInt8 → Except CodecError ChunkedState) :
    (withByte (byte :: rest) size read).next = (read byte).map some :=
  rfl

theorem map_some_eq_ok
    {read : Except CodecError ChunkedState}
    {next : Option ChunkedState} :
    read.map some = .ok next ↔ ∃ found, next = some found ∧ read = .ok found := by
  cases read <;> simp [Except.map, eq_comm]

/-- A byte is enough for a step. -/
theorem readByte_ne_none :
    (state.readByte size byte).next ≠ .ok none := by
  intro isNone
  cases state with
  | size =>
      simp only [readByte, step, readSize] at isNone
      grind
  | body | ended =>
      simp [readByte, step, readBody] at isNone
  | _ =>
      simp only [readByte, step, withByte_next, map_some_eq_ok] at isNone
      simp at isNone

/-- Chunk data starts behind a size line with a size. -/
theorem size_pos_of_body
    (notBody : state ≠ .body)
    (isBody : (state.readByte size byte).next = .ok (some .body)) :
    0 < (state.readByte size byte).size := by
  cases state with
  | size =>
      simp only [readByte, step, readSize] at isBody
      grind
  | body =>
      exact absurd rfl notBody
  | ended =>
      simp [readByte, step] at isBody
  | sizeLf =>
      simp only [readByte, step, withByte_next, map_some_eq_ok,
        readSizeLf] at isBody
      show 0 < size
      grind
  | _ =>
      simp only [readByte, step, withByte_next, map_some_eq_ok, readSizeLws,
        readExtension, readBodyCr, readBodyLf, readTrailer, readTrailerLf,
        readEndCr, readEndLf, expect] at isBody
      grind

end ChunkedState

/-- What a call of the decoder returns says of the bytes of the buffer. -/
def ChunkResult.Makes
    (result : ChunkResult)
    (next : TransferCoding)
    (rest : List UInt8)
    (made : ItemMachine.Outcome TransferCoding UInt8 FedItem) :
    Prop :=
  next.Decoding ∧
  match result with
  | .ok data =>
      made = (next.bytewise rest).after (data.map .byte)
  | .insufficientData | .alreadyEof | .corrupted =>
      made = ⟨[], next, rest⟩
  | .onEof =>
      made = ⟨[.eof], next, rest⟩
  | .err error =>
      made = ⟨[.error error], .corrupted, rest⟩

theorem makes_decodeLoop
    {state : ChunkedState}
    {size : Nat}
    (notEnded : state ≠ .ended)
    (isDecoding : (TransferCoding.decodeChunked state size).Decoding)
    (src : List UInt8) :
    (decodeLoop state size src).1.Makes (decodeLoop state size src).2.1
      (decodeLoop state size src).2.2
      ((TransferCoding.decodeChunked state size).bytewise src) := by
  have isReading := TransferCoding.reading_decodeChunked isDecoding notEnded
  induction src generalizing state size with
  | nil =>
      rw [decodeLoop_nil notEnded, TransferCoding.bytewise_nil, isReading.1]
      exact ⟨isDecoding, rfl⟩
  | cons byte rest inductionHypothesis =>
      by_cases isBody : state = .body
      · subst state
        rw [decodeLoop_body (List.cons_ne_nil byte rest), boundedSplit_eq,
          TransferCoding.bytewise_body, TransferCoding.bytewise_behind_body]
        refine ⟨TransferCoding.decoding_decodeChunked fun isBody => ?_, rfl⟩
        by_contra noneLeft
        rw [if_neg noneLeft] at isBody
        contradiction
      · rw [decodeLoop_cons isBody notEnded,
          TransferCoding.bytewise_cons isReading]
        cases isNext : (state.readByte size byte).next with
        | error failure =>
            rw [TransferCoding.readByte_decodeChunked_error isBody isNext,
              TransferCoding.bytewise_corrupted]
            exact ⟨TransferCoding.decoding_decodeChunked
              fun isStart => absurd isStart isBody, rfl⟩
        | ok next =>
            cases next with
            | none =>
                exact absurd isNext ChunkedState.readByte_ne_none
            | some next =>
                rw [TransferCoding.readByte_decodeChunked isBody isNext]
                by_cases isEnd : next = .ended
                · subst next
                  simp only [reduceIte]
                  exact ⟨trivial, TransferCoding.bytewise_ended ..⟩
                · simp only [isEnd, reduceIte]
                  have staysDecoding :
                      (TransferCoding.decodeChunked next
                        (state.readByte size byte).size).Decoding := by
                    refine TransferCoding.decoding_decodeChunked ?_
                    rintro rfl
                    exact ChunkedState.size_pos_of_body isBody isNext
                  exact inductionHypothesis isEnd staysDecoding
                    (TransferCoding.reading_decodeChunked staysDecoding isEnd)

/-- The decoder makes of a buffer what it makes of its bytes. -/
theorem makes_decode
    {coding : TransferCoding}
    (isDecoding : coding.Decoding)
    (src : List UInt8) :
    ∃ result next rest,
      coding.decode src = some (result, next, rest) ∧
        result.Makes next rest (coding.bytewise src) := by
  unfold TransferCoding.decode
  split
  next =>
    exact ⟨_, _, _, rfl, trivial,
      TransferCoding.bytewise_length_zero _⟩
  next =>
    exact ⟨_, _, _, rfl, trivial, TransferCoding.bytewise_ended ..⟩
  next =>
    exact ⟨_, _, _, rfl, trivial, TransferCoding.bytewise_eof _⟩
  next =>
    exact ⟨_, _, _, rfl, trivial, TransferCoding.bytewise_corrupted _⟩
  next rem isPositive =>
    split_ifs with isEmpty
    · subst src
      obtain ⟨rem, rfl⟩ := Nat.exists_eq_succ_of_ne_zero
        (show rem ≠ 0 by grind)
      exact ⟨_, _, _, rfl, trivial, rfl⟩
    · rw [boundedSplit_eq]
      exact ⟨_, _, _, rfl, trivial, TransferCoding.bytewise_length ..⟩
  next =>
    split_ifs with isEmpty
    · subst src
      exact ⟨_, _, _, rfl, trivial, rfl⟩
    · exact ⟨_, _, _, rfl, trivial,
        TransferCoding.bytewise_upgrade src⟩
  next state size notEnded =>
    split_ifs with isEmpty
    · subst src
      have isReading := TransferCoding.reading_decodeChunked isDecoding
        (show state ≠ .ended by grind)
      refine ⟨_, _, _, rfl, isDecoding, ?_⟩
      rw [TransferCoding.bytewise_nil, isReading.1]
    · exact ⟨_, _, _, rfl, makes_decodeLoop (by grind) isDecoding src⟩
  next =>
    exact absurd isDecoding id

theorem makes_of_decode
    {coding next : TransferCoding}
    {src rest : List UInt8}
    {result : ChunkResult}
    (isDecoding : coding.Decoding)
    (isDecoded : coding.decode src = some (result, next, rest)) :
    result.Makes next rest (coding.bytewise src) := by
  obtain ⟨_, _, _, isSame, made⟩ := makes_decode isDecoding src
  simp only [isDecoded, Option.some.injEq, Prod.mk.injEq] at isSame
  obtain ⟨rfl, rfl, rfl⟩ := isSame
  exact made

/-- What is fed is what the bytes make, and so is what is left. -/
theorem feed_eq
    {coding : TransferCoding}
    (isDecoding : coding.Decoding)
    (src : List UInt8) :
    ∃ fed final left,
      feed coding src = some (fed, final, left) ∧
        final.Decoding ∧
          coding.bytewise src = ⟨fed.flatMap Fed.items, final, left⟩ := by
  fun_induction feed coding src with
  | case1 coding src isNone =>
      obtain ⟨result, next, rest, isDecoded, _⟩ := makes_decode isDecoding src
      simp [isNone] at isDecoded
  | case2 coding src bytes next rest isData inductionHypothesis =>
      obtain ⟨staysDecoding, isMade⟩ := makes_of_decode isDecoding isData
      obtain ⟨fed, final, left, isFed, isFinal, isBytewise⟩ :=
        inductionHypothesis staysDecoding
      refine ⟨.data bytes :: fed, final, left, ?_, isFinal, ?_⟩
      · simp [isFed]
      · rw [isMade, isBytewise]
        rfl
  | case3 coding src next rest waits
  | case4 coding src next rest waits
  | case5 coding src next rest waits =>
      obtain ⟨staysDecoding, isMade⟩ := makes_of_decode isDecoding waits
      exact ⟨[], next, rest, rfl, staysDecoding, isMade⟩
  | case6 coding src next rest isEnd =>
      obtain ⟨staysDecoding, isMade⟩ := makes_of_decode isDecoding isEnd
      exact ⟨[.eof], next, rest, rfl, staysDecoding, isMade⟩
  | case7 coding src failure next rest isError =>
      obtain ⟨-, isMade⟩ := makes_of_decode isDecoding isError
      exact ⟨[.error failure], .corrupted, rest, rfl, trivial, isMade⟩

/-! ## Segments -/

/--
The body handler of a request: what the reader left stays in the read buffer,
and the next read is put behind it.
-/
def feedSegments :
    TransferCoding → List UInt8 → List (List UInt8) →
      Option (List Fed × TransferCoding × List UInt8)
  | coding, left, [] =>
      some ([], coding, left)
  | coding, left, segment :: segments => do
      let (fed, next, rest) ← feed coding (left ++ segment)
      let (later, final, last) ← feedSegments next rest segments
      return (fed ++ later, final, last)

/-- A coding that waits for bytes, or for ever. -/
def TransferCoding.Awaiting (coding : TransferCoding) : Prop :=
  coding.Decoding ∧ coding.settle = ([], coding)

theorem settle_settle (coding : TransferCoding) :
    coding.settle.2.settle = ([], coding.settle.2) := by
  cases coding with
  | length rem =>
      cases rem <;> rfl
  | decodeChunked state size =>
      cases state with
      | body =>
          cases size <;> rfl
      | _ =>
          rfl
  | _ =>
      rfl

/-- What the reader leaves it as waits. -/
theorem awaiting_of_feed
    {coding final : TransferCoding}
    {src left : List UInt8}
    {fed : List Fed}
    (isDecoding : coding.Decoding)
    (isFed : feed coding src = some (fed, final, left)) :
    final.Awaiting ∧
      coding.bytewise src = ⟨fed.flatMap Fed.items, final, left⟩ := by
  obtain ⟨_, _, _, isSame, isFinal, isBytewise⟩ := feed_eq isDecoding src
  simp only [isFed, Option.some.injEq, Prod.mk.injEq] at isSame
  obtain ⟨rfl, rfl, rfl⟩ := isSame
  have isSettled :
      (coding.bytewise src).state.settle =
        ([], (coding.bytewise src).state) :=
    ItemMachine.state_invariant
      (fun state : TransferCoding => state.settle = ([], state))
      (fun state byte _ => settle_settle (state.readByte byte).2)
      (settle_settle coding) src
  rw [isBytewise] at isSettled
  exact ⟨⟨isFinal, isSettled⟩, isBytewise⟩

theorem TransferCoding.Awaiting.bytewise_eq
    {coding : TransferCoding}
    (isAwaiting : coding.Awaiting)
    (src : List UInt8) :
    coding.bytewise src = byteMachine.run coding src := by
  rw [bytewise, isAwaiting.2]
  rfl

/-- The reader goes over the segments as the machine over its pieces. -/
theorem feedSegments_eq_runPieces
    {coding : TransferCoding}
    (isAwaiting : coding.Awaiting)
    (left : List UInt8)
    (segments : List (List UInt8)) :
    ∃ fed final last,
      feedSegments coding left segments = some (fed, final, last) ∧
        TransferCoding.byteMachine.runPieces coding left segments =
          ⟨fed.flatMap Fed.items, final, last⟩ := by
  induction segments generalizing coding left with
  | nil =>
      exact ⟨[], coding, left, rfl, rfl⟩
  | cons segment segments inductionHypothesis =>
      obtain ⟨fed, next, rest, isFed, -, -⟩ :=
        feed_eq isAwaiting.1 (left ++ segment)
      obtain ⟨isNext, isBytewise⟩ := awaiting_of_feed isAwaiting.1 isFed
      obtain ⟨later, final, last, isLater, isPieces⟩ :=
        inductionHypothesis isNext rest
      refine ⟨fed ++ later, final, last, by simp [feedSegments, isFed, isLater],
        ?_⟩
      rw [isAwaiting.bytewise_eq] at isBytewise
      rw [ItemMachine.runPieces, isBytewise]
      simp [isPieces, ItemMachine.Outcome.after]

/--
The segments in which a body arrives do not matter: the same data, the same
end or error, the same state of the decoder, and the same bytes are left for
the next request as if the body had arrived at once.
-/
theorem feedSegments_flatten
    {coding : TransferCoding}
    (isAwaiting : coding.Awaiting)
    (segments : List (List UInt8)) :
    ∃ fed whole final left,
      feedSegments coding [] segments = some (fed, final, left) ∧
        feed coding segments.flatten = some (whole, final, left) ∧
          fed.flatMap Fed.items = whole.flatMap Fed.items := by
  obtain ⟨fed, final, left, isFed, isPieces⟩ :=
    feedSegments_eq_runPieces isAwaiting [] segments
  obtain ⟨whole, state, rest, isWhole, -, isBytewise⟩ :=
    feed_eq isAwaiting.1 segments.flatten
  rw [ItemMachine.runPieces_eq rfl, List.nil_append,
    ← isAwaiting.bytewise_eq, isBytewise] at isPieces
  obtain ⟨isSame, rfl, rfl⟩ := (ItemMachine.Outcome.mk.injEq ..).mp isPieces
  exact ⟨fed, whole, state, rest, isFed, isWhole, isSame.symm⟩

theorem feedSegments_flatten_cut_in_size_line :
    ∃ fed whole final left,
      feedSegments (.decodeChunked .size 0) []
          [[49], [13, 10, 7, 13], [10, 48, 13, 10, 13, 10, 71]] =
            some (fed, final, left) ∧
        feed (.decodeChunked .size 0)
            [49, 13, 10, 7, 13, 10, 48, 13, 10, 13, 10, 71] =
              some (whole, final, left) ∧
          fed.flatMap Fed.items = whole.flatMap Fed.items :=
  feedSegments_flatten
    (show (TransferCoding.decodeChunked .size 0).Awaiting from
      ⟨trivial, rfl⟩)
    [[49], [13, 10, 7, 13], [10, 48, 13, 10, 13, 10, 71]]

end Sweety.H1
