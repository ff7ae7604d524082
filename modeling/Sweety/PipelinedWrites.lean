import Sweety.WriteBuffers

namespace Sweety.H1

/-!
# The responses of pipelined requests

The loop of `Dispatcher::_run` that answers the requests that one read brought:
it puts the head of each response into the write buffer, then the body piece by
piece, and drains the buffer when it wants no more after a piece, but not after
a head or an end.  The list of buffers takes 64 of them and panics at the next.
-/

/-- A response: its head, the coding of its body, and the body. -/
structure QueuedAnswer where
  head : List UInt8
  encoder : TransferCoding
  pieces : List (List UInt8)

variable {limit : Nat}

/-- A list buffer at the start and whenever `drain_write` has ended. -/
def ListWriteBuf.drained : ListWriteBuf limit :=
  ⟨⟨[], 0⟩, false⟩

/-- The loop over the body of a response. -/
def writeBody (encoder : TransferCoding) :
    List (List UInt8) → ListWriteBuf limit → Option (ListWriteBuf limit)
  | [], self =>
      encoder.encodeEof self
  | piece :: pieces, self => do
      let (next, later) ← encoder.encode piece self
      -- `drain_write`, with a socket that takes everything in the end
      writeBody next pieces
        (if WriteBuffer.wantWriteBuf later then later else .drained)

/-- The responses to the requests that one read brought. -/
def writeAnswers :
    List QueuedAnswer → ListWriteBuf limit → Option (ListWriteBuf limit)
  | [], self =>
      some self
  | answer :: answers, self => do
      let later ← H1BufWrite.writeBufHead answer.head self
      writeAnswers answers
        (← writeBody answer.encoder answer.pieces later)

namespace ListWriteBuf

/-- How many items the list has. -/
def count (self : ListWriteBuf limit) : Nat :=
  self.list.bufs.length

/-- The list with one more item. -/
def pushed (self : ListWriteBuf limit) (buf : EncodedBuf) :
    ListWriteBuf limit :=
  ⟨⟨self.list.bufs ++ [buf], self.list.remaining + buf.remaining⟩, false⟩

@[simp] theorem count_pushed
    (self : ListWriteBuf limit)
    (buf : EncodedBuf) :
    (self.pushed buf).count = self.count + 1 :=
  List.length_append

@[simp] theorem remaining_pushed
    (self : ListWriteBuf limit)
    (buf : EncodedBuf) :
    (self.pushed buf).list.remaining =
      self.list.remaining + buf.content.length :=
  rfl

@[simp] theorem count_drained : (drained : ListWriteBuf limit).count = 0 :=
  rfl

/-- A push works as long as there is room. -/
theorem buffer_of_lt
    {self : ListWriteBuf limit}
    (hasRoom : self.count < bufListCnt)
    (buf : EncodedBuf) :
    self.buffer buf = some (self.pushed buf) := by
  have notFull : self.list.isFull = false := by
    rw [BufList.isFull, beq_eq_false_iff_ne]
    exact Nat.ne_of_lt hasRoom
  simp [ListWriteBuf.buffer, BufList.push, notFull, pushed]

theorem buffer_of_full
    {self : ListWriteBuf limit}
    (isFull : self.count = bufListCnt)
    (buf : EncodedBuf) :
    self.buffer buf = none := by
  have isFull : self.list.isFull = true :=
    beq_iff_eq.mpr isFull
  simp [ListWriteBuf.buffer, BufList.push, isFull]

theorem wantWriteBuf_iff (self : ListWriteBuf limit) :
    WriteBuffer.wantWriteBuf self = true ↔
      self.list.remaining < limit ∧ self.count ≠ bufListCnt := by
  have isWanted :
      WriteBuffer.wantWriteBuf self =
        (decide (self.list.remaining < limit) && !self.list.isFull) := rfl
  rw [isWanted, BufList.isFull, count]
  simp

end ListWriteBuf

/-! ## Responses of one shape -/

/-- A response without a body. -/
def headAnswer (head : List UInt8) : QueuedAnswer :=
  ⟨head, .eof, []⟩

/-- A response with a length, whose body comes in one piece. -/
def sizedAnswer (response : List UInt8 × List UInt8) : QueuedAnswer :=
  ⟨response.1, .length response.2.length, [response.2]⟩

/-- A response in chunks, whose body comes in one piece. -/
def chunkedAnswer (response : List UInt8 × List UInt8) : QueuedAnswer :=
  ⟨response.1, .encodeChunked, [response.2]⟩

open ListWriteBuf

theorem writeAnswers_headAnswer_iff
    {self : ListWriteBuf limit}
    (isWithin : self.count ≤ bufListCnt)
    (heads : List (List UInt8)) :
    writeAnswers (heads.map headAnswer) self = none ↔
      bufListCnt < self.count + heads.length := by
  induction heads generalizing self with
  | nil =>
      simp only [List.map_nil, writeAnswers, reduceCtorEq, false_iff,
        List.length_nil]
      omega
  | cons head heads inductionHypothesis =>
      rcases Nat.lt_or_eq_of_le isWithin with hasRoom | isFull
      · have isWritten :
            writeAnswers ((head :: heads).map headAnswer) self =
              writeAnswers (heads.map headAnswer)
                (self.pushed (.bytes head)) := by
          rw [List.map_cons, writeAnswers]
          simp [H1BufWrite.writeBufHead, buffer_of_lt hasRoom, headAnswer,
            writeBody, TransferCoding.encodeEof]
        rw [isWritten, inductionHypothesis (by rw [count_pushed]; omega),
          count_pushed, List.length_cons]
        omega
      · have isWritten :
            writeAnswers ((head :: heads).map headAnswer) self = none := by
          rw [List.map_cons, writeAnswers]
          simp [H1BufWrite.writeBufHead, buffer_of_full isFull, headAnswer]
        simp only [isWritten, List.length_cons, true_iff]
        omega

/-- A response with a length is two items, and a full list is drained. -/
theorem writeAnswers_sizedAnswer_isSome
    {self : ListWriteBuf limit}
    {responses : List (List UInt8 × List UInt8)}
    (nonempty : ∀ response ∈ responses, response.2 ≠ [])
    (hasRoom : self.count + 2 ≤ bufListCnt)
    (isEven : self.count % 2 = 0) :
    (writeAnswers (responses.map sizedAnswer) self).isSome = true := by
  induction responses generalizing self with
  | nil =>
      rfl
  | cons response responses inductionHypothesis =>
      obtain ⟨isFirst, others⟩ := List.forall_mem_cons.mp nonempty
      let later := (self.pushed (.bytes response.1)).pushed (.bytes response.2)
      have isLater : later.count = self.count + 2 := by
        simp [later]
      have isWritten :
          writeAnswers ((response :: responses).map sizedAnswer) self =
            writeAnswers (responses.map sizedAnswer)
              (if WriteBuffer.wantWriteBuf later then later else drained) := by
        have hasRoomBehind :
            (self.pushed (.bytes response.1)).count < bufListCnt := by
          rw [count_pushed]
          omega
        rw [List.map_cons, writeAnswers]
        simp [H1BufWrite.writeBufHead, H1BufWrite.writeBufBytes,
          buffer_of_lt (show self.count < bufListCnt by omega),
          buffer_of_lt hasRoomBehind, sizedAnswer, writeBody,
          TransferCoding.encode, TransferCoding.encodeEof, isFirst, later]
      rw [isWritten]
      split_ifs with wants
      · have notFull := ((wantWriteBuf_iff later).mp wants).2
        rw [isLater] at notFull
        have isBound : bufListCnt = 64 := rfl
        exact inductionHypothesis others (by rw [isLater]; omega)
          (by rw [isLater]; omega)
      · exact inductionHypothesis others (by rw [count_drained]; decide) rfl

/-- The bytes that a response in one chunk puts into the buffer. -/
def chunkedSize (response : List UInt8 × List UInt8) : Nat :=
  response.1.length + (chunkBytes response.2).length + lastChunk.length

/--
Responses in one chunk are three items each, and the list is never full where
the loop looks, so it overflows at the twenty-second.
-/
theorem writeAnswers_chunkedAnswer_iff
    {self : ListWriteBuf limit}
    {responses : List (List UInt8 × List UInt8)}
    {before : Nat}
    (nonempty : ∀ response ∈ responses, response.2 ≠ [])
    (isCount : self.count = 3 * before)
    (isWithin : before ≤ 21)
    (isSmall :
      self.list.remaining + (responses.map chunkedSize).sum < limit) :
    writeAnswers (responses.map chunkedAnswer) self = none ↔
      22 ≤ before + responses.length := by
  have isBound : bufListCnt = 64 := rfl
  induction responses generalizing self before with
  | nil =>
      simp only [List.map_nil, writeAnswers, reduceCtorEq, false_iff,
        List.length_nil]
      omega
  | cons response responses inductionHypothesis =>
      obtain ⟨isFirst, others⟩ := List.forall_mem_cons.mp nonempty
      rw [List.map_cons, List.sum_cons] at isSmall
      let chunk := EncodedBuf.chunk
        (upperHex response.2.length ++ crlfBytes) response.2 crlfBytes
      let second := (self.pushed (.bytes response.1)).pushed chunk
      have hasRoom : self.count < bufListCnt := by
        omega
      rcases Nat.lt_or_eq_of_le isWithin with isLess | rfl
      · have hasRoomSecond :
            (self.pushed (.bytes response.1)).count < bufListCnt := by
          rw [count_pushed]
          omega
        have isSecond : second.count = 3 * before + 2 := by
          simp [second, isCount]
        have isRemaining :
            second.list.remaining + lastChunk.length =
              self.list.remaining + chunkedSize response := by
          simp only [second, chunk, chunkedSize, remaining_pushed,
            EncodedBuf.content, chunkBytes, List.length_append]
          omega
        have wants : WriteBuffer.wantWriteBuf second = true := by
          refine (wantWriteBuf_iff second).mpr ⟨by omega, ?_⟩
          rw [isSecond, isBound]
          omega
        have isEncoded :
            TransferCoding.encodeChunked.encode response.2
                (self.pushed (.bytes response.1)) =
              some (.encodeChunked, second) := by
          simp [TransferCoding.encode, isFirst,
            H1BufWrite.writeBufBytesChunked, buffer_of_lt hasRoomSecond,
            second, chunk]
        have isEnded :
            TransferCoding.encodeChunked.encodeEof second =
              some (second.pushed (.static lastChunk)) :=
          buffer_of_lt (by omega) _
        have isWritten :
            writeAnswers ((response :: responses).map chunkedAnswer) self =
              writeAnswers (responses.map chunkedAnswer)
                (second.pushed (.static lastChunk)) := by
          rw [List.map_cons, writeAnswers]
          simp [H1BufWrite.writeBufHead, buffer_of_lt hasRoom,
            chunkedAnswer, writeBody, isEncoded, wants, isEnded]
        have isThird :
            (second.pushed (.static lastChunk)).count =
              3 * (before + 1) := by
          rw [count_pushed, isSecond]
          omega
        have staysSmall :
            (second.pushed (.static lastChunk)).list.remaining +
              (responses.map chunkedSize).sum < limit := by
          simp only [remaining_pushed, EncodedBuf.content]
          omega
        have isLater := inductionHypothesis others isThird isLess staysSmall
        rw [isWritten]
        refine isLater.trans ?_
        rw [List.length_cons]
        omega
      · have isFull :
            (self.pushed (.bytes response.1)).count = bufListCnt := by
          rw [count_pushed, isCount, isBound]
        have isWritten :
            writeAnswers ((response :: responses).map chunkedAnswer) self =
              none := by
          rw [List.map_cons, writeAnswers]
          simp [H1BufWrite.writeBufHead, buffer_of_lt hasRoom, chunkedAnswer,
            writeBody, TransferCoding.encode, isFirst,
            H1BufWrite.writeBufBytesChunked, buffer_of_full isFull]
        simp only [isWritten, List.length_cons, true_iff]
        omega

/--
Requests that arrive in one read are answered into the list before it is
drained.  Answers without a body make the connection panic from the sixty-fifth
on, answers of one chunk from the twenty-second on unless they fill the buffer
before, and answers of one piece with a length never.
-/
theorem writeAnswers_overflow_iff
    {heads : List (List UInt8)}
    {responses : List (List UInt8 × List UInt8)}
    (nonempty : ∀ response ∈ responses, response.2 ≠ [])
    (isSmall : (responses.map chunkedSize).sum < limit) :
    (writeAnswers (heads.map headAnswer) (drained : ListWriteBuf limit) =
        none ↔ 64 < heads.length) ∧
      (writeAnswers (responses.map chunkedAnswer)
          (drained : ListWriteBuf limit) = none ↔ 22 ≤ responses.length) ∧
        (writeAnswers (responses.map sizedAnswer)
          (drained : ListWriteBuf limit)).isSome = true := by
  refine ⟨?_, ?_, ?_⟩
  · have isHeads := writeAnswers_headAnswer_iff
      (show (drained : ListWriteBuf limit).count ≤ bufListCnt from
        Nat.zero_le _) heads
    rwa [count_drained, Nat.zero_add] at isHeads
  · have isChunked := writeAnswers_chunkedAnswer_iff nonempty
      (show (drained : ListWriteBuf limit).count = 3 * 0 from rfl)
      (Nat.zero_le 21) (by simpa [drained] using isSmall)
    rwa [Nat.zero_add] at isChunked
  · exact writeAnswers_sizedAnswer_isSome nonempty
      (show 0 + 2 ≤ 64 by decide) rfl

theorem writeAnswers_overflow_sixty_five :
    (writeAnswers ((List.replicate 65 [72]).map headAnswer)
        (drained : ListWriteBuf 65536) = none ↔
          64 < (List.replicate 65 [(72 : UInt8)]).length) ∧
      (writeAnswers ([([72], [33])].map chunkedAnswer)
          (drained : ListWriteBuf 65536) = none ↔
            22 ≤ [([(72 : UInt8)], [(33 : UInt8)])].length) ∧
        (writeAnswers ([([72], [33])].map sizedAnswer)
          (drained : ListWriteBuf 65536)).isSome = true :=
  writeAnswers_overflow_iff (by decide) (by decide)

end Sweety.H1
