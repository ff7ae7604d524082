import Sweety.WsProxy

namespace Sweety.WsProxy

open HttpText SegmentedReader UpstreamResponse FirstOccurrence

/-!
# The WebSocket relay is byte-exact

What the upstream has accepted, with what is pending, is what was taken from the
client: each write moves bytes from the pending data to the accepted ones, and a
new chunk is taken only when nothing is pending.  In the other direction each
item is taken off the front of what the upstream has sent after its head, and a
poll neither drops nor repeats any of it.
-/

/-! ## From the client to the upstream -/

/-- What is to be written, or nothing. -/
def BiDirStream.toWrite (stream : BiDirStream) : List UInt8 :=
  stream.pendingWrite.getD []

/--
Unless a write has failed, nothing that was taken from the client is lost.
-/
def Forwarded (stream : BiDirStream) : Prop :=
  stream.upstreamWrite.failed = false →
    stream.upstreamWrite.accepted ++ stream.toWrite =
      stream.clientBody.flatten

namespace BiDirStream

theorem forwarded_new
    (upstreamRead : List (Event IoError))
    (prefetchedUpstream : Option (List UInt8)) :
    Forwarded (new upstreamRead prefetchedUpstream) := by
  intro _
  rfl

variable {stream : BiDirStream}

theorem forwarded_pollPendingWrite
    (forwarded : Forwarded stream)
    (answer : WriteAnswer) :
    Forwarded (stream.pollPendingWrite answer).1 := by
  cases pending : stream.pendingWrite with
  | none =>
      rw [pollPendingWrite, pending]
      exact forwarded
  | some data =>
      have isToWrite : stream.toWrite = data := by
        rw [toWrite, pending, Option.getD_some]
      cases answer with
      | ready count =>
          -- What is accepted goes from the front of the pending data.
          rw [Forwarded, isToWrite] at forwarded
          simp only [pollPendingWrite, pending, UpstreamWrite.pollWrite]
          split
          case isTrue all =>
            intro notFailed
            have whole : data.take count = data :=
              List.take_of_length_le (by omega)
            simpa [toWrite, whole] using forwarded notFailed
          case isFalse part =>
            intro notFailed
            have isMin : min count data.length = count := by omega
            simpa [toWrite, isMin] using forwarded notFailed
      | failed =>
          simp only [pollPendingWrite, pending, UpstreamWrite.pollWrite]
          intro notFailed
          cases notFailed
      | pending =>
          simp only [pollPendingWrite, pending, UpstreamWrite.pollWrite]
          rw [← pending]
          exact forwarded

/-- A chunk is written, or pending, right after all that was taken before. -/
theorem forwarded_writeChunk
    {chunk : List UInt8}
    (taken :
      stream.upstreamWrite.failed = false →
        stream.upstreamWrite.accepted ++ chunk = stream.clientBody.flatten)
    (nonePending : stream.pendingWrite = none)
    (answer : WriteAnswer) :
    Forwarded (stream.writeChunk answer chunk).1 := by
  cases answer with
  | ready count =>
      simp only [writeChunk, UpstreamWrite.pollWrite]
      split
      case isTrue all =>
        intro notFailed
        have whole : chunk.take count = chunk :=
          List.take_of_length_le (by omega)
        simpa [toWrite, nonePending, whole] using taken notFailed
      case isFalse part =>
        intro notFailed
        have isMin : min count chunk.length = count := by omega
        simpa [toWrite, isMin] using taken notFailed
  | failed =>
      intro notFailed
      cases notFailed
  | pending =>
      intro notFailed
      exact taken notFailed

theorem forwarded_pollClient
    (forwarded : Forwarded stream)
    (client : ClientAnswer)
    (write : WriteAnswer) :
    Forwarded (stream.pollClient client write).1 := by
  unfold pollClient
  split
  case isTrue polls =>
    cases client with
    | chunk bytes =>
        refine
          @forwarded_writeChunk
            { stream with clientBody := stream.clientBody ++ [bytes] }
            bytes ?_ polls.2 write
        intro notFailed
        have before := forwarded notFailed
        rw [toWrite, polls.2, Option.getD_none, List.append_nil] at before
        rw [List.flatten_append, List.flatten_singleton]
        exact congrArg (· ++ bytes) before
    | failed =>
        exact forwarded
    | ended =>
        exact forwarded
    | pending =>
        exact forwarded
  case isFalse idle =>
    exact forwarded

/-- The poll of the upstream leaves the other direction alone. -/
theorem forwarded_pollUpstream
    (forwarded : Forwarded stream)
    (readable : Bool) :
    Forwarded (stream.pollUpstream readable).2.1 := by
  rw [pollUpstream]
  split
  · exact forwarded
  · split
    · split <;> exact forwarded
    · exact forwarded

theorem forwarded_pollNext
    (forwarded : Forwarded stream)
    (answers : Answers) :
    Forwarded (stream.pollNext answers).2.1 := by
  apply forwarded_pollUpstream
  apply forwarded_pollClient
  exact forwarded_pollPendingWrite forwarded answers.pendingWrite

theorem forwarded_pollAll
    (forwarded : Forwarded stream)
    (schedule : List Answers) :
    Forwarded (stream.pollAll schedule).2 := by
  induction schedule generalizing stream with
  | nil =>
      exact forwarded
  | cons answers later inductionHypothesis =>
      have next := inductionHypothesis (forwarded_pollNext forwarded answers)
      rw [pollAll]
      split <;> exact next

/-! ## From the upstream to the client -/

/-- What the upstream has sent and the client has not got. -/
def ahead (stream : BiDirStream) : List UInt8 :=
  stream.prefetchedUpstream.getD [] ++
    stream.upstreamRead.flatMap Event.bytes

/-- The client's direction reads nothing from the upstream. -/
def SameUpstream (before after : BiDirStream) : Prop :=
  after.prefetchedUpstream = before.prefetchedUpstream ∧
    after.upstreamRead = before.upstreamRead

theorem SameUpstream.ahead_eq
    {before after : BiDirStream}
    (same : SameUpstream before after) :
    after.ahead = before.ahead := by
  rw [ahead, ahead, same.1, same.2]

theorem sameUpstream_pollPendingWrite
    (stream : BiDirStream)
    (answer : WriteAnswer) :
    SameUpstream stream (stream.pollPendingWrite answer).1 := by
  rw [pollPendingWrite]
  split
  · exact ⟨rfl, rfl⟩
  · split
    · split <;> exact ⟨rfl, rfl⟩
    · exact ⟨rfl, rfl⟩
    · exact ⟨rfl, rfl⟩

theorem sameUpstream_writeChunk
    (stream : BiDirStream)
    (answer : WriteAnswer)
    (chunk : List UInt8) :
    SameUpstream stream (stream.writeChunk answer chunk).1 := by
  rw [writeChunk]
  split
  · split <;> exact ⟨rfl, rfl⟩
  · exact ⟨rfl, rfl⟩
  · exact ⟨rfl, rfl⟩

theorem sameUpstream_pollClient
    (stream : BiDirStream)
    (client : ClientAnswer)
    (write : WriteAnswer) :
    SameUpstream stream (stream.pollClient client write).1 := by
  unfold pollClient
  split
  · split
    · exact sameUpstream_writeChunk _ write _
    · exact ⟨rfl, rfl⟩
    · exact ⟨rfl, rfl⟩
    · exact ⟨rfl, rfl⟩
  · exact ⟨rfl, rfl⟩

/-- The stream at the poll of the upstream. -/
def afterClient (stream : BiDirStream) (answers : Answers) : BiDirStream :=
  ((stream.pollPendingWrite answers.pendingWrite).1.pollClient
    answers.client answers.write).1

theorem sameUpstream_afterClient
    (stream : BiDirStream)
    (answers : Answers) :
    SameUpstream stream (stream.afterClient answers) := by
  have written :=
    sameUpstream_pollPendingWrite stream answers.pendingWrite
  have forwarded :=
    sameUpstream_pollClient
      (stream.pollPendingWrite answers.pendingWrite).1
      answers.client answers.write
  exact ⟨forwarded.1.trans written.1, forwarded.2.trans written.2⟩

end BiDirStream

/-- The bytes that a poll yields. -/
def PollNext.bytes : PollNext → List UInt8
  | .item bytes =>
      bytes
  | .pending | .ended =>
      []

namespace BiDirStream

theorem bytes_pollUpstream
    (stream : BiDirStream)
    (readable : Bool) :
    (stream.pollUpstream readable).1.bytes ++
        (stream.pollUpstream readable).2.1.ahead =
      stream.ahead := by
  cases isPrefetched : stream.prefetchedUpstream with
  | some chunk =>
      simp [pollUpstream, isPrefetched, PollNext.bytes, ahead]
  | none =>
      have conserved := bytes_pull readBufSize stream.upstreamRead
      rw [pollUpstream, isPrefetched]
      dsimp only
      split
      · split <;> rename_i isPull <;> rw [isPull] at conserved <;>
          simpa [PollNext.bytes, Result.bytes, ahead, isPrefetched]
            using conserved
      · exact List.nil_append _

theorem bytes_pollNext
    (stream : BiDirStream)
    (answers : Answers) :
    (stream.pollNext answers).1.bytes ++
        (stream.pollNext answers).2.1.ahead =
      stream.ahead := by
  have same := sameUpstream_afterClient stream answers
  rw [← same.ahead_eq]
  exact bytes_pollUpstream (stream.afterClient answers) answers.readable

theorem flatten_pollAll
    (stream : BiDirStream)
    (schedule : List Answers) :
    (stream.pollAll schedule).1.flatten ++ (stream.pollAll schedule).2.ahead =
      stream.ahead := by
  induction schedule generalizing stream with
  | nil =>
      rfl
  | cons answers later inductionHypothesis =>
      have step := bytes_pollNext stream answers
      have rest := inductionHypothesis (stream.pollNext answers).2.1
      rw [pollAll]
      split <;> rename_i isPoll <;>
        rw [isPoll, PollNext.bytes, ← rest] at step
      · rw [List.flatten_cons, List.append_assoc]
        exact step
      · exact step
      · exact step

/-- Bytes that were read too far are the first item. -/
theorem head?_pollAll
    {stream : BiDirStream}
    {chunk : List UInt8}
    (isPrefetched : stream.prefetchedUpstream = some chunk)
    (answers : Answers)
    (later : List Answers) :
    (stream.pollAll (answers :: later)).1.head? = some chunk := by
  have same := (sameUpstream_afterClient stream answers).1
  rw [isPrefetched] at same
  have isItem : (stream.pollNext answers).1 = .item chunk := by
    change ((stream.afterClient answers).pollUpstream answers.readable).1 = _
    rw [pollUpstream, same]
  rw [pollAll, isItem]
  rfl

end BiDirStream

/-! ## The handshake -/

/--
The head ends at the first empty line of what the upstream sends, and what was
read too far, with what was not read, is all that follows it.
-/
def EndsHead
    (sent : List UInt8)
    (head : UpstreamHead)
    (after : List (Event IoError)) :
    Prop :=
  ∃ index,
    position? headEnd sent = some index ∧
      head.prefetchedUpstream.getD [] ++ after.flatMap Event.bytes =
        sent.drop (index + headEnd.length)

theorem endsHead_of_parseHead
    {filled : List UInt8}
    {head : UpstreamHead}
    (isHead : parseHead filled = .ok head)
    (after : List (Event IoError)) :
    EndsHead (filled ++ after.flatMap Event.bytes) head after := by
  rw [parseHead] at isHead
  split at isHead
  case h_1 =>
    cases isHead
  case h_2 index isIndex =>
    cases isHead
    refine ⟨index, position?_append isIndex, ?_⟩
    have within := (position?_eq_some_iff.mp isIndex).1.1
    rw [List.drop_append_of_le_length within]
    congr 1
    dsimp only
    split
    case isTrue =>
      rfl
    case isFalse nothing =>
      have none : filled.drop (index + headEnd.length) = [] :=
        List.drop_of_length_le (Nat.not_lt.mp nothing)
      rw [none, Option.getD_none]

theorem endsHead_of_readUpstreamHeaders
    {filled : List UInt8}
    {reads after : List (Event IoError)}
    {head : UpstreamHead}
    (isHead : readUpstreamHeaders filled reads = (.ok head, after)) :
    EndsHead (filled ++ reads.flatMap Event.bytes) head after := by
  fun_induction readUpstreamHeaders filled reads with
  | case1 filled reads full =>
      cases isHead
  | case2 filled reads room left isPull found =>
      -- The upstream has closed the connection.
      obtain ⟨isParsed, rfl⟩ := Prod.mk.inj isHead
      have conserved := bytes_pull (headCapacity - filled.length) reads
      rw [isPull, Result.bytes, List.nil_append] at conserved
      rw [← conserved]
      exact endsHead_of_parseHead isParsed left
  | case3 filled reads room left isPull missing =>
      cases isHead
  | case4 filled reads room first others left isPull found =>
      obtain ⟨isParsed, rfl⟩ := Prod.mk.inj isHead
      have conserved := bytes_pull (headCapacity - filled.length) reads
      rw [isPull, Result.bytes] at conserved
      rw [← conserved, ← List.append_assoc]
      exact endsHead_of_parseHead isParsed left
  | case5 filled reads room first others left isPull missing
      inductionHypothesis =>
      have conserved := bytes_pull (headCapacity - filled.length) reads
      rw [isPull, Result.bytes] at conserved
      rw [← conserved, ← List.append_assoc]
      exact inductionHypothesis isHead
  | case6 filled reads room error left isPull found =>
      obtain ⟨isParsed, rfl⟩ := Prod.mk.inj isHead
      have conserved := bytes_pull (headCapacity - filled.length) reads
      rw [isPull, Result.bytes, List.nil_append] at conserved
      rw [← conserved]
      exact endsHead_of_parseHead isParsed left
  | case7 filled reads room error left isPull missing =>
      cases isHead
  | case8 filled reads room left isPull =>
      cases isHead

/-- The read that completes the head is the last one. -/
theorem readUpstreamHeaders_of_pull
    {filled bytes : List UInt8}
    {reads after : List (Event IoError)}
    (room : filled.length < headCapacity)
    (isPull :
      pull (headCapacity - filled.length) reads = (.ok bytes, after))
    (found : (position? headEnd (filled ++ bytes)).isSome = true) :
    readUpstreamHeaders filled reads =
      (parseHead (filled ++ bytes), after) := by
  rw [readUpstreamHeaders, if_neg (Nat.not_le.mpr room)]
  split <;> rename_i isOther <;> rw [isPull] at isOther <;> cases isOther
  · rw [List.append_nil] at found ⊢
    rw [if_pos found]
  · rw [if_pos found]

/-! ## The whole connection -/

/--
Whatever the segments, the answers of the endpoints and the number of polls are:
nothing from the client is lost, repeated or reordered until a write fails, and
the client gets the upstream's bytes from the first one after the head on, those
that were read with the head first.
-/
theorem relays_exactly
    {reads after : List (Event IoError)}
    {head : UpstreamHead}
    (isHead : readUpstreamHeaders [] reads = (.ok head, after))
    (schedule : List Answers) :
    let run :=
      (BiDirStream.new after head.prefetchedUpstream).pollAll schedule
    (run.2.upstreamWrite.failed = false →
      run.2.upstreamWrite.accepted ++ run.2.pendingWrite.getD [] =
        run.2.clientBody.flatten) ∧
      ∃ index,
        position? headEnd (reads.flatMap Event.bytes) = some index ∧
          run.1.flatten <+:
            (reads.flatMap Event.bytes).drop (index + headEnd.length) ∧
          ∀ chunk,
            head.prefetchedUpstream = some chunk →
            schedule ≠ [] →
            run.1.head? = some chunk := by
  intro run
  have forwarded :=
    BiDirStream.forwarded_pollAll
      (BiDirStream.forwarded_new after head.prefetchedUpstream) schedule
  obtain ⟨index, isIndex, isRest⟩ := endsHead_of_readUpstreamHeaders isHead
  rw [List.nil_append] at isIndex isRest
  refine ⟨forwarded, index, isIndex, ?_, ?_⟩
  · have conserved :=
      BiDirStream.flatten_pollAll
        (BiDirStream.new after head.prefetchedUpstream) schedule
    rw [← isRest]
    exact ⟨run.2.ahead, conserved⟩
  · intro chunk isPrefetched nonempty
    cases schedule with
    | nil =>
        exact absurd rfl nonempty
    | cons answers later =>
        exact BiDirStream.head?_pollAll isPrefetched answers later

/-- A handshake with the first byte of a frame. -/
def greeting : List UInt8 :=
  encodeUtf8 "HTTP/1.1 101 OK\r\n\r\n".toList ++ [129]

/-- The head of `greeting`. -/
def greetingHead : UpstreamHead where
  statusCode := 101
  headers := []
  prefetchedUpstream := some [129]

/-- A chunk of which one byte is accepted first, and then the others. -/
def greetingSchedule : List Answers :=
  [⟨.pending, .chunk [130, 1, 0], .ready 1, false⟩,
    ⟨.ready 2, .pending, .pending, true⟩]

theorem readUpstreamHeaders_greeting :
    readUpstreamHeaders [] (Event.ofBytes greeting ++ [.data 0 []]) =
      (.ok greetingHead, [.data 0 []]) := by
  have isPull :
      pull headCapacity (Event.ofBytes greeting ++ [.data 0 []]) =
        ((.ok greeting : Result IoError), [.data 0 []]) := by
    decide
  have isParsed : parseHead greeting = .ok greetingHead := by
    decide
  rw [← isParsed]
  exact readUpstreamHeaders_of_pull (by decide) isPull (by decide)

theorem relays_exactly_greeting :
    let reads := Event.ofBytes greeting ++ [.data 0 []]
    let run :=
      (BiDirStream.new [.data 0 []] (some [129])).pollAll greetingSchedule
    readUpstreamHeaders [] reads = (.ok greetingHead, [.data 0 []]) ∧
      run.1 = [[129], [0]] ∧
      run.2.upstreamWrite = ⟨[130, 1, 0], false⟩ ∧
      ∃ index,
        position? headEnd (reads.flatMap Event.bytes) = some index ∧
          run.1.flatten <+:
            (reads.flatMap Event.bytes).drop (index + headEnd.length) := by
  intro reads run
  obtain ⟨_, index, isIndex, isPrefix, _⟩ :=
    relays_exactly readUpstreamHeaders_greeting greetingSchedule
  exact
    ⟨readUpstreamHeaders_greeting, by decide, by decide, index, isIndex,
      isPrefix⟩

end Sweety.WsProxy
