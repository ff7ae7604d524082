import Sweety.WsRelay

namespace Sweety.WsProxy

open SegmentedReader UpstreamResponse

/-!
# What wakes the WebSocket relay

A poll that ends pending is repeated only when an endpoint that was pending
becomes ready.  `poll_next` polls each endpoint once at most, so a direction
that was ready is not polled until it is pending: after a partial write, and
after a chunk that the upstream took at once, nothing wakes the relay when the
upstream is silent.
-/

/-! ## What is asked for -/

/-- Every direction that can go on has an endpoint that will wake the relay. -/
def Watched (stream : BiDirStream) (polls : List Polled) : Prop :=
  (stream.pendingWrite.isSome = true → .writer true ∈ polls) ∧
    (stream.pendingWrite = none →
      stream.clientDone = false →
      .client true ∈ polls)

/-- A poll that ends pending leaves no direction without a wake-up. -/
def Wakes (stream : BiDirStream) (answers : Answers) : Prop :=
  let polled := stream.pollNext answers
  polled.1 = .pending →
    .reader true ∈ polled.2.2 ∧ Watched polled.2.1 polled.2.2

/-- Nothing comes from the upstream in this poll. -/
def ReaderWaits (stream : BiDirStream) (answers : Answers) : Prop :=
  stream.prefetchedUpstream = none ∧
    (answers.readable = false ∨ stream.upstreamRead.head? = some .stall)

/-- A part of the pending data is accepted. -/
def WritesPart (stream : BiDirStream) (answers : Answers) : Prop :=
  ∃ data count,
    stream.pendingWrite = some data ∧
      answers.pendingWrite = .ready count ∧
      count < data.length

/-- A chunk comes from the client, and its write is answered at once. -/
def Hands (client : ClientAnswer) (write : WriteAnswer) : Prop :=
  ∃ chunk count, client = .chunk chunk ∧ write = .ready count

/-- The pending data, if any, is accepted whole, and a chunk is handed on. -/
def HandsChunk (stream : BiDirStream) (answers : Answers) : Prop :=
  stream.clientDone = false ∧
    (∀ data,
      stream.pendingWrite = some data →
      ∃ count, answers.pendingWrite = .ready count ∧ data.length ≤ count) ∧
    Hands answers.client answers.write

namespace BiDirStream

variable {stream : BiDirStream}

/-! ## The upstream's direction -/

theorem pollUpstream_of_waits
    {answers : Answers}
    (waits : ReaderWaits stream answers) :
    stream.pollUpstream answers.readable =
      (.pending, stream, [.reader true]) := by
  obtain ⟨nonePrefetched, notReady⟩ := waits
  rw [pollUpstream, nonePrefetched]
  dsimp only
  cases isReadable : answers.readable with
  | false =>
      rfl
  | true =>
      have isStall : stream.upstreamRead.head? = some .stall := by
        simpa [isReadable] using notReady
      obtain ⟨rest, isReads⟩ := List.head?_eq_some_iff.mp isStall
      rw [if_pos rfl, isReads, pull]
      dsimp only
      rw [← isReads, ← nonePrefetched]

theorem pollUpstream_ne_pending
    {answers : Answers}
    (goesOn : ¬ ReaderWaits stream answers) :
    (stream.pollUpstream answers.readable).1 ≠ .pending := by
  cases isPrefetched : stream.prefetchedUpstream with
  | some chunk =>
      rw [pollUpstream, isPrefetched]
      simp
  | none =>
      have ready :
          answers.readable = true ∧
            stream.upstreamRead.head? ≠ some .stall := by
        simpa [ReaderWaits, isPrefetched] using goesOn
      rw [pollUpstream, isPrefetched]
      dsimp only
      rw [if_pos ready.1]
      cases isReads : stream.upstreamRead with
      | nil =>
          simp [pull]
      | cons event rest =>
          cases event with
          | data first others =>
              simp [pull]
          | error error =>
              simp [pull]
          | stall =>
              rw [isReads] at ready
              exact absurd rfl ready.2

/-! ## The client's direction -/

/-- Where nothing is pending, a chunk that is handed on leaves it unwatched. -/
theorem watched_pollClient_iff
    (nonePending : stream.pendingWrite = none)
    {polls : List Polled}
    (noWriter : .writer true ∉ polls)
    (noClient : .client true ∉ polls)
    (client : ClientAnswer)
    (write : WriteAnswer) :
    Watched (stream.pollClient client write).1
        (polls ++ (stream.pollClient client write).2) ↔
      ¬ (stream.clientDone = false ∧ Hands client write) := by
  cases isDone : stream.clientDone with
  | true =>
      simp [pollClient, Watched, isDone, nonePending]
  | false =>
      cases client with
      | chunk bytes =>
          cases write with
          | ready count =>
              have hands : Hands (.chunk bytes) (.ready count) :=
                ⟨bytes, count, rfl, rfl⟩
              by_cases all : min count bytes.length = bytes.length
              · simp [pollClient, writeChunk, UpstreamWrite.pollWrite,
                  Watched, isDone, nonePending, noClient, hands, all]
              · simp [pollClient, writeChunk, UpstreamWrite.pollWrite,
                  Watched, isDone, nonePending, noWriter, hands, all]
          | failed =>
              simp [pollClient, writeChunk, UpstreamWrite.pollWrite,
                Watched, isDone, nonePending, Hands]
          | pending =>
              simp [pollClient, writeChunk, UpstreamWrite.pollWrite,
                Watched, isDone, nonePending, Hands]
      | failed =>
          simp [pollClient, Watched, isDone, nonePending, Hands]
      | ended =>
          simp [pollClient, Watched, isDone, nonePending, Hands]
      | pending =>
          simp [pollClient, Watched, isDone, nonePending, Hands]

/-- The polls before that of the upstream. -/
def clientPolls (stream : BiDirStream) (answers : Answers) : List Polled :=
  (stream.pollPendingWrite answers.pendingWrite).2 ++
    ((stream.pollPendingWrite answers.pendingWrite).1.pollClient
      answers.client answers.write).2

theorem watched_afterClient_iff
    (stream : BiDirStream)
    (answers : Answers) :
    Watched (stream.afterClient answers) (stream.clientPolls answers) ↔
      ¬ (WritesPart stream answers ∨ HandsChunk stream answers) := by
  rw [afterClient, clientPolls]
  cases isPending : stream.pendingWrite with
  | none =>
      have isSame :
          stream.pollPendingWrite answers.pendingWrite = (stream, []) := by
        rw [pollPendingWrite, isPending]
      rw [isSame, watched_pollClient_iff isPending (by simp) (by simp)]
      simp [WritesPart, HandsChunk, isPending]
  | some data =>
      cases isAnswer : answers.pendingWrite with
      | ready count =>
          by_cases all : data.length ≤ count
          · have isWritten :
                stream.pollPendingWrite (.ready count) =
                  ({ stream with
                      upstreamWrite :=
                        { stream.upstreamWrite with
                          accepted :=
                            stream.upstreamWrite.accepted ++ data.take count }
                      pendingWrite := none },
                    [.writer false]) := by
              simp [pollPendingWrite, isPending, UpstreamWrite.pollWrite, all]
            rw [isWritten, watched_pollClient_iff rfl (by simp) (by simp)]
            simp [WritesPart, HandsChunk, isPending, isAnswer, all]
          · have part : WritesPart stream answers :=
              ⟨data, count, isPending, isAnswer, Nat.not_le.mp all⟩
            have isMin : min count data.length = count := by omega
            have notWhole : count ≠ data.length := by omega
            simp [pollPendingWrite, isPending, UpstreamWrite.pollWrite, isMin,
              notWhole, pollClient, Watched, part]
      | failed =>
          simp [pollPendingWrite, isPending, UpstreamWrite.pollWrite,
            pollClient, Watched, WritesPart, HandsChunk, isAnswer]
      | pending =>
          simp [pollPendingWrite, isPending, UpstreamWrite.pollWrite,
            pollClient, Watched, WritesPart, HandsChunk, isAnswer]

end BiDirStream

/-! ## The wake-ups of a poll -/

theorem readerWaits_afterClient_iff
    (stream : BiDirStream)
    (answers : Answers) :
    ReaderWaits (stream.afterClient answers) answers ↔
      ReaderWaits stream answers := by
  have same := BiDirStream.sameUpstream_afterClient stream answers
  rw [ReaderWaits, ReaderWaits, same.1, same.2]

/-- One more poll of another endpoint. -/
theorem watched_append_reader_iff
    (stream : BiDirStream)
    (polls : List Polled) :
    Watched stream (polls ++ [.reader true]) ↔ Watched stream polls := by
  simp [Watched]

/--
In every state and for all answers: a poll leaves nothing without a wake-up,
unless nothing comes from the upstream while a part of the pending data is
accepted or a chunk is handed on.
-/
theorem wakes_iff
    (stream : BiDirStream)
    (answers : Answers) :
    Wakes stream answers ↔
      ¬ (ReaderWaits stream answers ∧
        (WritesPart stream answers ∨ HandsChunk stream answers)) := by
  have isPoll :
      stream.pollNext answers =
        (((stream.afterClient answers).pollUpstream answers.readable).1,
          ((stream.afterClient answers).pollUpstream answers.readable).2.1,
          stream.clientPolls answers ++
            ((stream.afterClient answers).pollUpstream
              answers.readable).2.2) :=
    rfl
  rw [← readerWaits_afterClient_iff]
  by_cases waits : ReaderWaits (stream.afterClient answers) answers
  · have watched := BiDirStream.watched_afterClient_iff stream answers
    rw [BiDirStream.pollUpstream_of_waits waits] at isPoll
    simp only [Wakes, isPoll, watched_append_reader_iff, watched, waits,
      true_and, forall_const, List.mem_append, List.mem_singleton, or_true]
  · have goesOn := BiDirStream.pollUpstream_ne_pending waits
    simp only [Wakes, isPoll, goesOn, waits, false_and, not_false_eq_true,
      false_implies]

/-- A chunk is handed on whole while the upstream is silent. -/
theorem not_wakes_silentUpstream :
    ¬ ∀ (stream : BiDirStream) (answers : Answers),
      Wakes stream answers := by
  intro wakes
  have asked :=
    wakes (BiDirStream.new [] none) ⟨.pending, .chunk [1], .ready 1, false⟩
  have unwatched := (asked (by decide)).2.2 (by decide) (by decide)
  revert unwatched
  decide

end Sweety.WsProxy
