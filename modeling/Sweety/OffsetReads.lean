import Mathlib.Algebra.GroupWithZero.Nat
import Sweety.SharedFileReads

namespace Sweety.SharedFile

/-!
# Reads at an offset

Model of `pread_all`, `pread_exact` and `pread_stream` in `handler/sendfile.rs`,
each as one call against a schedule of what the kernel does.  The loop of
`pread_all` leaves when a read gives nothing, and reports a buffer that it has
not filled as a success; the rest of the buffer stays zeroed.
-/

/-- What a call reports of the file system. -/
inductive IoError where
  | lastOsError
  deriving Repr, DecidableEq

/-- `IoResult`. -/
abbrev IoResult (α : Type) :=
  Except IoError α

/-- Offsets from here on are negative for `pread`, which refuses them. -/
def offsetBound : Nat :=
  2 ^ 63

/-- What `pread` reads at a position, or `none` where it refuses. -/
def pread? (content : List UInt8) (position room short : Nat) :
    Option (List UInt8) :=
  if position < offsetBound then
    some (slice content position (min room (short + 1)))
  else
    none

/-- A buffer with bytes written to it from a place on. -/
def fill (buf bytes : List UInt8) (done : Nat) : List UInt8 :=
  buf.take done ++ bytes ++ buf.drop (done + bytes.length)

/--
The loop of `pread_all`: its result and what is left of the schedule, or `none`
where the schedule ends before the loop does.
-/
def preadAll
    (content : List UInt8)
    (offset : Nat) :
    List Outcome → Nat → List UInt8 →
      Option (IoResult (List UInt8) × List Outcome)
  | [], done, buf =>
      if done < buf.length then
        none
      else
        some (.ok buf, [])
  | outcome :: rest, done, buf =>
      if done < buf.length then
        match outcome with
        | .done short =>
            match pread? content (offset + done) (buf.length - done)
                short with
            | some bytes =>
                if bytes.isEmpty then
                  some (.ok buf, rest)
                else
                  preadAll content offset rest (done + bytes.length)
                    (fill buf bytes done)
            | none =>
                some (.error .lastOsError, rest)
        | .interrupted =>
            preadAll content offset rest done buf
        | .failed =>
            some (.error .lastOsError, rest)
      else
        some (.ok buf, outcome :: rest)

/-- `pread_exact`. -/
def preadExact
    (content : List UInt8)
    (offset len : Nat)
    (schedule : List Outcome) :
    Option (IoResult (List UInt8) × List Outcome) :=
  if len = 0 then
    some (.ok [], schedule)
  else
    preadAll content offset schedule 0 (List.replicate len 0)

/-- How far a stream came. -/
inductive Progress where
  | waiting
  | failed
  | finished
  deriving Repr, DecidableEq

/-- The chunks that a stream yields, and how it ends. -/
structure StreamRun where
  chunks : List (List UInt8)
  progress : Progress
  deriving Repr, DecidableEq

/-- Put a chunk before the others. -/
def StreamRun.cons (bytes : List UInt8) (run : StreamRun) : StreamRun :=
  { run with chunks := bytes :: run.chunks }

/-- The loop of `pread_stream`. -/
def streamLoop
    (content : List UInt8)
    (chunk off remaining : Nat)
    (schedule : List Outcome) :
    StreamRun :=
  if 0 < remaining then
    match preadExact content off (min remaining chunk) schedule with
    | some (.ok bytes, rest) =>
        if bytes.length = 0 then
          ⟨[], .finished⟩
        else
          (streamLoop content chunk (off + bytes.length)
            (remaining - bytes.length) rest).cons bytes
    | some (.error _, _) =>
        ⟨[], .failed⟩
    | none =>
        ⟨[], .waiting⟩
  else
    ⟨[], .finished⟩
termination_by remaining
decreasing_by
  omega

/-- `pread_stream`. -/
def preadStream
    (content : List UInt8)
    (offset len : Nat)
    (schedule : List Outcome) :
    StreamRun :=
  streamLoop content (chunkSize len) offset len schedule

/-! ## One read -/

section Reading

variable
  {content buf bytes : List UInt8}
  {offset done len room short : Nat}

theorem length_slice (content : List UInt8) (offset len : Nat) :
    (slice content offset len).length = min len (content.length - offset) := by
  rw [slice, List.length_take, List.length_drop]

/-- What a read gives. -/
structure Got
    (content : List UInt8)
    (position room : Nat)
    (bytes : List UInt8) :
    Prop where
  accepted : position < offsetBound
  isSlice : slice content position bytes.length = bytes
  fits : bytes.length ≤ room
  /-- Only at the end of the file nothing is read. -/
  atEnd : bytes.length = 0 → 0 < room → content.length ≤ position

theorem got_of_pread?
    {position : Nat}
    (isRead : pread? content position room short = some bytes) :
    Got content position room bytes := by
  unfold pread? at isRead
  split at isRead
  · rename_i accepted
    cases isRead
    have lengths := length_slice content position (min room (short + 1))
    constructor
    · exact accepted
    · exact slice_length_self content position _
    · omega
    · omega
  · nomatch isRead

/-- The first bytes of the buffer are those of the file. -/
structure Filled
    (content : List UInt8)
    (offset done : Nat)
    (buf : List UInt8) :
    Prop where
  within : done ≤ buf.length
  isSlice : buf.take done = slice content offset done

theorem filled_zero
    (content : List UInt8)
    (offset : Nat)
    (buf : List UInt8) :
    Filled content offset 0 buf :=
  ⟨Nat.zero_le _, rfl⟩

theorem length_fill (fits : done + bytes.length ≤ buf.length) :
    (fill buf bytes done).length = buf.length := by
  simp only [fill, List.length_append, List.length_take, List.length_drop]
  omega

theorem take_fill (within : done ≤ buf.length) :
    (fill buf bytes done).take (done + bytes.length) =
      buf.take done ++ bytes := by
  apply List.take_left'
  rw [List.length_append, List.length_take, Nat.min_eq_left within]

/-- A read fills the buffer further. -/
theorem Filled.read
    (filled : Filled content offset done buf)
    (got : Got content (offset + done) (buf.length - done) bytes) :
    Filled content offset (done + bytes.length) (fill buf bytes done) := by
  have fits := got.fits
  have within := filled.within
  constructor
  · rw [length_fill (by omega)]
    omega
  · rw [take_fill within, filled.isSlice, ← slice_append, got.isSlice]

theorem Filled.eq_slice
    (filled : Filled content offset done buf)
    (notLess : ¬done < buf.length) :
    buf = slice content offset buf.length := by
  have within := filled.within
  have isEnd : done = buf.length := by
    omega
  subst isEnd
  rw [← filled.isSlice, List.take_length]

end Reading

/-! ## One buffer -/

section Buffer

variable
  {content buf bytes : List UInt8}
  {offset done len : Nat}
  {schedule rest : List Outcome}

/-- A read of these bytes finds them all, or is refused at the end. -/
def Readable (content : List UInt8) (offset len : Nat) : Prop :=
  len = 0 ∨ offset + len ≤ content.length ∨
    offsetBound ≤ max offset content.length

/-- Where the bytes can be read, a success is their slice. -/
theorem exact_of_preadAll
    (readable :
      offset + buf.length ≤ content.length ∨
        offsetBound ≤ max offset content.length)
    (filled : Filled content offset done buf)
    (succeeds :
      preadAll content offset schedule done buf = some (.ok bytes, rest)) :
    bytes.length = buf.length ∧ bytes = slice content offset buf.length := by
  induction schedule generalizing done buf with
  | nil =>
      unfold preadAll at succeeds
      split at succeeds
      · nomatch succeeds
      · rename_i notLess
        cases succeeds
        exact ⟨rfl, filled.eq_slice notLess⟩
  | cons outcome more inductionHypothesis =>
      unfold preadAll at succeeds
      split at succeeds
      · rename_i less
        cases outcome with
        | interrupted =>
            exact inductionHypothesis readable filled succeeds
        | failed =>
            nomatch succeeds
        | done short =>
            dsimp only at succeeds
            cases isRead : pread? content (offset + done)
                (buf.length - done) short with
            | none =>
                rw [isRead] at succeeds
                nomatch succeeds
            | some got_ =>
                rw [isRead] at succeeds
                dsimp only at succeeds
                have got := got_of_pread? isRead
                split at succeeds
                · -- Nothing was read before the end of the buffer.
                  rename_i isEmpty
                  rw [List.isEmpty_iff_length_eq_zero] at isEmpty
                  have atEnd := got.atEnd isEmpty (by omega)
                  have accepted := got.accepted
                  omega
                · have fits := got.fits
                  have sameLength :
                      (fill buf got_ done).length = buf.length :=
                    length_fill (by omega)
                  have exact_ := inductionHypothesis
                    (by rw [sameLength]; exact readable)
                    (filled.read got) succeeds
                  rwa [sameLength] at exact_
      · rename_i notLess
        cases succeeds
        exact ⟨rfl, filled.eq_slice notLess⟩

theorem exact_of_preadExact
    (readable : Readable content offset len)
    (succeeds :
      preadExact content offset len schedule = some (.ok bytes, rest)) :
    bytes.length = len ∧ bytes = slice content offset len := by
  unfold preadExact at succeeds
  split at succeeds
  · rename_i isZero
    cases succeeds
    subst isZero
    exact ⟨rfl, rfl⟩
  · rename_i notZero
    have exact_ := exact_of_preadAll
      (by rw [List.length_replicate]; exact readable.resolve_left notZero)
      (filled_zero content offset _) succeeds
    rwa [List.length_replicate] at exact_

theorem preadAll_of_empty
    {short : Nat}
    (less : done < buf.length)
    (isRead :
      pread? content (offset + done) (buf.length - done) short = some []) :
    preadAll content offset (.done short :: rest) done buf =
      some (.ok buf, rest) := by
  rw [preadAll, if_pos less, isRead]
  rfl

theorem preadAll_of_nonempty
    {short : Nat}
    (less : done < buf.length)
    (isRead :
      pread? content (offset + done) (buf.length - done) short =
        some bytes)
    (nonempty : bytes ≠ []) :
    preadAll content offset (.done short :: rest) done buf =
      preadAll content offset rest (done + bytes.length)
        (fill buf bytes done) := by
  rw [preadAll, if_pos less, isRead]
  dsimp only
  rw [if_neg (by rw [List.isEmpty_iff]; exact nonempty)]

/-- The first read of a call, into a buffer of zeros. -/
theorem pread?_start (inRange : offset < offsetBound) :
    pread? content (offset + 0)
        ((List.replicate len (0 : UInt8)).length - 0) len =
      some (slice content offset len) := by
  rw [pread?, Nat.add_zero, if_pos inRange, List.length_replicate,
    Nat.sub_zero, Nat.min_eq_left (Nat.le_succ len)]

/-- After it the buffer is as long as before. -/
theorem length_fill_start (content : List UInt8) (offset len : Nat) :
    (fill (List.replicate len 0) (slice content offset len) 0).length =
      len := by
  rw [length_fill, List.length_replicate]
  rw [List.length_replicate, Nat.zero_add, length_slice]
  exact Nat.min_le_left _ _

/-- At the end of the file a call can succeed with what is not there. -/
theorem exists_invented
    (some_ : 0 < len)
    (short : content.length < offset + len)
    (inRange : max offset content.length < offsetBound) :
    ∃ schedule bytes,
      preadExact content offset len schedule = some (.ok bytes, []) ∧
        bytes.length = len := by
  have someZeros : 0 < (List.replicate len (0 : UInt8)).length := by
    rw [List.length_replicate]
    exact some_
  by_cases behind : content.length ≤ offset
  · have isRead :
        pread? content (offset + 0)
            ((List.replicate len (0 : UInt8)).length - 0) 0 =
          some [] := by
      rw [pread?, if_pos (by omega), slice,
        List.drop_eq_nil_of_le (by omega), List.take_nil]
    refine ⟨[.done 0], List.replicate len 0, ?_, List.length_replicate⟩
    rw [preadExact, if_neg (by omega), preadAll_of_empty someZeros isRead]
  · -- The first read takes the rest of the file, the second finds its end.
    let bytes := slice content offset len
    have isLength : bytes.length = content.length - offset := by
      have lengths := length_slice content offset len
      rw [Nat.min_eq_right (by omega)] at lengths
      exact lengths
    have nonempty : bytes ≠ [] := by
      intro isEmpty
      rw [isEmpty, List.length_nil] at isLength
      omega
    have isRead :
        pread? content (offset + 0)
            ((List.replicate len (0 : UInt8)).length - 0) len =
          some bytes :=
      pread?_start (by omega)
    have sameLength :
        (fill (List.replicate len 0) bytes 0).length = len :=
      length_fill_start content offset len
    have atEnd :
        pread? content (offset + (0 + bytes.length))
            ((fill (List.replicate len 0) bytes 0).length -
              (0 + bytes.length)) 0 =
          some [] := by
      rw [pread?, if_pos (by omega), slice,
        List.drop_eq_nil_of_le (by omega), List.take_nil]
    refine ⟨[.done len, .done 0], fill (List.replicate len 0) bytes 0, ?_,
      sameLength⟩
    rw [preadExact, if_neg (by omega),
      preadAll_of_nonempty someZeros isRead nonempty,
      preadAll_of_empty (by omega) atEnd]

/-- Where the bytes are there, one read can find them. -/
theorem exists_found
    (some_ : 0 < len)
    (within : offset + len ≤ content.length)
    (inRange : offset < offsetBound)
    (rest : List Outcome) :
    ∃ bytes,
      preadExact content offset len (.done len :: rest) =
          some (.ok bytes, rest) ∧
        bytes.length = len := by
  have isLength : (slice content offset len).length = len := by
    rw [length_slice]
    omega
  have nonempty : slice content offset len ≠ [] := by
    intro isEmpty
    rw [isEmpty, List.length_nil] at isLength
    omega
  have sameLength := length_fill_start content offset len
  have isFull :
      ¬0 + (slice content offset len).length <
        (fill (List.replicate len 0) (slice content offset len) 0).length := by
    omega
  refine ⟨_, ?_, sameLength⟩
  rw [preadExact, if_neg (by omega),
    preadAll_of_nonempty (by rw [List.length_replicate]; exact some_)
      (pread?_start inRange) nonempty]
  cases rest with
  | nil =>
      exact if_neg isFull
  | cons outcome more =>
      exact if_neg isFull

end Buffer

/-! ## The stream -/

section Stream

variable
  {content : List UInt8}
  {chunk off remaining offset len : Nat}
  {schedule : List Outcome}

theorem Readable.sub
    {skip part : Nat}
    (readable : Readable content offset len)
    (within : skip + part ≤ len) :
    Readable content (offset + skip) part := by
  unfold Readable at readable ⊢
  omega

/-- What a stream has yielded is what stands in the file. -/
structure StreamExact
    (content : List UInt8)
    (off remaining : Nat)
    (run : StreamRun) :
    Prop where
  isPrefix : run.chunks.flatten <+: slice content off remaining
  whole :
    run.progress = .finished →
      run.chunks.flatten = slice content off remaining ∧
        run.chunks.flatten.length = remaining

theorem streamExact_nil
    {progress : Progress}
    (notFinished : progress = .finished → remaining = 0) :
    StreamExact content off remaining ⟨[], progress⟩ := by
  constructor
  · exact List.nil_prefix
  · intro isFinished
    rw [notFinished isFinished]
    exact ⟨rfl, rfl⟩

theorem StreamExact.cons
    {bytes : List UInt8}
    {run : StreamRun}
    (isSlice : bytes = slice content off bytes.length)
    (within : bytes.length ≤ remaining)
    (rest :
      StreamExact content (off + bytes.length) (remaining - bytes.length)
        run) :
    StreamExact content off remaining (run.cons bytes) := by
  have isWhole :
      slice content off remaining =
        bytes ++
          slice content (off + bytes.length) (remaining - bytes.length) := by
    calc
      slice content off remaining =
          slice content off
            (bytes.length + (remaining - bytes.length)) := by
        congr 1
        omega
      _ = slice content off bytes.length ++
            slice content (off + bytes.length)
              (remaining - bytes.length) :=
        (slice_append _ _ _ _).symm
      _ = _ := by
        rw [← isSlice]
  constructor
  · rw [isWhole]
    exact (List.prefix_append_right_inj bytes).mpr rest.isPrefix
  · intro isFinished
    obtain ⟨same, isLength⟩ := rest.whole isFinished
    constructor
    · rw [isWhole, ← same]
      rfl
    · have lengths :
          (run.cons bytes).chunks.flatten.length =
            bytes.length + run.chunks.flatten.length :=
        List.length_append
      omega

theorem streamExact_streamLoop
    (someChunk : 0 < chunk)
    (readable : Readable content off remaining) :
    StreamExact content off remaining
      (streamLoop content chunk off remaining schedule) := by
  induction remaining using Nat.strongRecOn generalizing off schedule with
  | ind remaining inductionHypothesis =>
      rw [streamLoop]
      split
      · rename_i more
        have readableChunk : Readable content off (min remaining chunk) :=
          @Readable.sub content off remaining 0 _ readable (by omega)
        cases isRead :
            preadExact content off (min remaining chunk) schedule with
        | none =>
            exact streamExact_nil nofun
        | some found =>
            obtain ⟨result, rest⟩ := found
            cases result with
            | error _ =>
                exact streamExact_nil nofun
            | ok bytes =>
                obtain ⟨isLength, isSlice⟩ :=
                  exact_of_preadExact readableChunk isRead
                dsimp only
                rw [if_neg (by omega)]
                apply StreamExact.cons
                · rw [isLength]
                  exact isSlice
                · omega
                · apply inductionHypothesis _ (by omega)
                  exact readable.sub (by omega)
      · exact streamExact_nil (by omega)

/-- A stream over the end of the file can yield what is not there. -/
theorem exists_invented_chunk
    (someChunk : 0 < chunk)
    (some_ : 0 < remaining)
    (short : content.length < off + remaining)
    (inRange : max off content.length < offsetBound) :
    ∃ schedule,
      content.length - off <
        (streamLoop content chunk off remaining
          schedule).chunks.flatten.length := by
  induction remaining using Nat.strongRecOn generalizing off with
  | ind remaining inductionHypothesis =>
      have someRead : 0 < min remaining chunk := by
        omega
      by_cases crosses : content.length < off + min remaining chunk
      · obtain ⟨schedule, bytes, isRead, isLength⟩ :=
          exists_invented someRead crosses inRange
        refine ⟨schedule, ?_⟩
        rw [streamLoop, if_pos some_, isRead]
        dsimp only
        rw [if_neg (by omega), StreamRun.cons, List.flatten_cons,
          List.length_append]
        omega
      · have within : off + min remaining chunk ≤ content.length := by
          omega
        obtain ⟨schedule, more⟩ :=
          @inductionHypothesis (remaining - min remaining chunk) (by omega)
            (off + min remaining chunk) (by omega) (by omega) (by omega)
        obtain ⟨bytes, isRead, isLength⟩ :=
          exists_found someRead within (by omega) schedule
        refine ⟨.done (min remaining chunk) :: schedule, ?_⟩
        rw [streamLoop, if_pos some_, isRead]
        dsimp only
        rw [if_neg (by omega), StreamRun.cons, List.flatten_cons,
          List.length_append, isLength]
        omega

end Stream

/-! ## The law of the reads -/

/-- A successful `pread_exact` returns the bytes of the file, all of them. -/
def ExactOrFails (content : List UInt8) (offset len : Nat) : Prop :=
  ∀ schedule bytes rest,
    preadExact content offset len schedule = some (.ok bytes, rest) →
      bytes.length = len ∧ bytes = slice content offset len

/-- `pread_stream` yields the bytes of the file, all of them if it ends well. -/
def StreamsExactly (content : List UInt8) (offset len : Nat) : Prop :=
  ∀ schedule,
    StreamExact content offset len (preadStream content offset len schedule)

section Law

variable
  {content : List UInt8}
  {offset len : Nat}

theorem chunkSize_pos (len : Nat) : 0 < chunkSize len := by
  unfold chunkSize
  split
  · decide
  · decide

theorem readable_of_exactOrFails
    (exact_ : ExactOrFails content offset len) :
    Readable content offset len := by
  by_contra notReadable
  unfold Readable at notReadable
  obtain ⟨schedule, bytes, isRead, -⟩ :=
    @exists_invented content offset len (by omega) (by omega) (by omega)
  obtain ⟨isLength, isSlice⟩ := exact_ schedule bytes [] isRead
  rw [isSlice, length_slice] at isLength
  omega

theorem readable_of_streamsExactly
    (streams : StreamsExactly content offset len) :
    Readable content offset len := by
  by_contra notReadable
  unfold Readable at notReadable
  obtain ⟨schedule, isLonger⟩ :=
    @exists_invented_chunk content _ offset len (chunkSize_pos len)
      (by omega) (by omega) (by omega)
  have isPrefix := (streams schedule).isPrefix.length_le
  rw [length_slice] at isPrefix
  unfold preadStream at isPrefix
  omega

/--
Both reads are exact or fail just if the bytes are in the file, none is asked
for, or the offset is refused.
-/
theorem reads_exact_iff (content : List UInt8) (offset len : Nat) :
    (ExactOrFails content offset len ↔ Readable content offset len) ∧
      (StreamsExactly content offset len ↔
        Readable content offset len) := by
  constructor
  · constructor
    · exact readable_of_exactOrFails
    · intro readable schedule bytes rest succeeds
      exact exact_of_preadExact readable succeeds
  · constructor
    · exact readable_of_streamsExactly
    · intro readable schedule
      exact streamExact_streamLoop (chunkSize_pos len) readable

/-- A file of one byte gives three, two of them invented. -/
theorem not_exactOrFails_shrunk :
    preadExact [7] 0 3 [.done 2, .done 2] = some (.ok [7, 0, 0], []) ∧
    ¬ExactOrFails [7] 0 3 ∧ ¬StreamsExactly [7] 0 3 := by
  have notReadable : ¬Readable [7] 0 3 := by
    unfold Readable offsetBound
    decide
  refine ⟨by decide, ?_, ?_⟩
  · intro exact_
    exact notReadable (readable_of_exactOrFails exact_)
  · intro streams
    exact notReadable (readable_of_streamsExactly streams)

end Law

end Sweety.SharedFile
