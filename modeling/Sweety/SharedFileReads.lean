import Sweety.StepRun
import Mathlib.Logic.Function.Basic

namespace Sweety.SharedFile

/-!
# Range reads of one cached file

Model of `async_read_range` and `pread_stream` in `handler/sendfile.rs`, by any
number of requests that hold the same `Arc<File>` from the descriptor cache.
One step is one system call of one request.  `try_clone` is `dup`: the clone
refers to the same open file, so all clones share one offset.  `lseek` and
`read` move that offset, `pread` does not.
-/

/-- What a request was called with. -/
inductive Job where
  /-- `async_read_range(file, offset, len)`. -/
  | range (offset len : Nat)
  /-- `pread_stream(file, offset, len)`. -/
  | stream (offset len : Nat)
  deriving Repr, DecidableEq

/-- How the kernel ends a call; a read transfers at most `short + 1` bytes. -/
inductive Outcome where
  | done (short : Nat)
  | interrupted
  | failed
  deriving Repr, DecidableEq

/-- How far a request has come. -/
inductive Phase where
  | start
  /-- Range: the descriptor is cloned. -/
  | cloned
  /-- Range: the offset is set, and `buf` has been read. -/
  | reading (buf : List UInt8)
  /-- Range: `Ok(bytes)`. -/
  | returned (bytes : List UInt8)
  | failed
  /-- Stream: `filled` of the current chunk has been read. -/
  | streaming
      (chunks : List (List UInt8))
      (off remaining : Nat)
      (filled : List UInt8)
  | streamed (chunks : List (List UInt8))
  | streamFailed (chunks : List (List UInt8))
  deriving Repr, DecidableEq

/-- The bytes `[offset, offset + len)` of a file, as far as it has them. -/
def slice
    (content : List UInt8)
    (offset len : Nat) :
    List UInt8 :=
  (content.drop offset).take len

/-- The largest read that `tokio::fs::File` makes. -/
def maxBufSize : Nat :=
  2 * 1024 * 1024

/-- `chunk_size` of `pread_stream`. -/
def chunkSize (len : Nat) : Nat :=
  if len ≤ 64 * 1024 then
    64 * 1024
  else
    256 * 1024

/-- The next chunk of a stream, or its end, after `remaining` bytes to go. -/
def nextChunk
    (chunks : List (List UInt8))
    (off remaining : Nat) :
    Phase :=
  if remaining = 0 then
    .streamed chunks
  else
    .streaming chunks off remaining []

/-- One `pread` of a stream; at the end of the file the chunk stays zeroed. -/
def streamRead
    (content : List UInt8)
    (len : Nat)
    (chunks : List (List UInt8))
    (off remaining : Nat)
    (filled : List UInt8)
    (short : Nat) :
    Phase :=
  let toRead := min remaining (chunkSize len)
  let bytes :=
    slice content (off + filled.length)
      (min (toRead - filled.length) (short + 1))
  if bytes.isEmpty then
    nextChunk
      (chunks ++
        [filled ++ List.replicate (toRead - filled.length) 0])
      (off + toRead) (remaining - toRead)
  else if (filled ++ bytes).length < toRead then
    .streaming chunks off remaining (filled ++ bytes)
  else
    nextChunk (chunks ++ [filled ++ bytes])
      (off + toRead) (remaining - toRead)

/-- One `read` of `read_exact`: the next phase, and the new offset if moved. -/
def rangeRead
    (content : List UInt8)
    (len position : Nat)
    (buf : List UInt8)
    (short : Nat) :
    Phase × Option Nat :=
  let bytes :=
    slice content position
      (min (min (len - buf.length) maxBufSize) (short + 1))
  if bytes.isEmpty then
    -- `UnexpectedEof`
    (.failed, none)
  else if (buf ++ bytes).length = len then
    (.returned (buf ++ bytes), some (position + bytes.length))
  else
    (.reading (buf ++ bytes), some (position + bytes.length))

/--
One call of a request: its next phase, and the offset it leaves behind if it
moves the shared one.  A finished request makes no call.
-/
def advance
    (content : List UInt8)
    (position : Nat) :
    Job → Phase → Outcome → Option (Phase × Option Nat)
  | .range _ len, .start, outcome =>
      if len = 0 then
        some (.returned [], none)
      else
        match outcome with
        | .done _ =>
            some (.cloned, none)
        | _ =>
            some (.failed, none)
  | .range offset _, .cloned, outcome =>
      match outcome with
      | .done _ =>
          some (.reading [], some offset)
      | _ =>
          some (.failed, none)
  | .range _ len, .reading buf, outcome =>
      match outcome with
      | .done short =>
          some (rangeRead content len position buf short)
      | .interrupted =>
          some (.reading buf, none)
      | .failed =>
          some (.failed, none)
  | .stream offset len, .start, _ =>
      some (nextChunk [] offset len, none)
  | .stream _ len, .streaming chunks off remaining filled, outcome =>
      match outcome with
      | .done short =>
          some
            (streamRead content len chunks off remaining filled short,
              none)
      | .interrupted =>
          some (.streaming chunks off remaining filled, none)
      | .failed =>
          some (.streamFailed chunks, none)
  | _, _, _ =>
      none

/-- The open file's offset and its requests. -/
structure System where
  position : Nat
  phase : Nat → Phase
  /-- The request that moved the offset last. -/
  lastMover : Option Nat

/-- Nobody has made a call yet; the offset may stand anywhere. -/
def System.initial (position : Nat) : System where
  position := position
  phase := fun _ => .start
  lastMover := none

/-- One call of one request. -/
structure Label where
  request : Nat
  outcome : Outcome
  deriving Repr, DecidableEq

/-- The step function; labels name who calls and how the kernel answers. -/
def step?
    (content : List UInt8)
    (job : Nat → Job)
    (system : System)
    (label : Label) :
    Option System :=
  match advance content system.position (job label.request)
      (system.phase label.request) label.outcome with
  | none =>
      none
  | some (phase, moved) =>
      some
        { position := moved.getD system.position
          phase := Function.update system.phase label.request phase
          lastMover :=
            if moved.isSome then
              some label.request
            else
              system.lastMover }

/-- Each `async_read_range` that returned `Ok` has the bytes it asked for. -/
def RangesExact
    (content : List UInt8)
    (job : Nat → Job)
    (system : System) :
    Prop :=
  ∀ request offset len bytes,
    job request = .range offset len →
    system.phase request = .returned bytes →
      bytes = slice content offset len ∧ bytes.length = len

/-- Whether a request reads at the shared offset in its next call. -/
def Phase.readsShared : Phase → Bool
  | .reading _ =>
      true
  | _ =>
      false

/--
A request that reads at the shared offset is the one that moved it last: no
other request has called `lseek` or `read` since its own last call.
-/
def ReadsOwnOffset
    (system : System)
    (label : Label)
    (_ : System) :
    Prop :=
  (system.phase label.request).readsShared = true →
    system.lastMover = some label.request

instance
    (system : System)
    (label : Label)
    (after : System) :
    Decidable (ReadsOwnOffset system label after) :=
  inferInstanceAs (Decidable (_ → _))

/-! ## What one call does -/

/-- Consecutive slices join. -/
theorem slice_append
    (content : List UInt8)
    (offset first second : Nat) :
    slice content offset first ++
        slice content (offset + first) second =
      slice content offset (first + second) := by
  rw [slice, slice, slice, ← List.drop_drop, List.take_add]

/-- A slice that the file cuts short is the slice of its own length. -/
theorem slice_length_self
    (content : List UInt8)
    (offset len : Nat) :
    slice content offset (slice content offset len).length =
      slice content offset len := by
  rw [slice, slice, List.length_take, List.take_eq_take_iff]
  omega

/-- What a range request has to show for itself in a phase. -/
def RangeOk
    (content : List UInt8)
    (offset len : Nat) :
    Phase → Prop
  | .reading buf =>
      buf = slice content offset buf.length
  | .returned bytes =>
      bytes = slice content offset len ∧ bytes.length = len
  | _ =>
      True

/-- While a request reads, the offset stands at the end of what it has read. -/
def OffsetOk (offset position : Nat) : Phase → Prop
  | .reading buf =>
      position = offset + buf.length
  | _ =>
      True

/-- A read that starts where the request's last one ended extends its slice. -/
theorem rangeRead_ok
    {content : List UInt8}
    {offset position : Nat}
    (len : Nat)
    {buf : List UInt8}
    (soFar : buf = slice content offset buf.length)
    (own : position = offset + buf.length)
    (short : Nat) :
    RangeOk content offset len
        (rangeRead content len position buf short).1 ∧
      OffsetOk offset
        ((rangeRead content len position buf short).2.getD position)
        (rangeRead content len position buf short).1 := by
  unfold rangeRead
  generalize
    min (min (len - buf.length) maxBufSize) (short + 1) = limit
  generalize transferred : slice content position limit = bytes
  have ownLength :
      bytes = slice content (offset + buf.length) bytes.length := by
    rw [← own, ← transferred, slice_length_self]
  have extended :
      buf ++ bytes = slice content offset (buf ++ bytes).length := by
    rw [List.length_append, ← slice_append, ← soFar, ← ownLength]
  dsimp only
  split
  · exact ⟨trivial, trivial⟩
  · split
    · rename_i complete
      refine ⟨⟨?_, complete⟩, trivial⟩
      rw [← complete]
      exact extended
    · refine ⟨extended, ?_⟩
      change position + bytes.length = offset + (buf ++ bytes).length
      rw [own, List.length_append, Nat.add_assoc]

/-- A range request that reads at its own offset stays right. -/
theorem advance_range_ok
    {content : List UInt8}
    {position offset len : Nat}
    {phase after : Phase}
    {outcome : Outcome}
    {moved : Option Nat}
    (advanced :
      advance content position (.range offset len) phase outcome =
        some (after, moved))
    (ok : RangeOk content offset len phase)
    (own : phase.readsShared = true → OffsetOk offset position phase) :
    RangeOk content offset len after ∧
      OffsetOk offset (moved.getD position) after := by
  cases phase with
  | start =>
      simp only [advance] at advanced
      split at advanced
      · rename_i empty
        obtain ⟨rfl, rfl⟩ := Prod.mk.inj (Option.some.inj advanced)
        refine ⟨⟨?_, empty.symm⟩, trivial⟩
        rw [empty]
        rfl
      · cases outcome
        all_goals
          obtain ⟨rfl, rfl⟩ := Prod.mk.inj (Option.some.inj advanced)
          exact ⟨trivial, trivial⟩
  | cloned =>
      cases outcome
      all_goals
        obtain ⟨rfl, rfl⟩ := Prod.mk.inj (Option.some.inj advanced)
        exact ⟨by first | rfl | trivial, by first | rfl | trivial⟩
  | reading buf =>
      have here : position = offset + buf.length := own rfl
      cases outcome with
      | done short =>
          have isRead :
              rangeRead content len position buf short =
                (after, moved) :=
            Option.some.inj advanced
          have extended := rangeRead_ok len ok here short
          rw [isRead] at extended
          exact extended
      | interrupted =>
          obtain ⟨rfl, rfl⟩ := Prod.mk.inj (Option.some.inj advanced)
          exact ⟨ok, here⟩
      | failed =>
          obtain ⟨rfl, rfl⟩ := Prod.mk.inj (Option.some.inj advanced)
          exact ⟨trivial, trivial⟩
  | returned bytes =>
      cases advanced
  | failed =>
      cases advanced
  | streaming chunks off remaining filled =>
      cases advanced
  | streamed chunks =>
      cases advanced
  | streamFailed chunks =>
      cases advanced

/-! ## Whole runs -/

/--
Every range request is right so far, and the one that moved the offset last
finds it where it left it.
-/
structure Invariant
    (content : List UInt8)
    (job : Nat → Job)
    (system : System) :
    Prop where
  rangeOk :
    ∀ request offset len,
      job request = .range offset len →
        RangeOk content offset len (system.phase request)
  offsetOk :
    ∀ request offset len,
      job request = .range offset len →
      system.lastMover = some request →
        OffsetOk offset system.position (system.phase request)

theorem invariant_initial
    (content : List UInt8)
    (job : Nat → Job)
    (position : Nat) :
    Invariant content job (System.initial position) where
  rangeOk := fun _ _ _ _ => trivial
  offsetOk := fun _ _ _ _ _ => trivial

/-- A call by a request that reads at its own offset keeps the invariant. -/
theorem Invariant.step
    {content : List UInt8}
    {job : Nat → Job}
    {before after : System}
    {label : Label}
    (invariant : Invariant content job before)
    (taken : step? content job before label = some after)
    (undisturbed : ReadsOwnOffset before label after) :
    Invariant content job after := by
  unfold step? at taken
  cases advanced :
      advance content before.position (job label.request)
        (before.phase label.request) label.outcome with
  | none =>
      simp [advanced] at taken
  | some result =>
      obtain ⟨phase, moved⟩ := result
      simp only [advanced, Option.some.injEq] at taken
      subst taken
      -- The caller's own phase; the phases of the others stay as they are.
      have own :
          ∀ offset len,
            job label.request = .range offset len →
              RangeOk content offset len phase ∧
                OffsetOk offset (moved.getD before.position) phase := by
        intro offset len isJob
        rw [isJob] at advanced
        apply advance_range_ok advanced
          (invariant.rangeOk label.request offset len isJob)
        intro reads
        exact invariant.offsetOk label.request offset len isJob
          (undisturbed reads)
      constructor
      · intro request offset len isJob
        by_cases isCaller : request = label.request
        · subst isCaller
          simpa using (own offset len isJob).1
        · simpa [Function.update_of_ne isCaller] using
            invariant.rangeOk request offset len isJob
      · intro request offset len isJob isMover
        by_cases isCaller : request = label.request
        · subst isCaller
          simpa using (own offset len isJob).2
        · cases moved with
          | none =>
              simpa [Function.update_of_ne isCaller] using
                invariant.offsetOk request offset len isJob isMover
          | some position =>
              exact absurd (Option.some.inj isMover).symm isCaller

/-- The invariant says that what was returned is right. -/
theorem Invariant.rangesExact
    {content : List UInt8}
    {job : Nat → Job}
    {system : System}
    (invariant : Invariant content job system) :
    RangesExact content job system := by
  intro request offset len bytes isJob isReturned
  have ok := invariant.rangeOk request offset len isJob
  rw [isReturned] at ok
  exact ok

/--
In every run in which each read at the shared offset is made by the request
that moved it last, every `async_read_range` that returns `Ok` returns the
file's bytes `[offset, offset + len)`, in every state reached.
-/
theorem ranges_exact_of_own_offset
    (content : List UInt8)
    (job : Nat → Job)
    (position : Nat)
    (labels : List Label)
    (undisturbed :
      StepRun.Along (step? content job) ReadsOwnOffset
        (System.initial position) labels) :
    StepRun.Along (step? content job)
      (fun _ _ after => RangesExact content job after)
      (System.initial position) labels :=
  StepRun.along_of_guarded
    (fun invariant taken guard => invariant.step taken guard)
    (fun invariant => invariant.rangesExact)
    (invariant_initial content job position)
    undisturbed

/-- Request 0 reads the first two bytes of a file, all others the next two. -/
def twoRanges : Nat → Job
  | 0 =>
      .range 0 2
  | _ =>
      .range 2 2

/-- The calls of requests 0 and 1 one after the other, with a short read. -/
theorem ranges_exact_in_turn :
    StepRun.Along (step? [1, 2, 3, 4] twoRanges)
      (fun _ _ after => RangesExact [1, 2, 3, 4] twoRanges after)
      (System.initial 0)
      [⟨0, .done 0⟩, ⟨1, .done 0⟩, ⟨0, .done 0⟩, ⟨0, .done 0⟩,
        ⟨0, .done 9⟩, ⟨1, .done 0⟩, ⟨1, .done 9⟩] :=
  ranges_exact_of_own_offset [1, 2, 3, 4] twoRanges 0 _ (by decide)

/--
Both requests clone and seek before request 0 reads: it is answered with the
bytes of request 1.
-/
theorem overlapping_seeks_disturb :
    (∃ final,
      StepRun.run? (step? [1, 2, 3, 4] twoRanges) (System.initial 0)
          [⟨0, .done 0⟩, ⟨1, .done 0⟩, ⟨0, .done 0⟩, ⟨1, .done 0⟩,
            ⟨0, .done 9⟩] =
          some final ∧
        final.phase 0 = .returned [3, 4]) ∧
      ¬ StepRun.Along (step? [1, 2, 3, 4] twoRanges)
        (fun _ _ after => RangesExact [1, 2, 3, 4] twoRanges after)
        (System.initial 0)
        [⟨0, .done 0⟩, ⟨1, .done 0⟩, ⟨0, .done 0⟩, ⟨1, .done 0⟩,
          ⟨0, .done 9⟩] := by
  refine ⟨⟨_, rfl, rfl⟩, ?_⟩
  intro exactAlways
  obtain ⟨_, exactAlways⟩ := exactAlways _ rfl
  obtain ⟨_, exactAlways⟩ := exactAlways _ rfl
  obtain ⟨_, exactAlways⟩ := exactAlways _ rfl
  obtain ⟨_, exactAlways⟩ := exactAlways _ rfl
  obtain ⟨rangesExact, _⟩ := exactAlways _ rfl
  have wrong := (rangesExact 0 0 2 [3, 4] rfl rfl).1
  exact absurd wrong (by decide)

end Sweety.SharedFile
