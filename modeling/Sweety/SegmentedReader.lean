import Mathlib.Algebra.GroupWithZero.Nat
import Mathlib.Data.List.Basic
import Mathlib.Tactic.Common

/-!
# Buffered reading of a segmented byte stream

A source delivers bytes in segments, and may report errors or fall silent in
between.  A `Reader` puts a buffer of fixed capacity before the source, as the
usual buffered readers do: a read that finds the buffer empty asks the source
once, past the buffer when it wants at least a buffer full.

What the reader has before a chosen place of the source is described by `Holds`;
the specifications say that each operation takes its bytes off the front of what
is held, whatever the segments are, and never reads past that place.  At the
end, `AgreeUntil` compares a source that falls silent with one that goes on.
This module names no particular protocol.
-/

namespace SegmentedReader

/-- What the source does next; a data segment has at least one byte. -/
inductive Event (Err : Type) where
  | data (first : UInt8) (others : List UInt8)
  | error (error : Err)
  /-- Nothing arrives any more, and the source is not closed either. -/
  | stall
  deriving Repr, DecidableEq

/-- A buffer before a source; a source without further events is at its end. -/
structure Reader (Err : Type) where
  buffer : List UInt8
  reads : List (Event Err)
  deriving Repr, DecidableEq

/-- How a read ends; no bytes are returned at the end of the source only. -/
inductive Result (Err : Type) where
  | ok (bytes : List UInt8)
  | error (error : Err)
  | stall
  deriving Repr, DecidableEq

/-- How many bytes were read. -/
def Result.length {Err : Type} : Result Err → Nat
  | .ok bytes =>
      bytes.length
  | .error _ | .stall =>
      0

/-- The bytes that a read brought. -/
def Result.bytes {Err : Type} : Result Err → List UInt8
  | .ok bytes =>
      bytes
  | .error _ | .stall =>
      []

/-- How reading a line ends; an error leaves the bytes read before it. -/
inductive LineResult (Err : Type) where
  | ok (line : List UInt8)
  | error (error : Err) (before : List UInt8)
  | stall
  deriving Repr, DecidableEq

/-- How reading a given number of bytes ends. -/
inductive LoopResult (Err : Type) where
  | full (bytes : List UInt8)
  | eof (bytes : List UInt8)
  | error (error : Err) (before : List UInt8)
  | stall (before : List UInt8)
  deriving Repr, DecidableEq

/-- The size of the buffer. -/
def capacity : Nat := 8192

theorem capacity_pos : 0 < capacity := by
  decide

/-- The line feed. -/
def newline : UInt8 := 10

variable {Err : Type}

namespace Event

/-- A segment of bytes, or nothing for the empty one. -/
def ofBytes : List UInt8 → List (Event Err)
  | [] =>
      []
  | first :: others =>
      [.data first others]

/-- The bytes of a data segment. -/
def bytes : Event Err → List UInt8
  | .data first others =>
      first :: others
  | .error _ | .stall =>
      []

/-- Whether the event is a data segment. -/
def isData : Event Err → Bool
  | .data _ _ =>
      true
  | .error _ | .stall =>
      false

/-- A measure that every read of the source lowers. -/
def weight : Event Err → Nat
  | .data _ others =>
      others.length + 1
  | .error _ | .stall =>
      1

end Event

/-- The weight of all events to come. -/
def weight (reads : List (Event Err)) : Nat :=
  (reads.map Event.weight).sum

/-- One read of the source, of at most `limit` bytes. -/
def pull
    (limit : Nat) :
    List (Event Err) → Result Err × List (Event Err)
  | [] =>
      (.ok [], [])
  | .data first others :: rest =>
      (.ok (first :: others.take (limit - 1)),
        Event.ofBytes (others.drop (limit - 1)) ++ rest)
  | .error error :: rest =>
      (.error error, rest)
  | .stall :: rest =>
      (.stall, .stall :: rest)

theorem weight_ofBytes (bytes : List UInt8) :
    weight (Event.ofBytes bytes : List (Event Err)) = bytes.length := by
  cases bytes <;> simp [Event.ofBytes, weight, Event.weight]

theorem weight_append (first second : List (Event Err)) :
    weight (first ++ second) = weight first + weight second := by
  simp [weight]

/-- A read that brings bytes lowers the weight. -/
theorem weight_pull_lt
    {limit : Nat}
    {reads after : List (Event Err)}
    {first : UInt8}
    {others : List UInt8}
    (pulled : pull limit reads = (.ok (first :: others), after)) :
    weight after < weight reads := by
  cases reads with
  | nil =>
      simp [pull] at pulled
  | cons event rest =>
      cases event with
      | data head tail =>
          obtain ⟨_, rfl⟩ := Prod.mk.inj pulled
          rw [weight_append, weight_ofBytes, List.length_drop]
          simp only [weight, List.map_cons, List.sum_cons, Event.weight]
          omega
      | error error =>
          simp [pull] at pulled
      | stall =>
          simp [pull] at pulled

/-- Cut at the first newline, which stays with the first part. -/
def splitLine? : List UInt8 → Option (List UInt8 × List UInt8)
  | [] =>
      none
  | byte :: rest =>
      if byte = newline then
        some ([byte], rest)
      else
        (splitLine? rest).map fun parts => (byte :: parts.1, parts.2)

theorem splitLine?_of_not_mem
    {bytes : List UInt8}
    (oneLine : newline ∉ bytes) :
    splitLine? bytes = none := by
  induction bytes with
  | nil =>
      rfl
  | cons byte rest inductionHypothesis =>
      simp only [List.mem_cons, not_or] at oneLine
      obtain ⟨notNewline, restOneLine⟩ := oneLine
      rw [splitLine?, if_neg (Ne.symm notNewline),
        inductionHypothesis restOneLine]
      rfl

theorem splitLine?_append
    {line : List UInt8}
    (oneLine : newline ∉ line)
    (rest : List UInt8) :
    splitLine? (line ++ newline :: rest) =
      some (line ++ [newline], rest) := by
  induction line with
  | nil =>
      simp [splitLine?]
  | cons byte others inductionHypothesis =>
      simp only [List.mem_cons, not_or] at oneLine
      obtain ⟨notNewline, othersOneLine⟩ := oneLine
      rw [List.cons_append, splitLine?, if_neg (Ne.symm notNewline),
        inductionHypothesis othersOneLine]
      rfl

/-- Cutting a line off splits the bytes. -/
theorem length_splitLine?
    {bytes line rest : List UInt8}
    (cut : splitLine? bytes = some (line, rest)) :
    0 < line.length ∧ line.length + rest.length = bytes.length := by
  induction bytes generalizing line with
  | nil =>
      cases cut
  | cons byte others inductionHypothesis =>
      rw [splitLine?] at cut
      split at cut
      · obtain ⟨rfl, rfl⟩ := Prod.mk.inj (Option.some.inj cut)
        exact ⟨Nat.one_pos, Nat.add_comm 1 _⟩
      · obtain ⟨⟨head, tail⟩, isCut, same⟩ :=
          Option.map_eq_some_iff.mp cut
        obtain ⟨rfl, rfl⟩ := Prod.mk.inj same
        obtain ⟨_, lengths⟩ := inductionHypothesis isCut
        simp only [List.length_cons] at lengths ⊢
        omega

/-- Read up to and including the next newline, or to the end of the source. -/
def readLine
    (acc : List UInt8)
    (reader : Reader Err) :
    LineResult Err × Reader Err :=
  match splitLine? reader.buffer with
  | some (line, rest) =>
      (.ok (acc ++ line), { reader with buffer := rest })
  | none =>
      match _pulled : pull capacity reader.reads with
      | (.ok [], after) =>
          (.ok (acc ++ reader.buffer), ⟨[], after⟩)
      | (.ok (first :: others), after) =>
          readLine (acc ++ reader.buffer) ⟨first :: others, after⟩
      | (.error error, after) =>
          (.error error (acc ++ reader.buffer), ⟨[], after⟩)
      | (.stall, after) =>
          (.stall, ⟨[], after⟩)
  termination_by weight reader.reads
  decreasing_by exact weight_pull_lt (by assumption)

/-- `readLine` without the equations its recursion rests on. -/
theorem readLine_eq
    (acc : List UInt8)
    (reader : Reader Err) :
    readLine acc reader =
      match splitLine? reader.buffer with
      | some (line, rest) =>
          (.ok (acc ++ line), { reader with buffer := rest })
      | none =>
          match pull capacity reader.reads with
          | (.ok [], after) =>
              (.ok (acc ++ reader.buffer), ⟨[], after⟩)
          | (.ok (first :: others), after) =>
              readLine (acc ++ reader.buffer) ⟨first :: others, after⟩
          | (.error error, after) =>
              (.error error (acc ++ reader.buffer), ⟨[], after⟩)
          | (.stall, after) =>
              (.stall, ⟨[], after⟩) := by
  rw [readLine]
  cases splitLine? reader.buffer with
  | some parts =>
      rfl
  | none =>
      dsimp only
      split <;> simp only [*]

/-- Without a newline in the buffer, reading a line goes on with a read. -/
theorem readLine_of_pull
    {acc buffer : List UInt8}
    {reads after : List (Event Err)}
    {first : UInt8}
    {others : List UInt8}
    (noLine : splitLine? buffer = none)
    (pulled : pull capacity reads = (.ok (first :: others), after)) :
    readLine acc ⟨buffer, reads⟩ =
      readLine (acc ++ buffer) ⟨first :: others, after⟩ := by
  rw [readLine_eq]
  simp only [noLine, pulled]

/-- A line that is begun is not empty. -/
theorem readLine_ne_nil
    {acc line : List UInt8}
    {reader : Reader Err}
    (begun : acc ++ reader.buffer ≠ [])
    (isLine : (readLine acc reader).1 = .ok line) :
    line ≠ [] := by
  fun_induction readLine acc reader with
  | case1 acc reader found rest cut =>
      obtain rfl := LineResult.ok.inj isLine
      intro empty
      obtain ⟨_, rfl⟩ := List.append_eq_nil_iff.mp empty
      exact absurd (length_splitLine? cut).1 (Nat.lt_irrefl 0)
  | case2 acc reader noLine after pulled =>
      obtain rfl := LineResult.ok.inj isLine
      exact begun
  | case3 acc reader noLine first others after pulled
      inductionHypothesis =>
      exact inductionHypothesis (by simp) isLine
  | case4 acc reader noLine error after pulled =>
      cases isLine
  | case5 acc reader noLine after pulled =>
      cases isLine

/-- An empty line is read only at the end of the source. -/
theorem reads_eq_nil_of_readLine
    {reads : List (Event Err)}
    (isLine : (readLine [] ⟨[], reads⟩).1 = .ok []) :
    reads = [] := by
  cases reads with
  | nil =>
      rfl
  | cons event rest =>
      cases event with
      | data first others =>
          have goesOn :
              readLine [] ⟨[], .data first others :: rest⟩ = _ :=
            readLine_of_pull rfl rfl
          rw [goesOn] at isLine
          exact absurd rfl (readLine_ne_nil (by simp) isLine)
      | error error =>
          simp [readLine_eq, splitLine?, pull] at isLine
      | stall =>
          simp [readLine_eq, splitLine?, pull] at isLine

/-- One read of at most `limit` bytes. -/
def read
    (limit : Nat)
    (reader : Reader Err) :
    Result Err × Reader Err :=
  match reader.buffer with
  | first :: others =>
      (.ok ((first :: others).take limit),
        { reader with buffer := (first :: others).drop limit })
  | [] =>
      if capacity ≤ limit then
        match pull limit reader.reads with
        | (result, after) =>
            (result, ⟨[], after⟩)
      else
        match pull capacity reader.reads with
        | (.ok bytes, after) =>
            (.ok (bytes.take limit), ⟨bytes.drop limit, after⟩)
        | (result, after) =>
            (result, ⟨[], after⟩)

/--
Read `remaining` bytes by reads of at most `limit` bytes, up to the end of the
source or an error.
-/
def readLoop
    (limit remaining : Nat)
    (acc : List UInt8)
    (reader : Reader Err) :
    LoopResult Err × Reader Err :=
  if remaining = 0 then
    (.full acc, reader)
  else
    match read (min remaining limit) reader with
    | (.ok [], after) =>
        (.eof acc, after)
    | (.ok (first :: others), after) =>
        readLoop limit (remaining - (others.length + 1))
          (acc ++ first :: others) after
    | (.error error, after) =>
        (.error error acc, after)
    | (.stall, after) =>
        (.stall acc, after)
  termination_by remaining
  decreasing_by omega

/-- Read `remaining` bytes straight from the source, without a buffer. -/
def pullExact
    (remaining : Nat)
    (acc : List UInt8)
    (reads : List (Event Err)) :
    LoopResult Err × List (Event Err) :=
  if remaining = 0 then
    (.full acc, reads)
  else
    match pull remaining reads with
    | (.ok [], after) =>
        (.eof acc, after)
    | (.ok (first :: others), after) =>
        pullExact (remaining - (others.length + 1))
          (acc ++ first :: others) after
    | (.error error, after) =>
        (.error error acc, after)
    | (.stall, after) =>
        (.stall acc, after)
  termination_by remaining
  decreasing_by omega

/-! ## Reads use the source up -/

/-- What a reader has yet to read. -/
def pending (reader : Reader Err) : Nat :=
  reader.buffer.length + weight reader.reads

/-- A read of the source takes its bytes off the weight. -/
theorem weight_pull_le
    {limit : Nat}
    (positive : 0 < limit)
    (reads : List (Event Err)) :
    (pull limit reads).1.length + weight (pull limit reads).2 ≤
      weight reads := by
  cases reads with
  | nil =>
      simp [pull, Result.length]
  | cons event rest =>
      cases event with
      | data head tail =>
          simp only [pull, Result.length]
          rw [weight_append, weight_ofBytes, List.length_drop]
          simp [weight, Event.weight]
          omega
      | error error =>
          simp [pull, weight, Result.length]
      | stall =>
          simp [pull, Result.length]

/-- Reading a line takes its bytes off what is pending. -/
theorem pending_readLine_le
    (acc : List UInt8)
    (reader : Reader Err) :
    pending (readLine acc reader).2 ≤ pending reader ∧
      ∀ line,
        (readLine acc reader).1 = .ok line →
          line.length + pending (readLine acc reader).2 ≤
            acc.length + pending reader := by
  fun_induction readLine acc reader with
  | case1 acc reader line rest cut =>
      obtain ⟨_, lengths⟩ := length_splitLine? cut
      simp [pending]
      omega
  | case2 acc reader noLine after pulled =>
      have less := weight_pull_le capacity_pos reader.reads
      simp [pulled, Result.length, pending] at less ⊢
      omega
  | case3 acc reader noLine first others after pulled
      inductionHypothesis =>
      have less := weight_pull_le capacity_pos reader.reads
      rw [pulled] at less
      obtain ⟨smaller, withLine⟩ := inductionHypothesis
      simp only [pending, Result.length, List.length_append,
        List.length_cons] at less smaller withLine ⊢
      refine ⟨by omega, fun line isLine => ?_⟩
      have bound := withLine line isLine
      omega
  | case4 acc reader noLine error after pulled =>
      have less := weight_pull_le capacity_pos reader.reads
      simp [pulled, Result.length, pending] at less ⊢
      omega
  | case5 acc reader noLine after pulled =>
      have less := weight_pull_le capacity_pos reader.reads
      simp [pulled, Result.length, pending] at less ⊢
      omega

/-- A read takes its bytes off what is pending. -/
theorem pending_read_le
    {limit : Nat}
    (positive : 0 < limit)
    (reader : Reader Err) :
    (read limit reader).1.length + pending (read limit reader).2 ≤
      pending reader := by
  obtain ⟨buffer, reads⟩ := reader
  cases buffer with
  | cons first others =>
      simp only [read, pending, Result.length, List.length_take,
        List.length_drop]
      omega
  | nil =>
      simp only [read]
      split
      · have less := weight_pull_le positive reads
        simpa [pending] using less
      · have less := weight_pull_le capacity_pos reads
        split
        all_goals
          rename_i isPull
          simp [isPull, Result.length, pending] at less ⊢
          omega

/-- Reading a number of bytes leaves no more pending than before. -/
theorem pending_readLoop_le
    {limit : Nat}
    (positive : 0 < limit)
    (remaining : Nat)
    (acc : List UInt8)
    (reader : Reader Err) :
    pending (readLoop limit remaining acc reader).2 ≤
      pending reader := by
  fun_induction readLoop limit remaining acc reader with
  | case1 acc reader =>
      exact Nat.le_refl _
  | case2 remaining acc reader more after isRead
  | case4 remaining acc reader more error after isRead
  | case5 remaining acc reader more after isRead =>
      have some := Nat.pos_of_ne_zero more
      have less :=
        pending_read_le (Nat.lt_min.mpr ⟨some, positive⟩) reader
      simp only [isRead] at less
      exact Nat.le_of_add_left_le less
  | case3 remaining acc reader more first others after isRead
      inductionHypothesis =>
      have some := Nat.pos_of_ne_zero more
      have less :=
        pending_read_le (Nat.lt_min.mpr ⟨some, positive⟩) reader
      simp only [isRead] at less
      omega

/-- Reading a number of bytes from the source does not add to it. -/
theorem weight_pullExact_le
    (remaining : Nat)
    (acc : List UInt8)
    (reads : List (Event Err)) :
    weight (pullExact remaining acc reads).2 ≤ weight reads := by
  fun_induction pullExact remaining acc reads with
  | case1 acc reads =>
      exact Nat.le_refl _
  | case2 remaining acc reads more after isPull
  | case4 remaining acc reads more error after isPull
  | case5 remaining acc reads more after isPull =>
      have less := weight_pull_le (Nat.pos_of_ne_zero more) reads
      rw [isPull] at less
      exact Nat.le_of_add_left_le less
  | case3 remaining acc reads more first others after isPull
      inductionHypothesis =>
      have less := weight_pull_lt isPull
      exact Nat.le_trans inductionHypothesis (Nat.le_of_lt less)

/-- Reading at least one byte from the source uses some of it up. -/
theorem weight_pullExact_lt
    {remaining : Nat}
    {acc bytes : List UInt8}
    {reads after : List (Event Err)}
    (more : remaining ≠ 0)
    (full : pullExact remaining acc reads = (.full bytes, after)) :
    weight after < weight reads := by
  rw [pullExact, if_neg more] at full
  split at full
  · cases full
  · rename_i first others middle isPull
    have less := weight_pull_lt isPull
    have rest :=
      weight_pullExact_le (remaining - (others.length + 1))
        (acc ++ first :: others) middle
    rw [full] at rest
    exact Nat.lt_of_le_of_lt rest less
  · cases full
  · cases full

/-! ## What a reader holds -/

/--
The reader holds `bytes` before the place of its source where `back` begins:
only data segments come before it, and their bytes with those of the buffer are
`bytes`.
-/
def Holds
    (reader : Reader Err)
    (bytes : List UInt8)
    (back : List (Event Err)) :
    Prop :=
  ∃ front,
    reader.reads = front ++ back ∧
      (∀ event ∈ front, event.isData = true) ∧
      reader.buffer ++ front.flatMap Event.bytes = bytes

/-- A reader that holds nothing has an empty buffer and stands at `back`. -/
theorem Holds.eq_of_nil
    {reader : Reader Err}
    {back : List (Event Err)}
    (holds : Holds reader [] back) :
    reader = ⟨[], back⟩ := by
  obtain ⟨front, isFront, allData, bytes⟩ := holds
  obtain ⟨empty, noBytes⟩ := List.append_eq_nil_iff.mp bytes
  have noFront : front = [] := by
    cases front with
    | nil =>
        rfl
    | cons event rest =>
        have isData := allData event (by simp)
        cases event with
        | data first others =>
            simp [Event.bytes] at noBytes
        | error error =>
            cases isData
        | stall =>
            cases isData
  rw [noFront, List.nil_append] at isFront
  cases reader
  simp_all

theorem flatMap_ofBytes (bytes : List UInt8) :
    (Event.ofBytes bytes : List (Event Err)).flatMap Event.bytes =
      bytes := by
  cases bytes <;> simp [Event.ofBytes, Event.bytes]

/-- A read takes its bytes off the front of the source. -/
theorem bytes_pull
    (limit : Nat)
    (reads : List (Event Err)) :
    (pull limit reads).1.bytes ++ (pull limit reads).2.flatMap Event.bytes =
      reads.flatMap Event.bytes := by
  cases reads with
  | nil =>
      rfl
  | cons event rest =>
      cases event with
      | data first others =>
          rw [pull, Result.bytes, List.flatMap_append, flatMap_ofBytes,
            List.cons_append, ← List.append_assoc, List.take_append_drop]
          rfl
      | error error =>
          rfl
      | stall =>
          rfl

theorem isData_of_mem_ofBytes
    {bytes : List UInt8}
    {event : Event Err}
    (member : event ∈ Event.ofBytes bytes) :
    event.isData = true := by
  cases bytes with
  | nil =>
      simp [Event.ofBytes] at member
  | cons first others =>
      simp only [Event.ofBytes, List.mem_singleton] at member
      rw [member]
      rfl

/--
Taking at most `limit` bytes off a buffer that is not empty takes some of the
bytes that are held.
-/
theorem Holds.take_buffer
    {buffer : List UInt8}
    {reads : List (Event Err)}
    {bytes : List UInt8}
    {back : List (Event Err)}
    {limit : Nat}
    (holds : Holds ⟨buffer, reads⟩ bytes back)
    (nonempty : buffer ≠ [])
    (positive : 0 < limit) :
    ∃ count,
      buffer.take limit = bytes.take count ∧
        0 < count ∧
        count ≤ limit ∧
        count ≤ bytes.length ∧
        Holds ⟨buffer.drop limit, reads⟩ (bytes.drop count) back := by
  obtain ⟨front, isFront, allData, rfl⟩ := holds
  dsimp only at isFront ⊢
  have someBytes := List.length_pos_iff.mpr nonempty
  have within : min limit buffer.length ≤ buffer.length :=
    Nat.min_le_right limit buffer.length
  refine ⟨min limit buffer.length, ?_, by omega, by omega, ?_,
    front, isFront, allData, ?_⟩
  · rw [List.take_append_of_le_length within, ← List.take_eq_take_min]
  · rw [List.length_append]
    omega
  · rw [List.drop_append_of_le_length within, ← List.drop_eq_drop_min]

/--
One read of the source by a reader with an empty buffer brings some of the bytes
that are held, and at most `limit`.
-/
theorem Holds.pull
    {reader : Reader Err}
    {bytes : List UInt8}
    {back : List (Event Err)}
    {limit : Nat}
    (holds : Holds reader bytes back)
    (empty : reader.buffer = [])
    (nonempty : bytes ≠ [])
    (positive : 0 < limit) :
    ∃ pulled after,
      SegmentedReader.pull limit reader.reads = (.ok pulled, after) ∧
        pulled ≠ [] ∧
        pulled.length ≤ limit ∧
        Holds ⟨pulled, after⟩ bytes back := by
  obtain ⟨front, isFront, allData, rfl⟩ := holds
  rw [empty, List.nil_append] at nonempty ⊢
  cases front with
  | nil =>
      simp at nonempty
  | cons event rest =>
      have isData := allData event (by simp)
      cases event with
      | error error =>
          cases isData
      | stall =>
          cases isData
      | data first others =>
          rw [isFront]
          refine ⟨_, _, rfl, by simp, ?_, ?_⟩
          · simp
            omega
          · refine ⟨Event.ofBytes (others.drop (limit - 1)) ++ rest,
              by simp, ?_, ?_⟩
            · intro event member
              rcases List.mem_append.mp member with isRest | inRest
              · exact isData_of_mem_ofBytes isRest
              · exact allData event (by simp [inRest])
            · rw [List.flatMap_append, flatMap_ofBytes]
              simp [Event.bytes, ← List.append_assoc,
                List.take_append_drop]

/-- One read brings some of the bytes that are held, and at most `limit`. -/
theorem read_spec
    {reader : Reader Err}
    {bytes : List UInt8}
    {back : List (Event Err)}
    {limit : Nat}
    (holds : Holds reader bytes back)
    (nonempty : bytes ≠ [])
    (positive : 0 < limit) :
    ∃ count after,
      read limit reader = (.ok (bytes.take count), after) ∧
        0 < count ∧
        count ≤ limit ∧
        count ≤ bytes.length ∧
        Holds after (bytes.drop count) back := by
  obtain ⟨buffer, reads⟩ := reader
  cases buffer with
  | cons first others =>
      obtain ⟨count, taken, facts⟩ :=
        holds.take_buffer (by simp) positive
      exact ⟨count, _, by simp only [read, taken], facts⟩
  | nil =>
      by_cases direct : capacity ≤ limit
      · obtain ⟨pulled, after, isPull, some, short, held⟩ :=
          holds.pull rfl nonempty positive
        obtain ⟨count, taken, facts⟩ := held.take_buffer some positive
        rw [List.take_of_length_le short] at taken
        rw [List.drop_eq_nil_of_le short] at facts
        exact ⟨count, _, by simp [read, direct, isPull, taken], facts⟩
      · obtain ⟨pulled, after, isPull, some, _, held⟩ :=
          holds.pull rfl nonempty capacity_pos
        obtain ⟨count, taken, facts⟩ := held.take_buffer some positive
        exact ⟨count, _, by simp [read, direct, isPull, taken], facts⟩

/-- The first bytes, at least one, and those behind them. -/
theorem exists_take_eq_cons
    {bytes : List UInt8}
    {count : Nat}
    (some : 0 < count)
    (within : count ≤ bytes.length) :
    ∃ first others,
      bytes.take count = first :: others ∧
        bytes = first :: others ++ bytes.drop count := by
  have taken : bytes.take count ≠ [] := by
    apply List.length_pos_iff.mp
    rw [List.length_take, Nat.min_eq_left within]
    exact some
  obtain ⟨first, others, isTaken⟩ := List.exists_cons_of_ne_nil taken
  refine ⟨first, others, isTaken, ?_⟩
  rw [← isTaken, List.take_append_drop]

/-- The bytes that a read brings, and those that are left. -/
theorem read_some
    {reader : Reader Err}
    {bytes : List UInt8}
    {back : List (Event Err)}
    {limit : Nat}
    (holds : Holds reader bytes back)
    (nonempty : bytes ≠ [])
    (positive : 0 < limit) :
    ∃ first others later after,
      read limit reader = (.ok (first :: others), after) ∧
        bytes = first :: others ++ later ∧
        Holds after later back := by
  obtain ⟨count, after, isRead, someBytes, _, within, held⟩ :=
    read_spec holds nonempty positive
  obtain ⟨first, others, isTaken, whole⟩ :=
    exists_take_eq_cons someBytes within
  rw [isTaken] at isRead
  exact ⟨first, others, bytes.drop count, after, isRead, whole, held⟩

/-- A read within `bytes` brings a part of them that is not empty. -/
theorem read_part
    {reader : Reader Err}
    {limit : Nat}
    {bytes rest : List UInt8}
    {back : List (Event Err)}
    (holds : Holds reader (bytes ++ rest) back)
    (positive : 0 < limit)
    (within : limit ≤ bytes.length) :
    ∃ first others later after,
      read limit reader = (.ok (first :: others), after) ∧
        bytes = first :: others ++ later ∧
        Holds after (later ++ rest) back := by
  have nonempty : bytes ++ rest ≠ [] := by
    apply List.append_ne_nil_of_left_ne_nil
    exact List.length_pos_iff.mp (Nat.lt_of_lt_of_le positive within)
  obtain ⟨count, after, isRead, some, short, _, held⟩ :=
    read_spec holds nonempty positive
  have inside : count ≤ bytes.length := Nat.le_trans short within
  rw [List.take_append_of_le_length inside] at isRead
  rw [List.drop_append_of_le_length inside] at held
  obtain ⟨first, others, isTaken, whole⟩ := exists_take_eq_cons some inside
  rw [isTaken] at isRead
  exact ⟨first, others, bytes.drop count, after, isRead, whole, held⟩

/-- Induction over the reads that bring `bytes`. -/
theorem Holds.part_induction
    {limit : Nat}
    {rest : List UInt8}
    {back : List (Event Err)}
    {motive : List UInt8 → Reader Err → Prop}
    (positive : 0 < limit)
    (done : ∀ reader, Holds reader rest back → motive [] reader)
    (more :
      ∀ first others later reader after,
        read (min (first :: others ++ later).length limit) reader =
          (.ok (first :: others), after) →
        motive later after →
          motive (first :: others ++ later) reader)
    {bytes : List UInt8}
    {reader : Reader Err}
    (holds : Holds reader (bytes ++ rest) back) :
    motive bytes reader := by
  induction lengthIs : bytes.length using Nat.strongRecOn
    generalizing bytes reader with
  | ind length inductionHypothesis =>
      cases length with
      | zero =>
          obtain rfl := List.eq_nil_of_length_eq_zero lengthIs
          exact done reader holds
      | succ remaining =>
          obtain ⟨first, others, later, middle, isRead, rfl, held⟩ :=
            read_part holds
              (Nat.lt_min.mpr ⟨Nat.add_one_pos remaining, positive⟩)
              (by rw [lengthIs]; exact Nat.min_le_left _ _)
          rw [← lengthIs] at isRead
          refine more first others later reader middle isRead ?_
          apply inductionHypothesis later.length _ held rfl
          rw [← lengthIs, List.length_append, List.length_cons]
          omega

theorem length_sub_of_append
    (first : UInt8)
    (others later : List UInt8) :
    (first :: others ++ later).length - (others.length + 1) =
      later.length := by
  rw [List.length_append, List.length_cons, Nat.add_sub_cancel_left]

/-- Reading `bytes.length` bytes brings `bytes`. -/
theorem readLoop_spec
    {reader : Reader Err}
    {limit : Nat}
    (bytes rest : List UInt8)
    (acc : List UInt8)
    {back : List (Event Err)}
    (holds : Holds reader (bytes ++ rest) back)
    (positive : 0 < limit) :
    ∃ after,
      readLoop limit bytes.length acc reader =
          (.full (acc ++ bytes), after) ∧
        Holds after rest back := by
  revert acc
  refine Holds.part_induction
    (motive := fun bytes reader =>
      ∀ acc,
        ∃ after,
          readLoop limit bytes.length acc reader =
              (.full (acc ++ bytes), after) ∧
            Holds after rest back)
    positive ?_ ?_ holds
  · intro reader held acc
    refine ⟨reader, ?_, held⟩
    rw [readLoop]
    simp
  · intro first others later reader middle isRead inductionHypothesis acc
    obtain ⟨after, loops, held⟩ := inductionHypothesis (acc ++ first :: others)
    refine ⟨after, ?_, held⟩
    rw [List.append_assoc] at loops
    rw [readLoop, if_neg (by simp), isRead]
    dsimp only
    rw [length_sub_of_append]
    exact loops

/-- The next newline is in the buffer, or the buffer is part of the line. -/
theorem Holds.newline_cases
    {buffer : List UInt8}
    {reads : List (Event Err)}
    {line rest : List UInt8}
    {back : List (Event Err)}
    (holds : Holds ⟨buffer, reads⟩ (line ++ newline :: rest) back) :
    (∃ others,
      buffer = line ++ newline :: others ∧
        Holds ⟨others, reads⟩ rest back) ∨
      ∃ later,
        line = buffer ++ later ∧
          Holds ⟨[], reads⟩ (later ++ newline :: rest) back := by
  obtain ⟨front, isFront, allData, bytes⟩ := holds
  dsimp only at isFront bytes
  rcases List.append_eq_append_iff.mp bytes with
      ⟨later, isLine, isRest⟩ | ⟨early, isBuffer, isRest⟩
  · exact .inr ⟨later, isLine, front, isFront, allData, isRest⟩
  · cases early with
    | nil =>
        refine .inr ⟨[], by simpa using isBuffer.symm,
          front, isFront, allData, ?_⟩
        simpa using isRest.symm
    | cons first others =>
        obtain ⟨rfl, rfl⟩ := List.cons.inj isRest
        exact .inl ⟨others, isBuffer, front, isFront, allData, rfl⟩

/-- Reading a line brings the bytes up to and including the next newline. -/
theorem readLine_spec
    {reader : Reader Err}
    {line rest : List UInt8}
    {back : List (Event Err)}
    (acc : List UInt8)
    (holds : Holds reader (line ++ newline :: rest) back)
    (oneLine : newline ∉ line) :
    ∃ after,
      readLine acc reader =
          (.ok (acc ++ line ++ [newline]), after) ∧
        Holds after rest back := by
  induction total : weight reader.reads using Nat.strongRecOn
    generalizing reader line acc with
  | ind size inductionHypothesis =>
      obtain ⟨buffer, reads⟩ := reader
      rcases holds.newline_cases with
          ⟨others, rfl, held⟩ | ⟨later, rfl, held⟩
      · refine ⟨_, ?_, held⟩
        rw [readLine, splitLine?_append oneLine]
        simp
      · obtain ⟨pulled, after, isPull, nonempty, _, pulledHeld⟩ :=
          held.pull rfl (by simp) capacity_pos
        have bufferOneLine : newline ∉ buffer := by
          intro member
          exact oneLine (List.mem_append_left later member)
        have laterOneLine : newline ∉ later := by
          intro member
          exact oneLine (List.mem_append_right buffer member)
        obtain ⟨first, others, rfl⟩ :=
          List.exists_cons_of_ne_nil nonempty
        have lighter : weight after < size := by
          rw [← total]
          exact weight_pull_lt isPull
        obtain ⟨final, readsOn, finallyHeld⟩ :=
          inductionHypothesis (weight after) lighter (acc ++ buffer)
            pulledHeld laterOneLine rfl
        refine ⟨final, ?_, finallyHeld⟩
        rw [readLine_of_pull (splitLine?_of_not_mem bufferOneLine)
          isPull, readsOn]
        simp

/-- Without a buffer, reading `bytes.length` bytes brings `bytes`. -/
theorem pullExact_spec
    {reads : List (Event Err)}
    (bytes rest : List UInt8)
    (acc : List UInt8)
    {back : List (Event Err)}
    (holds : Holds ⟨[], reads⟩ (bytes ++ rest) back) :
    ∃ after,
      pullExact bytes.length acc reads = (.full (acc ++ bytes), after) ∧
        Holds ⟨[], after⟩ rest back := by
  induction lengthIs : bytes.length using Nat.strongRecOn
    generalizing bytes acc reads with
  | ind remaining inductionHypothesis =>
      cases bytes with
      | nil =>
          subst lengthIs
          refine ⟨reads, ?_, holds⟩
          rw [pullExact, List.append_nil]
          rfl
      | cons first others =>
          have positive : 0 < remaining := by
            rw [← lengthIs]
            exact Nat.succ_pos _
          obtain ⟨pulled, after, isPull, nonempty, short, held⟩ :=
            holds.pull rfl (by simp) positive
          obtain ⟨front, isFront, allData, isBytes⟩ := held
          dsimp only at isFront isBytes
          have isPrefix : pulled <+: first :: others := by
            have isWhole : pulled <+: first :: others ++ rest :=
              ⟨_, isBytes⟩
            exact List.prefix_of_prefix_length_le isWhole
              (List.prefix_append _ _) (by omega)
          obtain ⟨later, isLater⟩ := isPrefix
          rw [← isLater, List.append_assoc,
            List.append_cancel_left_eq] at isBytes
          obtain ⟨byte, more, rfl⟩ := List.exists_cons_of_ne_nil nonempty
          have left : remaining - (more.length + 1) = later.length := by
            rw [← isLater] at lengthIs
            simp only [List.length_append, List.length_cons] at lengthIs
            omega
          obtain ⟨final, isRead, finallyHeld⟩ :=
            inductionHypothesis (remaining - (more.length + 1)) (by omega)
              later (acc ++ byte :: more)
              ⟨front, isFront, allData, by simpa using isBytes⟩ left.symm
          refine ⟨final, ?_, finallyHeld⟩
          rw [pullExact, if_neg (Nat.ne_of_gt positive)]
          dsimp only at isPull
          simp only [isPull, isRead, ← isLater, List.append_assoc]

/-! ## Lines as bytes -/

section LineBytes

variable
  {limit remaining : Nat}
  {acc whole : List UInt8}

theorem splitLine?_eq_some
    {bytes line rest : List UInt8}
    (cut : splitLine? bytes = some (line, rest)) :
    bytes = line ++ rest ∧ newline ∈ line := by
  induction bytes generalizing line with
  | nil =>
      cases cut
  | cons byte others inductionHypothesis =>
      rw [splitLine?] at cut
      split at cut
      · next isNewline =>
          obtain ⟨rfl, rfl⟩ := Prod.mk.inj (Option.some.inj cut)
          exact ⟨rfl, List.mem_singleton.mpr isNewline.symm⟩
      · obtain ⟨⟨head, tail⟩, isCut, same⟩ :=
          Option.map_eq_some_iff.mp cut
        obtain ⟨rfl, rfl⟩ := Prod.mk.inj same
        obtain ⟨rfl, isMember⟩ := inductionHypothesis isCut
        exact ⟨rfl, List.mem_cons_of_mem byte isMember⟩

theorem newline_not_mem_of_splitLine?
    {bytes : List UInt8}
    (noLine : splitLine? bytes = none) :
    newline ∉ bytes := by
  intro isMember
  obtain ⟨before, after, rfl, absent⟩ :=
    List.eq_append_cons_of_mem isMember
  rw [splitLine?_append absent] at noLine
  cases noLine

/-- A short read of an empty buffer fills the buffer first. -/
theorem readLoop_of_pull
    {reads after : List (Event Err)}
    {first : UInt8}
    {others : List UInt8}
    (small : limit < capacity)
    (positive : 0 < remaining)
    (pulled : pull capacity reads = (.ok (first :: others), after)) :
    readLoop limit remaining acc ⟨[], reads⟩ =
      readLoop limit remaining acc ⟨first :: others, after⟩ := by
  have below : ¬ capacity ≤ min remaining limit := by
    have isMin := Nat.min_le_right remaining limit
    omega
  rw [readLoop, readLoop]
  simp only [if_neg (Nat.ne_of_gt positive), read, if_neg below, pulled]

/-- What is in the buffer is read at once. -/
theorem readLoop_of_buffer
    {buffer : List UInt8}
    {reads : List (Event Err)}
    (nonempty : buffer ≠ [])
    (positive : 0 < remaining)
    (fits : remaining ≤ limit) :
    readLoop limit remaining acc ⟨buffer, reads⟩ =
      readLoop limit (remaining - buffer.length)
        (acc ++ buffer.take remaining) ⟨buffer.drop remaining, reads⟩ := by
  obtain ⟨first, others, rfl⟩ := List.exists_cons_of_ne_nil nonempty
  obtain ⟨count, rfl⟩ := Nat.exists_eq_succ_of_ne_zero
    (Nat.ne_of_gt positive)
  rw [readLoop, if_neg (Nat.succ_ne_zero count)]
  simp only [read, Nat.min_eq_left fits, List.take_succ_cons,
    List.drop_succ_cons, List.length_take, List.length_cons]
  congr 1
  omega

/-- A short line is read by its length to the same place. -/
theorem readLoop_of_readLine
    {reader after : Reader Err}
    (small : limit < capacity)
    (isLine : readLine acc reader = (.ok whole, after))
    (begun : newline ∉ acc)
    (complete : newline ∈ whole)
    (fits : whole.length ≤ acc.length + limit) :
    readLoop limit (whole.length - acc.length) acc reader =
        (.full whole, after) ∧
      acc.length < whole.length := by
  fun_induction readLine acc reader with
  | case1 acc reader line rest cut =>
      obtain ⟨isOk, rfl⟩ := Prod.mk.inj isLine
      obtain rfl := LineResult.ok.inj isOk
      obtain ⟨buffer, reads⟩ := reader
      obtain ⟨rfl, isMember⟩ := splitLine?_eq_some cut
      have positive := List.length_pos_of_mem isMember
      rw [List.length_append] at fits ⊢
      rw [Nat.add_sub_cancel_left,
        readLoop_of_buffer
          (List.ne_nil_of_mem (List.mem_append_left _ isMember))
          positive (by omega),
        List.take_left, List.drop_left, readLoop,
        if_pos (by rw [List.length_append]; omega)]
      exact ⟨rfl, by omega⟩
  | case2 acc reader noLine after pulled =>
      obtain ⟨isOk, rfl⟩ := Prod.mk.inj isLine
      obtain rfl := LineResult.ok.inj isOk
      rcases List.mem_append.mp complete with inAcc | inBuffer
      · exact absurd inAcc begun
      · exact absurd inBuffer (newline_not_mem_of_splitLine? noLine)
  | case3 acc reader noLine first others after pulled
      inductionHypothesis =>
      obtain ⟨buffer, reads⟩ := reader
      have notInBuffer := newline_not_mem_of_splitLine? noLine
      have begunNow : newline ∉ acc ++ buffer := by
        rw [List.mem_append, not_or]
        exact ⟨begun, notInBuffer⟩
      obtain ⟨isRead, longer⟩ := inductionHypothesis isLine begunNow
        (by rw [List.length_append]; omega)
      rw [List.length_append] at isRead longer
      dsimp only at isRead longer
      refine ⟨?_, by omega⟩
      have isRest :
          readLoop limit (whole.length - acc.length) acc
              ⟨buffer, reads⟩ =
            readLoop limit (whole.length - (acc.length + buffer.length))
              (acc ++ buffer) ⟨[], reads⟩ := by
        by_cases empty : buffer = []
        · subst empty
          rw [List.append_nil, List.length_nil, Nat.add_zero]
        · rw [readLoop_of_buffer empty (by omega) (by omega),
            List.take_of_length_le (by omega),
            List.drop_of_length_le (by omega), Nat.sub_sub]
      rw [isRest, readLoop_of_pull small (by omega) pulled, isRead]
  | case4 acc reader noLine error after pulled =>
      cases isLine
  | case5 acc reader noLine after pulled =>
      cases isLine

end LineBytes

/-! ## Sources that break off -/

/-- Only errors come before the end of the source. -/
def Broken (reads : List (Event Err)) : Prop :=
  ∀ event ∈ reads, ∃ error, event = .error error

theorem broken_nil : Broken ([] : List (Event Err)) :=
  nofun

theorem Broken.tail
    {event : Event Err}
    {rest : List (Event Err)}
    (broken : Broken (event :: rest)) :
    Broken rest := by
  intro other member
  exact broken other (List.mem_cons_of_mem event member)

/-- How reading a number of bytes ends at the break. -/
def loopBreak (bytes : List UInt8) :
    List (Event Err) → LoopResult Err × Reader Err
  | .error error :: rest =>
      (.error error bytes, ⟨[], rest⟩)
  | back =>
      (.eof bytes, ⟨[], back⟩)

/-- How reading a line ends at the break. -/
def lineBreak (bytes : List UInt8) :
    List (Event Err) → LineResult Err × Reader Err
  | .error error :: rest =>
      (.error error bytes, ⟨[], rest⟩)
  | back =>
      (.ok bytes, ⟨[], back⟩)

/-- One read at the break. -/
theorem read_broken
    {back : List (Event Err)}
    (broken : Broken back)
    (limit : Nat) :
    (back = [] ∧ read limit ⟨[], back⟩ = (.ok [], ⟨[], []⟩)) ∨
      ∃ error rest,
        back = .error error :: rest ∧
          read limit ⟨[], back⟩ = (.error error, ⟨[], rest⟩) := by
  cases back with
  | nil =>
      refine .inl ⟨rfl, ?_⟩
      by_cases direct : capacity ≤ limit <;> simp [read, direct, pull]
  | cons event rest =>
      obtain ⟨error, rfl⟩ := broken event List.mem_cons_self
      refine .inr ⟨error, rest, rfl, ?_⟩
      by_cases direct : capacity ≤ limit <;> simp [read, direct, pull]

/-- Induction over the reads up to a break within what is wanted. -/
theorem Holds.short_induction
    {limit : Nat}
    {back : List (Event Err)}
    {motive : Nat → List UInt8 → Reader Err → Prop}
    (positive : 0 < limit)
    (drained : ∀ remaining, remaining ≠ 0 → motive remaining [] ⟨[], back⟩)
    (more :
      ∀ remaining first others later reader after,
        remaining ≠ 0 →
        read (min remaining limit) reader = (.ok (first :: others), after) →
        motive (remaining - (others.length + 1)) later after →
          motive remaining (first :: others ++ later) reader)
    {remaining : Nat}
    {bytes : List UInt8}
    {reader : Reader Err}
    (holds : Holds reader bytes back)
    (short : bytes.length < remaining) :
    motive remaining bytes reader := by
  induction lengthIs : bytes.length using Nat.strongRecOn
    generalizing bytes reader remaining with
  | ind length inductionHypothesis =>
      have some : remaining ≠ 0 := by
        omega
      by_cases empty : bytes = []
      · subst empty
        rw [holds.eq_of_nil]
        exact drained remaining some
      · obtain ⟨first, others, later, after, isRead, rfl, held⟩ :=
          read_some holds empty
            (Nat.lt_min.mpr ⟨Nat.pos_of_ne_zero some, positive⟩)
        simp only [List.length_append, List.length_cons] at lengthIs short
        exact more remaining first others later reader after some isRead
          (inductionHypothesis later.length (by omega) held (by omega) rfl)

/-- Reading more than is held brings what is held, and then the break. -/
theorem readLoop_broken
    {reader : Reader Err}
    {limit remaining : Nat}
    {bytes : List UInt8}
    {back : List (Event Err)}
    (acc : List UInt8)
    (holds : Holds reader bytes back)
    (broken : Broken back)
    (short : bytes.length < remaining)
    (positive : 0 < limit) :
    readLoop limit remaining acc reader = loopBreak (acc ++ bytes) back := by
  revert acc
  refine Holds.short_induction
    (motive := fun remaining bytes reader =>
      ∀ acc,
        readLoop limit remaining acc reader = loopBreak (acc ++ bytes) back)
    positive ?_ ?_ holds short
  · intro remaining some acc
    rw [readLoop, if_neg some, List.append_nil]
    rcases read_broken broken (min remaining limit) with
      ⟨rfl, isRead⟩ | ⟨error, rest, rfl, isRead⟩
    · rw [isRead]
      rfl
    · rw [isRead]
      rfl
  · intro remaining first others later reader after some isRead
      inductionHypothesis acc
    rw [readLoop, if_neg some, isRead]
    dsimp only
    rw [inductionHypothesis, List.append_assoc]

/-- Reading a line that is cut short brings what is held, and the break. -/
theorem readLine_broken
    {reader : Reader Err}
    {bytes : List UInt8}
    {back : List (Event Err)}
    (acc : List UInt8)
    (holds : Holds reader bytes back)
    (broken : Broken back)
    (oneLine : newline ∉ bytes) :
    readLine acc reader = lineBreak (acc ++ bytes) back := by
  induction total : weight reader.reads using Nat.strongRecOn
    generalizing reader bytes acc with
  | ind size inductionHypothesis =>
      obtain ⟨buffer, reads⟩ := reader
      obtain ⟨front, isFront, allData, rfl⟩ := holds
      dsimp only at isFront oneLine ⊢
      have bufferOneLine : newline ∉ buffer :=
        fun member => oneLine (List.mem_append_left _ member)
      by_cases empty : front.flatMap Event.bytes = []
      · have atBreak : Holds ⟨[], reads⟩ [] back :=
          ⟨front, isFront, allData, empty⟩
        obtain rfl : reads = back :=
          congrArg Reader.reads atBreak.eq_of_nil
        rw [empty, List.append_nil, readLine_eq,
          splitLine?_of_not_mem bufferOneLine]
        cases reads with
        | nil =>
            rfl
        | cons event rest =>
            obtain ⟨error, rfl⟩ := broken event List.mem_cons_self
            rfl
      · have held : Holds ⟨[], reads⟩ (front.flatMap Event.bytes) back :=
          ⟨front, isFront, allData, rfl⟩
        obtain ⟨pulled, after, isPull, nonempty, _, pulledHeld⟩ :=
          held.pull rfl empty capacity_pos
        obtain ⟨first, others, rfl⟩ :=
          List.exists_cons_of_ne_nil nonempty
        have lighter : weight after < size := by
          rw [← total]
          exact weight_pull_lt isPull
        have restOneLine : newline ∉ front.flatMap Event.bytes :=
          fun member => oneLine (List.mem_append_right _ member)
        rw [readLine_of_pull (splitLine?_of_not_mem bufferOneLine) isPull,
          inductionHypothesis (weight after) lighter (acc ++ buffer)
            pulledHeld restOneLine rfl, List.append_assoc]

/-! ## Sources that do not fall silent -/

/-- The source never falls silent. -/
def Ends (reads : List (Event Err)) : Prop :=
  .stall ∉ reads

theorem Broken.ends
    {reads : List (Event Err)}
    (broken : Broken reads) :
    Ends reads := by
  intro member
  obtain ⟨error, isError⟩ := broken _ member
  cases isError

theorem Holds.ends
    {reader : Reader Err}
    {bytes : List UInt8}
    {back : List (Event Err)}
    (holds : Holds reader bytes back)
    (ends : Ends back) :
    Ends reader.reads := by
  obtain ⟨front, isFront, allData, _⟩ := holds
  rw [isFront]
  intro member
  rcases List.mem_append.mp member with inFront | inBack
  · cases allData _ inFront
  · exact ends inBack

theorem pull_ends
    {limit : Nat}
    {reads : List (Event Err)}
    (ends : Ends reads) :
    (pull limit reads).1 ≠ .stall ∧ Ends (pull limit reads).2 := by
  cases reads with
  | nil =>
      exact ⟨nofun, ends⟩
  | cons event rest =>
      have restEnds : Ends rest :=
        fun member => ends (List.mem_cons_of_mem event member)
      cases event with
      | data first others =>
          refine ⟨nofun, ?_⟩
          intro member
          rcases List.mem_append.mp member with isRest | inRest
          · cases isData_of_mem_ofBytes isRest
          · exact restEnds inRest
      | error error =>
          exact ⟨nofun, restEnds⟩
      | stall =>
          exact absurd List.mem_cons_self ends

/-- A line is read without waiting for ever. -/
theorem readLine_ends
    {acc : List UInt8}
    {reader : Reader Err}
    (ends : Ends reader.reads) :
    (readLine acc reader).1 ≠ .stall ∧
      Ends (readLine acc reader).2.reads := by
  fun_induction readLine acc reader with
  | case1 acc reader line rest cut =>
      exact ⟨nofun, ends⟩
  | case2 acc reader noLine after pulled =>
      have pulledEnds := (@pull_ends _ capacity _ ends).2
      rw [pulled] at pulledEnds
      exact ⟨nofun, pulledEnds⟩
  | case3 acc reader noLine first others after pulled inductionHypothesis =>
      have pulledEnds := (@pull_ends _ capacity _ ends).2
      rw [pulled] at pulledEnds
      exact inductionHypothesis pulledEnds
  | case4 acc reader noLine error after pulled =>
      have pulledEnds := (@pull_ends _ capacity _ ends).2
      rw [pulled] at pulledEnds
      exact ⟨nofun, pulledEnds⟩
  | case5 acc reader noLine after pulled =>
      have notStall := (@pull_ends _ capacity _ ends).1
      rw [pulled] at notStall
      exact absurd rfl notStall

/-! ## Sources that agree up to a silence -/

/--
The readers hold the same up to the place where the source of the first falls
silent; the source of the second goes on with `other`.
-/
def AgreeUntil
    (silent other : List (Event Err))
    (first second : Reader Err) :
    Prop :=
  first.buffer = second.buffer ∧
    ∃ front,
      first.reads = front ++ .stall :: silent ∧
        second.reads = front ++ other

section Silence

variable
  {silent other : List (Event Err)}
  {first second after : Reader Err}

/-- A read of the source that is not silent is the same on both sides. -/
theorem pull_agree
    {limit : Nat}
    {front : List (Event Err)}
    {result : Result Err}
    {left : List (Event Err)}
    (pulled : pull limit (front ++ .stall :: silent) = (result, left))
    (heard : result ≠ .stall) :
    ∃ rest,
      left = rest ++ .stall :: silent ∧
        pull limit (front ++ other) = (result, rest ++ other) := by
  cases front with
  | nil =>
      obtain ⟨isStall, _⟩ := Prod.mk.inj pulled
      exact absurd isStall.symm heard
  | cons event front =>
      cases event with
      | data byte others =>
          obtain ⟨rfl, rfl⟩ := Prod.mk.inj pulled
          exact ⟨Event.ofBytes (others.drop (limit - 1)) ++ front,
            by simp, by simp [pull]⟩
      | error error =>
          obtain ⟨rfl, rfl⟩ := Prod.mk.inj pulled
          exact ⟨front, rfl, rfl⟩
      | stall =>
          obtain ⟨isStall, _⟩ := Prod.mk.inj pulled
          exact absurd isStall.symm heard

/-- So is a line. -/
theorem readLine_agree
    {acc : List UInt8}
    {result : LineResult Err}
    (agree : AgreeUntil silent other first second)
    (isLine : readLine acc first = (result, after))
    (heard : result ≠ .stall) :
    ∃ next,
      readLine acc second = (result, next) ∧
        AgreeUntil silent other after next := by
  obtain ⟨sameBuffer, front, isFirst, isSecond⟩ := agree
  fun_induction readLine acc first generalizing second front with
  | case1 acc first line rest cut =>
      obtain ⟨rfl, rfl⟩ := Prod.mk.inj isLine
      rw [sameBuffer] at cut
      refine ⟨{ second with buffer := rest }, ?_, rfl, front, isFirst,
        isSecond⟩
      simp only [readLine_eq, cut]
  | case2 acc first noLine left pulled =>
      obtain ⟨rfl, rfl⟩ := Prod.mk.inj isLine
      rw [isFirst] at pulled
      obtain ⟨rest, isLeft, also⟩ := pull_agree pulled nofun
      rw [← isSecond] at also
      rw [sameBuffer] at noLine
      refine ⟨⟨[], rest ++ other⟩, ?_, rfl, rest, isLeft, rfl⟩
      simp only [readLine_eq, noLine, also, sameBuffer]
  | case3 acc first noLine byte others left pulled inductionHypothesis =>
      rw [isFirst] at pulled
      obtain ⟨rest, isLeft, also⟩ := pull_agree pulled nofun
      rw [← isSecond] at also
      rw [sameBuffer] at noLine
      obtain ⟨next, isNext, agree⟩ :
          ∃ next,
            readLine (acc ++ first.buffer)
                ⟨byte :: others, rest ++ other⟩ =
              (result, next) ∧
            AgreeUntil silent other after next :=
        inductionHypothesis isLine rfl rest isLeft rfl
      rw [sameBuffer] at isNext
      refine ⟨next, ?_, agree⟩
      rw [readLine_eq]
      simp only [noLine, also, isNext]
  | case4 acc first noLine error left pulled =>
      obtain ⟨rfl, rfl⟩ := Prod.mk.inj isLine
      rw [isFirst] at pulled
      obtain ⟨rest, isLeft, also⟩ := pull_agree pulled nofun
      rw [← isSecond] at also
      rw [sameBuffer] at noLine
      refine ⟨⟨[], rest ++ other⟩, ?_, rfl, rest, isLeft, rfl⟩
      simp only [readLine_eq, noLine, also, sameBuffer]
  | case5 acc first noLine left pulled =>
      obtain ⟨rfl, rfl⟩ := Prod.mk.inj isLine
      exact absurd rfl heard

/-- So is a read. -/
theorem read_agree
    {limit : Nat}
    {result : Result Err}
    (agree : AgreeUntil silent other first second)
    (isRead : read limit first = (result, after))
    (heard : result ≠ .stall) :
    ∃ next,
      read limit second = (result, next) ∧
        AgreeUntil silent other after next := by
  obtain ⟨sameBuffer, front, isFirst, isSecond⟩ := agree
  unfold read at isRead
  unfold read
  rw [← sameBuffer]
  split at isRead
  · obtain ⟨rfl, rfl⟩ := Prod.mk.inj isRead
    exact ⟨_, rfl, rfl, front, isFirst, isSecond⟩
  · rw [isFirst] at isRead
    rw [isSecond]
    dsimp only
    split at isRead
    · rename_i large
      cases pulled : pull limit (front ++ .stall :: silent) with
      | mk answer left =>
          rw [pulled] at isRead
          obtain ⟨rfl, rfl⟩ := Prod.mk.inj isRead
          obtain ⟨rest, isLeft, also⟩ := pull_agree pulled heard
          rw [if_pos large, also]
          exact ⟨⟨[], rest ++ other⟩, rfl, rfl, rest, isLeft, rfl⟩
    · rename_i small
      rw [if_neg small]
      split at isRead
      · rename_i bytes left pulled
        obtain ⟨rfl, rfl⟩ := Prod.mk.inj isRead
        obtain ⟨rest, isLeft, also⟩ := pull_agree pulled nofun
        rw [also]
        exact ⟨⟨bytes.drop limit, rest ++ other⟩, rfl, rfl, rest,
          isLeft, rfl⟩
      · rename_i answer left notOk pulled
        obtain ⟨rfl, rfl⟩ := Prod.mk.inj isRead
        obtain ⟨rest, isLeft, also⟩ := pull_agree pulled heard
        rw [also]
        refine ⟨⟨[], rest ++ other⟩, ?_, rfl, rest, isLeft, rfl⟩
        cases answer with
        | ok bytes =>
            exact absurd rfl (notOk bytes)
        | error error =>
            rfl
        | stall =>
            rfl

/-- So is a loop of reads. -/
theorem readLoop_agree
    {limit remaining : Nat}
    {acc : List UInt8}
    {result : LoopResult Err}
    (agree : AgreeUntil silent other first second)
    (isRead : readLoop limit remaining acc first = (result, after))
    (heard : ∀ before, result ≠ .stall before) :
    ∃ next,
      readLoop limit remaining acc second = (result, next) ∧
        AgreeUntil silent other after next := by
  fun_induction readLoop limit remaining acc first
      generalizing second with
  | case1 acc first =>
      obtain ⟨rfl, rfl⟩ := Prod.mk.inj isRead
      refine ⟨second, ?_, agree⟩
      rw [readLoop, if_pos rfl]
  | case2 remaining acc first more left isBytes =>
      obtain ⟨rfl, rfl⟩ := Prod.mk.inj isRead
      obtain ⟨next, also, agrees⟩ := read_agree agree isBytes nofun
      refine ⟨next, ?_, agrees⟩
      rw [readLoop, if_neg more, also]
  | case3 remaining acc first more byte others left isBytes
      inductionHypothesis =>
      obtain ⟨middle, also, agrees⟩ := read_agree agree isBytes nofun
      obtain ⟨next, isNext, ends⟩ := inductionHypothesis agrees isRead
      refine ⟨next, ?_, ends⟩
      rw [readLoop, if_neg more, also]
      exact isNext
  | case4 remaining acc first more error left isBytes =>
      obtain ⟨rfl, rfl⟩ := Prod.mk.inj isRead
      obtain ⟨next, also, agrees⟩ := read_agree agree isBytes nofun
      refine ⟨next, ?_, agrees⟩
      rw [readLoop, if_neg more, also]
  | case5 remaining acc first more left isBytes =>
      obtain ⟨rfl, rfl⟩ := Prod.mk.inj isRead
      exact absurd rfl (heard acc)

end Silence
end SegmentedReader
