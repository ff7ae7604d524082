import Sweety.StepRun
import Sweety.TransferCoding

namespace Sweety.H1

/-!
# The write buffers of the HTTP/1 server

Model of the two write buffers of the HTTP core and of the list of buffers that
one of them keeps.  A connection with vectored writes keeps the pieces of its
responses in a list and hands the socket slices of them; one without copies them
into one buffer.  The socket takes as much of a write as it likes, or none.
-/

/-- What the socket does at a call: it takes `count` bytes at most. -/
inductive IoResult where
  | ok (count : Nat)
  | wouldBlock
  | failed
  deriving Repr, DecidableEq

/-- What the socket has been given. -/
inductive SocketEvent where
  | write (bytes : List UInt8)
  | flush
  deriving Repr, DecidableEq

/-- How `do_io` ends. -/
inductive IoOutcome where
  | done
  | failed
  /-- `WriteZero`. -/
  | writeZero
  | panicked
  deriving Repr, DecidableEq

/-- What a call of `do_io` has done. -/
structure IoDone (Buffer : Type) where
  events : List SocketEvent
  buffer : Buffer
  outcome : IoOutcome

/-- More events before. -/
def IoDone.after {Buffer : Type}
    (event : SocketEvent)
    (later : IoDone Buffer) :
    IoDone Buffer :=
  { later with events := event :: later.events }

/-- `BufInterest` and `BufWrite`, with the methods for HTTP/1. -/
class WriteBuffer (Buffer : Type) extends H1BufWrite Buffer where
  wantWriteBuf : Buffer → Bool
  wantWriteIo : Buffer → Bool
  /-- `do_io`; where the results end, the socket blocks. -/
  doIo : Buffer → List IoResult → IoDone Buffer

/-! ## One buffer -/

/-- `struct WriteBuf<LIMIT>`. -/
structure WriteBuf (limit : Nat) where
  buf : List UInt8 := []
  wantFlush : Bool := false
  deriving Repr, DecidableEq

namespace WriteBuf

variable {limit : Nat}

/-- `write_buf`, with bytes that are put into the buffer. -/
def writeBuf (buffer : WriteBuf limit) (bytes : List UInt8) :
    WriteBuf limit :=
  ⟨buffer.buf ++ bytes, false⟩

/-- `do_io`. -/
def doIo (buffer : WriteBuf limit) : List IoResult → IoDone (WriteBuf limit)
  | [] =>
      ⟨[], buffer, .done⟩
  | result :: results =>
      if buffer.wantFlush then
        match result with
        | .ok _ =>
            ⟨[.flush], { buffer with wantFlush := false }, .done⟩
        | .wouldBlock =>
            ⟨[], buffer, .done⟩
        | .failed =>
            ⟨[], buffer, .failed⟩
      else
        match result with
        | .ok count =>
            let n := min count buffer.buf.length
            if n = 0 then
              ⟨[], buffer, .writeZero⟩
            else
              let rest := buffer.buf.drop n
              (doIo ⟨rest, rest.isEmpty⟩ results).after
                (.write (buffer.buf.take n))
        | .wouldBlock =>
            ⟨[], buffer, .done⟩
        | .failed =>
            ⟨[], buffer, .failed⟩

end WriteBuf

instance {limit : Nat} : WriteBuffer (WriteBuf limit) where
  writeBufHead head buffer :=
    some (buffer.writeBuf head)
  writeBufStatic bytes buffer :=
    some (buffer.writeBuf bytes)
  writeBufBytes bytes buffer :=
    some (buffer.writeBuf bytes)
  writeBufBytesChunked bytes buffer :=
    some (buffer.writeBuf (chunkBytes bytes))
  wantWriteBuf buffer :=
    buffer.buf.length < limit
  wantWriteIo buffer :=
    !buffer.buf.isEmpty || buffer.wantFlush
  doIo :=
    WriteBuf.doIo

/-! ## A list of buffers -/

/-- `EncodedBuf<Bytes, Eof>`: what is pushed to the list. -/
inductive EncodedBuf where
  | bytes (bytes : List UInt8)
  /-- A chunk: its size line, its data and its line end. -/
  | chunk (size data crlf : List UInt8)
  | static (bytes : List UInt8)
  deriving Repr, DecidableEq

namespace EncodedBuf

/-- The bytes of a buffer. -/
def content : EncodedBuf → List UInt8
  | .bytes content | .static content =>
      content
  | .chunk size data crlf =>
      size ++ data ++ crlf

/-- `remaining`. -/
def remaining (buf : EncodedBuf) : Nat :=
  buf.content.length

/-- `advance`. -/
def advance (cnt : Nat) : EncodedBuf → EncodedBuf
  | .bytes content =>
      .bytes (content.drop cnt)
  | .static content =>
      .static (content.drop cnt)
  | .chunk size data crlf =>
      .chunk (size.drop cnt) (data.drop (cnt - size.length))
        (crlf.drop (cnt - size.length - data.length))

/-- `chunks_vectored_uninit`, with room for all slices. -/
def slices (buf : EncodedBuf) : List (List UInt8) :=
  List.filter (· ≠ [])
    (match buf with
    | .bytes content | .static content =>
        [content]
    | .chunk size data crlf =>
        [size, data, crlf])

end EncodedBuf

/-- `BUF_LIST_CNT`. -/
def bufListCnt : Nat := 64

/-- `struct BufList`; its ring queue is the list of its items. -/
structure BufList where
  bufs : List EncodedBuf := []
  remaining : Nat := 0
  deriving Repr, DecidableEq

namespace BufList

/-- `is_full`. -/
def isFull (list : BufList) : Bool :=
  list.bufs.length == bufListCnt

/-- `is_empty`. -/
def isEmpty (list : BufList) : Bool :=
  list.bufs.isEmpty

/-- `push`; a full list panics. -/
def push (list : BufList) (buf : EncodedBuf) : Option BufList :=
  if list.isFull then
    none
  else
    some ⟨list.bufs ++ [buf], list.remaining + buf.remaining⟩

/-- The loop of `advance`. -/
def advanceBufs : List EncodedBuf → Nat → List EncodedBuf
  | [], _ =>
      []
  | front :: bufs, cnt =>
      if cnt = 0 then
        front :: bufs
      else if cnt < front.remaining then
        front.advance cnt :: bufs
      else
        advanceBufs bufs (cnt - front.remaining)

/-- `advance`. -/
def advance (list : BufList) (cnt : Nat) : BufList :=
  ⟨advanceBufs list.bufs cnt, list.remaining - cnt⟩

/-- `chunks_vectored_uninit_into_init`. -/
def slices (list : BufList) : List (List UInt8) :=
  (list.bufs.flatMap EncodedBuf.slices).take bufListCnt

/-- The bytes of the list. -/
def content (list : BufList) : List UInt8 :=
  list.bufs.flatMap EncodedBuf.content

end BufList

/--
`struct ListWriteBuf<EncodedBuf<Bytes, Eof>, LIMIT>`; a head is split off its
`buf` at once, so that is left out.
-/
structure ListWriteBuf (limit : Nat) where
  list : BufList := {}
  wantFlush : Bool := false
  deriving Repr, DecidableEq

namespace ListWriteBuf

variable {limit : Nat}

/-- `buffer`. -/
def buffer (self : ListWriteBuf limit) (buf : EncodedBuf) :
    Option (ListWriteBuf limit) := do
  return ⟨← self.list.push buf, false⟩

/-- `want_write_io`. -/
def wantWriteIo (self : ListWriteBuf limit) : Bool :=
  self.list.remaining != 0 || self.wantFlush

/-- `do_io`. -/
def doIo (self : ListWriteBuf limit) :
    List IoResult → IoDone (ListWriteBuf limit)
  | [] =>
      ⟨[], self, .done⟩
  | result :: results =>
      if self.wantFlush then
        match result with
        | .ok _ =>
            ⟨[.flush], { self with wantFlush := false }, .done⟩
        | .wouldBlock =>
            ⟨[], self, .done⟩
        | .failed =>
            ⟨[], self, .failed⟩
      else
        match result with
        | .ok count =>
            let offered := self.list.slices.flatten
            let n := min count offered.length
            if n = 0 then
              -- `write_zero` asserts that there was something to write
              ⟨[], self, if self.wantWriteIo then .writeZero else .panicked⟩
            else
              let list := self.list.advance n
              (doIo ⟨list, list.isEmpty⟩ results).after
                (.write (offered.take n))
        | .wouldBlock =>
            ⟨[], self, .done⟩
        | .failed =>
            ⟨[], self, .failed⟩

end ListWriteBuf

instance {limit : Nat} : WriteBuffer (ListWriteBuf limit) where
  writeBufHead head self :=
    self.buffer (.bytes head)
  writeBufStatic bytes self :=
    self.buffer (.static bytes)
  writeBufBytes bytes self :=
    self.buffer (.bytes bytes)
  writeBufBytesChunked bytes self :=
    self.buffer (.chunk (upperHex bytes.length ++ crlfBytes) bytes crlfBytes)
  wantWriteBuf self :=
    self.list.remaining < limit && !self.list.isFull
  wantWriteIo :=
    ListWriteBuf.wantWriteIo
  doIo :=
    ListWriteBuf.doIo

/-! ## Commands -/

/-- What the dispatcher does with its write buffer. -/
inductive BufCommand where
  | head (bytes : List UInt8)
  | static (bytes : List UInt8)
  | bytes (bytes : List UInt8)
  | chunked (bytes : List UInt8)
  /-- A turn of the loop of `drain_write`, with what the socket does in it. -/
  | drain (results : List IoResult)
  deriving Repr, DecidableEq

/-- The bytes that a command puts into the buffer. -/
def BufCommand.added : BufCommand → List UInt8
  | .head added | .static added | .bytes added =>
      added
  | .chunked data =>
      chunkBytes data
  | .drain _ =>
      []

/-- A command that puts something into the buffer, or drains it. -/
def BufCommand.Proper : BufCommand → Prop
  | .drain _ =>
      True
  | command =>
      command.added ≠ []

/-- The events of the socket so far, and the buffer; `none` is a panic. -/
def perform {Buffer : Type} [WriteBuffer Buffer]
    (state : List SocketEvent × Buffer) :
    BufCommand → Option (List SocketEvent × Buffer)
  | .head added => do
      return (state.1, ← H1BufWrite.writeBufHead added state.2)
  | .static added => do
      return (state.1, ← H1BufWrite.writeBufStatic added state.2)
  | .bytes added => do
      return (state.1, ← H1BufWrite.writeBufBytes added state.2)
  | .chunked data => do
      return (state.1, ← H1BufWrite.writeBufBytesChunked data state.2)
  | .drain results =>
      if WriteBuffer.wantWriteIo state.2 then
        let done := WriteBuffer.doIo state.2 results
        if done.outcome = .panicked then
          none
        else
          some (state.1 ++ done.events, done.buffer)
      else
        some state

/-- The bytes that the socket was given. -/
def written (events : List SocketEvent) : List UInt8 :=
  events.flatMap fun event =>
    match event with
    | .write bytes =>
        bytes
    | .flush =>
        []

/-- The socket was flushed behind the last write. -/
def Flushed (events : List SocketEvent) : Prop :=
  ∀ bytes, events.getLast? ≠ some (.write bytes)

@[simp] theorem written_append (first second : List SocketEvent) :
    written (first ++ second) = written first ++ written second :=
  List.flatMap_append

@[simp] theorem written_cons_write
    (bytes : List UInt8)
    (events : List SocketEvent) :
    written (.write bytes :: events) = bytes ++ written events :=
  List.flatMap_cons

/-! ## Buffers that deliver -/

section Leaves

variable
  {Buffer : Type}
  [WriteBuffer Buffer]
  (content : Buffer → List UInt8)
  (Sound : Buffer → Prop)

/-- What a call of `do_io` with something to do is to leave. -/
structure Leaves (buffer : Buffer) (done : IoDone Buffer) : Prop where
  noPanic : done.outcome ≠ .panicked
  sound : Sound done.buffer
  inOrder : written done.events ++ content done.buffer = content buffer
  flushed : WriteBuffer.wantWriteIo done.buffer = false →
    done.events.getLast? = some .flush

variable {content Sound} {buffer : Buffer}

theorem leaves_unchanged
    {outcome : IoOutcome}
    (isSound : Sound buffer)
    (wants : WriteBuffer.wantWriteIo buffer = true)
    (noPanic : outcome ≠ .panicked) :
    Leaves content Sound buffer ⟨[], buffer, outcome⟩ where
  noPanic := noPanic
  sound := isSound
  inOrder := rfl
  flushed wantsNone := by
    rw [wants] at wantsNone
    contradiction

/-- A write of the first bytes, and then the rest. -/
theorem Leaves.after
    {next : Buffer}
    {done : IoDone Buffer}
    {bytes : List UInt8}
    (leaves : Leaves content Sound next done)
    (isSplit : bytes ++ content next = content buffer) :
    Leaves content Sound buffer (done.after (.write bytes)) where
  noPanic := leaves.noPanic
  sound := leaves.sound
  inOrder := by
    rw [IoDone.after, written_cons_write, List.append_assoc, leaves.inOrder,
      isSplit]
  flushed wantsNone := by
    rw [IoDone.after, List.getLast?_cons, leaves.flushed wantsNone]
    rfl

end Leaves

/-- A write buffer that delivers what it is given. -/
structure Delivers
    {Buffer : Type}
    [WriteBuffer Buffer]
    (content : Buffer → List UInt8)
    (Sound : Buffer → Prop) :
    Prop where
  adds : ∀ {log buffer command later}, Sound buffer →
    command.added ≠ [] → perform (log, buffer) command = some later →
      later.1 = log ∧ content later.2 = content buffer ++ command.added ∧
        Sound later.2
  drains : ∀ {buffer}, Sound buffer → WriteBuffer.wantWriteIo buffer = true →
    ∀ results,
      Leaves content Sound buffer (WriteBuffer.doIo buffer results)
  idle : ∀ {buffer}, Sound buffer →
    WriteBuffer.wantWriteIo buffer = false → content buffer = []

/-- What holds of the events and the buffer after commands with some bytes. -/
structure Delivered
    {Buffer : Type}
    [WriteBuffer Buffer]
    (content : Buffer → List UInt8)
    (Sound : Buffer → Prop)
    (state : List SocketEvent × Buffer)
    (added : List UInt8) :
    Prop where
  sound : Sound state.2
  inOrder : written state.1 ++ content state.2 = added
  flushed : WriteBuffer.wantWriteIo state.2 = false → Flushed state.1

section Runs

variable
  {Buffer : Type}
  [WriteBuffer Buffer]
  {content : Buffer → List UInt8}
  {Sound : Buffer → Prop}
  (delivers : Delivers content Sound)

include delivers

theorem Delivers.step
    {state later : List SocketEvent × Buffer}
    {added : List UInt8}
    {command : BufCommand}
    (delivered : Delivered content Sound state added)
    (isProper : command.Proper)
    (isStep : perform state command = some later) :
    Delivered content Sound later (added ++ command.added) := by
  obtain ⟨sound, inOrder, flushed⟩ := delivered
  by_cases isDrain : ∃ results, command = .drain results
  · obtain ⟨results, rfl⟩ := isDrain
    rw [perform] at isStep
    cases wants : WriteBuffer.wantWriteIo state.2 with
    | false =>
        simp only [wants, Bool.false_eq_true, reduceIte, Option.some.injEq]
          at isStep
        subst later
        exact ⟨sound, by simpa [BufCommand.added] using inOrder, flushed⟩
    | true =>
        have leaves := delivers.drains sound wants results
        simp only [wants, reduceIte, if_neg leaves.noPanic,
          Option.some.injEq] at isStep
        subst later
        refine ⟨leaves.sound, ?_, fun wantsNone bytes => ?_⟩
        · simp [BufCommand.added, ← inOrder, ← leaves.inOrder]
        · rw [List.getLast?_append, leaves.flushed wantsNone]
          simp
  · have someAdded : command.added ≠ [] := by
      cases command with
      | drain results =>
          exact absurd ⟨results, rfl⟩ isDrain
      | _ =>
          exact isProper
    obtain ⟨sameLog, isAdded, isSound⟩ :=
      delivers.adds sound someAdded isStep
    refine ⟨isSound, ?_, fun wantsNone => ?_⟩
    · rw [sameLog, isAdded, ← List.append_assoc, inOrder]
    · have isEmpty := delivers.idle isSound wantsNone
      rw [isAdded] at isEmpty
      exact absurd (List.append_eq_nil_iff.mp isEmpty).2 someAdded

theorem Delivers.run
    {state final : List SocketEvent × Buffer}
    {added : List UInt8}
    {commands : List BufCommand}
    (delivered : Delivered content Sound state added)
    (areProper : ∀ command ∈ commands, command.Proper)
    (isRun : StepRun.run? perform state commands = some final) :
    Delivered content Sound final
      (added ++ commands.flatMap BufCommand.added) := by
  induction commands generalizing state added with
  | nil =>
      obtain rfl := Option.some.inj isRun
      simpa using delivered
  | cons command commands inductionHypothesis =>
      obtain ⟨isProper, othersProper⟩ := List.forall_mem_cons.mp areProper
      obtain ⟨next, isStep, isLater⟩ := StepRun.run?_cons isRun
      have isNext := delivers.step delivered isProper isStep
      simpa using inductionHypothesis isNext othersProper isLater

end Runs

/-! ## One buffer delivers -/

namespace WriteBuf

variable {limit : Nat}

/-- A flush is wanted of an empty buffer only. -/
def Sound (buffer : WriteBuf limit) : Prop :=
  buffer.wantFlush = true → buffer.buf = []

theorem wantWriteIo_eq (buffer : WriteBuf limit) :
    WriteBuffer.wantWriteIo buffer =
      (!buffer.buf.isEmpty || buffer.wantFlush) :=
  rfl

theorem sound_rest (rest : List UInt8) :
    (⟨rest, rest.isEmpty⟩ : WriteBuf limit).Sound :=
  List.isEmpty_iff.mp

theorem wantWriteIo_rest (rest : List UInt8) :
    WriteBuffer.wantWriteIo (⟨rest, rest.isEmpty⟩ : WriteBuf limit) = true := by
  rw [wantWriteIo_eq]
  exact Bool.not_or_self _

theorem leaves_doIo
    {buffer : WriteBuf limit}
    (isSound : buffer.Sound)
    (wants : WriteBuffer.wantWriteIo buffer = true)
    (results : List IoResult) :
    Leaves buf Sound buffer (buffer.doIo results) := by
  induction results generalizing buffer with
  | nil =>
      exact leaves_unchanged isSound wants nofun
  | cons result results inductionHypothesis =>
      obtain ⟨buf, wantFlush⟩ := buffer
      cases result with
      | ok count =>
          cases wantFlush with
          | true =>
              obtain rfl : buf = [] := isSound rfl
              exact ⟨nofun, nofun, rfl, fun _ => rfl⟩
          | false =>
              rw [doIo]
              dsimp only
              rw [if_neg Bool.false_ne_true]
              split_ifs
              · exact leaves_unchanged isSound wants nofun
              · exact (inductionHypothesis (sound_rest _)
                  (wantWriteIo_rest _)).after (List.take_append_drop ..)
      | wouldBlock =>
          cases wantFlush with
          | true =>
              exact leaves_unchanged isSound wants nofun
          | false =>
              exact leaves_unchanged isSound wants nofun
      | failed =>
          cases wantFlush with
          | true =>
              exact leaves_unchanged isSound wants nofun
          | false =>
              exact leaves_unchanged isSound wants nofun

/-- The one buffer delivers. -/
theorem delivers : Delivers (WriteBuf.buf : WriteBuf limit → _) Sound where
  adds := by
    intro log buffer command later _ someAdded isStep
    have isWritten :
        later = (log, buffer.writeBuf command.added) := by
      cases command with
      | drain results =>
          exact absurd rfl someAdded
      | _ =>
          exact (Option.some.inj isStep).symm
    subst later
    exact ⟨rfl, rfl, nofun⟩
  drains isSound wants results :=
    leaves_doIo isSound wants results
  idle := by
    intro buffer _ wantsNone
    rw [wantWriteIo_eq, Bool.or_eq_false_iff] at wantsNone
    simpa using wantsNone.1

end WriteBuf

/-! ## The list delivers -/

namespace EncodedBuf

theorem content_advance (cnt : Nat) (buf : EncodedBuf) :
    (buf.advance cnt).content = buf.content.drop cnt := by
  cases buf with
  | chunk size data crlf =>
      simp [advance, content, List.drop_append, Nat.sub_sub]
  | _ =>
      rfl

theorem flatten_slices (buf : EncodedBuf) :
    buf.slices.flatten = buf.content := by
  cases buf <;>
    simp only [slices, List.flatten_filter_ne_nil, content,
      List.flatten_cons, List.flatten_nil, List.append_nil,
      List.append_assoc]

theorem remaining_advance_pos
    {buf : EncodedBuf}
    {cnt : Nat}
    (isLess : cnt < buf.remaining) :
    (buf.advance cnt).content ≠ [] := by
  rw [content_advance]
  exact List.drop_eq_nil_iff.not.mpr (Nat.not_le.mpr isLess)

end EncodedBuf

namespace BufList

variable {bufs : List EncodedBuf}

theorem content_advanceBufs (bufs : List EncodedBuf) (cnt : Nat) :
    (advanceBufs bufs cnt).flatMap EncodedBuf.content =
      (bufs.flatMap EncodedBuf.content).drop cnt := by
  induction bufs generalizing cnt with
  | nil =>
      simp [advanceBufs]
  | cons front bufs inductionHypothesis =>
      unfold advanceBufs
      split_ifs with isZero isInside
      · simp [isZero]
      · rw [List.flatMap_cons, List.flatMap_cons, EncodedBuf.content_advance,
          List.drop_append_of_le_length (Nat.le_of_lt isInside)]
      · rw [inductionHypothesis, List.flatMap_cons, List.drop_append,
          List.drop_of_length_le (Nat.not_lt.mp isInside), List.nil_append]
        rfl

theorem nonempty_advanceBufs
    (nonempty : ∀ buf ∈ bufs, buf.content ≠ [])
    (cnt : Nat) :
    ∀ buf ∈ advanceBufs bufs cnt, buf.content ≠ [] := by
  induction bufs generalizing cnt with
  | nil =>
      exact nonempty
  | cons front bufs inductionHypothesis =>
      obtain ⟨isFront, others⟩ := List.forall_mem_cons.mp nonempty
      unfold advanceBufs
      split_ifs with isZero isInside
      · exact nonempty
      · exact List.forall_mem_cons.mpr
          ⟨EncodedBuf.remaining_advance_pos isInside, others⟩
      · exact inductionHypothesis others _

theorem flatten_slices (list : BufList) :
    (list.bufs.flatMap EncodedBuf.slices).flatten = list.content := by
  simp only [List.flatMap_def, List.flatten_flatten, List.map_map, content]
  exact congrArg List.flatten
    (List.map_congr_left fun buf _ => EncodedBuf.flatten_slices buf)

/-- The slices are the beginning of the bytes of the list. -/
theorem slices_prefix (list : BufList) :
    list.slices.flatten <+: list.content := by
  rw [← flatten_slices, slices]
  exact ⟨_, by rw [← List.flatten_append, List.take_append_drop]⟩

end BufList

namespace ListWriteBuf

variable {limit : Nat}

/-- The bytes of the list. -/
def content (self : ListWriteBuf limit) : List UInt8 :=
  self.list.content

/-- Every item has bytes, and a flush is wanted of an empty list only. -/
structure Sound (writeBuf : ListWriteBuf limit) : Prop where
  remaining : writeBuf.list.remaining = writeBuf.list.content.length
  nonempty : ∀ buf ∈ writeBuf.list.bufs, buf.content ≠ []
  flush : writeBuf.wantFlush = true → writeBuf.list.bufs = []

theorem wantWriteIo_eq (self : ListWriteBuf limit) :
    WriteBuffer.wantWriteIo self =
      (self.list.remaining != 0 || self.wantFlush) :=
  rfl

/-- A list without bytes has no items. -/
theorem Sound.bufs_eq_nil
    {self : ListWriteBuf limit}
    (isSound : self.Sound)
    (isEmpty : self.list.content = []) :
    self.list.bufs = [] := by
  refine List.eq_nil_iff_forall_not_mem.mpr fun buf isBuf => ?_
  exact isSound.nonempty buf isBuf (List.flatMap_eq_nil_iff.mp isEmpty buf isBuf)

/-- What is left after the socket took some bytes. -/
theorem sound_rest
    {self : ListWriteBuf limit}
    (isSound : self.Sound)
    (n : Nat) :
    (⟨self.list.advance n, (self.list.advance n).isEmpty⟩ :
        ListWriteBuf limit).Sound ∧
      WriteBuffer.wantWriteIo
        (⟨self.list.advance n, (self.list.advance n).isEmpty⟩ :
          ListWriteBuf limit) = true := by
  have isContent :
      (self.list.advance n).content = self.list.content.drop n :=
    BufList.content_advanceBufs self.list.bufs n
  have sound : (⟨self.list.advance n, (self.list.advance n).isEmpty⟩ :
      ListWriteBuf limit).Sound := by
    refine ⟨?_, ?_, ?_⟩
    · rw [isContent, List.length_drop, ← isSound.remaining]
      rfl
    · exact BufList.nonempty_advanceBufs isSound.nonempty n
    · exact List.isEmpty_iff.mp
  refine ⟨sound, ?_⟩
  rw [wantWriteIo_eq, sound.remaining]
  by_cases isEmpty : (self.list.advance n).content = []
  · have noBufs : (self.list.advance n).bufs = [] :=
      sound.bufs_eq_nil isEmpty
    simp [BufList.isEmpty, noBufs]
  · simp [isEmpty]

/-- The slices are taken from the front. -/
theorem take_append_content
    {list : BufList}
    {offered : List UInt8}
    {n : Nat}
    (isPrefix : offered <+: list.content)
    (isWithin : n ≤ offered.length) :
    offered.take n ++ (list.advance n).content = list.content := by
  obtain ⟨rest, isSplit⟩ := isPrefix
  have isContent : (list.advance n).content = list.content.drop n :=
    BufList.content_advanceBufs list.bufs n
  rw [isContent, ← isSplit, List.drop_append_of_le_length isWithin,
    ← List.append_assoc, List.take_append_drop]

theorem leaves_doIo
    {self : ListWriteBuf limit}
    (isSound : self.Sound)
    (wants : WriteBuffer.wantWriteIo self = true)
    (results : List IoResult) :
    Leaves content Sound self (self.doIo results) := by
  induction results generalizing self with
  | nil =>
      exact leaves_unchanged isSound wants nofun
  | cons result results inductionHypothesis =>
      obtain ⟨list, wantFlush⟩ := self
      cases result with
      | ok count =>
          cases wantFlush with
          | true =>
              have noBufs : list.bufs = [] := isSound.flush rfl
              refine ⟨nofun, ?_, rfl, fun _ => rfl⟩
              exact ⟨isSound.remaining, isSound.nonempty, nofun⟩
          | false =>
              have isFilled : list.content ≠ [] := by
                rintro isEmpty
                rw [wantWriteIo_eq, isSound.remaining] at wants
                simp [isEmpty] at wants
              have isPrefix := list.slices_prefix
              rw [doIo]
              dsimp only
              rw [if_neg Bool.false_ne_true]
              split_ifs with isZero isWanted
              · exact leaves_unchanged isSound wants nofun
              · exact absurd wants isWanted
              · obtain ⟨sound, stillWants⟩ := sound_rest isSound
                  (min count list.slices.flatten.length)
                refine (inductionHypothesis sound stillWants).after ?_
                exact take_append_content isPrefix (Nat.min_le_right ..)
      | wouldBlock =>
          cases wantFlush with
          | true =>
              exact leaves_unchanged isSound wants nofun
          | false =>
              exact leaves_unchanged isSound wants nofun
      | failed =>
          cases wantFlush with
          | true =>
              exact leaves_unchanged isSound wants nofun
          | false =>
              exact leaves_unchanged isSound wants nofun

/-- A push to a list that is not full. -/
theorem sound_buffer
    {self later : ListWriteBuf limit}
    {buf : EncodedBuf}
    (isSound : self.Sound)
    (isPushed : self.buffer buf = some later)
    (nonempty : buf.content ≠ []) :
    later.content = self.content ++ buf.content ∧ later.Sound := by
  unfold ListWriteBuf.buffer BufList.push at isPushed
  split_ifs at isPushed with isFull
  · contradiction
  · obtain rfl := Option.some.inj isPushed
    refine ⟨?_, ?_, ?_, nofun⟩
    · simp [content, BufList.content]
    · simp [BufList.content, EncodedBuf.remaining, isSound.remaining]
    · simpa [or_imp, forall_and] using ⟨isSound.nonempty, nonempty⟩

/-- The list delivers, as long as it does not overflow. -/
theorem delivers :
    Delivers (content : ListWriteBuf limit → _) Sound where
  adds := by
    intro log self command later isSound someAdded isStep
    have isPushed : ∃ buf : EncodedBuf,
        buf.content = command.added ∧
          (self.buffer buf).bind (fun next => some (log, next)) =
            some later := by
      cases command with
      | head added =>
          exact ⟨.bytes added, rfl, isStep⟩
      | static added =>
          exact ⟨.static added, rfl, isStep⟩
      | bytes added =>
          exact ⟨.bytes added, rfl, isStep⟩
      | chunked data =>
          refine ⟨.chunk (upperHex data.length ++ crlfBytes) data crlfBytes,
            ?_, isStep⟩
          simp [EncodedBuf.content, BufCommand.added, chunkBytes]
      | drain results =>
          exact absurd rfl someAdded
    obtain ⟨buf, isContent, isMapped⟩ := isPushed
    obtain ⟨next, isPushed, isNext⟩ := Option.bind_eq_some_iff.mp isMapped
    obtain rfl := Option.some.inj isNext
    have isAdded := sound_buffer isSound isPushed (isContent ▸ someAdded)
    exact ⟨rfl, isContent ▸ isAdded.1, isAdded.2⟩
  drains isSound wants results :=
    leaves_doIo isSound wants results
  idle := by
    intro self isSound wantsNone
    rw [wantWriteIo_eq, Bool.or_eq_false_iff, isSound.remaining] at wantsNone
    simpa [content] using wantsNone.1

end ListWriteBuf

/-! ## Runs -/

theorem Delivered.all_written
    {Buffer : Type}
    [WriteBuffer Buffer]
    {content : Buffer → List UInt8}
    {Sound : Buffer → Prop}
    {state : List SocketEvent × Buffer}
    {added : List UInt8}
    (delivers : Delivers content Sound)
    (delivered : Delivered content Sound state added) :
    written state.1 ++ content state.2 = added ∧
      (WriteBuffer.wantWriteIo state.2 = false →
        written state.1 = added ∧ Flushed state.1) := by
  refine ⟨delivered.inOrder, fun wantsNone => ?_⟩
  have isEmpty := delivers.idle delivered.sound wantsNone
  have inOrder := delivered.inOrder
  rw [isEmpty, List.append_nil] at inOrder
  exact ⟨inOrder, delivered.flushed wantsNone⟩

/-- The one buffer never panics. -/
theorem WriteBuf.run_isSome
    {limit : Nat}
    {state : List SocketEvent × WriteBuf limit}
    {added : List UInt8}
    {commands : List BufCommand}
    (delivered : Delivered buf Sound state added)
    (areProper : ∀ command ∈ commands, command.Proper) :
    ∃ final, StepRun.run? perform state commands = some final := by
  induction commands generalizing state added with
  | nil =>
      exact ⟨state, rfl⟩
  | cons command commands inductionHypothesis =>
      obtain ⟨isProper, othersProper⟩ := List.forall_mem_cons.mp areProper
      have isStep : ∃ next, perform state command = some next := by
        cases command with
        | drain results =>
            rw [perform]
            split_ifs with wants
            · exact ⟨_, if_neg
                (leaves_doIo delivered.sound wants results).noPanic⟩
            · exact ⟨state, rfl⟩
        | _ =>
            exact ⟨_, rfl⟩
      obtain ⟨next, isStep⟩ := isStep
      obtain ⟨final, isRun⟩ := inductionHypothesis
        (delivers.step delivered isProper isStep) othersProper
      exact ⟨final, by rw [StepRun.run?, isStep]; exact isRun⟩

end Sweety.H1
