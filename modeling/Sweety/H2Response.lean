import Sweety.MultiMap
import Sweety.Rfc7230
import Sweety.StepRun

namespace Sweety.H2

open HttpText StepRun

/-!
# The body of a response over HTTP/2

Model of `h2_handler` in `h2/proto/dispatcher.rs`.  A body of at most 32 KiB is
collected and sent at once, or in pieces when the window of the client is
smaller; any other body is read piece by piece, each when there is room.

The stream that is written to is third-party: what its `capacity` says and
whether its `poll_capacity` grants are taken from a list of turns, and a handler
whose turns are used up is still waiting.  How the stream may be used is a
machine of its own, over the calls that the handler makes.
-/

/-! ## Bodies -/

/-- `BodySize`. -/
inductive BodySize where
  | none
  | sized (size : Nat)
  | stream
  deriving Repr, DecidableEq

/-- What a poll of a body says; the body ends with its list. -/
inductive Polled where
  | pending
  | chunk (bytes : List UInt8)
  | failed
  deriving Repr, DecidableEq

/-- What is seen of a body by one who waits. -/
def awaited : List Polled → List (Except Unit (List UInt8))
  | [] =>
      []
  | .pending :: rest =>
      awaited rest
  | .chunk bytes :: rest =>
      .ok bytes :: awaited rest
  | .failed :: rest =>
      .error () :: awaited rest

/-- The bytes that come before the end, or before a failure. -/
def bytesOf : List (Except Unit (List UInt8)) → List UInt8
  | [] =>
      []
  | .ok bytes :: rest =>
      bytes ++ bytesOf rest
  | .error () :: _ =>
      []

/-! ## Calls -/

/-- A call to the stream of the response, with its answer, or to its socket. -/
inductive Call where
  /-- `set_tcp_cork`. -/
  | cork (on : Bool)
  | sendResponse (endStream accepted : Bool)
  | reserveCapacity (count : Nat)
  | capacity (count : Nat)
  | pollCapacity (granted : Bool)
  | sendData (bytes : List UInt8) (endStream : Bool)
  | sendTrailers
  deriving Repr, DecidableEq

/-- What `capacity` says, and `poll_capacity` if that was nothing. -/
structure Turn where
  capacity : Nat
  granted : Bool
  deriving Repr, DecidableEq

/-- Whether the handler has returned, or waits for another turn. -/
inductive Status where
  | returned
  | waiting
  deriving Repr, DecidableEq

/-- The calls of a handler so far. -/
structure Handled where
  calls : List Call
  status : Status
  deriving Repr, DecidableEq

/-- `SMALL_BODY_INLINE`. -/
def smallBodyInline : Nat := 32 * 1024

/-- `PIPELINE_WINDOW`. -/
def pipelineWindow : Nat := 16 * 1024

/-- More calls before. -/
def Handled.after (handled : Handled) (calls : List Call) : Handled :=
  { handled with calls := calls ++ handled.calls }

/-! ## Small bodies -/

/-- The loop over chunks that are ready. -/
def collectSync : List Polled → List UInt8
  | [] | .failed :: _ =>
      []
  | .chunk bytes :: rest =>
      bytes ++ collectSync rest
  | .pending :: rest =>
      bytesOf (awaited rest)

/-- What is collected of a small body; a first poll may be pending. -/
def collectSmall : List Polled → Option (List UInt8)
  | [] | .failed :: _ =>
      none
  | .pending :: rest =>
      match awaited rest with
      | .ok bytes :: _ =>
          some bytes
      | _ =>
          none
  | .chunk first :: .chunk second :: rest =>
      some (first ++ second ++ collectSync rest)
  | .chunk first :: .pending :: rest =>
      some (first ++ bytesOf (awaited rest))
  | .chunk first :: _ =>
      some first

/-- What is done behind the data of a small body. -/
def finishSmall (hasTrailers : Bool) : Handled where
  calls := (if hasTrailers then [.sendTrailers] else []) ++ [.cork false]
  status := .returned

/-- The loop over a small body that does not fit the window. -/
def sendPieces (hasTrailers : Bool) : List Turn → List UInt8 → Handled
  | [], _ =>
      ⟨[], .waiting⟩
  | turn :: turns, remaining =>
      if 0 < turn.capacity then
        let count := min turn.capacity remaining.length
        let rest := remaining.drop count
        let calls :=
          [.capacity turn.capacity,
            .sendData (remaining.take count) (rest.isEmpty && !hasTrailers),
            .reserveCapacity rest.length]
        if rest.isEmpty then
          (finishSmall hasTrailers).after calls
        else
          (sendPieces hasTrailers turns rest).after calls
      else if turn.granted then
        (sendPieces hasTrailers turns remaining).after
          [.capacity turn.capacity, .pollCapacity true]
      else
        ⟨[.capacity turn.capacity, .pollCapacity false, .cork false],
          .returned⟩

/-- A small body that was collected, behind its head. -/
def sendSmall
    (hasTrailers : Bool)
    (turns : List Turn)
    (data : List UInt8) :
    Handled :=
  let reserved := Call.reserveCapacity data.length
  match turns with
  | [] =>
      ⟨[reserved], .waiting⟩
  | turn :: turns =>
      if data.length ≤ turn.capacity then
        (finishSmall hasTrailers).after
          [reserved, .capacity turn.capacity, .sendData data (!hasTrailers)]
      else
        (sendPieces hasTrailers turns data).after
          [reserved, .capacity turn.capacity, .cork false]

/-! ## Other bodies -/

/-- Where the loop over one chunk leaves the handler. -/
inductive Piece where
  | sent (calls : List Call) (turns : List Turn)
  | stopped (handled : Handled)
  deriving Repr, DecidableEq

/-- More calls before. -/
def Piece.after (calls : List Call) : Piece → Piece
  | .sent later turns =>
      .sent (calls ++ later) turns
  | .stopped handled =>
      .stopped (handled.after calls)

/-- The loop over one chunk. -/
def sendChunk : List Turn → List UInt8 → Piece
  | [], _ =>
      .stopped ⟨[], .waiting⟩
  | turn :: turns, remaining =>
      if 0 < turn.capacity then
        let count := min turn.capacity remaining.length
        let rest := remaining.drop count
        let calls :=
          [.capacity turn.capacity, .sendData (remaining.take count) false,
            .reserveCapacity pipelineWindow]
        if rest.isEmpty then
          .sent calls turns
        else
          (sendChunk turns rest).after calls
      else if turn.granted then
        (sendChunk turns remaining).after
          [.capacity turn.capacity, .cork false, .pollCapacity true,
            .cork true]
      else
        .stopped ⟨[.capacity turn.capacity, .cork false,
          .pollCapacity false], .returned⟩

/-- What is done behind the last chunk. -/
def finishStream (hasTrailers : Bool) : Handled where
  calls :=
    [if hasTrailers then .sendTrailers else .sendData [] true, .cork false]
  status := .returned

/-- The wait for room before a chunk is read; `none` if there will be none. -/
def Turn.makeRoom (turn : Turn) : List Call × Bool :=
  if turn.capacity = 0 then
    if turn.granted then
      ([.capacity turn.capacity, .cork false, .pollCapacity true, .cork true],
        true)
    else
      ([.capacity turn.capacity, .cork false, .pollCapacity false], false)
  else
    ([.capacity turn.capacity], true)

/-- The loop over a body that is read when there is room. -/
def sendStream (hasTrailers : Bool) :
    List (Except Unit (List UInt8)) → List Turn → Handled
  | _, [] =>
      ⟨[], .waiting⟩
  | [], turn :: _ | .error () :: _, turn :: _ =>
      if turn.makeRoom.2 then
        (finishStream hasTrailers).after turn.makeRoom.1
      else
        ⟨turn.makeRoom.1, .returned⟩
  | .ok bytes :: body, turn :: turns =>
      if turn.makeRoom.2 then
        if bytes.isEmpty then
          (sendStream hasTrailers body turns).after turn.makeRoom.1
        else
          match sendChunk turns bytes with
          | .sent calls turns =>
              (sendStream hasTrailers body turns).after
                (turn.makeRoom.1 ++ calls)
          | .stopped handled =>
              handled.after turn.makeRoom.1
      else
        ⟨turn.makeRoom.1, .returned⟩

/-! ## The handler -/

/-- A response whose head is all there is. -/
def sendHead (accepted : Bool) : Handled where
  calls := [.cork true, .sendResponse true accepted, .cork false]
  status := .returned

/-- A response with a small body. -/
def sendInline
    (hasTrailers accepted : Bool)
    (body : List Polled)
    (turns : List Turn) :
    Handled :=
  match collectSmall body with
  | none =>
      sendHead accepted
  | some data =>
      if accepted then
        (sendSmall hasTrailers turns data).after
          [.cork true, .sendResponse false true]
      else
        ⟨[.cork true, .sendResponse false false, .cork false], .returned⟩

/-- A response with any other body. -/
def sendStreamed
    (hasTrailers accepted : Bool)
    (body : List Polled)
    (turns : List Turn) :
    Handled :=
  if accepted then
    (sendStream hasTrailers (awaited body) turns).after
      [.cork true, .sendResponse false true, .reserveCapacity pipelineWindow]
  else
    ⟨[.cork true, .sendResponse false false, .cork false], .returned⟩

/-- `h2_handler`, behind what it does to the headers. -/
def h2Handler
    (size : BodySize)
    (hasTrailers accepted : Bool)
    (body : List Polled)
    (turns : List Turn) :
    Handled :=
  match size with
  | .none =>
      sendHead accepted
  | .stream =>
      sendStreamed hasTrailers accepted body turns
  | .sized size =>
      if size = 0 then
        sendHead accepted
      else if size ≤ smallBodyInline then
        sendInline hasTrailers accepted body turns
      else
        sendStreamed hasTrailers accepted body turns

/-! ## The head -/

/-- The headers of a response, by their names in lower case. -/
abbrev HeaderMap := MultiMap (List Char) (List UInt8)

/-- `HeaderName::from_bytes`. -/
def headerName? (value : List UInt8) : Option (List Char) :=
  let text := value.map fun byte => Char.ofNat byte.toNat
  if text ≠ [] ∧ text.length < 2 ^ 16 ∧ text.all Rfc7230.isTokenChar then
    some (text.map Char.toLower)
  else
    none

/-- The headers as they are sent, the trailer, and whether to stay connected. -/
structure Prepared where
  headers : HeaderMap
  trailer : Option (List Char × List UInt8)
  keepAlive : Bool

/-- A header that is not there yet. -/
def orInsert (name : List Char) (value : List UInt8) (headers : HeaderMap) :
    HeaderMap :=
  if headers.getAll name = [] then headers.insert name value else headers

/-- The size of a body, in a header of its own. -/
def announce (size : BodySize) (headers : HeaderMap) : HeaderMap :=
  match size with
  | .sized size =>
      orInsert "content-length".toList (encodeUtf8 (Nat.toDigits 10 size))
        headers
  | .none | .stream =>
      headers

/--
The trailer that a response names, out of its headers; `none` if what it names
is not a name.  `remove` gives the first value of a name and forgets all.
-/
def takeTrailer (headers : HeaderMap) :
    Option (HeaderMap × Option (List Char × List UInt8)) :=
  match headers.get? "trailer".toList with
  | none =>
      some (headers, none)
  | some value =>
      (headerName? value).map fun name =>
        let others := headers.remove "trailer".toList
        (others.remove name, (others.get? name).map fun value => (name, value))

/-- What `h2_handler` does to the headers; `none` if it panics. -/
def prepare (date : List Char) (size : BodySize) (headers : HeaderMap) :
    Option Prepared :=
  (takeTrailer (announce size headers)).map fun (headers, trailer) =>
    let dated := orInsert "date".toList (encodeUtf8 date) headers
    { headers := dated.remove "connection".toList
      trailer := trailer
      keepAlive :=
        match dated.get? "connection".toList with
        | none =>
            true
        | some value =>
            !eqIgnoreAsciiCase (value.map fun byte => Char.ofNat byte.toNat)
              "close".toList }

section Head

variable {name other : List Char}

theorem getAll_orInsert
    (differs : name ≠ other)
    (value : List UInt8)
    (headers : HeaderMap) :
    (orInsert other value headers).getAll name = headers.getAll name := by
  unfold orInsert
  split
  · rw [MultiMap.getAll_insert, if_neg differs]
  · rfl

/-- What the client may not be sent is not among the headers. -/
theorem getAll_of_prepare
    {date : List Char}
    {size : BodySize}
    {headers : HeaderMap}
    {prepared : Prepared}
    (isPrepared : prepare date size headers = some prepared) :
    prepared.headers.getAll "connection".toList = [] ∧
      prepared.headers.getAll "trailer".toList = [] := by
  obtain ⟨⟨taken, trailer⟩, isTaken, rfl⟩ :=
    Option.map_eq_some_iff.mp isPrepared
  have noTrailer : taken.getAll "trailer".toList = [] := by
    unfold takeTrailer at isTaken
    split at isTaken
    · next isNone =>
        cases isTaken
        exact List.head?_eq_none_iff.mp isNone
    · obtain ⟨name, _, isPair⟩ := Option.map_eq_some_iff.mp isTaken
      cases isPair
      simp
  constructor
  · simp
  · have differs : "trailer".toList ≠ "connection".toList := by decide
    have notDate : "trailer".toList ≠ "date".toList := by decide
    rw [MultiMap.getAll_remove, if_neg differs, getAll_orInsert notDate,
      noTrailer]

end Head

/-! ## How a stream may be used -/

/-- What has become of a stream. -/
inductive Phase where
  | idle
  | open
  | ended
  /-- The client has closed it, or refused its head. -/
  | closed
  deriving Repr, DecidableEq

/-- A stream, as far as its use is restricted, and its socket. -/
structure Wire where
  corked : Bool
  phase : Phase
  /-- What has been asked for, and not been sent since. -/
  reserved : Nat
  /-- What `capacity` has said, without what has been sent since. -/
  window : Nat
  data : List UInt8
  deriving Repr, DecidableEq

def Wire.new : Wire where
  corked := false
  phase := .idle
  reserved := 0
  window := 0
  data := []

/--
A call on the stream; `none` is a misuse.  Data are sent only into a window that
has room for them, and nobody waits for a window who has not asked for one, who
has one, or who holds back what the client has to see first.
-/
def Wire.step (wire : Wire) : Call → Option Wire
  | .cork on =>
      some { wire with corked := on }
  | .sendResponse endStream accepted =>
      if wire.phase = .idle then
        some { wire with
          phase :=
            if accepted then
              if endStream then .ended else .open
            else
              .closed }
      else
        none
  | .reserveCapacity count =>
      if wire.phase = .open ∨ wire.phase = .ended then
        some { wire with reserved := count }
      else
        none
  | .capacity count =>
      if wire.phase = .open then
        some { wire with window := count }
      else
        none
  | .pollCapacity granted =>
      if wire.phase = .open ∧ wire.window = 0 ∧ 0 < wire.reserved ∧
          wire.corked = false then
        some { wire with phase := if granted then .open else .closed }
      else
        none
  | .sendData bytes endStream =>
      if wire.phase = .open ∧ bytes.length ≤ wire.window then
        some { wire with
          phase := if endStream then .ended else .open
          reserved := wire.reserved - bytes.length
          window := wire.window - bytes.length
          data := wire.data ++ bytes }
      else
        none
  | .sendTrailers =>
      if wire.phase = .open then
        some { wire with phase := .ended }
      else
        none

/-- What the calls leave on the stream, if none of them is a misuse. -/
def Wire.run (wire : Wire) (calls : List Call) : Option Wire :=
  run? Wire.step wire calls

/-! ## What a handler delivers -/

/-- What is on the stream when a handler stops, of the data that it had. -/
structure Outcome
    (wire : Wire)
    (data : List UInt8)
    (status : Status)
    (after : Wire) :
    Prop where
  /-- A handler that has returned holds nothing back and leaves nothing open. -/
  settled :
    status = .returned →
    after.corked = false ∧ (after.phase = .ended ∨ after.phase = .closed)
  sent : ∃ sent, after.data = wire.data ++ sent ∧ sent <+: data
  whole : after.phase = .ended → after.data = wire.data ++ data

/-- The handler uses the stream as it may, and delivers these data. -/
def Delivers
    (wire : Wire)
    (data : List UInt8)
    (handled : Handled) :
    Prop :=
  ∃ after,
    wire.run handled.calls = some after ∧
      Outcome wire data handled.status after

section Delivering

variable
  {wire middle : Wire}
  {data first : List UInt8}
  {calls : List Call}
  {handled : Handled}

/-- What is delivered behind other calls. -/
theorem Delivers.after
    (runs : wire.run calls = some middle)
    (isSent : middle.data = wire.data ++ first)
    (delivers : Delivers middle data handled) :
    Delivers wire (first ++ data) (handled.after calls) := by
  obtain ⟨after, runsOn, outcome⟩ := delivers
  refine ⟨after, ?_, outcome.settled, ?_, ?_⟩
  · exact (run?_append runs handled.calls).trans runsOn
  · obtain ⟨sent, isData, isPrefix⟩ := outcome.sent
    refine ⟨first ++ sent, ?_, (List.prefix_append_right_inj _).mpr isPrefix⟩
    rw [isData, isSent, List.append_assoc]
  · intro isEnded
    rw [outcome.whole isEnded, isSent, List.append_assoc]

/-- Calls that send nothing come before. -/
theorem Delivers.after_nothing
    (runs : wire.run calls = some middle)
    (isSame : middle.data = wire.data)
    (delivers : Delivers middle data handled) :
    Delivers wire data (handled.after calls) := by
  have isSent : middle.data = wire.data ++ [] := by
    rw [isSame, List.append_nil]
  exact delivers.after runs isSent

/-- A handler that stops with the stream open waits. -/
theorem delivers_waiting
    (isOpen : wire.phase = .open)
    (data : List UInt8) :
    Delivers wire data ⟨[], .waiting⟩ := by
  refine ⟨wire, rfl, nofun, ⟨[], by rw [List.append_nil], List.nil_prefix⟩,
    ?_⟩
  intro isEnded
  rw [isOpen] at isEnded
  cases isEnded

end Delivering

/-! ## Turns -/

section Turns

variable
  {wire : Wire}
  {remaining : List UInt8}
  {count : Nat}

/-- The stream behind a piece that was sent. -/
def Wire.sent
    (wire : Wire)
    (window reserved : Nat)
    (bytes : List UInt8)
    (endStream : Bool) :
    Wire where
  corked := wire.corked
  phase := if endStream then .ended else .open
  reserved := reserved
  window := window - bytes.length
  data := wire.data ++ bytes

/-- A piece that fits the window is sent. -/
theorem run_send
    (isOpen : wire.phase = .open)
    {bytes : List UInt8}
    (fits : bytes.length ≤ count)
    (endStream : Bool)
    (reserved : Nat) :
    wire.run [.capacity count, .sendData bytes endStream,
        .reserveCapacity reserved] =
      some (wire.sent count reserved bytes endStream) := by
  simp [Wire.run, run?, Wire.step, isOpen, fits, Wire.sent]

/-- A wait that is granted leaves the stream as it was. -/
theorem run_wait
    (isOpen : wire.phase = .open)
    (asked : 0 < wire.reserved)
    (uncorked : wire.corked = false) :
    wire.run [.capacity 0, .pollCapacity true] =
      some { wire with window := 0 } := by
  simp [Wire.run, run?, Wire.step, isOpen, asked, uncorked]

/-- A wait of a handler that corks the socket while it sends. -/
theorem run_uncorkedWait
    (isOpen : wire.phase = .open)
    (asked : 0 < wire.reserved) :
    wire.run
        [.capacity 0, .cork false, .pollCapacity true, .cork true] =
      some { wire with corked := true, window := 0 } := by
  simp [Wire.run, run?, Wire.step, isOpen, asked]

theorem length_take_min (bytes : List UInt8) (count : Nat) :
    (bytes.take (min count bytes.length)).length ≤ count := by
  rw [List.length_take]
  omega

/-- A handler that is refused room leaves the stream to the client. -/
theorem delivers_refused
    {calls : List Call}
    (data : List UInt8)
    (runs :
      wire.run calls =
        some { wire with corked := false, phase := .closed, window := 0 }) :
    Delivers wire data ⟨calls, .returned⟩ :=
  ⟨_, runs, fun _ => ⟨rfl, .inr rfl⟩,
    ⟨[], by rw [List.append_nil], List.nil_prefix⟩, nofun⟩

end Turns

/-! ## Small bodies -/

section Small

variable
  {wire : Wire}
  (hasTrailers : Bool)

/-- Behind the data, a stream is open for trailers only. -/
theorem delivers_finishSmall
    (isPhase : wire.phase = if hasTrailers then .open else .ended) :
    Delivers wire [] (finishSmall hasTrailers) := by
  refine ⟨{ wire with corked := false, phase := .ended }, ?_,
    fun _ => ⟨rfl, .inl rfl⟩, ⟨[], by simp, List.nil_prefix⟩, by simp⟩
  cases hasTrailers with
  | true =>
      simp [finishSmall, Wire.run, run?, Wire.step, isPhase]
  | false =>
      have isEnded : wire.phase = .ended := isPhase
      obtain ⟨corked, phase, reserved, window, data⟩ := wire
      obtain rfl := isEnded
      rfl

theorem delivers_sendPieces
    (turns : List Turn)
    {remaining : List UInt8}
    (isOpen : wire.phase = .open)
    (uncorked : wire.corked = false)
    (asked : 0 < wire.reserved)
    (isRest : remaining ≠ []) :
    Delivers wire remaining (sendPieces hasTrailers turns remaining) := by
  induction turns generalizing wire remaining with
  | nil =>
      exact delivers_waiting isOpen remaining
  | cons turn turns inductionHypothesis =>
      have positive := List.length_pos_of_ne_nil isRest
      unfold sendPieces
      by_cases hasRoom : 0 < turn.capacity
      · simp only [hasRoom, if_true]
        generalize isCount : min turn.capacity remaining.length = count
        have runs :=
          run_send isOpen
            (isCount ▸ length_take_min remaining turn.capacity)
            ((remaining.drop count).isEmpty && !hasTrailers)
            (remaining.drop count).length
        have isAll :
            remaining.take count ++ remaining.drop count = remaining :=
          List.take_append_drop _ _
        by_cases isLast : remaining.drop count = []
        · have finishes : Delivers
              (wire.sent turn.capacity (remaining.drop count).length
                (remaining.take count)
                ((remaining.drop count).isEmpty && !hasTrailers))
              [] (finishSmall hasTrailers) := by
            apply delivers_finishSmall
            cases hasTrailers <;> simp [Wire.sent, isLast]
          have delivers := finishes.after runs rfl
          rw [List.append_nil] at delivers
          rw [isLast, List.append_nil] at isAll
          rw [if_pos (List.isEmpty_iff.mpr isLast)]
          rw [isAll] at delivers
          exact isAll.symm ▸ delivers
        · have notLast : (remaining.drop count).isEmpty = false :=
            List.isEmpty_eq_false_iff.mpr isLast
          have goesOn : Delivers
              (wire.sent turn.capacity (remaining.drop count).length
                (remaining.take count)
                ((remaining.drop count).isEmpty && !hasTrailers))
              (remaining.drop count)
              (sendPieces hasTrailers turns (remaining.drop count)) := by
            refine inductionHypothesis ?_ uncorked
              (List.length_pos_of_ne_nil isLast) isLast
            simp [Wire.sent, notLast]
          have delivers := goesOn.after runs rfl
          rw [isAll] at delivers
          rw [if_neg (by simp [notLast])]
          exact delivers
      · have noRoom : turn.capacity = 0 := by omega
        simp only [noRoom, Nat.lt_irrefl, if_false]
        by_cases isGranted : turn.granted = true
        · simp only [isGranted, if_true]
          exact Delivers.after_nothing (run_wait isOpen asked uncorked) rfl
            (inductionHypothesis isOpen uncorked asked isRest)
        · simp only [isGranted, Bool.false_eq_true, if_false]
          apply delivers_refused
          simp [Wire.run, run?, Wire.step, isOpen, asked, uncorked]

theorem delivers_sendSmall
    (turns : List Turn)
    (data : List UInt8)
    (isOpen : wire.phase = .open) :
    Delivers wire data (sendSmall hasTrailers turns data) := by
  cases turns with
  | nil =>
      have runs :
          wire.run [.reserveCapacity data.length] =
            some { wire with reserved := data.length } := by
        simp [Wire.run, run?, Wire.step, isOpen]
      have isOpenStill :
          Wire.phase { wire with reserved := data.length } = .open :=
        isOpen
      exact (delivers_waiting isOpenStill data).after_nothing runs rfl
  | cons turn turns =>
      unfold sendSmall
      by_cases fits : data.length ≤ turn.capacity
      · simp only [fits, if_true]
        have runs :
            wire.run [.reserveCapacity data.length, .capacity turn.capacity,
                .sendData data (!hasTrailers)] =
              some (wire.sent turn.capacity 0 data (!hasTrailers)) := by
          simp [Wire.run, run?, Wire.step, isOpen, fits, Wire.sent]
        have finishes : Delivers
            (wire.sent turn.capacity 0 data (!hasTrailers)) []
            (finishSmall hasTrailers) := by
          apply delivers_finishSmall
          cases hasTrailers <;> simp [Wire.sent]
        have delivers := finishes.after runs rfl
        rw [List.append_nil] at delivers
        exact delivers
      · simp only [fits, if_false]
        have runs :
            wire.run [.reserveCapacity data.length, .capacity turn.capacity,
                .cork false] =
              some { wire with
                corked := false
                reserved := data.length
                window := turn.capacity } := by
          simp [Wire.run, run?, Wire.step, isOpen]
        have positive : 0 < data.length := by omega
        exact Delivers.after_nothing runs rfl
          (delivers_sendPieces hasTrailers turns isOpen rfl positive
            (List.ne_nil_of_length_pos positive))

end Small

/-! ## Other bodies -/

section Streamed

variable {wire : Wire}

/-- The stream between two calls of a handler that sends as it reads. -/
structure Wire.IsSending (wire : Wire) : Prop where
  isOpen : wire.phase = .open
  asked : 0 < wire.reserved
  corked : wire.corked = true

/-- What the loop over one chunk does to the stream. -/
def Piece.Delivers
    (wire : Wire)
    (chunk : List UInt8) :
    Piece → Prop
  | .sent calls _ =>
      ∃ after,
        wire.run calls = some after ∧
          after.IsSending ∧
          after.data = wire.data ++ chunk
  | .stopped handled =>
      ∀ later, H2.Delivers wire (chunk ++ later) handled

theorem Piece.Delivers.after
    {middle : Wire}
    {calls : List Call}
    {first chunk : List UInt8}
    {piece : Piece}
    (runs : wire.run calls = some middle)
    (isSent : middle.data = wire.data ++ first)
    (delivers : piece.Delivers middle chunk) :
    (piece.after calls).Delivers wire (first ++ chunk) := by
  cases piece with
  | sent later turns =>
      obtain ⟨after, runsOn, isSending, isData⟩ := delivers
      refine ⟨after, (run?_append runs later).trans runsOn, isSending, ?_⟩
      rw [isData, isSent, List.append_assoc]
  | stopped handled =>
      intro later
      rw [List.append_assoc]
      exact (delivers later).after runs isSent

theorem delivers_sendChunk
    (turns : List Turn)
    {remaining : List UInt8}
    (isSending : wire.IsSending)
    (isRest : remaining ≠ []) :
    (sendChunk turns remaining).Delivers wire remaining := by
  induction turns generalizing wire remaining with
  | nil =>
      intro later
      exact delivers_waiting isSending.isOpen _
  | cons turn turns inductionHypothesis =>
      unfold sendChunk
      by_cases hasRoom : 0 < turn.capacity
      · simp only [hasRoom, if_true]
        generalize isCount : min turn.capacity remaining.length = count
        have runs :=
          run_send isSending.isOpen
            (isCount ▸ length_take_min remaining turn.capacity) false
            pipelineWindow
        have staysSending :
            (wire.sent turn.capacity pipelineWindow (remaining.take count)
              false).IsSending :=
          ⟨rfl, Nat.zero_lt_succ _, isSending.corked⟩
        have isAll :
            remaining.take count ++ remaining.drop count = remaining :=
          List.take_append_drop _ _
        by_cases isLast : remaining.drop count = []
        · rw [if_pos (List.isEmpty_iff.mpr isLast)]
          rw [isLast, List.append_nil] at isAll
          refine ⟨_, runs, staysSending, ?_⟩
          simp only [Wire.sent, isAll]
        · rw [if_neg (by simp [isLast])]
          have delivers :=
            (inductionHypothesis staysSending isLast).after runs rfl
          rw [isAll] at delivers
          exact delivers
      · have noRoom : turn.capacity = 0 := by omega
        simp only [noRoom, Nat.lt_irrefl, if_false]
        by_cases isGranted : turn.granted = true
        · simp only [isGranted, if_true]
          have runs := run_uncorkedWait isSending.isOpen isSending.asked
          have waited :
              Wire.IsSending { wire with corked := true, window := 0 } :=
            ⟨isSending.isOpen, isSending.asked, rfl⟩
          exact Piece.Delivers.after runs
            (show wire.data = wire.data ++ [] by rw [List.append_nil])
            (inductionHypothesis waited isRest)
        · simp only [isGranted, Bool.false_eq_true, if_false]
          intro later
          apply delivers_refused
          simp [Wire.run, run?, Wire.step, isSending.isOpen,
            isSending.asked]

/-- The wait before a chunk. -/
theorem makeRoom_cases
    (turn : Turn)
    (isSending : wire.IsSending) :
    turn.makeRoom.2 = true ∧
        (∃ after,
          wire.run turn.makeRoom.1 = some after ∧
            after.IsSending ∧
            after.data = wire.data) ∨
      turn.makeRoom.2 = false ∧
        ∀ data, Delivers wire data ⟨turn.makeRoom.1, .returned⟩ := by
  unfold Turn.makeRoom
  by_cases noRoom : turn.capacity = 0
  · simp only [noRoom, if_true]
    by_cases isGranted : turn.granted = true
    · simp only [isGranted, if_true]
      exact .inl ⟨trivial, _, run_uncorkedWait isSending.isOpen isSending.asked,
        ⟨isSending.isOpen, isSending.asked, rfl⟩, rfl⟩
    · simp only [isGranted, Bool.false_eq_true, if_false]
      refine .inr ⟨trivial, fun data => delivers_refused data ?_⟩
      simp [Wire.run, run?, Wire.step, isSending.isOpen, isSending.asked]
  · simp only [noRoom, if_false]
    refine .inl ⟨trivial, { wire with window := turn.capacity }, ?_,
      ⟨isSending.isOpen, isSending.asked, isSending.corked⟩, rfl⟩
    simp [Wire.run, run?, Wire.step, isSending.isOpen]

theorem delivers_finishStream
    (hasTrailers : Bool)
    (isSending : wire.IsSending) :
    Delivers wire [] (finishStream hasTrailers) := by
  have isOpen := isSending.isOpen
  refine ⟨{ wire with corked := false, phase := .ended }, ?_,
    fun _ => ⟨rfl, .inl rfl⟩, ⟨[], by simp, List.nil_prefix⟩, by simp⟩
  cases hasTrailers <;>
    simp [finishStream, Wire.run, run?, Wire.step, isOpen]

/-- The end of a body, or a failure of it, is the end of the stream. -/
theorem delivers_end
    (hasTrailers : Bool)
    (turn : Turn)
    (isSending : wire.IsSending) :
    Delivers wire []
      (if turn.makeRoom.2 then
        (finishStream hasTrailers).after turn.makeRoom.1
      else
        ⟨turn.makeRoom.1, .returned⟩) := by
  rcases makeRoom_cases turn isSending with
    ⟨hasRoom, middle, runs, stays, isSame⟩ | ⟨noRoom, refused⟩
  · rw [if_pos hasRoom]
    exact (delivers_finishStream hasTrailers stays).after_nothing runs isSame
  · rw [if_neg (by simp [noRoom])]
    exact refused []

theorem delivers_sendStream
    (hasTrailers : Bool)
    (body : List (Except Unit (List UInt8)))
    (turns : List Turn)
    (isSending : wire.IsSending) :
    Delivers wire (bytesOf body) (sendStream hasTrailers body turns) := by
  induction body generalizing wire turns with
  | nil =>
      cases turns with
      | nil =>
          exact delivers_waiting isSending.isOpen _
      | cons turn turns =>
          exact delivers_end hasTrailers turn isSending
  | cons item body inductionHypothesis =>
      cases turns with
      | nil =>
          cases item <;> exact delivers_waiting isSending.isOpen _
      | cons turn turns =>
          cases item with
          | error failure =>
              exact delivers_end hasTrailers turn isSending
          | ok bytes =>
              unfold sendStream
              rcases makeRoom_cases turn isSending with
                ⟨hasRoom, middle, runs, stays, isSame⟩ | ⟨noRoom, refused⟩
              · simp only [hasRoom, if_true, bytesOf]
                by_cases isEmpty : bytes = []
                · subst isEmpty
                  exact (inductionHypothesis turns stays).after_nothing runs
                    isSame
                · rw [if_neg (by simp [isEmpty])]
                  have sends := delivers_sendChunk turns stays isEmpty
                  cases isPiece : sendChunk turns bytes with
                  | sent calls others =>
                      rw [isPiece] at sends
                      obtain ⟨after, runsOn, staysOn, isData⟩ := sends
                      have runsBoth :=
                        (run?_append runs calls).trans runsOn
                      exact (inductionHypothesis others staysOn).after
                        runsBoth (by rw [isData, isSame])
                  | stopped handled =>
                      rw [isPiece] at sends
                      exact (sends (bytesOf body)).after_nothing runs isSame
              · simp only [noRoom, Bool.false_eq_true, if_false]
                exact refused _

end Streamed

/-! ## The handler -/

/-- The data that a handler offers to the stream. -/
def offered : BodySize → List Polled → List UInt8
  | .none, _ | .sized 0, _ =>
      []
  | .stream, body =>
      bytesOf (awaited body)
  | .sized size, body =>
      if size ≤ smallBodyInline then
        (collectSmall body).getD []
      else
        bytesOf (awaited body)

section Handler

variable
  (hasTrailers accepted : Bool)
  (body : List Polled)
  (turns : List Turn)

theorem delivers_sendHead :
    Delivers .new [] (sendHead accepted) := by
  cases accepted with
  | true =>
      exact ⟨_, rfl, fun _ => ⟨rfl, .inl rfl⟩, ⟨[], rfl, List.nil_prefix⟩,
        fun _ => rfl⟩
  | false =>
      exact ⟨_, rfl, fun _ => ⟨rfl, .inr rfl⟩, ⟨[], rfl, List.nil_prefix⟩,
        fun _ => rfl⟩

/-- A response that the client does not take any more. -/
theorem delivers_unaccepted (data : List UInt8) :
    Delivers .new data
      ⟨[.cork true, .sendResponse false false, .cork false], .returned⟩ :=
  ⟨_, rfl, fun _ => ⟨rfl, .inr rfl⟩, ⟨[], rfl, List.nil_prefix⟩, nofun⟩

theorem delivers_sendInline :
    Delivers .new ((collectSmall body).getD [])
      (sendInline hasTrailers accepted body turns) := by
  unfold sendInline
  cases collectSmall body with
  | none =>
      exact delivers_sendHead accepted
  | some data =>
      cases accepted with
      | true =>
          have runs :
              Wire.new.run [.cork true, .sendResponse false true] =
                some { Wire.new with corked := true, phase := .open } := rfl
          exact (delivers_sendSmall hasTrailers turns data rfl).after_nothing
            runs rfl
      | false =>
          exact delivers_unaccepted data

theorem delivers_sendStreamed :
    Delivers .new (bytesOf (awaited body))
      (sendStreamed hasTrailers accepted body turns) := by
  unfold sendStreamed
  cases accepted with
  | true =>
      have runs :
          Wire.new.run [.cork true, .sendResponse false true,
              .reserveCapacity pipelineWindow] =
            some { Wire.new with
              corked := true
              phase := .open
              reserved := pipelineWindow } := rfl
      have isSending :
          Wire.IsSending { Wire.new with
            corked := true
            phase := .open
            reserved := pipelineWindow } :=
        ⟨rfl, by decide, rfl⟩
      exact (delivers_sendStream hasTrailers (awaited body) turns
        isSending).after_nothing runs rfl
  | false =>
      exact delivers_unaccepted _

theorem delivers_h2Handler (size : BodySize) :
    Delivers .new (offered size body)
      (h2Handler size hasTrailers accepted body turns) := by
  cases size with
  | none =>
      exact delivers_sendHead accepted
  | stream =>
      exact delivers_sendStreamed hasTrailers accepted body turns
  | sized size =>
      cases size with
      | zero =>
          exact delivers_sendHead accepted
      | succ size =>
          simp only [h2Handler, offered, Nat.succ_ne_zero, if_false]
          split
          · exact delivers_sendInline hasTrailers accepted body turns
          · exact delivers_sendStreamed hasTrailers accepted body turns

/--
Whatever the client and the body do, the handler never misuses the stream, what
it sends is a beginning of what it offers, and it ends the stream only when it
has sent all of that; and when it has returned, the stream is not left open and
the socket not corked.
-/
theorem stream_of_h2Handler (size : BodySize) :
    ∃ after,
      Wire.new.run (h2Handler size hasTrailers accepted body turns).calls =
          some after ∧
        after.data <+: offered size body ∧
        (after.phase = .ended → after.data = offered size body) ∧
        ((h2Handler size hasTrailers accepted body turns).status =
            .returned →
          after.corked = false ∧
            (after.phase = .ended ∨ after.phase = .closed)) := by
  obtain ⟨after, runs, outcome⟩ :=
    delivers_h2Handler hasTrailers accepted body turns size
  obtain ⟨sent, isData, isPrefix⟩ := outcome.sent
  have isSent : after.data = sent := isData
  exact ⟨after, runs, isSent ▸ isPrefix, outcome.whole, outcome.settled⟩

end Handler

/-! ## Bodies that fail -/

section Failures

variable
  {before : List Polled}
  (intact : Polled.failed ∉ before)
  (rest : List Polled)

include intact

/-- What is awaited of a body that fails. -/
theorem bytesOf_awaited_failed :
    bytesOf (awaited (before ++ .failed :: rest)) =
      bytesOf (awaited before) := by
  induction before with
  | nil =>
      rfl
  | cons polled before inductionHypothesis =>
      rw [List.mem_cons, not_or] at intact
      have later := inductionHypothesis intact.2
      cases polled with
      | pending =>
          exact later
      | chunk bytes =>
          exact congrArg (bytes ++ ·) later
      | failed =>
          exact absurd rfl intact.1

theorem collectSync_failed :
    collectSync (before ++ .failed :: rest) = collectSync before := by
  induction before with
  | nil =>
      rfl
  | cons polled before inductionHypothesis =>
      rw [List.mem_cons, not_or] at intact
      cases polled with
      | pending =>
          exact bytesOf_awaited_failed intact.2 rest
      | chunk bytes =>
          exact congrArg (bytes ++ ·) (inductionHypothesis intact.2)
      | failed =>
          exact absurd rfl intact.1

theorem awaited_failed :
    awaited (before ++ .failed :: rest) =
      awaited before ++ .error () :: awaited rest := by
  induction before with
  | nil =>
      rfl
  | cons polled before inductionHypothesis =>
      rw [List.mem_cons, not_or] at intact
      have later := inductionHypothesis intact.2
      cases polled with
      | pending =>
          exact later
      | chunk bytes =>
          exact congrArg (Except.ok bytes :: ·) later
      | failed =>
          exact absurd rfl intact.1

theorem collectSmall_failed :
    collectSmall (before ++ .failed :: rest) = collectSmall before := by
  cases before with
  | nil =>
      rfl
  | cons polled before =>
      rw [List.mem_cons, not_or] at intact
      obtain ⟨notFailed, intact⟩ := intact
      cases polled with
      | pending =>
          simp only [List.cons_append, collectSmall,
            awaited_failed intact rest]
          cases awaited before with
          | nil =>
              rfl
          | cons item items =>
              cases item <;> rfl
      | chunk first =>
          cases before with
          | nil =>
              rfl
          | cons polled before =>
              rw [List.mem_cons, not_or] at intact
              cases polled with
              | pending =>
                  simp only [List.cons_append, collectSmall,
                    bytesOf_awaited_failed intact.2 rest]
              | chunk second =>
                  simp only [List.cons_append, collectSmall,
                    collectSync_failed intact.2 rest]
              | failed =>
                  exact absurd rfl intact.1
      | failed =>
          exact absurd rfl notFailed

omit intact in
/-- A failure of what is read stops the loop where the end would. -/
theorem sendStream_failed
    (hasTrailers : Bool)
    (items later : List (Except Unit (List UInt8)))
    (turns : List Turn) :
    sendStream hasTrailers (items ++ .error () :: later) turns =
      sendStream hasTrailers items turns := by
  induction items generalizing turns with
  | nil =>
      cases turns <;> rfl
  | cons item items inductionHypothesis =>
      cases turns with
      | nil =>
          cases item <;> rfl
      | cons turn turns =>
          cases item with
          | error failure =>
              rfl
          | ok bytes =>
              simp only [List.cons_append, sendStream, inductionHypothesis]

/--
A body that fails is sent as if it had ended before: the client is told that
this was all, in every case and with the same calls.
-/
theorem h2Handler_failed
    (size : BodySize)
    (hasTrailers accepted : Bool)
    (turns : List Turn) :
    h2Handler size hasTrailers accepted (before ++ .failed :: rest) turns =
      h2Handler size hasTrailers accepted before turns := by
  have streamed :
      sendStreamed hasTrailers accepted (before ++ .failed :: rest) turns =
        sendStreamed hasTrailers accepted before turns := by
    simp only [sendStreamed, awaited_failed intact rest, sendStream_failed]
  cases size with
  | none =>
      rfl
  | stream =>
      exact streamed
  | sized size =>
      simp only [h2Handler, streamed, sendInline,
        collectSmall_failed intact rest]

end Failures

/-- A body of which one byte of two comes before it fails. -/
theorem h2Handler_failed_one :
    h2Handler (.sized 2) false true [.chunk [1], .failed] [⟨9, true⟩] =
      h2Handler (.sized 2) false true [.chunk [1]] [⟨9, true⟩] :=
  @h2Handler_failed [.chunk [1]] (by decide) [] (.sized 2) false true
    [⟨9, true⟩]

/-! ## Clients that make room -/

/-- How often the client has room. -/
def room (turns : List Turn) : Nat :=
  turns.countP fun turn => 0 < turn.capacity

theorem room_cons (turn : Turn) (turns : List Turn) :
    room (turn :: turns) =
      room turns + if 0 < turn.capacity then 1 else 0 := by
  rw [room, List.countP_cons]
  simp [room]

/-- The client refuses a call. -/
def Call.refuses : Call → Bool
  | .sendResponse _ false | .pollCapacity false =>
      true
  | _ =>
      false

/-- No call is refused. -/
def Grants (calls : List Call) : Prop :=
  ∀ call ∈ calls, call.refuses = false

theorem Grants.append
    {first second : List Call}
    (grantsFirst : Grants first)
    (grantsSecond : Grants second) :
    Grants (first ++ second) := by
  intro call isCall
  rcases List.mem_append.mp isCall with isFirst | isSecond
  · exact grantsFirst call isFirst
  · exact grantsSecond call isSecond

/-- The client has not closed the stream. -/
def Wire.NotClosed (wire : Wire) : Prop :=
  wire.phase ≠ .closed

theorem notClosed_of_step
    {wire after : Wire}
    {call : Call}
    (notClosed : wire.NotClosed)
    (taken : wire.step call = some after)
    (granted : call.refuses = false) :
    after.NotClosed := by
  cases call with
  | cork on =>
      cases taken
      exact notClosed
  | sendResponse endStream accepted =>
      cases accepted with
      | false =>
          cases granted
      | true =>
          simp only [Wire.step, if_true, Option.ite_none_right_eq_some,
            Option.some.injEq] at taken
          obtain ⟨_, rfl⟩ := taken
          cases endStream <;> simp [Wire.NotClosed]
  | pollCapacity isGranted =>
      cases isGranted with
      | false =>
          cases granted
      | true =>
          simp only [Wire.step, if_true, Option.ite_none_right_eq_some,
            Option.some.injEq] at taken
          obtain ⟨_, rfl⟩ := taken
          simp [Wire.NotClosed]
  | sendData bytes endStream =>
      simp only [Wire.step, Option.ite_none_right_eq_some,
        Option.some.injEq] at taken
      obtain ⟨_, rfl⟩ := taken
      cases endStream <;> simp [Wire.NotClosed]
  | sendTrailers =>
      simp only [Wire.step, Option.ite_none_right_eq_some,
        Option.some.injEq] at taken
      obtain ⟨_, rfl⟩ := taken
      simp [Wire.NotClosed]
  | reserveCapacity count | capacity count =>
      simp only [Wire.step, Option.ite_none_right_eq_some,
        Option.some.injEq] at taken
      obtain ⟨_, rfl⟩ := taken
      exact notClosed

/-- A stream is closed only by a refusal. -/
theorem notClosed_of_grants
    {wire after : Wire}
    {calls : List Call}
    (notClosed : wire.NotClosed)
    (grants : Grants calls)
    (runs : wire.run calls = some after) :
    after.NotClosed := by
  have granted :
      Along Wire.step (fun _ call _ => call.refuses = false) wire calls :=
    along_of_forall grants
  exact invariant_of_along notClosed_of_step notClosed granted runs

/-- What a handler does with a client that refuses nothing. -/
structure Waits (turns : List Turn) (work : Nat) (handled : Handled) :
    Prop where
  grants : Grants handled.calls
  /-- It waits only if there was room less often than it had work. -/
  room : handled.status = .waiting → room turns ≤ work

/-- No turn of the client is a refusal. -/
def Obliges (turns : List Turn) : Prop :=
  ∀ turn ∈ turns, turn.capacity = 0 → turn.granted = true

section Room

variable
  {turn : Turn}
  {turns others : List Turn}
  {calls : List Call}
  {handled : Handled}
  {work done : Nat}

theorem Obliges.tail (obliges : Obliges (turn :: turns)) : Obliges turns :=
  fun other isOther => obliges other (List.mem_cons_of_mem turn isOther)

/-- More calls, and more turns, before. -/
theorem Waits.after
    (waits : Waits others work handled)
    (grants : Grants calls)
    (used : H2.room turns ≤ H2.room others + done) :
    Waits turns (done + work) (handled.after calls) := by
  refine ⟨grants.append waits.grants, ?_⟩
  intro isWaiting
  have less := waits.room isWaiting
  omega

theorem waits_returned
    (grants : Grants calls)
    (turns : List Turn)
    (work : Nat) :
    Waits turns work ⟨calls, .returned⟩ :=
  ⟨grants, nofun⟩

theorem waits_nil (work : Nat) : Waits [] work ⟨[], .waiting⟩ :=
  ⟨nofun, fun _ => Nat.zero_le work⟩

theorem waits_finishSmall
    (hasTrailers : Bool)
    (turns : List Turn)
    (work : Nat) :
    Waits turns work (finishSmall hasTrailers) := by
  apply waits_returned
  cases hasTrailers <;> simp [Grants, Call.refuses]

theorem waits_sendPieces
    (hasTrailers : Bool)
    {remaining : List UInt8}
    (obliges : Obliges turns) :
    Waits turns remaining.length
      (sendPieces hasTrailers turns remaining) := by
  induction turns generalizing remaining with
  | nil =>
      exact waits_nil _
  | cons turn turns inductionHypothesis =>
      unfold sendPieces
      by_cases hasRoom : 0 < turn.capacity
      · simp only [hasRoom, if_true]
        generalize isCount : min turn.capacity remaining.length = count
        have grants :
            Grants [.capacity turn.capacity,
              .sendData (remaining.take count)
                ((remaining.drop count).isEmpty && !hasTrailers),
              .reserveCapacity (remaining.drop count).length] := by
          simp [Grants, Call.refuses]
        split
        · refine ⟨grants.append (waits_finishSmall hasTrailers [] 0).grants,
            nofun⟩
        · next notLast =>
            have isRest : remaining.drop count ≠ [] := by
              simpa using notLast
            have positive := List.length_pos_of_ne_nil isRest
            have goesOn :=
              @inductionHypothesis (remaining.drop count) obliges.tail
            refine ⟨grants.append goesOn.grants, ?_⟩
            intro isWaiting
            have less := goesOn.room isWaiting
            rw [room_cons, if_pos hasRoom]
            rw [List.length_drop] at less positive
            omega
      · have noRoom : turn.capacity = 0 := by omega
        have isGranted := obliges turn List.mem_cons_self noRoom
        simp only [hasRoom, if_false, isGranted, if_true]
        have goesOn := @inductionHypothesis remaining obliges.tail
        refine ⟨?_, ?_⟩
        · apply Grants.append _ goesOn.grants
          simp [Grants, Call.refuses]
        · intro isWaiting
          rw [room_cons, if_neg hasRoom]
          exact goesOn.room isWaiting

theorem waits_sendSmall
    (hasTrailers : Bool)
    (data : List UInt8)
    (obliges : Obliges turns) :
    Waits turns (1 + data.length) (sendSmall hasTrailers turns data) := by
  cases turns with
  | nil =>
      exact ⟨by simp [sendSmall, Grants, Call.refuses],
        fun _ => Nat.zero_le _⟩
  | cons turn turns =>
      unfold sendSmall
      dsimp only
      split
      · refine ⟨Grants.append ?_ (waits_finishSmall hasTrailers [] 0).grants,
          nofun⟩
        simp [Grants, Call.refuses]
      · apply (waits_sendPieces hasTrailers obliges.tail).after
        · simp [Grants, Call.refuses]
        · rw [room_cons]
          split <;> omega

/-- The same for the loop over one chunk. -/
def Piece.Waits (turns : List Turn) (work : Nat) : Piece → Prop
  | .sent calls others =>
      Grants calls ∧ Obliges others ∧ H2.room turns ≤ H2.room others + work
  | .stopped handled =>
      H2.Waits turns work handled

theorem waits_sendChunk
    {remaining : List UInt8}
    (isRest : remaining ≠ [])
    (obliges : Obliges turns) :
    (sendChunk turns remaining).Waits turns remaining.length := by
  induction turns generalizing remaining with
  | nil =>
      exact waits_nil _
  | cons turn turns inductionHypothesis =>
      unfold sendChunk
      by_cases hasRoom : 0 < turn.capacity
      · simp only [hasRoom, if_true]
        generalize isCount : min turn.capacity remaining.length = count
        have positive := List.length_pos_of_ne_nil isRest
        have grants :
            Grants [.capacity turn.capacity,
              .sendData (remaining.take count) false,
              .reserveCapacity pipelineWindow] := by
          simp [Grants, Call.refuses]
        split
        · refine ⟨grants, obliges.tail, ?_⟩
          rw [room_cons, if_pos hasRoom]
          omega
        · next notLast =>
            have isMore : remaining.drop count ≠ [] := by
              simpa using notLast
            have more := inductionHypothesis isMore obliges.tail
            cases isPiece : sendChunk turns (remaining.drop count) with
            | sent later others =>
                rw [isPiece] at more
                obtain ⟨grantsLater, obligesOthers, used⟩ := more
                refine ⟨grants.append grantsLater, obligesOthers, ?_⟩
                rw [room_cons, if_pos hasRoom]
                rw [List.length_drop] at used
                omega
            | stopped handled =>
                rw [isPiece] at more
                refine ⟨grants.append more.grants, ?_⟩
                intro isWaiting
                have less := more.room isWaiting
                rw [room_cons, if_pos hasRoom]
                rw [List.length_drop] at less
                omega
      · have noRoom : turn.capacity = 0 := by omega
        have isGranted := obliges turn List.mem_cons_self noRoom
        have grants :
            Grants [.capacity turn.capacity, .cork false,
              .pollCapacity true, .cork true] := by
          simp [Grants, Call.refuses]
        simp only [hasRoom, if_false, isGranted, if_true]
        have more := inductionHypothesis isRest obliges.tail
        cases isPiece : sendChunk turns remaining with
        | sent later others =>
            rw [isPiece] at more
            obtain ⟨grantsLater, obligesOthers, used⟩ := more
            refine ⟨grants.append grantsLater, obligesOthers, ?_⟩
            rw [room_cons, if_neg hasRoom]
            exact used
        | stopped handled =>
            rw [isPiece] at more
            refine ⟨grants.append more.grants, ?_⟩
            intro isWaiting
            rw [room_cons, if_neg hasRoom]
            exact more.room isWaiting

theorem makeRoom_of_obliges
    (obliges : Obliges (turn :: turns)) :
    turn.makeRoom.2 = true ∧ Grants turn.makeRoom.1 := by
  unfold Turn.makeRoom
  split
  · next noRoom =>
      have isGranted := obliges turn List.mem_cons_self noRoom
      simp [isGranted, Grants, Call.refuses]
  · simp [Grants, Call.refuses]

theorem waits_end
    (hasTrailers : Bool)
    (obliges : Obliges (turn :: turns))
    (work : Nat) :
    Waits (turn :: turns) work
      (if turn.makeRoom.2 then
        (finishStream hasTrailers).after turn.makeRoom.1
      else
        ⟨turn.makeRoom.1, .returned⟩) := by
  obtain ⟨hasRoom, grants⟩ := makeRoom_of_obliges obliges
  rw [if_pos hasRoom]
  apply waits_returned
  apply grants.append
  cases hasTrailers <;> simp [finishStream, Grants, Call.refuses]

theorem waits_sendStream
    (hasTrailers : Bool)
    (body : List (Except Unit (List UInt8)))
    (obliges : Obliges turns) :
    Waits turns (body.length + (bytesOf body).length)
      (sendStream hasTrailers body turns) := by
  induction body generalizing turns with
  | nil =>
      cases turns with
      | nil =>
          exact waits_nil _
      | cons turn turns =>
          exact waits_end hasTrailers obliges _
  | cons item body inductionHypothesis =>
      cases turns with
      | nil =>
          cases item <;> exact waits_nil _
      | cons turn turns =>
          cases item with
          | error failure =>
              exact waits_end hasTrailers obliges _
          | ok bytes =>
              obtain ⟨hasRoom, grants⟩ := makeRoom_of_obliges obliges
              have atMost : room (turn :: turns) ≤ room turns + 1 := by
                rw [room_cons]
                split <;> omega
              unfold sendStream
              simp only [hasRoom, if_true, bytesOf, List.length_append,
                List.length_cons]
              split
              · have goesOn := inductionHypothesis obliges.tail
                refine ⟨grants.append goesOn.grants, ?_⟩
                intro isWaiting
                have less := goesOn.room isWaiting
                omega
              · next notEmpty =>
                  have isChunk : bytes ≠ [] := by simpa using notEmpty
                  have sends := waits_sendChunk isChunk obliges.tail
                  cases isPiece : sendChunk turns bytes with
                  | sent calls others =>
                      rw [isPiece] at sends
                      obtain ⟨grantsCalls, obligesOthers, used⟩ := sends
                      have goesOn := inductionHypothesis obligesOthers
                      refine ⟨(grants.append grantsCalls).append
                        goesOn.grants, ?_⟩
                      intro isWaiting
                      have less := goesOn.room isWaiting
                      omega
                  | stopped handled =>
                      rw [isPiece] at sends
                      refine ⟨grants.append sends.grants, ?_⟩
                      intro isWaiting
                      have less := sends.room isWaiting
                      omega

end Room

section Returning

variable
  (hasTrailers : Bool)
  (body : List Polled)
  {turns : List Turn}

theorem length_awaited_le : (awaited body).length ≤ body.length := by
  induction body with
  | nil =>
      exact Nat.le_refl 0
  | cons polled body inductionHypothesis =>
      cases polled with
      | pending =>
          exact Nat.le_succ_of_le inductionHypothesis
      | chunk bytes =>
          exact Nat.succ_le_succ inductionHypothesis
      | failed =>
          exact Nat.succ_le_succ inductionHypothesis

theorem Waits.weaken
    {work more : Nat}
    {handled : Handled}
    (waits : Waits turns work handled)
    (isLess : work ≤ more) :
    Waits turns more handled :=
  ⟨waits.grants, fun isWaiting => Nat.le_trans (waits.room isWaiting) isLess⟩

theorem waits_sendHead (work : Nat) :
    Waits turns work (sendHead true) := by
  apply waits_returned
  simp [Grants, Call.refuses]

theorem waits_sendInline (obliges : Obliges turns) :
    Waits turns (1 + ((collectSmall body).getD []).length)
      (sendInline hasTrailers true body turns) := by
  unfold sendInline
  cases collectSmall body with
  | none =>
      exact waits_sendHead _
  | some data =>
      have sends := waits_sendSmall hasTrailers data obliges
      refine ⟨Grants.append ?_ sends.grants, sends.room⟩
      simp [Grants, Call.refuses]

theorem waits_sendStreamed (obliges : Obliges turns) :
    Waits turns (body.length + (bytesOf (awaited body)).length)
      (sendStreamed hasTrailers true body turns) := by
  have sends := waits_sendStream hasTrailers (awaited body) obliges
  have fewer := length_awaited_le body
  refine ⟨Grants.append ?_ sends.grants, ?_⟩
  · simp [Grants, Call.refuses]
  · intro isWaiting
    have less := sends.room isWaiting
    omega

theorem waits_h2Handler
    (size : BodySize)
    (obliges : Obliges turns) :
    Waits turns (1 + body.length + (offered size body).length)
      (h2Handler size hasTrailers true body turns) := by
  have streamed := waits_sendStreamed hasTrailers body obliges
  cases size with
  | none =>
      exact waits_sendHead _
  | stream =>
      refine streamed.weaken ?_
      simp only [offered]
      omega
  | sized size =>
      cases size with
      | zero =>
          exact waits_sendHead _
      | succ size =>
          simp only [h2Handler, offered, Nat.succ_ne_zero, if_false]
          split
          · exact (waits_sendInline hasTrailers body obliges).weaken
              (by omega)
          · exact streamed.weaken (by omega)

/--
With a client that refuses nothing, and has room more often than there are
pieces and bytes to send, the handler ends the stream, with all that it offers.
-/
theorem ended_of_room
    (size : BodySize)
    (obliges : Obliges turns)
    (hasRoom : 1 + body.length + (offered size body).length < room turns) :
    ∃ after,
      Wire.new.run (h2Handler size hasTrailers true body turns).calls =
          some after ∧
        (h2Handler size hasTrailers true body turns).status = .returned ∧
        after.phase = .ended ∧
        after.corked = false ∧
        after.data = offered size body := by
  have waits := waits_h2Handler hasTrailers body size obliges
  have isReturned :
      (h2Handler size hasTrailers true body turns).status = .returned := by
    cases isStatus :
        (h2Handler size hasTrailers true body turns).status with
    | returned =>
        rfl
    | waiting =>
        have less := waits.room isStatus
        omega
  obtain ⟨after, runs, outcome⟩ :=
    delivers_h2Handler hasTrailers true body turns size
  have notClosed : after.NotClosed :=
    notClosed_of_grants (by simp [Wire.NotClosed, Wire.new]) waits.grants runs
  obtain ⟨uncorked, isPhase⟩ := outcome.settled isReturned
  have isEnded := isPhase.resolve_right notClosed
  exact ⟨after, runs, isReturned, isEnded, uncorked,
    outcome.whole isEnded⟩

end Returning

/-- Four bytes in two chunks, for a client that has room for one at a time. -/
theorem ended_of_room_oneByOne :
    ∃ after,
      Wire.new.run (h2Handler .stream false true
            [.chunk [1, 2], .pending, .chunk [3, 4]]
            (List.replicate 9 ⟨1, true⟩)).calls = some after ∧
        (h2Handler .stream false true
            [.chunk [1, 2], .pending, .chunk [3, 4]]
            (List.replicate 9 ⟨1, true⟩)).status = .returned ∧
        after.phase = .ended ∧
        after.corked = false ∧
        after.data =
          offered .stream [.chunk [1, 2], .pending, .chunk [3, 4]] :=
  ended_of_room false [.chunk [1, 2], .pending, .chunk [3, 4]] .stream
    (by simp [Obliges]) (by decide)

/-! ## Small bodies that are not ready -/

theorem collectSync_eq (body : List Polled) :
    collectSync body = bytesOf (awaited body) := by
  induction body with
  | nil =>
      rfl
  | cons polled body inductionHypothesis =>
      cases polled with
      | chunk bytes =>
          exact congrArg (bytes ++ ·) inductionHypothesis
      | pending | failed =>
          rfl

/-- A body whose first chunk is ready is collected whole. -/
theorem collectSmall_chunk (first : List UInt8) (rest : List Polled) :
    (collectSmall (.chunk first :: rest)).getD [] =
      first ++ bytesOf (awaited rest) := by
  cases rest with
  | nil =>
      simp [collectSmall, awaited, bytesOf]
  | cons polled rest =>
      cases polled with
      | chunk second =>
          simp [collectSmall, awaited, bytesOf, collectSync_eq]
      | pending | failed =>
          simp [collectSmall, awaited, bytesOf]

/--
A small body is offered whole if and only if it is there at the first poll, or
comes in one chunk: what follows a first chunk that had to be awaited is lost.
-/
theorem offered_sized_iff
    {size : Nat}
    (isSmall : 0 < size ∧ size ≤ smallBodyInline)
    (body : List Polled) :
    offered (.sized size) body = bytesOf (awaited body) ↔
      (body.head? = some .pending →
        ∀ first later,
          awaited body = .ok first :: later →
          bytesOf later = []) := by
  obtain ⟨positive, isSmall⟩ := isSmall
  have isOffered :
      offered (.sized size) body = (collectSmall body).getD [] := by
    cases size with
    | zero =>
        cases positive
    | succ size =>
        simp only [offered, isSmall, if_true]
  rw [isOffered]
  cases body with
  | nil =>
      simp [collectSmall, awaited, bytesOf]
  | cons polled rest =>
      cases polled with
      | failed =>
          simp [collectSmall, awaited, bytesOf]
      | chunk first =>
          have isWhole :
              (collectSmall (.chunk first :: rest)).getD [] =
                first ++ bytesOf (awaited rest) :=
            collectSmall_chunk first rest
          simp [isWhole, awaited, bytesOf]
      | pending =>
          cases isRest : awaited rest with
          | nil =>
              simp [collectSmall, awaited, isRest, bytesOf]
          | cons item items =>
              cases item with
              | error failure =>
                  simp [collectSmall, awaited, isRest, bytesOf]
              | ok bytes =>
                  simp [collectSmall, awaited, isRest, bytesOf]

/-- A body of two bytes, of which the second is lost when the first is late. -/
theorem offered_sized_iff_late :
    offered (.sized 2) [.pending, .chunk [1], .chunk [2]] =
        bytesOf (awaited [.pending, .chunk [1], .chunk [2]]) ↔
      ([Polled.pending, .chunk [1], .chunk [2]].head? = some .pending →
        ∀ first later,
          awaited [.pending, .chunk [1], .chunk [2]] = .ok first :: later →
          bytesOf later = []) :=
  offered_sized_iff (by decide) [.pending, .chunk [1], .chunk [2]]

end Sweety.H2
