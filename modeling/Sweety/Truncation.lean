import Sweety.CacheTransparency
import Sweety.FastCgiRecords

namespace Sweety.Truncation

open HttpText SegmentedReader UpstreamResponse Rfc7230

/-!
# Responses that are cut short

A response that ends before its declared end, or whose body is larger than the
handler takes, and when the handler lets the client know: it fails, or the
pieces that it sends end with an error, and it stores nothing.
-/

/-! ## Bodies that do not arrive whole -/

/-- The body of a response, as far as it arrives. -/
inductive WireBody where
  | sized (length : Nat) (arrived : List UInt8)
  | chunked (body : ChunkedBody) (cut : Nat)
  | untilEnd (arrived : List UInt8)

/-- The chunks are within the limits of the path they are read on. -/
def WithinLimits (streaming : Bool) (chunks : List Chunk) : Prop :=
  if streaming then
    ∀ chunk ∈ chunks, StreamedChunk chunk
  else
    BufferedWithin 0 chunks

namespace WireBody

/-- What arrives. -/
def bytes : WireBody → List UInt8
  | .sized _ arrived =>
      arrived
  | .chunked body cut =>
      body.bytes.take cut
  | .untilEnd arrived =>
      arrived

/-- The head declares a body of this kind. -/
def Declared (head : ResponseHead) : WireBody → Prop
  | .sized length _ =>
      head.isChunked = false ∧ head.contentLength = some length
  | .chunked _ _ =>
      head.isChunked = true
  | .untilEnd _ =>
      head.isChunked = false ∧ head.contentLength = none

/-- The declared end does not arrive. -/
def Cut : WireBody → Prop
  | .sized length arrived =>
      arrived.length < length
  | .chunked body cut =>
      cut < body.bytes.length
  | .untilEnd _ =>
      False

/-- The body exceeds a limit of the path it is read on. -/
def Capped (streaming : Bool) : WireBody → Prop
  | .sized length _ =>
      streaming = false ∧ bufferedMaxBody < length
  | .chunked body _ =>
      ¬ WithinLimits streaming body.chunks
  | .untilEnd arrived =>
      streaming = false ∧ bufferedMaxBody < arrived.length

/-- No chunk is larger than a machine word can say. -/
def Sized : WireBody → Prop
  | .chunked body _ =>
      ∀ chunk ∈ body.chunks, chunk.data.length < 2 ^ 64
  | _ =>
      True

/--
The break shows: on the streaming path any error while a length is owed, and
elsewhere an error other than `UnexpectedEof` before the limit is reached, which
for chunks has to fall within the data of one.
-/
def ShowsBreak
    (streaming : Bool)
    (back : List (Event IoError)) :
    WireBody → Prop
  | .sized length arrived =>
      if streaming then
        back ≠ []
      else
        arrived.length < min length bufferedMaxBody ∧ BreaksHard back
  | .chunked body cut =>
      ∃ upTo,
        brokenChunks? body.chunks cut = some upTo ∧
          WithinLimits streaming upTo ∧
          BreaksHard back
  | .untilEnd _ =>
      False

end WireBody

/-! ## Replies -/

/-- The client gets a reply that nothing tells from a whole one. -/
def Complete : ReplyResult → Prop
  | .reply reply _ =>
      reply.body.Complete
  | _ =>
      False

/-- What is stored of a reply. -/
def stored?
    (tools : ResponseTools)
    (context : ResponseContext)
    (statusCode : Nat) :
    ReplyResult → Option CachedResponse
  | .reply ⟨_, headers, .whole bytes, trailers⟩ _ =>
      sendRecvStored? tools context ⟨statusCode, headers, bytes, trailers⟩
  | _ =>
      none

/-- Only a whole reply is stored. -/
theorem stored?_eq_none
    {tools : ResponseTools}
    {context : ResponseContext}
    {statusCode : Nat}
    {result : ReplyResult}
    (notComplete : ¬ Complete result) :
    stored? tools context statusCode result = none := by
  cases result with
  | reply reply released =>
      obtain ⟨status, headers, body, trailers⟩ := reply
      cases body with
      | none =>
          rfl
      | whole bytes =>
          exact absurd trivial notComplete
      | streamed pieces =>
          rfl
  | failed error =>
      rfl
  | hang =>
      rfl

section Paths

variable
  {status : Nat}
  {head : ResponseHead}
  {reader : Reader}

theorem complete_streamReply_chunked
    (isChunked : head.isChunked = true) :
    Complete (streamReply takesAll status head reader) ↔
      AllData (streamChunked takesAll [] reader).1 := by
  unfold streamReply
  rw [if_pos isChunked]
  rfl

theorem complete_streamReply_sized
    {length : Nat}
    (notChunked : head.isChunked = false)
    (isLength : head.contentLength = some length) :
    Complete (streamReply takesAll status head reader) ↔
      AllData (streamLength takesAll length [] reader).1 := by
  unfold streamReply
  rw [if_neg (by simp [notChunked]), isLength]
  rfl

theorem complete_bufferedReply_chunked
    (isChunked : head.isChunked = true) :
    Complete (bufferedReply status head reader) ↔
      Succeeds (readChunkedBody head.hasTrailer [] reader) := by
  unfold bufferedReply
  rw [if_pos isChunked]
  generalize readChunkedBody head.hasTrailer [] reader = result
  obtain ⟨ending, after⟩ := result
  cases ending with
  | ok body trailers =>
      exact iff_of_true trivial ⟨_, _, _, rfl⟩
  | failed error =>
      exact iff_of_false id nofun
  | hang =>
      exact iff_of_false id nofun

theorem complete_bufferedReply_sized
    {length : Nat}
    (notChunked : head.isChunked = false)
    (isLength : head.contentLength = some length) :
    Complete (bufferedReply status head reader) ↔
      Succeeds (readExactBody length reader) := by
  unfold bufferedReply
  rw [if_neg (by simp [notChunked]), isLength]
  dsimp only
  generalize readExactBody length reader = result
  obtain ⟨ending, after⟩ := result
  cases ending with
  | ok body trailers =>
      exact iff_of_true trivial ⟨_, _, _, rfl⟩
  | failed error =>
      exact iff_of_false id nofun
  | hang =>
      exact iff_of_false id nofun

theorem complete_bufferedReply_untilEnd
    {all : List UInt8}
    {after : Reader}
    (notChunked : head.isChunked = false)
    (noLength : head.contentLength = none)
    (isRead : readToEnd [] reader = (some all, after)) :
    Complete (bufferedReply status head reader) := by
  unfold bufferedReply
  rw [if_neg (by simp [notChunked]), noLength]
  dsimp only
  rw [isRead]
  trivial

end Paths

/-! ## Where the cut shows -/

/-- A body is cut, or a limit cuts it. -/
structure Truncated
    (streaming : Bool)
    (wire : WireBody)
    (back : List (Event IoError)) : Prop where
  short : wire.Cut ∨ wire.Capped streaming
  broken : wire.Cut → Broken back
  sized : ¬ wire.Cut → wire.Sized

section Chunked

variable
  {reader : Reader}
  {back : List (Event IoError)}
  {body : ChunkedBody}
  {cut : Nat}
  {streaming : Bool}

/-- A chunked body ends with its last chunk. -/
theorem bytes_chunkedBody (body : ChunkedBody) :
    body.bytes =
      body.chunks.flatMap Chunk.bytes ++
        (encodeUtf8 body.last.line ++
          encodeUtf8 (body.trailers.flatMap Field.line ++ crlf)) := by
  rw [ChunkedBody.bytes, ← encodeUtf8_append, List.append_assoc]

/-- No chunk is cut in a body that arrives whole. -/
theorem brokenChunks?_whole
    (chunks : List Chunk)
    {cut : Nat}
    (whole : (chunks.flatMap Chunk.bytes).length ≤ cut) :
    brokenChunks? chunks cut = none := by
  induction chunks generalizing cut with
  | nil =>
      rfl
  | cons chunk others inductionHypothesis =>
      rw [List.flatMap_cons, List.length_append] at whole
      rw [brokenChunks?_later (by omega),
        inductionHypothesis (by omega), Option.map_none]

/--
What a reader of chunks makes of a body that is cut, by a limit or before.
-/
theorem quiet_chunked
    {State : Type}
    (cutReader : CutReader State back)
    (state : State)
    (accepts :
      ∀ chunks,
        cutReader.AcceptsAll state chunks ↔ WithinLimits streaming chunks)
    (truncated : Truncated streaming (.chunked body cut) back)
    (holds : Holds reader (body.bytes.take cut) back) :
    cutReader.quiet state reader ↔
      ¬ (WireBody.chunked body cut).ShowsBreak streaming back := by
  by_cases isCut : cut < body.bytes.length
  · rw [bytes_chunkedBody] at holds
    rw [cutReader.quiet_cut body.chunks cut state (truncated.broken isCut)
      body.zero holds]
    simp only [CutReader.Fails, WireBody.ShowsBreak, accepts]
  · have whole := Nat.not_lt.mp isCut
    rw [List.take_of_length_le whole, bytes_chunkedBody] at holds
    have exceeds : ¬ WithinLimits streaming body.chunks :=
      truncated.short.resolve_left isCut
    refine iff_of_true ?_ ?_
    · apply cutReader.quiet_refused body.chunks state
        (truncated.sized isCut) _ holds
      rw [accepts]
      exact exceeds
    · rintro ⟨upTo, isBroken, _⟩
      rw [bytes_chunkedBody, List.length_append] at whole
      rw [brokenChunks?_whole body.chunks (by omega)] at isBroken
      cases isBroken

end Chunked

/-- When a reply that is cut short is not told from a whole one. -/
theorem complete_iff
    {streaming : Bool}
    {status : Nat}
    {head : ResponseHead}
    {reader : Reader}
    {wire : WireBody}
    {back : List (Event IoError)}
    (declared : wire.Declared head)
    (truncated : Truncated streaming wire back)
    (holds : Holds reader wire.bytes back) :
    Complete
        (if streaming then
          streamReply takesAll status head reader
        else
          bufferedReply status head reader) ↔
      ¬ wire.ShowsBreak streaming back := by
  cases wire with
  | sized length arrived =>
      obtain ⟨notChunked, isLength⟩ := declared
      cases streaming with
      | true =>
          have isCut : arrived.length < length := by
            rcases truncated.short with isCut | ⟨isFalse, _⟩
            · exact isCut
            · cases isFalse
          have ended :
              AllData (streamLength takesAll length [] reader).1 ↔
                back = [] :=
            streamLength_broken holds (truncated.broken isCut) isCut
              (allData_piecesOf [])
          rw [if_pos rfl, complete_streamReply_sized notChunked isLength,
            ended]
          exact not_not.symm
      | false =>
          rw [if_neg (by decide),
            complete_bufferedReply_sized notChunked isLength]
          by_cases short : arrived.length < min length bufferedMaxBody
          · have isCut : arrived.length < length :=
              (Nat.lt_min.mp short).1
            rw [readExactBody_broken holds (truncated.broken isCut) short]
            exact not_congr (and_iff_right short).symm
          · refine iff_of_true
              (readExactBody_long holds (Nat.not_lt.mp short)) ?_
            rintro ⟨isShort, _⟩
            exact short isShort
  | chunked body cut =>
      cases streaming with
      | true =>
          rw [if_pos rfl, complete_streamReply_chunked declared]
          exact quiet_chunked (streamedReader back) []
            (acceptsAll_streamedReader []) truncated holds
      | false =>
          rw [if_neg (by decide), complete_bufferedReply_chunked declared]
          exact quiet_chunked (bufferedReader head.hasTrailer back) []
            (acceptsAll_bufferedReader (Nat.zero_le _)) truncated holds
  | untilEnd arrived =>
      obtain ⟨notChunked, noLength⟩ := declared
      obtain ⟨rfl, long⟩ := truncated.short.resolve_left id
      obtain ⟨all, after, isRead⟩ :=
        @readToEnd_long _ _ _ [] holds
          (by rw [List.length_nil, Nat.zero_add]; exact long)
          (Nat.zero_le _)
      rw [if_neg (by decide)]
      exact iff_of_true
        (complete_bufferedReply_untilEnd notChunked noLength isRead) id

/-! ## Streams that are cut -/

/-- The condition of the streaming path. -/
def streams (proxyBuffering : Bool) (context : ResponseContext) : Bool :=
  !proxyBuffering && context.location.subFilter.isEmpty &&
    context.cache.isNone

/-- An upstream whose response is cut short after its head was read. -/
structure HttpCut where
  tools : ResponseTools
  context : ResponseContext
  proxyBuffering : Bool
  statusLine : List Char
  start : Reader
  head : ResponseHead
  reader : Reader
  /-- The header loop ends with this head, at this place of the stream. -/
  isHead :
    readHeaders (.start ("HTTP/1.0".toList.isPrefixOf statusLine)) start =
      (.ok head, reader)
  hasBody :
    noBodyStatus (statusFromU16 (parseStatusCode statusLine)) = false
  wire : WireBody
  back : List (Event IoError)
  declared : wire.Declared head
  holds : Holds reader wire.bytes back
  truncated : Truncated (streams proxyBuffering context) wire back

namespace HttpCut

variable (cut : HttpCut)

/-- Whether the body is streamed to the client. -/
def streaming : Bool :=
  streams cut.proxyBuffering cut.context

/-- What becomes of the response. -/
def result : ReplyResult :=
  readReply ⟨cut.streaming, takesAll⟩ cut.statusLine cut.start

/-- The client is told, and nothing is stored. -/
def Shown : Prop :=
  ¬ Complete cut.result ∧
    stored? cut.tools cut.context (parseStatusCode cut.statusLine)
      cut.result = none

theorem result_eq :
    cut.result =
      if cut.streaming then
        streamReply takesAll
          (statusFromU16 (parseStatusCode cut.statusLine)) cut.head
          cut.reader
      else
        bufferedReply (statusFromU16 (parseStatusCode cut.statusLine))
          cut.head cut.reader := by
  unfold result readReply
  simp only [cut.isHead, cut.hasBody]
  rfl

theorem shown_iff_showsBreak :
    cut.Shown ↔ cut.wire.ShowsBreak cut.streaming cut.back := by
  have isComplete :
      Complete cut.result ↔
        ¬ cut.wire.ShowsBreak cut.streaming cut.back := by
    rw [result_eq]
    exact complete_iff cut.declared cut.truncated cut.holds
  constructor
  · rintro ⟨notComplete, _⟩
    rw [isComplete, not_not] at notComplete
    exact notComplete
  · intro shows
    have notComplete : ¬ Complete cut.result := by
      rw [isComplete, not_not]
      exact shows
    exact ⟨notComplete, stored?_eq_none notComplete⟩

end HttpCut

/-- A FastCGI backend that fails before `END_REQUEST`. -/
structure FcgiCut where
  context : FastCgi.FcgiContext
  takes : context.receives = takesAll
  reads : List (Event IoError)
  records : List FastCgi.FcgiRecord
  yields : FastCgi.Yields reads records
  unended : ∀ record ∈ records, record.recType ≠ FastCgi.endRequest

/-- A response stream that is cut. -/
inductive CutStream where
  | http (cut : HttpCut)
  | fastCgi (cut : FcgiCut)

namespace CutStream

/-- The client is told, and nothing is stored. -/
def Shown : CutStream → Prop
  | .http cut =>
      cut.Shown
  | .fastCgi cut =>
      (cut.context.readResponse cut.reads).Shown

/-- The stream breaks in a way that the handler does not take for an end. -/
def ShowsBreak : CutStream → Prop
  | .http cut =>
      cut.wire.ShowsBreak cut.streaming cut.back
  | .fastCgi cut =>
      FastCgi.ShowsFailure cut.records

/--
The handler lets the client know of a response that is cut short exactly when
the stream breaks in a way that the handler does not take for an end.
-/
theorem shown_iff (stream : CutStream) :
    stream.Shown ↔ stream.ShowsBreak := by
  cases stream with
  | http cut =>
      exact cut.shown_iff_showsBreak
  | fastCgi cut =>
      exact FastCgi.shown_readResponse cut.yields cut.takes

end CutStream

/-- A head that announces five bytes. -/
def fiveHead : ResponseHead where
  contentLength := some 5
  isChunked := false
  connClose := false
  hasTrailer := false
  headers := [("Content-Length".toList, ['5'])]
  headerCount := 1

/-- The headers and two bytes of five, before the stream breaks off. -/
def fiveStart (back : List (Event IoError)) : Reader where
  buffer := []
  reads :=
    Event.ofBytes (encodeUtf8 "Content-Length: 5\r\n\r\nhe".toList) ++ back

/-- Two bytes of five, with a cache. -/
def twoOfFive
    (back : List (Event IoError))
    (broken : Broken back)
    (isHead :
      readHeaders (.start false) (fiveStart back) =
        (.ok fiveHead, ⟨[104, 101], back⟩)) :
    HttpCut where
  tools := CacheTransparency.asciiTools
  context := CacheTransparency.plainContext
  proxyBuffering := true
  statusLine := "HTTP/1.1 200 OK\r\n".toList
  start := fiveStart back
  head := fiveHead
  reader := ⟨[104, 101], back⟩
  isHead
  hasBody := by decide
  wire := .sized 5 [104, 101]
  back
  declared := ⟨rfl, rfl⟩
  holds := ⟨[], rfl, nofun, rfl⟩
  truncated :=
    ⟨.inl (by decide : 2 < 5), fun _ => broken, fun _ => trivial⟩

/-- The connection is closed. -/
def closedEarly : HttpCut :=
  twoOfFive [] broken_nil (by decide +kernel)

/-- The connection is reset. -/
def resetEarly : HttpCut :=
  twoOfFive [.error ⟨.connectionReset, "connection reset"⟩]
    (fun _ member => ⟨_, List.mem_singleton.mp member⟩)
    (by decide +kernel)

/-- A reset fails the request. -/
theorem shown_resetEarly : (CutStream.http resetEarly).Shown :=
  (CutStream.shown_iff (.http resetEarly)).mpr
    ⟨by decide, _, _, rfl, by decide⟩

/-- The two bytes are sent as a whole reply, and stored. -/
theorem not_shown_closedEarly :
    ¬ (CutStream.http closedEarly).Shown ∧
      stored? closedEarly.tools closedEarly.context 200
          closedEarly.result =
        some
          ⟨200, [("Content-Length".toList, ['5'])], [104, 101]⟩ := by
  refine ⟨?_, by decide +kernel⟩
  rintro ⟨_, isNone⟩
  revert isNone
  decide +kernel

end Sweety.Truncation
