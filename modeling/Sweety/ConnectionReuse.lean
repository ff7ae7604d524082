import Sweety.BodyIntegrity
import Sweety.ResponseReading
import Sweety.SilentUpstream

namespace Sweety.ForwardRequest

open HttpText SegmentedReader UpstreamResponse Rfc7230

/-!
# When a connection is handed back

A connection that goes back to the pool should stand exactly at the end of the
response: nothing of the response unread, and nothing after it read and dropped
with the buffer.  The proxy decides where a response ends without looking at the
request's method, takes an interim response for the final one, and gives up on
bodies beyond its limits; it hands the connection back all the same.
-/

/-! ## What has been read when a connection is handed back -/

/-- The body was read to an end with which the connection is handed back. -/
inductive BodyRead
    (mode : ReplyMode)
    (head : ResponseHead)
    (reader released : Reader) :
    Prop where
  | streamedChunks
      (streaming : mode.streaming = true)
      (chunked : head.isChunked = true)
      (pieces : Pieces)
      (isRead :
        streamChunked mode.receives [] reader =
          (pieces, .ended true, released))
  | streamedLength
      (streaming : mode.streaming = true)
      (notChunked : head.isChunked = false)
      (len : Nat)
      (isLength : head.contentLength = some len)
      (pieces : Pieces)
      (isRead :
        streamLength mode.receives len [] reader =
          (pieces, .ended true, released))
  | bufferedChunks
      (buffered : mode.streaming = false)
      (chunked : head.isChunked = true)
      (body : List UInt8)
      (trailers : List (List Char × List Char))
      (isRead :
        readChunkedBody head.hasTrailer [] reader =
          (.ok body trailers, released))
  | bufferedLength
      (buffered : mode.streaming = false)
      (notChunked : head.isChunked = false)
      (len : Nat)
      (isLength : head.contentLength = some len)
      (body : List UInt8)
      (trailers : List (List Char × List Char))
      (isRead : readExactBody len reader = (.ok body trailers, released))

/-- What the header loop makes of what follows a status line. -/
def headersAfter
    (line : List Char)
    (reader : Reader) :
    HeadResult × Reader :=
  readHeaders
    (ResponseHead.start ("HTTP/1.0".toList.isPrefixOf line)) reader

/-- The status that the proxy reads off a status line. -/
def statusOf (line : List Char) : Nat :=
  statusFromU16 (parseStatusCode line)

/--
The response after a status line was read, and the connection handed back.
-/
inductive Released
    (mode : ReplyMode)
    (line : List Char)
    (reader released : Reader) :
    Prop where
  | noBody
      (head : ResponseHead)
      (isHead : headersAfter line reader = (.ok head, released))
      (goesOn : head.connClose = false)
      (isNoBody : noBodyStatus (statusOf line) = true)
  | body
      (head : ResponseHead)
      (after : Reader)
      (isHead : headersAfter line reader = (.ok head, after))
      (goesOn : head.connClose = false)
      (hasBody : noBodyStatus (statusOf line) = false)
      (isBody : BodyRead mode head after released)

section Reply

variable
  {mode : ReplyMode}
  {line : List Char}
  {reader released : Reader}
  {reply : Reply}

theorem releaseIf_eq_some
    {reuse : Bool}
    (isReleased : releaseIf reuse reader = some released) :
    reuse = true ∧ reader = released := by
  cases reuse with
  | true =>
      exact ⟨rfl, Option.some.inj isReleased⟩
  | false =>
      cases isReleased

theorem streamReply_released
    {status : Nat}
    {head : ResponseHead}
    (streaming : mode.streaming = true)
    (isReply :
      streamReply mode.receives status head reader =
        .reply reply (some released)) :
    head.connClose = false ∧ BodyRead mode head reader released := by
  unfold streamReply at isReply
  split at isReply
  · rename_i chunked
    cases isStream : streamChunked mode.receives [] reader with
    | mk pieces ending =>
        rw [isStream] at isReply
        obtain ⟨reuse, rfl⟩ :=
          releaseIf_eq_some (ReplyResult.reply.inj isReply).2
        simp only [Bool.and_eq_true, beq_iff_eq,
          Bool.not_eq_true'] at reuse
        refine ⟨reuse.2, .streamedChunks streaming chunked pieces ?_⟩
        rw [isStream, ← reuse.1]
  · rename_i notChunked
    cases isStream :
        streamLength mode.receives
          (head.contentLength.getD (2 ^ 64 - 1)) [] reader with
    | mk pieces ending =>
        rw [isStream] at isReply
        obtain ⟨reuse, rfl⟩ :=
          releaseIf_eq_some (ReplyResult.reply.inj isReply).2
        simp only [Bool.and_eq_true, beq_iff_eq,
          Bool.not_eq_true'] at reuse
        obtain ⟨len, isLength⟩ :=
          Option.isSome_iff_exists.mp reuse.1.2
        rw [isLength, Option.getD_some] at isStream
        refine ⟨reuse.2, .streamedLength streaming
          (by simpa using notChunked) len isLength pieces ?_⟩
        rw [isStream, ← reuse.1.1]

theorem bufferedReply_released
    {status : Nat}
    {head : ResponseHead}
    (buffered : mode.streaming = false)
    (isReply :
      bufferedReply status head reader =
        .reply reply (some released)) :
    head.connClose = false ∧ BodyRead mode head reader released := by
  unfold bufferedReply at isReply
  dsimp only at isReply
  split at isReply
  · rename_i chunked
    split at isReply
    · rename_i isRead
      obtain ⟨reuse, rfl⟩ :=
        releaseIf_eq_some (ReplyResult.reply.inj isReply).2
      exact ⟨by simpa using reuse,
        .bufferedChunks buffered chunked _ _ isRead⟩
    · cases isReply
    · cases isReply
  · rename_i notChunked
    split at isReply
    · rename_i len isLength
      split at isReply
      · rename_i isRead
        obtain ⟨reuse, rfl⟩ :=
          releaseIf_eq_some (ReplyResult.reply.inj isReply).2
        exact ⟨by simpa using reuse,
          .bufferedLength buffered (by simpa using notChunked) len
            isLength _ _ isRead⟩
      · cases isReply
      · cases isReply
    · split at isReply
      · have noReader := (ReplyResult.reply.inj isReply).2
        cases noReader
      · cases isReply

/-- What has been read of a response when its connection is handed back. -/
theorem readReply_released
    (isReply :
      readReply mode line reader = .reply reply (some released)) :
    Released mode line reader released := by
  unfold readReply at isReply
  dsimp only at isReply
  split at isReply
  · rename_i head after isHead
    split at isReply
    · rename_i isNoBody
      obtain ⟨reuse, rfl⟩ :=
        releaseIf_eq_some (ReplyResult.reply.inj isReply).2
      exact .noBody head isHead (by simpa using reuse) isNoBody
    · rename_i notNoBody
      have hasBody : noBodyStatus (statusOf line) = false :=
        Bool.eq_false_iff.mpr notNoBody
      split at isReply
      · rename_i streaming
        obtain ⟨goesOn, isBody⟩ :=
          streamReply_released streaming isReply
        exact .body head after isHead goesOn hasBody isBody
      · rename_i notStreaming
        obtain ⟨goesOn, isBody⟩ :=
          bufferedReply_released (by simpa using notStreaming) isReply
        exact .body head after isHead goesOn hasBody isBody
  · cases isReply
  · cases isReply

end Reply

/-! ## The status line of the response -/

/-- The proxy waits for `100 Continue` before it sends the body. -/
def Request.waits (request : Request) : Bool :=
  request.hasBody && request.hasExpectContinue

/-- The line that an attempt reads the response after, where it gets so far. -/
def statusLine?
    (request : Request)
    (reads : List (Event IoError)) :
    Option (List Char × Reader) :=
  match readTextLine ⟨[], reads⟩ with
  | (.ok line, after) =>
      if request.waits then
        if parseStatusCode line = 100 then
          -- The blank line after `100 Continue` is skipped.
          match (skipLine after).map readTextLine with
          | some (.ok next, afterNext) =>
              some (next, afterNext)
          | _ =>
              none
        else
          some (line, after)
      else if line = [] then
        none
      else
        some (line, after)
  | (.error error before, after) =>
      if request.waits = false ∧ error.kind = .unexpectedEof ∧
          before ≠ [] then
        some (before, after)
      else
        none
  | (.stall, _) =>
      none

section StatusLine

variable
  {mode : ReplyMode}
  {request : Request}
  {reply : Reply}
  {released : Reader}

theorem released_of_afterStatusLine
    {line : List Char}
    {reader : Reader}
    (isOk :
      afterStatusLine mode line reader = .ok reply (some released)) :
    Released mode line reader released := by
  unfold afterStatusLine at isOk
  split at isOk
  · rename_i isReply
    obtain ⟨rfl, rfl⟩ := SendResult.ok.inj isOk
    exact readReply_released isReply
  · cases isOk
  · cases isOk

theorem released_of_receive
    {hasBody : Bool}
    {reads : List (Event IoError)}
    (notWaiting : request.waits = false)
    (isOk :
      receive mode hasBody ⟨[], reads⟩ = .ok reply (some released)) :
    ∃ line after,
      statusLine? request reads = some (line, after) ∧
        Released mode line after released := by
  unfold receive at isOk
  split at isOk
  · cases isOk
  · rename_i error before after isLine
    split at isOk
    · rename_i partLine
      refine ⟨before, after, ?_, released_of_afterStatusLine isOk⟩
      rw [statusLine?, isLine]
      exact if_pos ⟨notWaiting, partLine⟩
    · split at isOk
      · cases isOk
      · cases isOk
  · cases isOk
  · rename_i line after nonempty isLine
    refine ⟨line, after, ?_, released_of_afterStatusLine isOk⟩
    rw [statusLine?, isLine]
    dsimp only
    rw [notWaiting, if_neg Bool.false_ne_true, if_neg nonempty]

theorem released_of_continueRequest
    {useChunked : Bool}
    {body : RequestBody}
    {conn : Conn}
    {reader : Reader}
    (isOk :
      (continueRequest mode useChunked body conn reader).1 =
        .ok reply (some released)) :
    ∃ line after,
      (skipLine reader).map readTextLine = some (.ok line, after) ∧
        Released mode line after released := by
  unfold continueRequest at isOk
  split at isOk
  · cases isOk
  · rename_i afterBlank skipped
    split at isOk
    · cases isOk
    · split at isOk
      · cases isOk
      · cases isOk
      · rename_i line after isLine
        refine ⟨line, after, ?_, released_of_afterStatusLine isOk⟩
        rw [skipped, Option.map_some, isLine]

/-- An attempt hands a connection back after a status line, or not at all. -/
theorem released_of_sendBody
    {body : RequestBody}
    {conn : Conn}
    (isOk :
      (sendBody mode request body conn).1 =
        .ok reply (some released)) :
    ∃ line after,
      statusLine? request conn.reads = some (line, after) ∧
        Released mode line after released := by
  unfold sendBody at isOk
  dsimp only at isOk
  split at isOk
  · rename_i waits
    have isWaiting : request.waits = true := waits
    split at isOk
    · cases isOk
    · cases isOk
    · rename_i line after isLine
      split at isOk
      · rename_i isHundred
        obtain ⟨next, afterNext, isNext, isReleased⟩ :=
          released_of_continueRequest isOk
        refine ⟨next, afterNext, ?_, isReleased⟩
        rw [statusLine?, isLine]
        dsimp only
        rw [isWaiting, if_pos rfl, if_pos isHundred, isNext]
      · rename_i notHundred
        refine ⟨line, after, ?_, released_of_afterStatusLine isOk⟩
        rw [statusLine?, isLine]
        dsimp only
        rw [isWaiting, if_pos rfl, if_neg notHundred]
  · rename_i notWaits
    have notWaiting : request.waits = false :=
      Bool.eq_false_iff.mpr notWaits
    split at isOk
    · split at isOk
      · cases isOk
      · exact released_of_receive notWaiting isOk
    · exact released_of_receive notWaiting isOk

end StatusLine

/-! ## Which responses are read to their end -/

/-- What the header loop makes of a head. -/
def readHead (head : Head) : ResponseHead :=
  (ResponseHead.start
    ("HTTP/1.0".toList.isPrefixOf head.statusLine)).addFields head.fields

/--
The body is where the decoder looks for it: nothing after a status without a
body, as many bytes as `Content-Length` says, or chunks, all within the limits.
-/
def ReadsBody
    (streaming : Bool)
    (status : Nat)
    (head : ResponseHead) :
    Body → Prop
  | .plain bytes =>
      if noBodyStatus status then
        bytes = []
      else
        head.isChunked = false ∧
          head.contentLength = some bytes.length ∧
          (streaming = false → bytes.length ≤ bufferedMaxBody)
  | .chunked body =>
      noBodyStatus status = false ∧
        head.isChunked = true ∧
        if streaming then
          StreamedChunks body
        else
          BufferedChunks head.hasTrailer body

theorem readsBody_plain_iff
    {streaming : Bool}
    {status : Nat}
    {head : ResponseHead}
    {bytes : List UInt8}
    (hasBody : noBodyStatus status = false) :
    ReadsBody streaming status head (.plain bytes) ↔
      head.isChunked = false ∧
        head.contentLength = some bytes.length ∧
        (streaming = false → bytes.length ≤ bufferedMaxBody) := by
  simp only [ReadsBody, hasBody, Bool.false_eq_true, ↓reduceIte]

section Body

variable
  {mode : ReplyMode}
  {status : Nat}
  {head : ResponseHead}
  {reader released : Reader}
  {back : List (Event IoError)}

/-- A body with a length that is read to its end leaves the connection there. -/
theorem released_of_plain
    {bytes : List UInt8}
    (hasBody : noBodyStatus status = false)
    (holds : Holds reader (bytes ++ []) back)
    (reads : ReadsBody mode.streaming status head (.plain bytes))
    (isBody : BodyRead mode head reader released) :
    released = ⟨[], back⟩ := by
  obtain ⟨plain, sameLength, fits⟩ := (readsBody_plain_iff hasBody).mp reads
  cases isBody with
  | streamedChunks streaming chunked pieces isRead =>
      rw [plain] at chunked
      cases chunked
  | bufferedChunks buffered chunked body trailers isRead =>
      rw [plain] at chunked
      cases chunked
  | streamedLength streaming notChunked len isLength pieces isRead =>
      rw [isLength] at sameLength
      obtain rfl : len = bytes.length := Option.some.inj sameLength
      obtain ⟨sent, after, ok, streamed, ends⟩ :=
        streamLength_spec mode.receives bytes [] holds
      rw [isRead] at streamed
      obtain ⟨-, same⟩ := Prod.mk.inj streamed
      obtain ⟨isOk, rfl⟩ := Prod.mk.inj same
      obtain rfl := StreamEnd.ended.inj isOk
      exact (ends rfl).eq_of_nil
  | bufferedLength buffered notChunked len isLength body trailers isRead =>
      rw [isLength] at sameLength
      obtain rfl : len = bytes.length := Option.some.inj sameLength
      obtain ⟨after, isWhole, held⟩ :=
        readExactBody_spec bytes holds (fits buffered)
      rw [isRead] at isWhole
      obtain ⟨-, rfl⟩ := Prod.mk.inj isWhole
      exact held.eq_of_nil

/-- So does a chunked one. -/
theorem released_of_chunked
    {body : ChunkedBody}
    (holds : Holds reader (body.bytes ++ []) back)
    (reads : ReadsBody mode.streaming status head (.chunked body))
    (isBody : BodyRead mode head reader released) :
    released = ⟨[], back⟩ := by
  obtain ⟨_, isChunked, within⟩ := reads
  cases isBody with
  | streamedLength streaming notChunked len isLength pieces isRead =>
      rw [isChunked] at notChunked
      cases notChunked
  | bufferedLength buffered notChunked len isLength body trailers isRead =>
      rw [isChunked] at notChunked
      cases notChunked
  | streamedChunks streaming chunked pieces isRead =>
      rw [streaming] at within
      obtain ⟨sent, after, ok, streamed, ends⟩ :=
        streamChunked_spec mode.receives holds within
      rw [isRead] at streamed
      obtain ⟨-, same⟩ := Prod.mk.inj streamed
      obtain ⟨isOk, rfl⟩ := Prod.mk.inj same
      obtain rfl := StreamEnd.ended.inj isOk
      exact (ends rfl).eq_of_nil
  | bufferedChunks buffered chunked bytes trailers isRead =>
      rw [buffered] at within
      obtain ⟨all, after, isWhole, held⟩ :=
        readChunkedBody_spec holds within
      rw [isRead] at isWhole
      obtain ⟨-, rfl⟩ := Prod.mk.inj isWhole
      exact held.eq_of_nil

/-- A response that is read to its end leaves the connection there. -/
theorem released_of_readsBody
    (head : Head)
    (body : Body)
    (holds :
      Holds reader
        (encodeUtf8 (head.fields.flatMap Field.line ++ crlf) ++
          body.bytes)
        back)
    (few : head.fields.length < respMaxHeaders)
    (reads :
      ReadsBody mode.streaming head.status (readHead head) body)
    (isReleased : Released mode head.statusLine reader released) :
    released = ⟨[], back⟩ := by
  obtain ⟨after, isHead, held⟩ :=
    readHeaders_spec head.fields
      (ResponseHead.start
        ("HTTP/1.0".toList.isPrefixOf head.statusLine))
      holds (by rw [ResponseHead.start, Nat.zero_add]; exact few)
  have isHeadAfter :
      headersAfter head.statusLine reader =
        (.ok (readHead head), after) :=
    isHead
  have isStatus : statusOf head.statusLine = head.status := by
    rw [statusOf, parseStatusCode_statusLine]
    exact if_pos head.threeDigits
  cases isReleased with
  | noBody read isRead goesOn isNoBody =>
      rw [isHeadAfter] at isRead
      obtain ⟨_, rfl⟩ := Prod.mk.inj isRead
      rw [isStatus] at isNoBody
      cases body with
      | plain bytes =>
          have nothing : bytes = [] := by
            simpa [ReadsBody, isNoBody] using reads
          rw [nothing] at held
          exact Holds.eq_of_nil held
      | chunked body =>
          obtain ⟨hasBody, _⟩ := reads
          rw [isNoBody] at hasBody
          cases hasBody
  | body read afterHead isRead goesOn hasBody isBody =>
      rw [isHeadAfter] at isRead
      obtain ⟨sameHead, rfl⟩ := Prod.mk.inj isRead
      obtain rfl := HeadResult.ok.inj sameHead
      rw [isStatus] at hasBody
      rw [← List.append_nil body.bytes] at held
      cases body with
      | plain bytes =>
          exact released_of_plain hasBody held reads isBody
      | chunked body =>
          exact released_of_chunked held reads isBody

end Body

/-- The head announces the end of the connection, or no end of the body. -/
def NeverReused (status : Nat) (head : ResponseHead) : Prop :=
  head.connClose = true ∨
    noBodyStatus status = false ∧
      head.isChunked = false ∧
      head.contentLength = none

/-- Such a head is never read where a connection is handed back. -/
theorem not_released_of_neverReused
    {mode : ReplyMode}
    {line : List Char}
    {reader released : Reader}
    (never :
      ∀ head after,
        headersAfter line reader = (.ok head, after) →
          NeverReused (statusOf line) head) :
    ¬ Released mode line reader released := by
  intro isReleased
  cases isReleased with
  | noBody head isHead goesOn isNoBody =>
      rcases never head released isHead with close | ⟨hasBody, _⟩
      · rw [close] at goesOn
        cases goesOn
      · rw [isNoBody] at hasBody
        cases hasBody
  | body head after isHead goesOn hasBody isBody =>
      rcases never head after isHead with close | ⟨_, plain, noLength⟩
      · rw [close] at goesOn
        cases goesOn
      · cases isBody with
        | streamedChunks streaming chunked pieces isRead =>
            rw [plain] at chunked
            cases chunked
        | bufferedChunks buffered chunked body trailers isRead =>
            rw [plain] at chunked
            cases chunked
        | streamedLength streaming notChunked len isLength =>
            rw [noLength] at isLength
            cases isLength
        | bufferedLength buffered notChunked len isLength =>
            rw [noLength] at isLength
            cases isLength

/-! ## A silence in the middle of a response -/

section Silence

variable
  {mode : ReplyMode}
  {silent other : List (Event IoError)}
  {first second released : Reader}

theorem BodyRead.agree
    {head : ResponseHead}
    (agree : AgreeUntil silent other first second)
    (isBody : BodyRead mode head first released) :
    ∃ next,
      BodyRead mode head second next ∧
        AgreeUntil silent other released next := by
  cases isBody with
  | streamedChunks streaming chunked pieces isRead =>
      obtain ⟨next, also, agrees⟩ := streamChunked_agree agree isRead
      exact ⟨next, .streamedChunks streaming chunked pieces also, agrees⟩
  | streamedLength streaming notChunked len isLength pieces isRead =>
      obtain ⟨next, also, agrees⟩ := streamLength_agree agree isRead
      exact ⟨next,
        .streamedLength streaming notChunked len isLength pieces also,
        agrees⟩
  | bufferedChunks buffered chunked body trailers isRead =>
      obtain ⟨next, also, agrees⟩ := readChunkedBody_agree agree isRead
      exact ⟨next, .bufferedChunks buffered chunked body trailers also,
        agrees⟩
  | bufferedLength buffered notChunked len isLength body trailers isRead =>
      obtain ⟨next, also, agrees⟩ := readExactBody_agree agree isRead
      exact ⟨next,
        .bufferedLength buffered notChunked len isLength body trailers
          also,
        agrees⟩

theorem Released.agree
    {line : List Char}
    (agree : AgreeUntil silent other first second)
    (isReleased : Released mode line first released) :
    ∃ next,
      Released mode line second next ∧
        AgreeUntil silent other released next := by
  cases isReleased with
  | noBody head isHead goesOn isNoBody =>
      obtain ⟨next, also, agrees⟩ := readHeaders_agree agree isHead
      exact ⟨next, .noBody head also goesOn isNoBody, agrees⟩
  | body head after isHead goesOn hasBody isBody =>
      obtain ⟨middle, also, agrees⟩ := readHeaders_agree agree isHead
      obtain ⟨next, alsoBody, ends⟩ := isBody.agree agrees
      exact ⟨next, .body head middle also goesOn hasBody alsoBody, ends⟩

theorem statusLine?_agree
    {request : Request}
    {front : List (Event IoError)}
    {line : List Char}
    {after : Reader}
    (isLine :
      statusLine? request (front ++ .stall :: silent) =
        some (line, after)) :
    ∃ next,
      statusLine? request (front ++ other) = some (line, next) ∧
        AgreeUntil silent other after next := by
  have agree :
      AgreeUntil silent other
        (⟨[], front ++ .stall :: silent⟩ : Reader)
        ⟨[], front ++ other⟩ :=
    ⟨rfl, front, rfl, rfl⟩
  unfold statusLine? at isLine
  unfold statusLine?
  split at isLine
  · rename_i text left isText
    obtain ⟨middle, also, agrees⟩ :=
      readTextLine_agree agree isText nofun
    rw [also]
    dsimp only
    split at isLine
    · rename_i waits
      rw [if_pos waits]
      split at isLine
      · rename_i isHundred
        rw [if_pos isHundred]
        split at isLine
        · rename_i next afterNext isNext
          obtain ⟨rfl, rfl⟩ := Prod.mk.inj (Option.some.inj isLine)
          obtain ⟨blank, skipped, isSecond⟩ :=
            Option.map_eq_some_iff.mp isNext
          obtain ⟨afterBlank, alsoBlank, agreesBlank⟩ :=
            skipLine_agree agrees skipped
          obtain ⟨last, alsoLast, ends⟩ :=
            readTextLine_agree agreesBlank isSecond nofun
          refine ⟨last, ?_, ends⟩
          rw [alsoBlank, Option.map_some, alsoLast]
        · cases isLine
      · rename_i notHundred
        obtain ⟨rfl, rfl⟩ := Prod.mk.inj (Option.some.inj isLine)
        exact ⟨middle, if_neg notHundred, agrees⟩
    · rename_i notWaits
      rw [if_neg notWaits]
      split at isLine
      · cases isLine
      · rename_i nonempty
        obtain ⟨rfl, rfl⟩ := Prod.mk.inj (Option.some.inj isLine)
        exact ⟨middle, if_neg nonempty, agrees⟩
  · rename_i error before left isText
    obtain ⟨middle, also, agrees⟩ :=
      readTextLine_agree agree isText nofun
    rw [also]
    dsimp only
    split at isLine
    · rename_i partLine
      obtain ⟨rfl, rfl⟩ := Prod.mk.inj (Option.some.inj isLine)
      exact ⟨middle, if_pos partLine, agrees⟩
    · cases isLine
  · cases isLine

end Silence

/-! ## Which streams leave the connection aligned -/

/-- No interim response, or the `100 Continue` that is waited for. -/
def InterimsRead (request : Request) (interims : List Head) : Prop :=
  interims = [] ∨
    request.waits = true ∧
      ∃ head, interims = [head] ∧ head.status = 100 ∧ head.fields = []

/-- A response that the proxy frames as RFC 7230 does. -/
structure FramedResponse
    (mode : ReplyMode)
    (request : Request)
    (response : Response request.method) :
    Prop where
  interims : InterimsRead request response.interims
  few : response.head.fields.length < respMaxHeaders
  body :
    ReadsBody mode.streaming response.head.status
      (readHead response.head) response.body

/--
What an upstream sends is framed by the proxy as RFC 7230 frames it, or the
connection is not used again.
-/
inductive FramedAlike
    (mode : ReplyMode)
    (request : Request)
    (reads : List (Event IoError)) :
    Prop where
  /-- No head is read, or one after which the connection is not used again. -/
  | notReused
      (never :
        ∀ line after head afterHead,
          statusLine? request reads = some (line, after) →
            headersAfter line after = (.ok head, afterHead) →
              NeverReused (statusOf line) head)
  /-- One response arrives, in segments of its own. -/
  | framed
      (response : Response request.method)
      (back : List (Event IoError))
      (holds : Holds ⟨[], reads⟩ response.bytes back)
      (isFramed : FramedResponse mode request response)
  /-- The upstream falls silent in the middle of one. -/
  | unfinished
      (response : Response request.method)
      (sent missing : List UInt8)
      (later : List (Event IoError))
      (holds : Holds ⟨[], reads⟩ sent (.stall :: later))
      (isSent : sent ++ missing = response.bytes)
      (incomplete : missing ≠ [])
      (isFramed : FramedResponse mode request response)

section Alike

variable
  {mode : ReplyMode}
  {request : Request}
  {reads back : List (Event IoError)}
  {line : List Char}
  {after released : Reader}

theorem newline_not_mem_statusLine (head : Head) :
    '\n' ∉
      protocol ++ head.minor :: ' ' :: statusDigits head.status ++
        ' ' :: head.reason := by
  have digit : ∀ value < 10, '\n' ≠ Nat.digitChar value := by
    decide
  have minor : '\n' ≠ head.minor := by
    intro same
    have isDigit := head.minorDigit
    rw [← same] at isDigit
    exact absurd isDigit (by decide)
  obtain ⟨low, high⟩ := head.threeDigits
  have hundreds := digit (head.status / 100) (by omega)
  have tens := digit (head.status / 10 % 10) (by omega)
  have ones := digit (head.status % 10) (by omega)
  simp [protocol, statusDigits, minor, hundreds, tens, ones,
    head.oneLine.2]

/-- The status line of a head that is held is read. -/
theorem readTextLine_head
    {reader : Reader}
    {head : Head}
    {rest : List UInt8}
    (holds : Holds reader (head.bytes ++ rest) back) :
    ∃ after,
      readTextLine reader = (.ok head.statusLine, after) ∧
        Holds after
          (encodeUtf8 (head.fields.flatMap Field.line ++ crlf) ++ rest)
          back := by
  have split :
      head.bytes ++ rest =
        encodeUtf8 head.statusLine ++
          (encodeUtf8 (head.fields.flatMap Field.line ++ crlf) ++
            rest) := by
    simp [Head.bytes, encodeUtf8_append]
  rw [split] at holds
  exact readTextLine_spec holds (newline_not_mem_statusLine head)

theorem statusLine_ne_nil (head : Head) :
    head.statusLine ≠ [] := by
  simp [Head.statusLine, crlf]

/-- The response is read after the status line of its final head. -/
theorem statusLine?_response
    (response : Response request.method)
    (holds : Holds ⟨[], reads⟩ response.bytes back)
    (interims : InterimsRead request response.interims) :
    ∃ after,
      statusLine? request reads =
          some (response.head.statusLine, after) ∧
        Holds after
          (encodeUtf8
              (response.head.fields.flatMap Field.line ++ crlf) ++
            response.body.bytes)
          back := by
  rcases interims with none | ⟨waits, interim, one, isHundred, noFields⟩
  · rw [Response.bytes, none, List.flatMap_nil,
      List.nil_append] at holds
    obtain ⟨after, isLine, held⟩ := readTextLine_head holds
    refine ⟨after, ?_, held⟩
    have final : ¬ parseStatusCode response.head.statusLine = 100 := by
      rw [parseStatusCode_statusLine]
      have notInterim := response.final
      omega
    simp only [statusLine?, isLine, if_neg final,
      if_neg (statusLine_ne_nil response.head), ite_self]
  · rw [Response.bytes, one, List.flatMap_singleton,
      List.append_assoc] at holds
    obtain ⟨afterLine, isLine, lineHeld⟩ := readTextLine_head holds
    rw [noFields] at lineHeld
    have blank :
        Holds afterLine
          (encodeUtf8 ([] ++ crlf) ++
            (response.head.bytes ++ response.body.bytes)) back :=
      lineHeld
    obtain ⟨afterBlank, skipped, blankHeld⟩ :=
      skipLine_spec blank (by simp)
    obtain ⟨after, isNext, held⟩ := readTextLine_head blankHeld
    refine ⟨after, ?_, held⟩
    have hundred : parseStatusCode interim.statusLine = 100 := by
      rw [parseStatusCode_statusLine, isHundred]
    simp only [statusLine?, isLine, waits, if_true, if_pos hundred,
      skipped, Option.map_some, isNext]

/-- A response that is framed alike leaves the connection at its end. -/
theorem released_of_framed
    (response : Response request.method)
    (holds : Holds ⟨[], reads⟩ response.bytes back)
    (isFramed : FramedResponse mode request response)
    (isLine : statusLine? request reads = some (line, after))
    (isReleased : Released mode line after released) :
    released = ⟨[], back⟩ := by
  obtain ⟨start, isStart, held⟩ :=
    statusLine?_response response holds isFramed.interims
  rw [isStart] at isLine
  obtain ⟨rfl, rfl⟩ := Prod.mk.inj (Option.some.inj isLine)
  exact released_of_readsBody response.head response.body held
    isFramed.few isFramed.body isReleased

/-- A silence before its end leaves the connection with the request. -/
theorem not_released_of_unfinished
    (response : Response request.method)
    {sent missing : List UInt8}
    {later : List (Event IoError)}
    (holds : Holds ⟨[], reads⟩ sent (.stall :: later))
    (isSent : sent ++ missing = response.bytes)
    (incomplete : missing ≠ [])
    (isFramed : FramedResponse mode request response)
    (isLine : statusLine? request reads = some (line, after)) :
    ¬ Released mode line after released := by
  intro isReleased
  obtain ⟨front, isFront, allData, isBytes⟩ := holds
  obtain rfl : reads = front ++ .stall :: later := isFront
  -- Let the upstream go on with the rest of the response instead.
  have whole :
      Holds ⟨[], front ++ Event.ofBytes missing⟩ response.bytes
        ([] : List (Event IoError)) := by
    refine ⟨front ++ Event.ofBytes missing, by simp, ?_, ?_⟩
    · intro event member
      rcases List.mem_append.mp member with inFront | inMissing
      · exact allData event inFront
      · exact isData_of_mem_ofBytes inMissing
    · rw [← isSent, ← isBytes, List.flatMap_append, flatMap_ofBytes]
      simp
  obtain ⟨next, alsoLine, agree⟩ := statusLine?_agree isLine
  obtain ⟨ends, alsoReleased, -, rest, -, isRest⟩ :=
    isReleased.agree agree
  have atEnd := released_of_framed response whole isFramed alsoLine
    alsoReleased
  rw [atEnd] at isRest
  have nothing := (List.append_eq_nil_iff.mp isRest.symm).2
  cases missing with
  | nil =>
      exact incomplete rfl
  | cons byte others =>
      cases nothing

/-- The source brings one response, and then what is left of it. -/
def ReadsOne (method : String) (reads left : List (Event IoError)) : Prop :=
  ∃ answer,
    IsResponse method answer ∧
      reads.flatMap Event.bytes = answer ++ left.flatMap Event.bytes

/-- A stream that is framed alike is aligned when it is handed back. -/
theorem readsOne_of_framedAlike
    (alike : FramedAlike mode request reads)
    (isLine : statusLine? request reads = some (line, after))
    (isReleased : Released mode line after released) :
    ReadsOne request.method reads released.reads := by
  cases alike with
  | notReused never =>
      exact absurd isReleased
        (not_released_of_neverReused fun head afterHead =>
          never line after head afterHead isLine)
  | framed response back holds isFramed =>
      obtain rfl :=
        released_of_framed response holds isFramed isLine isReleased
      obtain ⟨front, isFront, _, isBytes⟩ := holds
      refine ⟨response.bytes, ⟨response, rfl⟩, ?_⟩
      rw [← isBytes, show reads = front ++ back from isFront,
        List.flatMap_append]
      rfl
  | unfinished response sent missing later holds isSent incomplete
      isFramed =>
      exact absurd isReleased
        (not_released_of_unfinished response holds isSent incomplete
          isFramed isLine)

end Alike

/-! ## One attempt -/

/-- The connection an attempt hands back is aligned. -/
theorem readsOne_of_attempt
    {mode : ReplyMode}
    {writeTimeout : Nat}
    {request : Request}
    {body : RequestBody}
    {allowRetry : Bool}
    {conn after : Conn}
    {reply : Reply}
    {released : Reader}
    (alike : FramedAlike mode request conn.reads)
    (attempt :
      sendRecvPooled mode writeTimeout request body allowRetry
          conn.handedOver =
        (.ok reply (some released), after)) :
    ReadsOne request.method conn.reads released.reads := by
  rcases Conn.writeEach_cases [request.head, []] conn.handedOver with
      ⟨_, accepts⟩ | ⟨notDone, _⟩
  · rw [sendRecvPooled_of_head_written mode writeTimeout request body
      allowRetry accepts] at attempt
    have isOk := congrArg Prod.fst attempt
    obtain ⟨line, afterLine, isLine, isReleased⟩ :=
      released_of_sendBody isOk
    exact readsOne_of_framedAlike alike isLine isReleased
  · obtain ⟨error, refused⟩ :
        ∃ error,
          sendRecvPooled mode writeTimeout request body allowRetry
              conn.handedOver =
            (.failed error false, _) :=
      sendRecvPooled_of_head_refused (Prod.eta _).symm notDone
    rw [refused] at attempt
    cases (Prod.mk.inj attempt).1

end Sweety.ForwardRequest
