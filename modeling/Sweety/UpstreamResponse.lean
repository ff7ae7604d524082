import Sweety.HttpText
import Sweety.RetryPolicy
import Sweety.SegmentedReader

namespace Sweety.UpstreamResponse

open HttpText SegmentedReader

/-!
# Reading an upstream's HTTP/1 response

Model of the reading half of `send_recv_pooled` in
`handler/reverse_proxy/conn.rs`: the status line, the header loop, the body on
the buffered path and the body on the streaming path, and which of these ends
hand the connection back to the pool.  The text of a response is read through a
`BufReader`; handing the connection back takes the connection out of the reader
and drops what the buffer still holds.

A read without timeout that is never answered leaves the function waiting for
ever; this is the outcome `hang`.  The rewriting of headers and bodies after the
response has been read is not part of this model.
-/

/-- A `BufReader` around the connection. -/
abbrev Reader :=
  SegmentedReader.Reader IoError

/-- How `read_line` ends; an error leaves the text read before it. -/
inductive LineText where
  | ok (line : List Char)
  | error (error : IoError) (before : List Char)
  | stall
  deriving Repr, DecidableEq

/-- The error of a line that is not UTF-8. -/
def invalidUtf8 : IoError :=
  ⟨.other, "stream did not contain valid UTF-8"⟩

/-- `read_line`. -/
def readTextLine (reader : Reader) : LineText × Reader :=
  match readLine [] reader with
  | (.ok bytes, after) =>
      match decodeUtf8 bytes with
      | some line =>
          (.ok line, after)
      | none =>
          (.error invalidUtf8 [], after)
  | (.error error before, after) =>
      (.error error ((decodeUtf8 before).getD []), after)
  | (.stall, after) =>
      (.stall, after)

/-- A line that was read takes something off what is pending. -/
theorem pending_readTextLine_lt
    {reader after : Reader}
    {line : List Char}
    (isLine : readTextLine reader = (.ok line, after))
    (nonempty : line ≠ []) :
    pending after < pending reader := by
  unfold readTextLine at isLine
  obtain ⟨_, withLine⟩ := pending_readLine_le [] reader
  split at isLine
  · rename_i bytes rest isRead
    split at isLine
    · rename_i decoded isText
      obtain ⟨sameLine, rfl⟩ := Prod.mk.inj isLine
      obtain rfl := LineText.ok.inj sameLine
      have bound := withLine bytes (by rw [isRead])
      have someBytes : 0 < bytes.length := by
        cases bytes with
        | nil =>
            have empty : decodeUtf8 [] = some [] :=
              decodeUtf8_encodeUtf8 []
            rw [empty] at isText
            exact absurd (Option.some.inj isText).symm nonempty
        | cons byte others =>
            exact Nat.succ_pos others.length
      rw [isRead] at bound
      simp only [List.length_nil] at bound
      omega
    · cases isLine
  · cases isLine
  · cases isLine

theorem pending_readTextLine_le (reader : Reader) :
    pending (readTextLine reader).2 ≤ pending reader := by
  have less := (pending_readLine_le [] reader).1
  unfold readTextLine
  split
  · rename_i isRead
    rw [isRead] at less
    split <;> exact less
  · rename_i isRead
    rw [isRead] at less
    exact less
  · rename_i isRead
    rw [isRead] at less
    exact less

/-! ## The head -/

/-- `parse_status_code`. -/
def parseStatusCode (statusLine : List Char) : Nat :=
  ((splitWhitespace statusLine)[1]?.bind parseU16?).getD 502

/-- `StatusCode::from_u16(code).unwrap_or(StatusCode::OK)`. -/
def statusFromU16 (code : Nat) : Nat :=
  if 100 ≤ code ∧ code < 1000 then
    code
  else
    200

/-- `no_body_status`. -/
def noBodyStatus (status : Nat) : Bool :=
  status == 304 || status == 204 || status == 205 ||
    decide (100 ≤ status ∧ status < 200)

/-- What the header loop collects. -/
structure ResponseHead where
  contentLength : Option Nat
  isChunked : Bool
  connClose : Bool
  hasTrailer : Bool
  headers : List (List Char × List Char)
  headerCount : Nat
  deriving Repr, DecidableEq

/-- Before the first header; HTTP/1.0 closes by default. -/
def ResponseHead.start (http10 : Bool) : ResponseHead where
  contentLength := none
  isChunked := false
  connClose := http10
  hasTrailer := false
  headers := []
  headerCount := 0

/-- `RESP_MAX_HEADERS`. -/
def respMaxHeaders : Nat := 200

/-- `RESP_MAX_LINE_LEN`. -/
def respMaxLineLen : Nat := 16384

/--
The body of the header loop for a trimmed line; one without `:` is dropped.
-/
def ResponseHead.addLine
    (trimmed : List Char)
    (head : ResponseHead) :
    ResponseHead :=
  match splitOnce? ':' trimmed with
  | none =>
      head
  | some (before, after) =>
      let name := trim before
      let value := trim after
      { contentLength :=
          if eqIgnoreAsciiCase name "content-length".toList then
            parseUsize? value
          else
            head.contentLength
        isChunked :=
          head.isChunked ||
            (eqIgnoreAsciiCase name "transfer-encoding".toList &&
              contains (toAsciiLowercase value) "chunked".toList)
        connClose :=
          head.connClose ||
            (eqIgnoreAsciiCase name "connection".toList &&
              contains (toAsciiLowercase value) "close".toList)
        hasTrailer :=
          head.hasTrailer ||
            eqIgnoreAsciiCase name "trailer".toList
        headers := head.headers ++ [(name, value)]
        headerCount := head.headerCount + 1 }

/-- How the header loop ends. -/
inductive HeadResult where
  | ok (head : ResponseHead)
  | failed (error : IoError)
  | hang
  deriving Repr, DecidableEq

/-- The header loop. -/
def readHeaders
    (head : ResponseHead)
    (reader : Reader) :
    HeadResult × Reader :=
  if respMaxHeaders ≤ head.headerCount then
    (.ok head, reader)
  else
    match _isLine : readTextLine reader with
    | (.ok line, after) =>
        if _long : respMaxLineLen < byteLength line then
          readHeaders
            { head with headerCount := head.headerCount + 1 } after
        else if _blank : trim line = [] then
          (.ok head, after)
        else
          readHeaders (head.addLine (trim line)) after
    | (.error error _, after) =>
        if error.kind = .unexpectedEof then
          (.ok head, after)
        else
          (.failed error, after)
    | (.stall, after) =>
        (.hang, after)
  termination_by pending reader
  decreasing_by
    · apply pending_readTextLine_lt (by assumption)
      rintro rfl
      exact absurd _long (by decide)
    · apply pending_readTextLine_lt (by assumption)
      rintro rfl
      exact _blank rfl

/-- The header loop without the equations its recursion rests on. -/
theorem readHeaders_eq
    (head : ResponseHead)
    (reader : Reader) :
    readHeaders head reader =
      if respMaxHeaders ≤ head.headerCount then
        (.ok head, reader)
      else
        match readTextLine reader with
        | (.ok line, after) =>
            if respMaxLineLen < byteLength line then
              readHeaders
                { head with headerCount := head.headerCount + 1 } after
            else if trim line = [] then
              (.ok head, after)
            else
              readHeaders (head.addLine (trim line)) after
        | (.error error _, after) =>
            if error.kind = .unexpectedEof then
              (.ok head, after)
            else
              (.failed error, after)
        | (.stall, after) =>
            (.hang, after) := by
  rw [readHeaders]
  simp only [dite_eq_ite]
  split
  · rfl
  · split <;> simp only [*]

/-! ## Bodies on the buffered path -/

/-- How reading a body ends. -/
inductive BodyResult where
  | ok (body : List UInt8) (trailers : List (List Char × List Char))
  | failed (error : IoError)
  | hang
  deriving Repr, DecidableEq

/-- `BUFFERED_MAX_BODY`. -/
def bufferedMaxBody : Nat := 256 * 2 ^ 20

/-- `CHUNKED_MAX_BODY`. -/
def chunkedMaxBody : Nat := 256 * 2 ^ 20

/-- `CHUNKED_MAX_CHUNK`. -/
def chunkedMaxChunk : Nat := 64 * 2 ^ 20

/-- `CHUNKED_MAX_TRAILERS`. -/
def chunkedMaxTrailers : Nat := 100

/-- The longest chunk size line that is accepted. -/
def maxSizeLine : Nat := 64

/-- `let _ = buf.read_line(..)`: the line is dropped, and errors with it. -/
def skipLine (reader : Reader) : Option Reader :=
  match readTextLine reader with
  | (.stall, _) =>
      none
  | (_, after) =>
      some after

theorem pending_skipLine_le
    {reader after : Reader}
    (skipped : skipLine reader = some after) :
    pending after ≤ pending reader := by
  have less := pending_readTextLine_le reader
  unfold skipLine at skipped
  split at skipped
  · cases skipped
  · rename_i isRead
    obtain rfl := Option.some.inj skipped
    rw [isRead] at less
    exact less

/-- The chunk size a size line announces; what does not parse counts as 0. -/
def chunkSize (sizeLine : List Char) : Nat :=
  (parseHex? ((trim sizeLine).takeWhile (· != ';'))).getD 0

/-- The trailer loop of `read_chunked_body`; `none` if it waits for ever. -/
def readTrailers
    (trailers : List (List Char × List Char))
    (reader : Reader) :
    Option (List (List Char × List Char)) × Reader :=
  if chunkedMaxTrailers ≤ trailers.length then
    (some trailers, reader)
  else
    match _isLine : readTextLine reader with
    | (.ok line, after) =>
        if _blank : trim line = [] then
          (some trailers, after)
        else
          match splitOnce? ':' (trim line) with
          | none =>
              readTrailers trailers after
          | some (name, value) =>
              readTrailers (trailers ++ [(trim name, trim value)]) after
    | (.error _ _, after) =>
        (some trailers, after)
    | (.stall, after) =>
        (none, after)
  termination_by pending reader
  decreasing_by
    all_goals
      apply pending_readTextLine_lt (by assumption)
      rintro rfl
      exact _blank rfl

/-- The trailer loop without the equations its recursion rests on. -/
theorem readTrailers_eq
    (trailers : List (List Char × List Char))
    (reader : Reader) :
    readTrailers trailers reader =
      if chunkedMaxTrailers ≤ trailers.length then
        (some trailers, reader)
      else
        match readTextLine reader with
        | (.ok line, after) =>
            if trim line = [] then
              (some trailers, after)
            else
              match splitOnce? ':' (trim line) with
              | none =>
                  readTrailers trailers after
              | some (name, value) =>
                  readTrailers (trailers ++ [(trim name, trim value)])
                    after
        | (.error _ _, after) =>
            (some trailers, after)
        | (.stall, after) =>
            (none, after) := by
  rw [readTrailers]
  simp only [dite_eq_ite]
  split
  · rfl
  · split
    all_goals
      rename_i isLine
      rw [isLine]

/-- The end of a chunked body, after its 0-chunk. -/
def readChunkedEnd
    (collectTrailers : Bool)
    (body : List UInt8)
    (reader : Reader) :
    BodyResult × Reader :=
  if collectTrailers then
    match readTrailers [] reader with
    | (some trailers, after) =>
        (.ok body trailers, after)
    | (none, after) =>
        (.hang, after)
  else
    match skipLine reader with
    | some after =>
        (.ok body [], after)
    | none =>
        (.hang, reader)

/-- `read_chunked_body`, with the body read so far. -/
def readChunkedBody
    (collectTrailers : Bool)
    (body : List UInt8)
    (reader : Reader) :
    BodyResult × Reader :=
  match _isLine : readTextLine reader with
  | (.ok line, after) =>
      if _ended : line = [] then
        (.ok body [], after)
      else if maxSizeLine < byteLength line then
        (.ok body [], after)
      else if _last : chunkSize line = 0 then
        readChunkedEnd collectTrailers body after
      else if chunkedMaxChunk < chunkSize line ∨
          chunkedMaxBody < body.length + chunkSize line then
        (.ok body [], after)
      else
        -- A chunk that the stream cuts short is kept as far as it goes.
        match _isData : readLoop (chunkSize line) (chunkSize line) []
            after with
        | (.error error bytes, afterData) =>
            if error.kind = .unexpectedEof then
              match _skipped : skipLine afterData with
              | some next =>
                  readChunkedBody collectTrailers (body ++ bytes) next
              | none =>
                  (.hang, afterData)
            else
              (.failed error, afterData)
        | (.full bytes, afterData) | (.eof bytes, afterData) =>
            match _skipped : skipLine afterData with
            | some next =>
                readChunkedBody collectTrailers (body ++ bytes) next
            | none =>
                (.hang, afterData)
        | (.stall _, afterData) =>
            (.hang, afterData)
  | (.error _ _, after) =>
      (.ok body [], after)
  | (.stall, after) =>
      (.hang, after)
  termination_by pending reader
  decreasing_by
    all_goals
      have dataRead :=
        pending_readLoop_le (Nat.pos_of_ne_zero _last)
          (chunkSize line) [] after
      rw [_isData] at dataRead
      exact Nat.lt_of_le_of_lt
        (Nat.le_trans (pending_skipLine_le _skipped) dataRead)
        (pending_readTextLine_lt _isLine _ended)

/-- `read_chunked_body` without the equations its recursion rests on. -/
theorem readChunkedBody_eq
    (collectTrailers : Bool)
    (body : List UInt8)
    (reader : Reader) :
    readChunkedBody collectTrailers body reader =
      match readTextLine reader with
      | (.ok line, after) =>
          if line = [] then
            (.ok body [], after)
          else if maxSizeLine < byteLength line then
            (.ok body [], after)
          else if chunkSize line = 0 then
            readChunkedEnd collectTrailers body after
          else if chunkedMaxChunk < chunkSize line ∨
              chunkedMaxBody < body.length + chunkSize line then
            (.ok body [], after)
          else
            match readLoop (chunkSize line) (chunkSize line) []
                after with
            | (.error error bytes, afterData) =>
                if error.kind = .unexpectedEof then
                  match skipLine afterData with
                  | some next =>
                      readChunkedBody collectTrailers (body ++ bytes)
                        next
                  | none =>
                      (.hang, afterData)
                else
                  (.failed error, afterData)
            | (.full bytes, afterData) | (.eof bytes, afterData) =>
                match skipLine afterData with
                | some next =>
                    readChunkedBody collectTrailers (body ++ bytes) next
                | none =>
                    (.hang, afterData)
            | (.stall _, afterData) =>
                (.hang, afterData)
      | (.error _ _, after) =>
          (.ok body [], after)
      | (.stall, after) =>
          (.hang, after) := by
  rw [readChunkedBody]
  simp only [dite_eq_ite]
  split
  · rename_i isLine
    simp only [isLine]
    split
    · rfl
    · split
      · rfl
      · split
        · rfl
        · split
          · rfl
          · split
            · rename_i isData
              simp only [isData]
              split
              · split <;> simp only [*]
              · rfl
            · rename_i isData
              simp only [isData]
              split <;> simp only [*]
            · rename_i isData
              simp only [isData]
              split <;> simp only [*]
            · simp only [*]
  · simp only [*]
  · simp only [*]

/-- `read_exact_body`. -/
def readExactBody
    (len : Nat)
    (reader : Reader) :
    BodyResult × Reader :=
  match readLoop 65536 (min len bufferedMaxBody) [] reader with
  | (.full bytes, after) | (.eof bytes, after) =>
      (.ok bytes [], after)
  | (.error error bytes, after) =>
      if error.kind = .unexpectedEof then
        (.ok bytes [], after)
      else
        (.failed error, after)
  | (.stall _, after) =>
      (.hang, after)

/-- The loop for a body that ends with the connection; `none` if it waits. -/
def readToEnd
    (body : List UInt8)
    (reader : Reader) :
    Option (List UInt8) × Reader :=
  match _isRead : read 65536 reader with
  | (.ok [], after) =>
      (some body, after)
  | (.ok (first :: others), after) =>
      if bufferedMaxBody < (body ++ first :: others).length then
        (some (body ++ first :: others), after)
      else
        readToEnd (body ++ first :: others) after
  | (.error _, after) =>
      (some body, after)
  | (.stall, after) =>
      (none, after)
  termination_by pending reader
  decreasing_by
    have less := pending_read_le (by decide : 0 < 65536) reader
    rw [_isRead] at less
    simp only [Result.length, List.length_cons] at less
    omega

/-! ## Bodies on the streaming path -/

/-- What a streaming task sends to the client, piece by piece. -/
abbrev Pieces :=
  List (Except IoError (List UInt8))

/-- How a streaming task ends: with its `ok` flag, or waiting for ever. -/
inductive StreamEnd where
  | ended (ok : Bool)
  | hang
  deriving Repr, DecidableEq

/-- `STREAM_CHUNKED_MAX_CHUNK`. -/
def streamChunkedMaxChunk : Nat := 16 * 1024 * 1024

/-- `STREAM_CHUNK`. -/
def streamChunk : Nat := 32 * 1024

/-- The error sent to the client when the upstream falls silent. -/
def bodyTimeout : IoError :=
  ⟨.other, "上游响应体读取超时"⟩

/--
The task for a chunked body.  `receives n` says whether the client still takes
the piece after `n` others.
-/
def streamChunked
    (receives : Nat → Bool)
    (pieces : Pieces)
    (reader : Reader) :
    Pieces × StreamEnd × Reader :=
  match _isLine : readTextLine reader with
  | (.ok line, after) =>
      if _ended : line = [] then
        (pieces, .ended false, after)
      else if maxSizeLine < byteLength line then
        (pieces, .ended false, after)
      else if streamChunkedMaxChunk < chunkSize line then
        (pieces, .ended false, after)
      else if _last : chunkSize line = 0 then
        match skipLine after with
        | some next =>
            (pieces, .ended true, next)
        | none =>
            (pieces, .hang, after)
      else
        match _isData : readLoop (chunkSize line) (chunkSize line) []
            after with
        | (.full bytes, afterData) =>
            if receives pieces.length then
              match _isCrlf : readLoop 2 2 [] afterData with
              | (.stall _, next) =>
                  (pieces ++ [.ok bytes], .hang, next)
              | (_, next) =>
                  streamChunked receives (pieces ++ [.ok bytes]) next
            else
              (pieces, .ended false, afterData)
        | (.eof _, afterData) =>
            (pieces, .ended false, afterData)
        | (.error error _, afterData) =>
            if error.kind = .unexpectedEof then
              (pieces, .ended false, afterData)
            else
              (pieces ++ [.error error], .ended false, afterData)
        | (.stall _, afterData) =>
            (pieces ++ [.error bodyTimeout], .ended false, afterData)
  | (.error _ _, after) =>
      (pieces, .ended false, after)
  | (.stall, after) =>
      (pieces, .ended false, after)
  termination_by pending reader
  decreasing_by
    have dataRead :=
      pending_readLoop_le (Nat.pos_of_ne_zero _last)
        (chunkSize line) [] after
    have crlfRead :=
      pending_readLoop_le (by decide : 0 < 2) 2 [] afterData
    rw [_isData] at dataRead
    rw [_isCrlf] at crlfRead
    exact Nat.lt_of_le_of_lt
      (Nat.le_trans crlfRead dataRead)
      (pending_readTextLine_lt _isLine _ended)

/-- The task for chunks without the equations its recursion rests on. -/
theorem streamChunked_eq
    (receives : Nat → Bool)
    (pieces : Pieces)
    (reader : Reader) :
    streamChunked receives pieces reader =
      match readTextLine reader with
      | (.ok line, after) =>
          if line = [] then
            (pieces, .ended false, after)
          else if maxSizeLine < byteLength line then
            (pieces, .ended false, after)
          else if streamChunkedMaxChunk < chunkSize line then
            (pieces, .ended false, after)
          else if chunkSize line = 0 then
            match skipLine after with
            | some next =>
                (pieces, .ended true, next)
            | none =>
                (pieces, .hang, after)
          else
            match readLoop (chunkSize line) (chunkSize line) []
                after with
            | (.full bytes, afterData) =>
                if receives pieces.length then
                  match readLoop 2 2 [] afterData with
                  | (.stall _, next) =>
                      (pieces ++ [.ok bytes], .hang, next)
                  | (_, next) =>
                      streamChunked receives (pieces ++ [.ok bytes])
                        next
                else
                  (pieces, .ended false, afterData)
            | (.eof _, afterData) =>
                (pieces, .ended false, afterData)
            | (.error error _, afterData) =>
                if error.kind = .unexpectedEof then
                  (pieces, .ended false, afterData)
                else
                  (pieces ++ [.error error], .ended false, afterData)
            | (.stall _, afterData) =>
                (pieces ++ [.error bodyTimeout], .ended false,
                  afterData)
      | (.error _ _, after) =>
          (pieces, .ended false, after)
      | (.stall, after) =>
          (pieces, .ended false, after) := by
  rw [streamChunked]
  simp only [dite_eq_ite]
  split
  · rename_i isLine
    simp only [isLine]
    split
    · rfl
    · split
      · rfl
      · split
        · rfl
        · split
          · rfl
          · split
            · rename_i isData
              simp only [isData]
              split
              · split <;> simp only [*]
              · rfl
            all_goals
              rename_i isData
              simp only [isData]
  · simp only [*]
  · simp only [*]

/-- The task for a body of `remaining` bytes, or up to the end. -/
def streamLength
    (receives : Nat → Bool)
    (remaining : Nat)
    (pieces : Pieces)
    (reader : Reader) :
    Pieces × StreamEnd × Reader :=
  if remaining = 0 then
    (pieces, .ended true, reader)
  else
    match read (min remaining streamChunk) reader with
    | (.ok [], after) =>
        (pieces, .ended true, after)
    | (.ok (first :: others), after) =>
        if receives pieces.length then
          streamLength receives (remaining - (others.length + 1))
            (pieces ++ [.ok (first :: others)]) after
        else
          (pieces, .ended false, after)
    | (.error error, after) =>
        (pieces ++ [.error error], .ended false, after)
    | (.stall, after) =>
        (pieces ++ [.error bodyTimeout], .ended false, after)
  termination_by remaining
  decreasing_by omega

/-! ## The whole response after its head -/

/-- The body of the response to the client. -/
inductive ReplyBody where
  | none
  | whole (bytes : List UInt8)
  | streamed (pieces : Pieces)
  deriving Repr, DecidableEq

/-- The response to the client, as the upstream sent it. -/
structure Reply where
  status : Nat
  headers : List (List Char × List Char)
  body : ReplyBody
  trailers : List (List Char × List Char)
  deriving Repr, DecidableEq

/--
How reading the rest of a response ends.  The connection is handed back to the
pool as it stands in the reader, at once or when the streaming task is done.
-/
inductive ReplyResult where
  | reply (reply : Reply) (released : Option Reader)
  | failed (error : IoError)
  | hang
  deriving Repr, DecidableEq

/-- Hand the connection back if `reuse` holds. -/
def releaseIf (reuse : Bool) (reader : Reader) : Option Reader :=
  if reuse then
    some reader
  else
    none

/-- The streaming path. -/
def streamReply
    (receives : Nat → Bool)
    (status : Nat)
    (head : ResponseHead)
    (reader : Reader) :
    ReplyResult :=
  if head.isChunked then
    let (pieces, ending, after) := streamChunked receives [] reader
    .reply ⟨status, head.headers, .streamed pieces, []⟩
      (releaseIf (ending == .ended true && !head.connClose) after)
  else
    let (pieces, ending, after) :=
      streamLength receives (head.contentLength.getD (2 ^ 64 - 1)) []
        reader
    .reply ⟨status, head.headers, .streamed pieces, []⟩
      (releaseIf
        (ending == .ended true && head.contentLength.isSome &&
          !head.connClose)
        after)

/-- The buffered path. -/
def bufferedReply
    (status : Nat)
    (head : ResponseHead)
    (reader : Reader) :
    ReplyResult :=
  let finish (result : BodyResult × Reader) : ReplyResult :=
    match result with
    | (.ok body trailers, after) =>
        .reply ⟨status, head.headers, .whole body, trailers⟩
          (releaseIf (!head.connClose) after)
    | (.failed error, _) =>
        .failed error
    | (.hang, _) =>
        .hang
  if head.isChunked then
    finish (readChunkedBody head.hasTrailer [] reader)
  else
    match head.contentLength with
    | some len =>
        finish (readExactBody len reader)
    | none =>
        match readToEnd [] reader with
        | (some body, _) =>
            .reply ⟨status, head.headers, .whole body, []⟩ none
        | (none, _) =>
            .hang

/-- The configuration of a location that decides how a response is read. -/
structure ReplyMode where
  /-- `!proxy_buffering && sub_filter.is_empty() && proxy_cache.is_none()`. -/
  streaming : Bool
  /-- Whether the client still takes the piece after so many others. -/
  receives : Nat → Bool

/-- Everything after the status line. -/
def readReply
    (mode : ReplyMode)
    (statusLine : List Char)
    (reader : Reader) :
    ReplyResult :=
  let http10 := "HTTP/1.0".toList.isPrefixOf statusLine
  let status := statusFromU16 (parseStatusCode statusLine)
  match readHeaders (ResponseHead.start http10) reader with
  | (.ok head, after) =>
      if noBodyStatus status then
        .reply ⟨status, head.headers, .none, []⟩
          (releaseIf (!head.connClose) after)
      else if mode.streaming then
        streamReply mode.receives status head after
      else
        bufferedReply status head after
  | (.failed error, _) =>
      .failed error
  | (.hang, _) =>
      .hang

end Sweety.UpstreamResponse
