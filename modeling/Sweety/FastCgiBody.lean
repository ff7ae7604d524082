import Sweety.FastCgi
import Sweety.ProxyResponse

namespace Sweety.FastCgi

open HttpText SegmentedReader UpstreamResponse

/-!
# The rest of a FastCGI response

Model of `build_streaming_response` in `handler/fastcgi/response.rs` and of
`parse_fcgi_headers` in `handler/fastcgi/proto.rs`: the text of the headers is
parsed, the body is collected up to a limit or streamed beyond it, and what was
collected is stored in the cache.  `read_fcgi_conn` reads a record as
`read_fcgi_from_stream` does.

Which headers `HeaderName::from_bytes` and `HeaderValue::from_bytes` accept is
decided outside of this program, so it is a parameter.
-/

/-- `FCGI_STDERR`. -/
def stderrType : UInt8 := 7

/-! ## The text of the headers -/

/-- What follows `Status:` or `status:` in a line. -/
def afterStatus? (line : List Char) : Option (List Char) :=
  if "Status:".toList.isPrefixOf line || "status:".toList.isPrefixOf line then
    some (line.drop 7)
  else
    none

/-- The loop body of `parse_fcgi_headers`. -/
def parseFcgiLine
    (parsed : Nat × List (List Char × List Char))
    (line : List Char) :
    Nat × List (List Char × List Char) :=
  let line := trim line
  if line = [] then
    parsed
  else
    match afterStatus? line with
    | some rest =>
        match (splitWhitespace (trim rest)).head? with
        | some code =>
            ((parseU16? code).getD 200, parsed.2)
        | none =>
            parsed
    | none =>
        match splitOnce? ':' line with
        | some (name, value) =>
            (parsed.1, parsed.2 ++ [(trim name, trim value)])
        | none =>
            parsed

/-- `parse_fcgi_headers`. -/
def parseFcgiHeaders (text : List Char) :
    Nat × List (List Char × List Char) :=
  (lines text).foldl parseFcgiLine (200, [])

namespace FcgiParsedHeaders

variable (parsed : FcgiParsedHeaders)

/-- The field `status`. -/
def status : Nat :=
  (parseFcgiHeaders (fromUtf8Lossy parsed.headerText)).1

/-- The field `headers`. -/
def headers : List (List Char × List Char) :=
  (parseFcgiHeaders (fromUtf8Lossy parsed.headerText)).2

end FcgiParsedHeaders

/-! ## The response -/

/-- The response to the client. -/
structure FcgiResponse where
  status : Nat
  headers : ResponseHeaders
  body : ReplyBody

/-- What the response is made with. -/
structure FcgiContext where
  /-- `fcgi_cache`, where there is a key too. -/
  cache : Option ProxyCache
  /-- The header is one that the response can carry. -/
  valid : List Char × List Char → Bool
  /-- Whether the client still takes the piece after so many others. -/
  receives : Nat → Bool

namespace FcgiContext

variable (context : FcgiContext)

/-- The headers that the response can carry. -/
def passHeaders (headers : List (List Char × List Char)) :
    ResponseHeaders :=
  headers.foldl
    (fun passed header =>
      if context.valid header then
        MultiMap.append (toAsciiLowercase header.1) header.2 passed
      else
        passed)
    ∅

/-- The same, with a `Content-Type` if there was none. -/
def typedHeaders (headers : List (List Char × List Char)) :
    ResponseHeaders :=
  if headers.any fun header =>
      eqIgnoreAsciiCase header.1 "content-type".toList then
    context.passHeaders headers
  else
    MultiMap.insert "content-type".toList
      "text/html; charset=utf-8".toList (context.passHeaders headers)

/-- `make_complete_response`. -/
def makeCompleteResponse
    (code : Nat)
    (headers : List (List Char × List Char))
    (body : List UInt8) :
    FcgiResponse :=
  let status := statusFromU16 code
  if noBodyStatus status then
    ⟨status, context.passHeaders headers, .none⟩
  else
    ⟨status,
      MultiMap.insert "content-length".toList (toDecimal body.length)
        (context.typedHeaders headers),
      .whole body⟩

/-- The response of `stream_remaining`, with what its task sends. -/
def makeStreamedResponse
    (code : Nat)
    (headers : List (List Char × List Char))
    (pieces : Pieces) :
    FcgiResponse :=
  let status := statusFromU16 code
  if noBodyStatus status then
    ⟨status, context.passHeaders headers, .none⟩
  else
    ⟨status, context.typedHeaders headers, .streamed pieces⟩

/-- `write_fcgi_cache`. -/
def writeFcgiCache
    (code : Nat)
    (headers : List (List Char × List Char))
    (body : List UInt8) :
    Option CachedResponse :=
  match context.cache with
  | none =>
      none
  | some cache =>
      if cache.isCacheable code headers then
        some ⟨code, headers, body⟩
      else
        none

end FcgiContext

/-! ## The body -/

/-- The body from which on it is streamed. -/
def collectLimit : Nat := 4 * 1024 * 1024

/-- How the loop of `build_streaming_response` ends. -/
inductive Collected where
  | whole (body : List UInt8) (after : List (Event IoError))
  | large (body : List UInt8) (after : List (Event IoError))
  | stall
  deriving Repr, DecidableEq

/-- The loop of `build_streaming_response`, with the body so far. -/
def collectBody
    (body : List UInt8)
    (reads : List (Event IoError)) :
    Collected :=
  match _isRecord : readFcgiFromStream reads with
  | (.ok record, after) =>
      if record.recType = stdoutType then
        if record.data = [] then
          .whole body after
        else if collectLimit < (body ++ record.data).length then
          .large (body ++ record.data) after
        else
          collectBody (body ++ record.data) after
      else if record.recType = stderrType then
        collectBody body after
      else
        .whole body after
  | (.failed _, after) =>
      .whole body after
  | (.stall, _) =>
      .stall
  termination_by weight reads
  decreasing_by
    all_goals exact weight_readFcgiFromStream_lt (by assumption)

/-- The loop of the task of `stream_remaining`. -/
def streamRecords
    (receives : Nat → Bool)
    (pieces : Pieces)
    (reads : List (Event IoError)) :
    Pieces × StreamEnd × List (Event IoError) :=
  match _isRecord : readFcgiFromStream reads with
  | (.ok record, after) =>
      if record.recType = stdoutType then
        if record.data = [] then
          (pieces, .ended true, after)
        else if receives pieces.length then
          streamRecords receives (pieces ++ [.ok record.data]) after
        else
          (pieces, .ended false, after)
      else if record.recType = stderrType then
        streamRecords receives pieces after
      else
        (pieces, .ended true, after)
  | (.failed error, after) =>
      (pieces ++ [.error error], .ended false, after)
  | (.stall, after) =>
      (pieces, .hang, after)
  termination_by weight reads
  decreasing_by
    all_goals exact weight_readFcgiFromStream_lt (by assumption)

/-- The task of `stream_remaining`. -/
def streamRemaining
    (receives : Nat → Bool)
    (initial : List UInt8)
    (reads : List (Event IoError)) :
    Pieces × StreamEnd × List (Event IoError) :=
  if initial = [] then
    streamRecords receives [] reads
  else if receives 0 then
    streamRecords receives [.ok initial] reads
  else
    ([], .ended false, reads)

/--
How a request ends on a connection whose records are read: `released` is what
the connection still holds when it is handed back to the pool.
-/
inductive FcgiResult where
  | response
      (response : FcgiResponse)
      (stored : Option CachedResponse)
      (released : Option (List (Event IoError)))
  | failed (error : IoError)
  | timedOut

namespace FcgiContext

variable (context : FcgiContext)

/-- The end of `build_streaming_response` for a body that was collected. -/
def finish
    (parsed : FcgiParsedHeaders)
    (body : List UInt8)
    (reads : List (Event IoError)) :
    FcgiResult :=
  .response (context.makeCompleteResponse parsed.status parsed.headers body)
    (context.writeFcgiCache parsed.status parsed.headers body)
    (some reads)

/-- `build_streaming_response`, under its timeout. -/
def buildStreamingResponse
    (parsed : FcgiParsedHeaders)
    (reads : List (Event IoError)) :
    FcgiResult :=
  if parsed.bodyDone then
    context.finish parsed parsed.bodyPrefix reads
  else
    match collectBody parsed.bodyPrefix reads with
    | .whole body after =>
        context.finish parsed body after
    | .large body after =>
        let (pieces, ending, rest) :=
          streamRemaining context.receives body after
        .response
          (context.makeStreamedResponse parsed.status parsed.headers pieces)
          none
          (if ending = .ended true then some rest else none)
    | .stall =>
        .timedOut

/-- What becomes of a request once it was sent on a connection. -/
def readResponse (reads : List (Event IoError)) : FcgiResult :=
  match readHeadersFromStream [] reads with
  | (.ok parsed, after) =>
      context.buildStreamingResponse parsed after
  | (.failed error, _) =>
      .failed error
  | (.stall, _) =>
      .timedOut

end FcgiContext

end Sweety.FastCgi
