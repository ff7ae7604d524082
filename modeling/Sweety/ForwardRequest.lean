import Sweety.Connection
import Sweety.UpstreamResponse

namespace Sweety.ForwardRequest

open HttpText SegmentedReader UpstreamResponse

/-!
# Forwarding a request over HTTP/1

Model of `forward_request`, `send_recv_pooled` and `pipe_request_body` in
`handler/reverse_proxy/conn.rs`.  The body of the request is a single-use
stream: the first attempt takes it, and a second one sends an empty body in its
place.
-/

/-- What the client's body stream brings next. -/
inductive BodyEvent where
  | chunk (bytes : List UInt8)
  | error (text : String)
  | stall
  deriving Repr, DecidableEq

/-- A request body; `RequestBody::None` is the empty list. -/
abbrev RequestBody :=
  List BodyEvent

/-- The bytes of an ASCII text of the protocol. -/
def ascii (text : String) : List UInt8 :=
  encodeUtf8 text.toList

/-- The error of a stream that is not read or written in time. -/
def timedOut (text : String) : IoError :=
  ⟨.other, text⟩

/-- The frame of a chunk: its size line, its data, and a line end. -/
def chunkWrites (useChunked : Bool) (bytes : List UInt8) :
    List (List UInt8) :=
  if useChunked then
    [encodeUtf8 (toHex bytes.length) ++ ascii "\r\n", bytes,
      ascii "\r\n"]
  else
    [bytes]

/-- The last writes of a body. -/
def endWrites (useChunked : Bool) : List (List UInt8) :=
  if useChunked then
    [ascii "0\r\n\r\n", []]
  else
    [[]]

/-- The error of a write of the body. -/
def writeError?
    (context timeoutText : String) :
    WriteResult → Option IoError
  | .done =>
      none
  | .failed error =>
      some ⟨error.kind, context ++ error.text⟩
  | .timedOut =>
      some (timedOut timeoutText)

/-- `pipe_request_body`. -/
def pipeRequestBody
    (useChunked : Bool) :
    RequestBody → Conn → Option IoError × Conn
  | [], conn =>
      let (result, after) := conn.writeEach (endWrites useChunked)
      (writeError? "flush 上游: "
          (if useChunked then "写上游超时" else "flush 超时") result,
        after)
  | .chunk [] :: rest, conn =>
      pipeRequestBody useChunked rest conn
  | .chunk (byte :: others) :: rest, conn =>
      match conn.writeEach (chunkWrites useChunked (byte :: others)) with
      | (.done, after) =>
          pipeRequestBody useChunked rest after
      | (failure, after) =>
          (writeError? "写上游: " "写上游超时" failure, after)
  | .error text :: _, conn =>
      (some ⟨.brokenPipe, text⟩, conn)
  | .stall :: _, conn =>
      (some (timedOut "请求体读取超时"), conn)

/-! ## The request head -/

/-- A request as it is handed to `forward_request`, without its body. -/
structure Request where
  method : String
  path : String
  host : String
  extraHeaders : List (String × String)
  clientIp : String
  clientProto : String
  deriving Repr, DecidableEq

/-- `push_sanitized_value`: a text with a line break is copied byte by byte. -/
def sanitize (text : List Char) : List Char :=
  if text.any fun char => char == '\r' || char == '\n' then
    (encodeUtf8 text).map fun byte =>
      if byte = 13 ∨ byte = 10 then
        ' '
      else
        Char.ofNat byte.toNat
  else
    text

/-- `push_safe_header`. -/
def headerLine (name value : List Char) : List Char :=
  sanitize name ++ ": ".toList ++ sanitize value ++ "\r\n".toList

namespace Request

/-- `has_body`. -/
def hasBody (request : Request) : Bool :=
  request.method == "POST" || request.method == "PUT" ||
    request.method == "PATCH" || request.method == "DELETE"

/-- `known_content_length`. -/
def knownContentLength (request : Request) : Option Nat :=
  (request.extraHeaders.find? fun header =>
      eqIgnoreAsciiCase header.1.toList "content-length".toList).bind
    fun header => parseUsize? header.2.toList

/-- `has_expect_continue`. -/
def hasExpectContinue (request : Request) : Bool :=
  request.extraHeaders.any fun header =>
    eqIgnoreAsciiCase header.1.toList "expect".toList &&
      eqIgnoreAsciiCase header.2.toList "100-continue".toList

/-- `use_chunked`. -/
def useChunked (request : Request) : Bool :=
  request.hasBody && request.knownContentLength.isNone

/-- The headers that are set by the proxy itself. -/
def isOwnHeader (name : List Char) : Bool :=
  eqIgnoreAsciiCase name "content-length".toList ||
    eqIgnoreAsciiCase name "transfer-encoding".toList ||
    eqIgnoreAsciiCase name "expect".toList

/-- The framing headers of a request with a body. -/
def framing (request : Request) : List Char :=
  if request.hasBody then
    (match request.knownContentLength with
      | none =>
          "Transfer-Encoding: chunked\r\n".toList
      | some len =>
          "Content-Length: ".toList ++ Nat.toDigits 10 len ++
            "\r\n".toList) ++
      if request.hasExpectContinue then
        "Expect: 100-continue\r\n".toList
      else
        []
  else
    []

/-- The text of the request head. -/
def headText (request : Request) : List Char :=
  request.method.toList ++ [' '] ++ request.path.toList ++
    " HTTP/1.1\r\nHost: ".toList ++ request.host.toList ++
    "\r\n".toList ++
    (request.extraHeaders.flatMap fun header =>
      if isOwnHeader header.1.toList then
        []
      else
        headerLine header.1.toList header.2.toList) ++
    headerLine "X-Real-IP".toList request.clientIp.toList ++
    headerLine "X-Forwarded-For".toList request.clientIp.toList ++
    headerLine "X-Forwarded-Proto".toList request.clientProto.toList ++
    "Connection: keep-alive\r\n".toList ++
    request.framing ++
    "\r\n".toList

/-- The bytes of the request head. -/
def head (request : Request) : List UInt8 :=
  encodeUtf8 request.headText

end Request

/-! ## One attempt -/

/-- How an attempt on one connection ends. -/
inductive SendResult where
  | ok (reply : Reply) (released : Option Reader)
  | failed (error : ForwardError) (bodyConsumed : Bool)
  | hang
  deriving Repr, DecidableEq

/-- The rest of an attempt, from the status line on. -/
def afterStatusLine
    (mode : ReplyMode)
    (statusLine : List Char)
    (reader : Reader) :
    SendResult :=
  match readReply mode statusLine reader with
  | .reply reply released =>
      .ok reply released
  | .failed error =>
      .failed (.message error.text) true
  | .hang =>
      .hang

/-- Read the status line and the response, after a request without `Expect`. -/
def receive
    (mode : ReplyMode)
    (hasBody : Bool)
    (reader : Reader) :
    SendResult :=
  match readTextLine reader with
  | (.stall, _) =>
      .failed (.proxy (.ttfbTimeout "")) hasBody
  | (.error error before, after) =>
      if error.kind = .unexpectedEof ∧ before ≠ [] then
        afterStatusLine mode before after
      else if error.kind = .connectionReset ∨
          error.kind = .brokenPipe then
        .failed (.proxy (.connReset "")) hasBody
      else
        .failed (.proxy (ProxyError.fromIo "" error .read)) hasBody
  | (.ok [], _) =>
      -- The peer closed an idle connection; the body is taken to be unused.
      .failed (.proxy (.connReset "")) false
  | (.ok line, after) =>
      afterStatusLine mode line after

/-- After `100 Continue`: the blank line, the body, and the real response. -/
def continueRequest
    (mode : ReplyMode)
    (useChunked : Bool)
    (body : RequestBody)
    (conn : Conn)
    (reader : Reader) :
    SendResult × Conn :=
  match skipLine reader with
  | none =>
      (.hang, conn)
  | some afterBlank =>
      match pipeRequestBody useChunked body conn with
      | (some error, after) =>
          (.failed (.message error.text) true, after)
      | (none, after) =>
          match readTextLine afterBlank with
          | (.stall, _) =>
              (.failed (.proxy (.ttfbTimeout "")) true, after)
          | (.error error _, _) =>
              (.failed (.proxy (ProxyError.fromIo "" error .read)) true,
                after)
          | (.ok line, afterLine) =>
              (afterStatusLine mode line afterLine, after)

/-- Send the body and read the response, the head being sent. -/
def sendBody
    (mode : ReplyMode)
    (request : Request)
    (body : RequestBody)
    (conn : Conn) :
    SendResult × Conn :=
  let reader : Reader := ⟨[], conn.reads⟩
  if request.hasBody && request.hasExpectContinue then
    match readTextLine reader with
    | (.stall, _) | (.error _ _, _) =>
        (.failed (.proxy (.ttfbTimeout "")) false, conn)
    | (.ok line, after) =>
        if parseStatusCode line = 100 then
          continueRequest mode request.useChunked body conn after
        else
          (afterStatusLine mode line after, conn)
  else if request.hasBody then
    match pipeRequestBody request.useChunked body conn with
    | (some error, after) =>
        (.failed (.message error.text) true, after)
    | (none, after) =>
        (receive mode true reader, after)
  else
    (receive mode false reader, conn)

/-- `send_recv_pooled`, with the connection as it is left. -/
def sendRecvPooled
    (mode : ReplyMode)
    (writeTimeout : Nat)
    (request : Request)
    (body : RequestBody)
    (allowRetryOnHeaderFail : Bool)
    (conn : Conn) :
    SendResult × Conn :=
  match conn.writeEach [request.head, []] with
  | (.done, after) =>
      sendBody mode request body after
  | (.failed error, after) =>
      if allowRetryOnHeaderFail then
        (.failed (.proxy (.writeTimeout "" writeTimeout)) false, after)
      else
        (.failed (.proxy (ProxyError.fromIo "" error .write)) false,
          after)
  | (.timedOut, after) =>
      (.failed (.proxy (.writeTimeout "" writeTimeout)) false, after)

/-! ## Both attempts -/

/-- How `forward_request` ends. -/
inductive ForwardOutcome where
  | ok (reply : Reply) (released : Option Reader)
  | failed (error : ForwardError)
  | hang
  deriving Repr, DecidableEq

/-- The outcome of an attempt that is not repeated. -/
def SendResult.outcome : SendResult → ForwardOutcome
  | .ok reply released =>
      .ok reply released
  | .failed error _ =>
      .failed error
  | .hang =>
      .hang

/--
`forward_request`: the first attempt on a connection from the pool or a new one,
the second on a new one.  Returns the connections used too, with what this
request sent on each.
-/
def forwardRequest
    (mode : ReplyMode)
    (writeTimeout : Nat)
    (request : Request)
    (body : RequestBody)
    (first second : Except ForwardError Conn) :
    ForwardOutcome × List Conn :=
  match first with
  | .error error =>
      (.failed error, [])
  | .ok conn =>
      match sendRecvPooled mode writeTimeout request body true
          conn.handedOver with
      | (.failed _ false, after) =>
          match second with
          | .error error =>
              (.failed error, [after])
          | .ok fresh =>
              let (result, afterFresh) :=
                sendRecvPooled mode writeTimeout request [] false
                  fresh.handedOver
              (result.outcome, [after, afterFresh])
      | (result, after) =>
          (result.outcome, [after])

end Sweety.ForwardRequest
