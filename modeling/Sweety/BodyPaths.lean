import Sweety.BodyIntegrity
import Sweety.FastCgiBody
import Sweety.UpstreamH2

namespace Sweety.BodyPaths

open HttpText UpstreamResponse ForwardRequest UpstreamH2

/-!
# The ways of a request body to a backend

A handler sends a request with its body over HTTP/1, over HTTP/2, as a gRPC call
or to a FastCGI application.  The first streams the body; the others collect it,
each in a loop of its own, and send what they collected.  This module puts the
four handlers side by side, behind the limit of the router.
-/

/-- The handlers that send a body to a backend. -/
inductive Path where
  | http1
  | http2
  | grpc
  | fastcgi
  deriving DecidableEq

/-- A request as its handler gets it, without its body. -/
structure Call where
  tools : ResponseTools
  mode : ReplyMode
  writeTimeout : Nat
  request : Request
  /-- The client's `Content-Length`, if it is a number. -/
  contentLength : Option Nat
  /-- `client_max_body_size` in bytes; 0 is no limit. -/
  maxBody : Nat
  /-- The HTTP/2 request can be built. -/
  builds : Bool
  /-- The FastCGI parameters before and after `CONTENT_LENGTH`. -/
  paramsBefore : List (String × String)
  paramsAfter : List (String × String)

/-- What the backends do, by kind of connection. -/
structure Backend where
  first : Except ForwardError Conn
  second : Except ForwardError Conn
  upstream : Upstream
  fcgiFirst : Except IoError Conn
  fcgiSecond : Except IoError Conn

/-- What a backend gets of a request. -/
inductive Sent where
  | http1 (bytes : List UInt8)
  | http2 (stream : UpstreamH2.Stream)
  | fastcgi (bytes : List UInt8)

/-- What the client gets. -/
inductive Answer where
  | response (status : Nat)
  | hang
  deriving DecidableEq

/-- How a handler ends. -/
structure Handled where
  answer : Answer
  /-- How many bytes of the body it held in memory. -/
  buffered : Nat
  /-- What was sent, on each connection that was used. -/
  sent : List Sent

/-! ## Answers -/

/-- An error of `forward_request` is answered by 502. -/
def http1Answer : ForwardOutcome → Answer
  | .ok reply _ =>
      .response reply.status
  | .failed _ =>
      .response 502
  | .hang =>
      .hang

def http2Answer : UpstreamH2.Outcome → Answer
  | .ok status =>
      .response status
  | .failed =>
      .response 502
  | .hang =>
      .hang

def fastcgiAnswer : FastCgi.Outcome → Answer
  | .response parsed =>
      .response parsed.status
  | .error status _ =>
      .response status

/-! ## The handlers -/

namespace Call

variable (call : Call)

/-- `handle_sweety` of the reverse proxy, for an HTTP/1 node. -/
def http1 (body : RequestBody) (backend : Backend) : Handled :=
  let (outcome, conns) :=
    forwardRequest call.mode call.writeTimeout call.request body
      backend.first backend.second
  ⟨http1Answer outcome, 0, conns.map fun conn => .http1 conn.sent⟩

/-- The same for an HTTP/2 node. -/
def http2 (body : RequestBody) (backend : Backend) : Handled :=
  let (outcome, streams) :=
    forwardRequestH2 call.tools call.builds call.request body
      backend.upstream
  ⟨http2Answer outcome, (collect [] body).1.length, streams.map .http2⟩

end Call

/-- How the loop of the gRPC handler ends. -/
inductive GrpcEnd where
  | whole
  | tooLarge
  | hang
  deriving DecidableEq

/--
The loop of the gRPC handler; the length is checked after a chunk is added.
-/
def collectWithin
    (maxBody : Nat)
    (buffer : List UInt8) :
    RequestBody → List UInt8 × GrpcEnd
  | [] =>
      (buffer, .whole)
  | .chunk bytes :: rest =>
      if 0 < maxBody ∧ maxBody < (buffer ++ bytes).length then
        (buffer ++ bytes, .tooLarge)
      else
        collectWithin maxBody (buffer ++ bytes) rest
  | .error _ :: _ =>
      (buffer, .whole)
  | .stall :: _ =>
      (buffer, .hang)

namespace Call

variable (call : Call)

/-- `handle_sweety` of the gRPC handler, once a node is picked. -/
def grpc (body : RequestBody) (backend : Backend) : Handled :=
  if 0 < call.maxBody ∧ call.maxBody < call.contentLength.getD 0 then
    ⟨.response 400, 0, []⟩
  else
    match collectWithin call.maxBody [] body with
    | (buffer, .tooLarge) =>
        ⟨.response 400, buffer.length, []⟩
    | (buffer, .hang) =>
        ⟨.hang, buffer.length, []⟩
    | (buffer, .whole) =>
        { call.http1 [.chunk buffer] backend with
          buffered := buffer.length }

/-- The FastCGI parameters for a body of this length. -/
def params (length : Nat) : List (String × String) :=
  call.paramsBefore ++
    ("CONTENT_LENGTH", String.ofList (toDecimal length)) ::
      call.paramsAfter

/-- The body that the FastCGI handler reads. -/
def fastcgiBody (body : RequestBody) : List UInt8 × Bool :=
  if call.request.hasBody then
    collect [] body
  else
    ([], true)

/-- `handle_sweety` of the FastCGI handler, for a location with a root. -/
def fastcgi (body : RequestBody) (backend : Backend) : Handled :=
  if call.maxBody < call.contentLength.getD 0 ∧ 0 < call.maxBody then
    ⟨.response 413, 0, []⟩
  else
    let (buffer, ends) := call.fastcgiBody body
    if ends then
      let (outcome, conns) :=
        FastCgi.reconnectLoop (call.params buffer.length) buffer
          backend.fcgiFirst backend.fcgiSecond
      ⟨fastcgiAnswer outcome, buffer.length,
        conns.map fun conn => .fastcgi conn.sent⟩
    else
      ⟨.hang, buffer.length, []⟩

/-- The handler of a path. -/
def handle (path : Path) (body : RequestBody) (backend : Backend) :
    Handled :=
  match path with
  | .http1 =>
      call.http1 body backend
  | .http2 =>
      call.http2 body backend
  | .grpc =>
      call.grpc body backend
  | .fastcgi =>
      call.fastcgi body backend

/--
`multi_site_handler`: the announced length is checked before the handler,
against the `max_body_bytes` of the start.
-/
def route
    (maxBodyBytes : Nat)
    (path : Path)
    (body : RequestBody)
    (backend : Backend) :
    Handled :=
  if 0 < maxBodyBytes ∧
      call.contentLength.any (fun length => maxBodyBytes < length) then
    ⟨.response 413, 0, []⟩
  else
    call.handle path body backend

end Call

/-! ## What the loops collect -/

/-- The bytes that come before the end, an error or a silence. -/
def arrived : RequestBody → List UInt8
  | .chunk bytes :: rest =>
      bytes ++ arrived rest
  | _ =>
      []

theorem collect_eq (buffer : List UInt8) (body : RequestBody) :
    (collect buffer body).1 = buffer ++ arrived body := by
  induction body generalizing buffer with
  | nil =>
      rw [collect, arrived]
      · exact (List.append_nil buffer).symm
      · rintro _ _ ⟨⟩
  | cons event rest inductionHypothesis =>
      cases event with
      | chunk bytes =>
          rw [collect, arrived, inductionHypothesis, List.append_assoc]
      | error text =>
          exact (List.append_nil buffer).symm
      | stall =>
          exact (List.append_nil buffer).symm

/-- A body that breaks off after some chunks. -/
def brokenBody
    (chunks : List (List UInt8))
    (text : String)
    (rest : RequestBody) :
    RequestBody :=
  wholeBody chunks ++ .error text :: rest

theorem arrived_brokenBody
    (chunks : List (List UInt8))
    (text : String)
    (rest : RequestBody) :
    arrived (brokenBody chunks text rest) = chunks.flatten := by
  induction chunks with
  | nil =>
      rfl
  | cons chunk others inductionHypothesis =>
      have isFirst :
          brokenBody (chunk :: others) text rest =
            .chunk chunk :: brokenBody others text rest :=
        rfl
      rw [isFirst, arrived, inductionHypothesis, List.flatten_cons]

theorem collect_brokenBody
    (buffer : List UInt8)
    (chunks : List (List UInt8))
    (text : String)
    (rest : RequestBody) :
    collect buffer (brokenBody chunks text rest) =
      (buffer ++ chunks.flatten, true) := by
  induction chunks generalizing buffer with
  | nil =>
      rw [List.flatten_nil, List.append_nil]
      rfl
  | cons chunk others inductionHypothesis =>
      have isFirst :
          brokenBody (chunk :: others) text rest =
            .chunk chunk :: brokenBody others text rest :=
        rfl
      rw [isFirst, collect, inductionHypothesis, List.flatten_cons,
        List.append_assoc]

/--
The loop of the gRPC handler goes over the limit, or collects what arrives as
the other loops do.
-/
theorem collectWithin_cases
    (maxBody : Nat)
    (buffer : List UInt8)
    (body : RequestBody) :
    (0 < maxBody ∧
      maxBody < (buffer ++ arrived body).length ∧
      (collectWithin maxBody buffer body).2 = .tooLarge ∧
      maxBody < (collectWithin maxBody buffer body).1.length) ∨
    ((0 < maxBody → (buffer ++ arrived body).length ≤ maxBody ∨
        arrived body = []) ∧
      collectWithin maxBody buffer body =
        ((collect buffer body).1,
          if (collect buffer body).2 then .whole else .hang)) := by
  induction body generalizing buffer with
  | nil =>
      exact .inr ⟨fun _ => .inr rfl, rfl⟩
  | cons event rest inductionHypothesis =>
      cases event with
      | error text =>
          exact .inr ⟨fun _ => .inr rfl, rfl⟩
      | stall =>
          exact .inr ⟨fun _ => .inr rfl, rfl⟩
      | chunk bytes =>
          rw [collectWithin, collect, arrived, ← List.append_assoc]
          by_cases large : 0 < maxBody ∧ maxBody < (buffer ++ bytes).length
          · rw [if_pos large]
            refine .inl ⟨large.1, ?_, rfl, large.2⟩
            rw [List.length_append]
            exact Nat.lt_add_right _ large.2
          · rw [if_neg large]
            rcases inductionHypothesis (buffer ++ bytes) with
              tooLarge | ⟨within, same⟩
            · exact .inl tooLarge
            · refine .inr ⟨fun positive => .inl ?_, same⟩
              rcases within positive with fits | isNil
              · exact fits
              · rw [isNil, List.append_nil]
                exact Nat.le_of_not_lt fun less => large ⟨positive, less⟩

end Sweety.BodyPaths
