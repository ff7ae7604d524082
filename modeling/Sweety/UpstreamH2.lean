import Sweety.ForwardRequest
import Sweety.ProxyResponse

namespace Sweety.UpstreamH2

open HttpText ForwardRequest

/-!
# Forwarding a request over HTTP/2

Model of `forward_request_h2` in `handler/reverse_proxy/mod.rs`, up to the head
of the response, and of `send` in `upstream_h2.rs`.  The frames are left to the
h2 crate: a stream is what the upstream gets of a request.
-/

/--
The loop that collects a request body, and whether it comes to its end.  An
error ends it like the end of the body.
-/
def collect (buffer : List UInt8) : RequestBody → List UInt8 × Bool
  | [] =>
      (buffer, true)
  | .chunk bytes :: rest =>
      collect (buffer ++ bytes) rest
  | .error _ :: _ =>
      (buffer, true)
  | .stall :: _ =>
      (buffer, false)

/-- A header that is passed on; `HeaderName` is in lower case. -/
def passedHeader?
    (tools : ResponseTools)
    (header : String × String) :
    Option (List Char × List Char) :=
  if isHopByHop header.1.toList ||
      eqIgnoreAsciiCase header.1.toList "content-length".toList then
    none
  else
    match tools.name? header.1.toList, tools.value? header.2.toList with
    | some name, some value =>
        some (name, value)
    | _, _ =>
        none

/-- The headers that are passed on. -/
def passedHeaders
    (tools : ResponseTools)
    (headers : List (String × String)) :
    List (List Char × List Char) :=
  headers.filterMap (passedHeader? tools)

/-- All headers of the request. -/
def requestHeaders
    (tools : ResponseTools)
    (request : Request) :
    List (List Char × List Char) :=
  passedHeaders tools request.extraHeaders ++
    [("x-real-ip".toList, request.clientIp.toList),
      ("x-forwarded-for".toList, request.clientIp.toList),
      ("x-forwarded-proto".toList, request.clientProto.toList)]

/-- What an upstream does with a request. -/
inductive Upstream where
  /-- There is no connection, or `send_request` fails. -/
  | refuses
  /-- `send_data` fails. -/
  | refusesData
  /-- No response comes. -/
  | fails
  | responds (status : Nat)
  deriving Repr, DecidableEq

/-- What the upstream gets of a request. -/
structure Stream where
  headers : List (List Char × List Char)
  data : List UInt8
  endStream : Bool
  deriving Repr, DecidableEq

/-- How `forward_request_h2` ends. -/
inductive Outcome where
  | ok (status : Nat)
  | failed
  | hang
  deriving Repr, DecidableEq

/-- The end of an exchange whose request was sent. -/
def Upstream.outcome : Upstream → Outcome
  | .responds status =>
      .ok status
  | .refuses | .refusesData | .fails =>
      .failed

/-- `send`; a body that is empty ends the stream with the head. -/
def send
    (headers : List (List Char × List Char))
    (body : List UInt8)
    (upstream : Upstream) :
    Outcome × List Stream :=
  match upstream with
  | .refuses =>
      (.failed, [])
  | _ =>
      if body = [] then
        (upstream.outcome, [⟨headers, [], true⟩])
      else if upstream = .refusesData then
        (.failed, [⟨headers, [], false⟩])
      else
        (upstream.outcome, [⟨headers, body, true⟩])

/-- `forward_request_h2`; `builds` says that the request can be built. -/
def forwardRequestH2
    (tools : ResponseTools)
    (builds : Bool)
    (request : Request)
    (body : RequestBody)
    (upstream : Upstream) :
    Outcome × List Stream :=
  let collected := collect [] body
  if !collected.2 then
    (.hang, [])
  else if !builds then
    (.failed, [])
  else
    send (requestHeaders tools request) collected.1 upstream

end Sweety.UpstreamH2
