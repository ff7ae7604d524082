import Sweety.ForwardRequest
import Sweety.ProxyHeaderRoundTrip
import Sweety.RealIp
import Sweety.Router
import Sweety.UpstreamH2

namespace Sweety.BackendHeaders

open HttpText ForwardRequest ProxyProtocol RealIp

/-!
# The headers that a backend gets

The four handlers that speak to a backend make up its headers in three ways: the
reverse proxy filters the headers of the client once, and then has one head for
HTTP/1, one for HTTP/2 and one for WebSocket; the FastCGI handler writes
parameters.
-/

/-! ## A request and its configuration -/

/-- What the handlers read of a request and of its site, location and node. -/
structure Exchange where
  ipv6 : Ipv6Text
  tools : ResponseTools
  method : String
  uri : Router.Uri
  /-- The headers of the client. -/
  headers : HeaderMap
  connIp : IpAddr
  peerPort : Nat
  isTls : Bool
  /-- `scheme_str` of the URI, where the connection is not secured. -/
  uriScheme : Option String
  /-- The authority of the URI. -/
  authority : Option String
  /-- `real_ip` of the site. -/
  realIp : Option CompiledRealIp
  /-- `upstream_host` of the node. -/
  upstreamHost : Option String
  /-- `proxy_set_headers` of the location. -/
  settings : List ConfigModel.HeaderOverride
  /-- The root, and the script that `try_files` found. -/
  root : List Char
  resolvedScript : Option (List Char)
  /-- The length of the collected body. -/
  bodyLength : Nat

/-- How a backend is spoken to. -/
inductive Via where
  | http1
  | http2
  | webSocket
  | fastcgi
  deriving Repr, DecidableEq

namespace Exchange

variable (exchange : Exchange)

/-! ## The reverse proxy -/

/-- `client_ip_str`. -/
def clientIp : List Char :=
  ipText exchange.ipv6 exchange.connIp

/-- `scheme_str`. -/
def scheme : String :=
  if exchange.isTls then
    "https"
  else
    exchange.uriScheme.getD "http"

/-- `path`. -/
def path : List Char :=
  let whole := exchange.uri.pathAndQuery
  if whole = [] ∨ whole = ['/'] then
    exchange.uri.path
  else
    whole

/-- The authority, or the `Host` header. -/
def clientHost : String :=
  match exchange.authority with
  | some authority =>
      authority
  | none =>
      ((HeaderMap.get? "host" exchange.headers).bind toStr?).elim ""
        String.ofList

/-- `upstream_host`. -/
def host : String :=
  exchange.upstreamHost.getD exchange.clientHost

/-- `is_ws_header`. -/
def isWsHeader (isWs : Bool) (name : List Char) : Bool :=
  isWs &&
    (eqIgnoreAsciiCase name "upgrade".toList ||
      "sec-websocket-".toList.isPrefixOf (toAsciiLowercase name))

/-- The headers of the client that are kept. -/
def keptHeaders (isWs : Bool) : List (String × String) :=
  exchange.headers.filterMap fun header =>
    if !isWsHeader isWs header.1.toList && isHopByHop header.1.toList then
      none
    else
      (toStr? header.2).map fun text => (header.1, String.ofList text)

/-- The value of a setting, with its variables replaced. -/
def expand (value : String) : String :=
  String.ofList
    (replace "$request_uri".toList exchange.path
      (replace "$scheme".toList exchange.scheme.toList
        (replace "$host".toList exchange.host.toList
          (replace "$remote_addr".toList exchange.clientIp value.toList))))

/-- One turn of the loop over `proxy_set_headers`. -/
def applySetting
    (headers : List (String × String))
    (setting : ConfigModel.HeaderOverride) :
    List (String × String) :=
  (headers.filter fun header =>
      !eqIgnoreAsciiCase header.1.toList setting.name.toList) ++
    [(setting.name, exchange.expand setting.value)]

/-- `client_headers`. -/
def clientHeaders (isWs : Bool) : List (String × String) :=
  exchange.settings.foldl exchange.applySetting
    (exchange.keptHeaders isWs)

/-- The request that `forward_request` and `forward_request_h2` get. -/
def request : Request where
  method := exchange.method
  path := String.ofList exchange.path
  host := exchange.host
  extraHeaders := exchange.clientHeaders false
  clientIp := String.ofList exchange.clientIp
  clientProto := exchange.scheme

end Exchange

/-! ### WebSocket -/

/-- The request of a WebSocket handshake, without its end. -/
structure Upgrade where
  path : List Char
  host : List Char
  extraHeaders : List (String × String)
  clientIp : List Char
  /-- The key that is made up where the client has none. -/
  freshKey : List Char

namespace Upgrade

variable (upgrade : Upgrade)

/-- A header of this name is passed on. -/
def has (name : String) : Bool :=
  upgrade.extraHeaders.any fun header =>
    eqIgnoreAsciiCase header.1.toList name.toList

/-- `upgrade_req` of `do_ws_proxy`. -/
def headText : List Char :=
  "GET ".toList ++ upgrade.path ++ " HTTP/1.1\r\nHost: ".toList ++
    upgrade.host ++ "\r\n".toList ++
    (upgrade.extraHeaders.flatMap fun header =>
      headerLine header.1.toList header.2.toList) ++
    headerLine "X-Real-IP".toList upgrade.clientIp ++
    headerLine "X-Forwarded-For".toList upgrade.clientIp ++
    (if upgrade.has "upgrade" then
      []
    else
      "Upgrade: websocket\r\n".toList) ++
    (if upgrade.has "sec-websocket-key" then
      []
    else
      "Sec-WebSocket-Key: ".toList ++ upgrade.freshKey ++
        "\r\n".toList) ++
    (if upgrade.has "sec-websocket-version" then
      []
    else
      "Sec-WebSocket-Version: 13\r\n".toList) ++
    "Connection: Upgrade\r\n\r\n".toList

end Upgrade

/-- The handshake of an exchange. -/
def Exchange.upgrade (exchange : Exchange) (freshKey : List Char) :
    Upgrade where
  path := exchange.path
  host := exchange.host.toList
  extraHeaders := exchange.clientHeaders true
  clientIp := exchange.clientIp
  freshKey := freshKey

/-! ## FastCGI -/

/-- `rsplit_once` for a character. -/
def rsplitOnce? (separator : Char) (text : List Char) :
    Option (List Char × List Char) :=
  (splitOnce? separator text.reverse).map fun parts =>
    (parts.2.reverse, parts.1.reverse)

theorem rsplitOnce?_eq_some_iff
    {separator : Char}
    {text front rest : List Char} :
    rsplitOnce? separator text = some (front, rest) ↔
      text = front ++ separator :: rest ∧ separator ∉ rest := by
  constructor
  · intro isSplit
    obtain ⟨parts, isParts, same⟩ := Option.map_eq_some_iff.mp isSplit
    cases same
    obtain ⟨isText, absent⟩ := splitOnce?_eq_some_iff.mp isParts
    refine ⟨?_, by rwa [List.mem_reverse]⟩
    rw [← List.reverse_reverse text, isText, List.reverse_append,
      List.reverse_cons, List.append_assoc]
    rfl
  · rintro ⟨rfl, absent⟩
    rw [rsplitOnce?, List.reverse_append, List.reverse_cons,
      List.append_assoc]
    have isSplit := splitOnce?_append
      (by rwa [List.mem_reverse] : separator ∉ rest.reverse) front.reverse
    rw [List.singleton_append, isSplit, Option.map_some,
      List.reverse_reverse, List.reverse_reverse]

theorem rsplitOnce?_eq_none_iff
    {separator : Char}
    {text : List Char} :
    rsplitOnce? separator text = none ↔ separator ∉ text := by
  rw [rsplitOnce?, Option.map_eq_none_iff, splitOnce?_eq_none_iff,
    List.mem_reverse]

namespace Exchange

variable (exchange : Exchange)

/-- `remote_addr`, which the FastCGI handler takes from the site by itself. -/
def remoteAddr? : Option (List Char) :=
  match exchange.realIp with
  | some compiled =>
      (compiled.extractRealIp? exchange.ipv6 exchange.connIp
        (headerValue? compiled exchange.headers)).map fun found =>
          found.elim (ipText exchange.ipv6 exchange.connIp)
            (ipText exchange.ipv6)
  | none =>
      some (ipText exchange.ipv6 exchange.connIp)

/-- `SERVER_NAME` and `SERVER_PORT`. -/
def server : List Char × List Char :=
  match rsplitOnce? ':' exchange.clientHost.toList with
  | some parts =>
      parts
  | none =>
      (exchange.clientHost.toList,
        if exchange.isTls then "443".toList else "80".toList)

/-- The name of the parameter for a header. -/
def paramName (name : String) : List Char :=
  "HTTP_".toList ++
    name.toList.map fun char =>
      if char = '-' then '_' else char.toUpper

/-- The headers that have parameters of their own. -/
def hasOwnParam (name : List Char) : Bool :=
  eqIgnoreAsciiCase name "host".toList ||
    eqIgnoreAsciiCase name "cookie".toList ||
    eqIgnoreAsciiCase name "content-type".toList ||
    eqIgnoreAsciiCase name "content-length".toList

/-- The parameters for headers. -/
def headerParams : List (List Char × List Char) :=
  (exchange.headers.filter fun header =>
      !hasOwnParam header.1.toList).map fun header =>
    (paramName header.1, fromUtf8Lossy header.2)

/-- `http_cookie`. -/
def httpCookie : List Char :=
  List.intercalate "; ".toList
    ((exchange.headers.filter fun header =>
      header.1 == "cookie").map fun header => fromUtf8Lossy header.2)

/-- The parameters that every request has, and those for its headers. -/
def params (remoteAddr : List Char) : List (List Char × List Char) :=
  let script :=
    Router.scriptParams exchange.root exchange.uri exchange.resolvedScript
  [("GATEWAY_INTERFACE".toList, "CGI/1.1".toList),
    ("SERVER_SOFTWARE".toList, "Sweety/0.2.7".toList),
    ("SERVER_PROTOCOL".toList, "HTTP/1.1".toList),
    ("SERVER_NAME".toList, exchange.server.1),
    ("SERVER_PORT".toList, exchange.server.2),
    ("REQUEST_METHOD".toList, exchange.method.toList),
    ("REQUEST_URI".toList, script.requestUri),
    ("DOCUMENT_URI".toList, script.documentUri),
    ("QUERY_STRING".toList, script.queryString),
    ("DOCUMENT_ROOT".toList, exchange.root),
    ("SCRIPT_FILENAME".toList, script.scriptFilename),
    ("SCRIPT_NAME".toList, script.scriptName),
    ("PATH_INFO".toList, script.pathInfo),
    ("PATH_TRANSLATED".toList, script.pathTranslated),
    ("REMOTE_ADDR".toList, remoteAddr),
    ("REMOTE_HOST".toList, remoteAddr),
    ("REMOTE_PORT".toList, Nat.toDigits 10 exchange.peerPort),
    ("CONTENT_TYPE".toList,
      ((HeaderMap.get? "content-type" exchange.headers).bind
        toStr?).getD []),
    ("CONTENT_LENGTH".toList, Nat.toDigits 10 exchange.bodyLength)] ++
    (if exchange.isTls then
      [("HTTPS".toList, "on".toList)]
    else
      []) ++
    (if exchange.clientHost = "" then
      []
    else
      [("HTTP_HOST".toList, exchange.clientHost.toList)]) ++
    (if exchange.httpCookie = [] then
      []
    else
      [("HTTP_COOKIE".toList, exchange.httpCookie)]) ++
    exchange.headerParams

end Exchange

end Sweety.BackendHeaders
