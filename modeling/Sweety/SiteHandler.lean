import Sweety.BackendHeaders
import Sweety.LocationOrder
import Sweety.AccessControl
import Sweety.Redirects
import Sweety.VHostLookup

namespace Sweety.SiteHandler

open ConfigModel HttpText KeyedTable ProxyProtocol StaticCache

/-!
# The handler of every request

Model of `multi_site_handler` of `server/router.rs`, with every early return,
and of the counters of `middleware/metrics.rs` that it changes.  The stages run
in the order of the source; one that answers the request ends it, and so does a
panic.

What the handlers answer, what a plugin does, what the authorization service
says and the state of the file system are parameters.  A counter that other
requests change too is given by what the request reads from it.  The access log
is left out.
-/

/-! ## Counters -/

/-- `GlobalMetrics`, without the count of WebSocket connections. -/
structure GlobalMetrics where
  totalRequests : U64
  totalErrors5xx : U64
  totalErrors4xx : U64
  totalBytesSent : U64
  activeRequests : U64
  deriving DecidableEq

/-- A change of the counters. -/
inductive MetricCall where
  | incRequests
  | decActive
  | recordStatus (status : Nat)
  | recordBytesSent (bytes : Nat)
  deriving Repr, DecidableEq

/-- `inc_requests`, `dec_active`, `record_status` and `record_bytes_sent`. -/
def GlobalMetrics.after (metrics : GlobalMetrics) :
    MetricCall → GlobalMetrics
  | .incRequests =>
      { metrics with
        totalRequests := metrics.totalRequests + 1
        activeRequests := metrics.activeRequests + 1 }
  | .decActive =>
      { metrics with activeRequests := metrics.activeRequests - 1 }
  | .recordStatus status =>
      if 500 ≤ status then
        { metrics with totalErrors5xx := metrics.totalErrors5xx + 1 }
      else if 400 ≤ status then
        { metrics with totalErrors4xx := metrics.totalErrors4xx + 1 }
      else
        metrics
  | .recordBytesSent bytes =>
      { metrics with
        totalBytesSent := metrics.totalBytesSent + BitVec.ofNat 64 bytes }

/--
What becomes of a request: the changes of the counters, and the response unless
the task panics.
-/
structure Served where
  calls : List MetricCall
  response : Option WebResponse

/-- A stage passes a value on, or the request ends in it. -/
abbrev Stage (Value : Type) :=
  Except Served Value

/-- Record a status and return a response. -/
def answer {Value : Type} (code : Nat) (response : WebResponse) :
    Stage Value :=
  .error ⟨[.recordStatus code], some response⟩

/-- The task panics. -/
def panics {Value : Type} : Stage Value :=
  .error ⟨[], none⟩

/-! ## Requests and settings -/

/-- What the handler reads of a request. -/
structure Request where
  method : List Char
  authority : Option (List Char)
  path : List Char
  pathAndQuery : Option (List Char)
  headers : HeaderMap
  isTls : Bool
  connIp : IpAddr

/-- A location, with the requests that it is serving. -/
structure Location where
  config : LocationConfig
  connCount : Nat

/-- What the handler reads of a site. -/
structure SiteSettings where
  acme : Bool
  forceHttps : Bool
  listenTls : List Nat
  realIp : Option RealIp.CompiledRealIp
  rewrites : List Rewrite.CompiledRewrite
  root : Option (List Char)
  locations : List Location
  errorPages : Table Nat (List Char)
  hstsHeaderValue : Option (List Char)

/-- A site of the registry. -/
abbrev Site :=
  SiteInfo Unit SiteSettings

/-- The settings of a site. -/
def settings (site : Site) : SiteSettings :=
  site.config.other

/-- What the handler reads of `AppState`. -/
structure AppState where
  registry : VHostInner Unit SiteSettings
  maxConnections : Nat
  maxBodyBytes : Nat
  /-- What `fetch_add` returns for `active_connections`. -/
  activeConnections : Nat
  h3Ports : List Nat

/-- `PluginRequest`. -/
structure PluginRequest where
  method : List Char
  path : List Char
  headers : HeaderMap
  clientIp : List Char
  bodyLen : Nat

/-- `Plugin`: `none` of `onRequest` is `Continue`. -/
structure Plugin where
  onRequest : PluginRequest → Option WebResponse
  onResponse : WebResponse → WebResponse

/-- `HandlerContext`. -/
structure HandlerContext where
  method : List Char
  path : List Char
  headers : HeaderMap
  clientIp : List Char
  siteName : String
  locationPath : String

/--
What stands outside this handler.  The result `none` of a handler is a panic.
-/
structure Services where
  ipv6 : Ipv6Text
  /-- The compiler of regular expressions. -/
  build : List Char → Option Rewrite.Regex
  statCached : List Char → Rewrite.CachedMeta
  disk : Router.Disk
  /-- `tokio::fs::read`. -/
  readFile : List Char → Option (List UInt8)
  /-- `get_error_bytes`. -/
  errorPage : Nat → List UInt8
  /-- `ACME_HTTP01_TOKENS`. -/
  acmeTokens : List Char → Option (List Char)
  /-- `ACME_CERTS_READY`. -/
  acmeReady : String → Bool
  /-- `do_auth_request`: the status, or an error. -/
  doAuthRequest :
    String → HeaderMap → List Char → List ConfigModel.HeaderOverride →
      Option Nat
  plugins : String → Option Plugin
  customHandlers : String → Option (HandlerContext → Option WebResponse)
  staticFile : Request → Site → LocationConfig → Option WebResponse
  fastcgi :
    Request → Site → LocationConfig → Option (List Char) →
      Option WebResponse
  websocket : Request → LocationConfig → Option WebResponse
  reverseProxy : Request → Site → LocationConfig → Option WebResponse
  grpc : Request → Site → LocationConfig → Option WebResponse

/-! ## Responses -/

/-- `StatusCode::from_u16`. -/
def statusFrom? (code : Nat) : Option Nat :=
  if 100 ≤ code ∧ code < 1000 then
    some code
  else
    none

section Stages

variable
  (services : Services)
  (state : AppState)
  (request : Request)

/-- `make_error_resp`. -/
def makeErrorResp (status : Nat) : WebResponse where
  status := status
  headers := insertValue "content-type" "text/html; charset=utf-8".toList ∅
  body := services.errorPage status

/-! ## The site -/

/-- The answer to an ACME challenge. -/
def challenge : Stage Unit :=
  match request.path.dropPrefix? "/.well-known/acme-challenge/".toList with
  | some token =>
      match services.acmeTokens token with
      | some body =>
          answer 200
            { status := 200
              headers := insertValue "content-type" "text/plain".toList ∅
              body := encodeUtf8 body }
      | none =>
          .ok ()
  | none =>
      .ok ()

/-- The host as the client wrote it. -/
def hostRaw : List Char :=
  (request.authority.or
    ((HeaderMap.get? "host" request.headers).bind RealIp.toStr?)).getD []

/-- The host and the port that the client asks for. -/
def hostAndPort : List Char × Option Nat :=
  let raw := hostRaw request
  if raw.head? = some '[' then
    match splitOnce? ']' raw with
    | some (inside, behind) =>
        (inside ++ [']'], (behind.dropPrefix? [':']).bind parseU16?)
    | none =>
        (raw, none)
  else
    match BackendHeaders.rsplitOnce? ':' raw with
    | some (host, port) =>
        (host, parseU16? port)
    | none =>
        (raw, none)

/-- The site of the host. -/
def siteFor : Stage Site :=
  match VHostLookup.lookupByHost (String.ofList (hostAndPort request).1)
      state.registry with
  | some site =>
      .ok site
  | none =>
      if request.isTls then
        answer 421 (makeErrorResp services 421)
      else
        answer 404 (makeErrorResp services 404)

/-- `effective_client_ip`. -/
def clientIp (site : Site) : Stage IpAddr :=
  match RealIp.effectiveClientIp? services.ipv6 (settings site).realIp
      request.connIp request.headers with
  | some ip =>
      .ok ip
  | none =>
      panics

/-- `acme_cert_ready`. -/
def acmeCertReady (site : Site) : Bool :=
  !(settings site).acme || services.acmeReady site.name

/-- The redirect of `force_https`. -/
def toHttps (site : Site) : Stage Unit :=
  if (settings site).forceHttps && !request.isTls &&
      acmeCertReady services site then
    let tlsPort :=
      if 443 ∈ (settings site).listenTls then
        443
      else
        (settings site).listenTls.head?.getD 443
    let host := (hostAndPort request).1
    let hostForRedirect :=
      if tlsPort = 443 then
        host
      else
        host ++ ':' :: Nat.toDigits 10 tlsPort
    answer 301
      (Redirects.makeRedirectResp
        ("https://".toList ++ hostForRedirect ++
          request.pathAndQuery.getD ['/'])
        301)
  else
    .ok ()

/-- The check of the path. -/
def guardPath : Stage Unit :=
  if isSensitivePath (String.ofList request.path) then
    answer 403 (makeErrorResp services 403)
  else
    .ok ()

/-- The path after the rewrite rules. -/
def rewritten (site : Site) : Stage (List Char) :=
  match Rewrite.rewriteStage services.statCached (settings site).root
      (settings site).rewrites request.path with
  | .redirect target status =>
      answer status (Redirects.makeRedirectResp target status)
  | .serve effectivePath =>
      .ok effectivePath

/-! ## The location -/

/-- The location as it is matched. -/
def compiled (location : Location) : Router.CompiledLocation :=
  Router.CompiledLocation.new services.build location.config

/-- The first location with the longest path. -/
def longest (locations : List Location) : Option Location :=
  locations.foldl
    (fun best location =>
      match best with
      | none =>
          some location
      | some before =>
          if byteLength before.config.path.toList <
              byteLength location.config.path.toList then
            some location
          else
            some before)
    none

/-- `match_location`. -/
def matchLocation (locations : List Location) (path : List Char) :
    Option Location :=
  (locations.find? fun location =>
      (compiled services location).isFirst path).or
    ((locations.find? fun location =>
        (compiled services location).isRegexMatch path).or
      (longest (locations.filter fun location =>
        (compiled services location).isPrefixMatch path)))

theorem longest_map (locations : List Location) :
    (longest locations).map (compiled services) =
      Router.longest (locations.map (compiled services)) := by
  unfold longest Router.longest
  rw [List.foldl_map]
  symm
  refine @List.foldl_hom _ _ _ (Option.map (compiled services)) _ _
    locations none ?_
  intro best location
  cases best with
  | none =>
      rfl
  | some before =>
      show (if _ then _ else _) = Option.map _ (if _ then _ else _)
      rw [apply_ite (Option.map (compiled services))]
      rfl

/-- The location is chosen as among the compiled ones. -/
theorem matchLocation_map (locations : List Location) (path : List Char) :
    (matchLocation services locations path).map (compiled services) =
      Router.matchLocation (locations.map (compiled services)) path := by
  unfold matchLocation Router.matchLocation
  rw [Option.map_or, Option.map_or, longest_map, List.find?_map,
    List.find?_map, List.filter_map]
  rfl

/-- The location of the effective path. -/
def locationFor (site : Site) (effectivePath : List Char) :
    Stage Location :=
  match matchLocation services (settings site).locations effectivePath with
  | some location =>
      .ok location
  | none =>
      answer 404 (makeErrorResp services 404)

/-- The `Content-Length` of the request. -/
def contentLength? : Option Nat :=
  ((HeaderMap.get? "content-length" request.headers).bind
    RealIp.toStr?).bind parseUsize?

/-- The limit of the body. -/
def limitBody : Stage Unit :=
  if 0 < state.maxBodyBytes ∧
      (contentLength? request).any (state.maxBodyBytes < ·) then
    answer 413 (makeErrorResp services 413)
  else
    .ok ()

/-- A request that has found its location. -/
structure Located where
  site : Site
  clientIp : IpAddr
  effectivePath : List Char
  location : Location

/-- The stages up to the location. -/
def locate : Stage Located := do
  challenge services request
  let site ← siteFor services state request
  let clientIp ← clientIp services request site
  toHttps services request site
  guardPath services request
  let effectivePath ← rewritten services request site
  let location ← locationFor services site effectivePath
  limitBody services state request
  return ⟨site, clientIp, effectivePath, location⟩

/-! ## The directives of the location -/

/-- `request_uri`. -/
def requestUri : List Char :=
  request.pathAndQuery.getD request.path

/-- `return_url`. -/
def returnUrl (config : LocationConfig) : Stage Unit :=
  match config.returnUrl with
  | some directive =>
      let (code, url) :=
        Redirects.parseReturnDirective directive.toList (requestUri request)
      answer code
        (Redirects.makeRedirectResp url ((statusFrom? code).getD 301))
  | none =>
      .ok ()

/-- `return_body`. -/
def returnBody (config : LocationConfig) : Stage Unit :=
  match config.returnBody with
  | some text =>
      let code := (config.returnCode.map BitVec.toNat).getD 200
      let contentType :=
        (config.returnContentType.map String.toList).getD
          "text/plain; charset=utf-8".toList
      answer code
        { status := (statusFrom? code).getD 200
          headers :=
            insertValue "content-type"
              (headerOr contentType "text/plain; charset=utf-8".toList) ∅
          body := encodeUtf8 text.toList }
  | none =>
      .ok ()

/-- `return_code`. -/
def returnCode (config : LocationConfig) : Stage Unit :=
  match config.returnCode with
  | some code =>
      answer code.toNat
        { status := (statusFrom? code.toNat).getD 200
          headers := ∅
          body := [] }
  | none =>
      .ok ()

/-- `limit_conn`. -/
def limitConn (location : Location) : Stage Unit :=
  if 0 < location.config.limitConn.toNat ∧
      location.config.limitConn.toNat ≤ location.connCount then
    answer 503 (makeErrorResp services 503)
  else
    .ok ()

/-- The access rules. -/
def checkAccess (location : Location) (ip : IpAddr) : Stage Unit :=
  match AccessControl.checkAccess? ip
      (AccessControl.compileRules services.ipv6
        location.config.accessRules) with
  | some .deny =>
      answer 403 (makeErrorResp services 403)
  | some .allow =>
      .ok ()
  | none =>
      panics

/-- `auth_request::check` allows the request. -/
def isAuthorized
    (authUrl : String)
    (config : LocationConfig)
    (ip : IpAddr) :
    Bool :=
  match services.doAuthRequest authUrl request.headers
      (ipText services.ipv6 ip) config.authRequestHeaders with
  | some status =>
      200 ≤ status && status < 300
  | none =>
      false

/-- `auth_request`. -/
def authorize (config : LocationConfig) (ip : IpAddr) : Stage Unit :=
  match config.authRequest with
  | some authUrl =>
      if isAuthorized services request authUrl config ip then
        .ok ()
      else
        answer config.authFailureStatus.toNat
          (makeErrorResp services
            ((statusFrom? config.authFailureStatus.toNat).getD 401))
  | none =>
      .ok ()

/-- `run_plugin_request`. -/
def pluginRequest (located : Located) : Stage Unit :=
  match located.location.config.handler with
  | .plugin name =>
      let pluginRequest :=
        { method := request.method
          path := located.effectivePath
          headers := request.headers
          clientIp := ipText services.ipv6 located.clientIp
          bodyLen := (contentLength? request).getD 0 }
      match (services.plugins name).bind (·.onRequest pluginRequest) with
      | some response =>
          answer response.status response
      | none =>
          .ok ()
  | _ =>
      .ok ()

/-- The directives that answer without the handler. -/
def letThrough (located : Located) : Stage Unit := do
  returnUrl request located.location.config
  returnBody located.location.config
  returnCode located.location.config
  limitConn services located.location
  checkAccess services located.location located.clientIp
  authorize services request located.location.config located.clientIp
  pluginRequest services request located

/-! ## The handler of the location -/

/-- `run_plugin_response`. -/
def pluginResponse (name : String) (response : WebResponse) : WebResponse :=
  match services.plugins name with
  | some plugin =>
      plugin.onResponse response
  | none =>
      response

/-- The root of the files of a location. -/
def rootOf (located : Located) : Option (List Char) :=
  (located.location.config.root.map String.toList).or
    (settings located.site).root

/-- The branch of FastCGI, with the statuses that it records itself. -/
def dispatchFastcgi (located : Located) :
    List MetricCall × Option WebResponse :=
  if located.location.config.tryFiles = [] then
    ([], services.fastcgi request located.site located.location.config none)
  else
    match Router.tryFilesResolve services.disk
        (located.location.config.tryFiles.map String.toList) request.path
        (rootOf located) with
    | .file path =>
        if Router.extension? path = some "php".toList then
          ([],
            services.fastcgi request located.site located.location.config
              (some path))
        else
          ([],
            services.staticFile request located.site
              { located.location.config with handler := .static })
    | .code code =>
        ([.recordStatus code],
          some (makeErrorResp services ((statusFrom? code).getD 404)))
    | .notFound =>
        ([],
          services.fastcgi request located.site located.location.config
            none)

/-- The branch of a plugin. -/
def dispatchPlugin (located : Located) (name : String) :
    Option WebResponse :=
  match services.customHandlers name with
  | some handler =>
      handler
        { method := request.method
          path := located.effectivePath
          headers := request.headers
          clientIp := ipText services.ipv6 located.clientIp
          siteName := located.site.name
          locationPath := located.location.config.path }
  | none =>
      some (pluginResponse services name
        { status := 200, headers := ∅, body := [] })

/-- The choice of the handler. -/
def dispatch (located : Located) : List MetricCall × Option WebResponse :=
  match located.location.config.handler with
  | .static =>
      ([], services.staticFile request located.site located.location.config)
  | .fastcgi =>
      dispatchFastcgi services request located
  | .websocket =>
      ([], services.websocket request located.location.config)
  | .reverseProxy =>
      ([],
        services.reverseProxy request located.site located.location.config)
  | .grpc =>
      ([], services.grpc request located.site located.location.config)
  | .plugin name =>
      ([], dispatchPlugin services request located name)

/-- The hook of a plugin on the response of its handler. -/
def afterHandler (config : LocationConfig) (response : WebResponse) :
    WebResponse :=
  match config.handler with
  | .plugin name =>
      pluginResponse services name response
  | _ =>
      response

/-- The page of the site for an error. -/
def errorPageOf? (located : Located) (status : Nat) : Option WebResponse :=
  if 400 ≤ status ∧ status < 600 then
    ((settings located.site).errorPages.get? status).bind fun pagePath =>
      (rootOf located).bind fun root =>
        let pageFile :=
          Rewrite.joinPath root (pagePath.dropWhile (· == '/'))
        (services.readFile pageFile).map fun content =>
          let extension :=
            (Router.extension? pageFile).getD "html".toList
          { status := status
            headers :=
              insertText "content-type" (mimeTypeFor extension) ∅
            body := content }
  else
    none

/-- The headers that every response of a site gets. -/
def withSiteHeaders (site : Site) (response : WebResponse) : WebResponse :=
  let hsts :=
    match (settings site).hstsHeaderValue with
    | some value =>
        if request.isTls && acmeCertReady services site then
          insertValue "strict-transport-security" value response.headers
        else
          response.headers
    | none =>
        response.headers
  let port :=
    ((hostAndPort request).2.filter (· ∈ state.h3Ports)).or
      state.h3Ports.head?
  let altSvc :=
    match port with
    | some port =>
        if request.isTls then
          insertText "alt-svc"
            ("h3=\":".toList ++ Nat.toDigits 10 port ++
              "\"; ma=86400".toList)
            hsts
        else
          hsts
    | none =>
        hsts
  { response with
    headers :=
      insertValue "x-content-type-options" "nosniff".toList
        (insertValue "server" "Sweety".toList altSvc) }

/-- The bytes that the response says it has. -/
def bytesSent (response : WebResponse) : Nat :=
  (((response.headers.get? "content-length".toList).bind
    toText?).bind parseUsize?).getD 0

/-- What is left to do with the response of the handler. -/
def finish (located : Located) (response : WebResponse) : Served :=
  let response := afterHandler services located.location.config response
  let recorded := .recordStatus response.status
  match errorPageOf? services located response.status with
  | some page =>
      ⟨[recorded], some page⟩
  | none =>
      let response :=
        withSiteHeaders services state request located.site response
      if 0 < bytesSent response then
        ⟨[recorded, .recordBytesSent (bytesSent response)], some response⟩
      else
        ⟨[recorded], some response⟩

/-- The handler and what follows it. -/
def handle (located : Located) : Served :=
  let (calls, response) := dispatch services request located
  match response with
  | some response =>
      let served := finish services state request located response
      ⟨calls ++ served.calls, served.response⟩
  | none =>
      ⟨calls, none⟩

/-! ## The whole handler -/

/-- The stages of a request that is let in. -/
def serve : Served :=
  let served : Stage Served := do
    let located ← locate services state request
    letThrough services request located
    return handle services state request located
  match served with
  | .ok served =>
      served
  | .error served =>
      served

/-- The server serves as many requests as it may. -/
def isOverloaded : Bool :=
  0 < state.maxConnections && state.maxConnections ≤ state.activeConnections

/-- `multi_site_handler`; its guard calls `dec_active` at the end. -/
def multiSiteHandler : Served :=
  if isOverloaded state then
    ⟨[.recordStatus 503], some (makeErrorResp services 503)⟩
  else
    let served := serve services state request
    ⟨.incRequests :: served.calls ++ [.decActive], served.response⟩

end Stages

end Sweety.SiteHandler
