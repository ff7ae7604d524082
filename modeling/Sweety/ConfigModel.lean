import Sweety.KeyedTable

namespace Sweety.ConfigModel

open KeyedTable

/-!
# The configuration

The types of `config/model/`, with those of `access_control`, `real_ip`, `retry`
and `preset` that stand in them.  A path is its text; `usize` has 64 bits.
-/

/-- `u8`. -/
abbrev U8 := BitVec 8

/-- `u16`. -/
abbrev U16 := BitVec 16

/-- `u32`. -/
abbrev U32 := BitVec 32

/-- `u64`. -/
abbrev U64 := BitVec 64

/-- `usize`. -/
abbrev Usize := BitVec 64

/-- `HashMap<u16, String>`. -/
abbrev ErrorPages := Table U16 String

/-! ## Compression and global settings -/

/-- `CompressConfig`. -/
structure CompressConfig where
  gzip : Bool
  gzipLevel : U32
  brotli : Bool
  brotliLevel : U32
  zstd : Bool
  zstdLevel : U32
  minLength : Usize

/-- `SiteCompressConfig`. -/
structure SiteCompressConfig where
  gzip : Option Bool
  gzipLevel : Option U32
  brotli : Option Bool
  brotliLevel : Option U32
  zstd : Option Bool
  zstdLevel : Option U32
  minLength : Option Usize

/-- `GlobalConfig`. -/
structure GlobalConfig where
  workerThreads : Usize
  workerConnections : Usize
  maxConnections : Usize
  keepaliveTimeout : U64
  fastcgiConnectTimeout : U64
  fastcgiReadTimeout : U64
  clientMaxBodySize : Usize
  clientHeaderBufferSize : Usize
  clientBodyBufferSize : Usize
  gzip : Bool
  gzipMinLength : Usize
  gzipCompLevel : U32
  compress : CompressConfig
  adminListen : String
  adminToken : String
  errorLog : Option String
  prometheusEnabled : Bool
  prometheusPath : String
  logLevel : String
  openFileCacheMax : Usize
  openFileCacheInactive : U64
  openFileCacheTotalMb : Usize
  h2MaxConcurrentStreams : U32
  h2MaxPendingPerConn : Usize
  h2MaxConcurrentResetStreams : Usize
  h2MaxFrameSize : U32
  h2MaxRequestsPerConn : Usize

/-! ## TLS -/

/-- `Http3Config`. -/
structure Http3Config where
  maxHandlers : Usize
  maxConcurrentBidiStreams : U32
  maxConcurrentUniStreams : U32
  idleTimeoutMs : U64
  keepAliveIntervalMs : U64
  receiveWindow : U64
  streamReceiveWindow : U64
  sendWindow : U64
  enable0rtt : Bool
  mtuDiscovery : Bool
  initialRttMs : U64
  maxAckDelayMs : U64

/-- `CertKeyPair`. -/
structure CertKeyPair where
  cert : String
  key : String

/-- `DnsProviderConfig`. -/
inductive DnsProviderConfig where
  | cloudflare (apiToken : String) (zoneId : Option String)
  | aliyun (accessKeyId accessKeySecret : String)
  | shell (setScript : String) (delScript : Option String)

/-- `TlsConfig`. -/
structure TlsConfig where
  acme : Bool
  acmeEmail : Option String
  cert : Option String
  key : Option String
  certs : List CertKeyPair
  minVersion : String
  maxVersion : String
  acmeRenewDaysBefore : U64
  acmeProvider : String
  acmeChallenge : String
  dnsProvider : Option DnsProviderConfig
  protocols : List String
  http3 : Http3Config

/-! ## Locations -/

/-- `HeaderOverride`. -/
structure HeaderOverride where
  name : String
  value : String

/-- `CacheRule`. -/
structure CacheRule where
  pattern : String
  cacheControl : String

/-- `SubFilter`. -/
structure SubFilter where
  pattern : String
  replacement : String

/-- `AccessAction`. -/
inductive AccessAction where
  | allow
  | deny

/-- `AccessRule`. -/
structure AccessRule where
  action : AccessAction
  source : String
  priority : U16

/-- `HandlerType`. -/
inductive HandlerType where
  | static
  | fastcgi
  | websocket
  | reverseProxy
  | grpc
  | plugin (name : String)

/-- `LocationConfig`. -/
structure LocationConfig where
  path : String
  handler : HandlerType
  root : Option String
  upstream : Option String
  cacheControl : Option String
  returnCode : Option U16
  maxConnections : Option Usize
  stripCookieSecure : Bool
  proxyCookieDomain : Option String
  proxyRedirectFrom : Option String
  proxyRedirectTo : Option String
  proxySetHeaders : List HeaderOverride
  addHeaders : List HeaderOverride
  proxyHideHeaders : List String
  accessRules : List AccessRule
  cacheRules : List CacheRule
  returnUrl : Option String
  returnBody : Option String
  returnContentType : Option String
  limitConn : Usize
  proxyBuffering : Bool
  tryFiles : List String
  subFilter : List SubFilter
  authRequest : Option String
  authFailureStatus : U16
  authRequestHeaders : List HeaderOverride

/-- `ProxyCacheConfig`. -/
structure ProxyCacheConfig where
  path : Option String
  maxEntries : Usize
  ttl : U64
  cacheableStatuses : List U16
  cacheableMethods : List String
  bypassHeaders : List String
  ignoreHeaders : List String

/-- `RewriteFlag`. -/
inductive RewriteFlag where
  | last
  | breaks
  | redirect
  | permanent

/-- `RewriteRule`. -/
structure RewriteRule where
  pattern : String
  target : String
  flag : RewriteFlag
  condition : Option String

/-- `RateLimitDimension`. -/
inductive RateLimitDimension where
  | ip
  | path
  | header
  | userAgent
  | ipPath

/-- `RateLimitRule`. -/
structure RateLimitRule where
  dimension : RateLimitDimension
  rate : U64
  burst : U64
  nodelay : Bool
  pathPattern : Option String
  headerName : Option String

/-- `RateLimitConfig`. -/
structure RateLimitConfig where
  rules : List RateLimitRule

/-! ## Upstreams and FastCGI -/

/-- `UpstreamAddr`, on a Unix platform. -/
inductive UpstreamAddr where
  | tcp (address : String)
  | unix (path : String)

/-- `UpstreamNode`. -/
structure UpstreamNode where
  addr : UpstreamAddr
  weight : U32
  tls : Bool
  tlsSni : Option String
  tlsInsecure : Bool
  upstreamHost : Option String
  http2 : Bool
  sendProxyProtocol : U8

/-- `HealthCheckConfig`. -/
structure HealthCheckConfig where
  enabled : Bool
  interval : U64
  timeout : U64
  path : String

/-- `CircuitBreakerConfig`. -/
structure CircuitBreakerConfig where
  maxFailures : U32
  windowSecs : U64
  failTimeout : U64

/-- `LoadBalanceStrategy`. -/
inductive LoadBalanceStrategy where
  | roundRobin
  | weighted
  | leastConn
  | ipHash

/-- `NextUpstreamCondition`. -/
inductive NextUpstreamCondition where
  | error
  | timeout
  | http502
  | http503
  | http504
  | http429
  | nonIdempotent
  | invalidHeader
  | off

/-- `UpstreamConfig`. -/
structure UpstreamConfig where
  name : String
  strategy : LoadBalanceStrategy
  healthCheck : Option HealthCheckConfig
  nodes : List UpstreamNode
  keepalive : Usize
  keepaliveRequests : U64
  keepaliveTime : U64
  connectTimeout : U64
  readTimeout : U64
  writeTimeout : U64
  retry : U32
  retryTimeout : U64
  proxyNextUpstream : List NextUpstreamCondition
  circuitBreaker : Option CircuitBreakerConfig

/-- `FastCgiCacheConfig`. -/
structure FastCgiCacheConfig where
  path : Option String
  maxEntries : Usize
  ttl : U64
  cacheableStatuses : List U16
  cacheableMethods : List String
  bypassHeaders : List String
  ignoreHeaders : List String

/-- `FastCgiConfig`. -/
structure FastCgiConfig where
  socket : Option String
  host : Option String
  port : Option U16
  poolSize : Usize
  connectTimeout : U64
  readTimeout : U64
  cache : Option FastCgiCacheConfig

/-! ## Sites -/

/-- `RealIpConfig`. -/
structure RealIpConfig where
  setRealIpFrom : List String
  realIpHeader : String
  recursive : Bool

/-- `HstsConfig`. -/
structure HstsConfig where
  maxAge : U64
  includeSubDomains : Bool
  preload : Bool

/-- `SitePreset`. -/
inductive SitePreset where
  | wordPress
  | laravel
  | static

/-- `SiteConfig`. -/
structure SiteConfig where
  name : String
  serverName : List String
  listen : List U16
  listenTls : List U16
  root : Option String
  index : List String
  accessLog : Option String
  accessLogFormat : Option String
  errorLog : Option String
  tls : Option TlsConfig
  fastcgi : Option FastCgiConfig
  upstreams : List UpstreamConfig
  locations : List LocationConfig
  rewrites : List RewriteRule
  rateLimit : Option RateLimitConfig
  hsts : Option HstsConfig
  fallback : Bool
  gzip : Option Bool
  gzipCompLevel : Option U32
  compress : SiteCompressConfig
  websocket : Bool
  forceHttps : Bool
  realIp : Option RealIpConfig
  proxyProtocol : Bool
  errorPages : ErrorPages
  proxyCache : Option ProxyCacheConfig
  preset : Option SitePreset
  phpFastcgi : Option String
  acmeEmail : Option String

/-- `AppConfig`. -/
structure AppConfig where
  global : GlobalConfig
  sites : List SiteConfig

end Sweety.ConfigModel
