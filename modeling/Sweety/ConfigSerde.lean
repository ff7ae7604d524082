import Mathlib.Data.List.Basic
import Sweety.ConfigModel
import Sweety.SerdeDerive

namespace Sweety.ConfigModel

open HttpText ConfigTree KeyedTable SerdeDerive

/-!
# Writing and reading a configuration

The codecs of the types of the configuration, field by field: the name, and what
is read where the field is missing.  Most are derived on both sides, and their
values are read back.  `UpstreamAddr`, the plugin variant of `HandlerType` and
the map of error pages have a reader of their own beside a derived writer.
-/

variable {dialect : Dialect}

/-! ## Compression and global settings -/

/-- `CompressConfig`. -/
def compressConfig : Derived CompressConfig where
  record :=
    Record.of CompressConfig.mk
      |>.field "gzip" (·.gzip) (Codec.bool.default false)
      |>.field "gzip_level" (·.gzipLevel) ((Codec.unsigned 32).default 6)
      |>.field "brotli" (·.brotli) (Codec.bool.default false)
      |>.field "brotli_level" (·.brotliLevel) ((Codec.unsigned 32).default 4)
      |>.field "zstd" (·.zstd) (Codec.bool.default false)
      |>.field "zstd_level" (·.zstdLevel) ((Codec.unsigned 32).default 3)
      |>.field "min_length" (·.minLength) ((Codec.unsigned 64).default 1)

/-- `CompressConfig::default`. -/
def compressDefault : CompressConfig :=
  ⟨true, 6, true, 4, true, 3, 1⟩

@[simp] theorem reads_compressConfig (value : CompressConfig) :
    compressConfig.codec.Reads dialect value := by
  rw [Derived.reads_iff]
  simp [compressConfig, Record.Reads]

/-- `SiteCompressConfig`. -/
def siteCompressConfig : Derived SiteCompressConfig where
  record :=
    Record.of SiteCompressConfig.mk
      |>.field "gzip" (·.gzip) (Codec.bool.optional none)
      |>.field "gzip_level" (·.gzipLevel) ((Codec.unsigned 32).optional none)
      |>.field "brotli" (·.brotli) (Codec.bool.optional none)
      |>.field "brotli_level" (·.brotliLevel)
        ((Codec.unsigned 32).optional none)
      |>.field "zstd" (·.zstd) (Codec.bool.optional none)
      |>.field "zstd_level" (·.zstdLevel) ((Codec.unsigned 32).optional none)
      |>.field "min_length" (·.minLength) ((Codec.unsigned 64).optional none)

/-- `SiteCompressConfig::default`. -/
def siteCompressDefault : SiteCompressConfig :=
  ⟨none, none, none, none, none, none, none⟩

@[simp] theorem reads_siteCompressConfig (value : SiteCompressConfig) :
    siteCompressConfig.codec.Reads dialect value := by
  rw [Derived.reads_iff]
  simp [siteCompressConfig, Record.Reads]

/-- `GlobalConfig`. -/
def globalConfig : Derived GlobalConfig where
  record :=
    Record.of GlobalConfig.mk
      |>.field "worker_threads" (·.workerThreads)
        ((Codec.unsigned 64).default 0)
      |>.field "worker_connections" (·.workerConnections)
        ((Codec.unsigned 64).default 51200)
      |>.field "max_connections" (·.maxConnections)
        ((Codec.unsigned 64).default 0)
      |>.field "keepalive_timeout" (·.keepaliveTimeout)
        ((Codec.unsigned 64).default 60)
      |>.field "fastcgi_connect_timeout" (·.fastcgiConnectTimeout)
        ((Codec.unsigned 64).default 5)
      |>.field "fastcgi_read_timeout" (·.fastcgiReadTimeout)
        ((Codec.unsigned 64).default 60)
      |>.field "client_max_body_size" (·.clientMaxBodySize)
        ((Codec.unsigned 64).default 50)
      |>.field "client_header_buffer_size" (·.clientHeaderBufferSize)
        ((Codec.unsigned 64).default 32)
      |>.field "client_body_buffer_size" (·.clientBodyBufferSize)
        ((Codec.unsigned 64).default 512)
      |>.field "gzip" (·.gzip) (Codec.bool.default false)
      |>.field "gzip_min_length" (·.gzipMinLength)
        ((Codec.unsigned 64).default 1)
      |>.field "gzip_comp_level" (·.gzipCompLevel)
        ((Codec.unsigned 32).default 5)
      |>.field "compress" (·.compress)
        (compressConfig.codec.default compressDefault)
      |>.field "admin_listen" (·.adminListen) (Codec.text.default "")
      |>.field "admin_token" (·.adminToken) (Codec.text.default "")
      |>.field "error_log" (·.errorLog) (Codec.text.optional none)
      |>.field "prometheus_enabled" (·.prometheusEnabled)
        (Codec.bool.default true)
      |>.field "prometheus_path" (·.prometheusPath)
        (Codec.text.default "/metrics")
      |>.field "log_level" (·.logLevel) (Codec.text.default "info")
      |>.field "open_file_cache_max" (·.openFileCacheMax)
        ((Codec.unsigned 64).default 200000)
      |>.field "open_file_cache_inactive" (·.openFileCacheInactive)
        ((Codec.unsigned 64).default 60)
      |>.field "open_file_cache_total_mb" (·.openFileCacheTotalMb)
        ((Codec.unsigned 64).default 512)
      |>.field "h2_max_concurrent_streams" (·.h2MaxConcurrentStreams)
        ((Codec.unsigned 32).default 128)
      |>.field "h2_max_pending_per_conn" (·.h2MaxPendingPerConn)
        ((Codec.unsigned 64).default 0)
      |>.field "h2_max_concurrent_reset_streams" (·.h2MaxConcurrentResetStreams)
        ((Codec.unsigned 64).default 200)
      |>.field "h2_max_frame_size" (·.h2MaxFrameSize)
        ((Codec.unsigned 32).default 65535)
      |>.field "h2_max_requests_per_conn" (·.h2MaxRequestsPerConn)
        ((Codec.unsigned 64).default 1000)

/-- `GlobalConfig::default`. -/
def globalDefault : GlobalConfig where
  workerThreads := 0
  workerConnections := 51200
  maxConnections := 0
  keepaliveTimeout := 60
  fastcgiConnectTimeout := 5
  fastcgiReadTimeout := 60
  clientMaxBodySize := 50
  clientHeaderBufferSize := 32
  clientBodyBufferSize := 512
  gzip := false
  gzipMinLength := 1
  gzipCompLevel := 5
  compress := compressDefault
  adminListen := ""
  adminToken := ""
  errorLog := none
  prometheusEnabled := true
  prometheusPath := "/metrics"
  logLevel := "info"
  openFileCacheMax := 200000
  openFileCacheInactive := 60
  openFileCacheTotalMb := 512
  h2MaxConcurrentStreams := 128
  h2MaxPendingPerConn := 0
  h2MaxConcurrentResetStreams := 200
  h2MaxFrameSize := 65535
  h2MaxRequestsPerConn := 1000

@[simp] theorem reads_globalConfig (value : GlobalConfig) :
    globalConfig.codec.Reads dialect value := by
  rw [Derived.reads_iff]
  simp [globalConfig, Record.Reads]

/-! ## TLS -/

/-- `Http3Config`. -/
def http3Config : Derived Http3Config where
  record :=
    Record.of Http3Config.mk
      |>.field "max_handlers" (·.maxHandlers) ((Codec.unsigned 64).default 0)
      |>.field "max_concurrent_bidi_streams" (·.maxConcurrentBidiStreams)
        ((Codec.unsigned 32).default 200)
      |>.field "max_concurrent_uni_streams" (·.maxConcurrentUniStreams)
        ((Codec.unsigned 32).default 100)
      |>.field "idle_timeout_ms" (·.idleTimeoutMs)
        ((Codec.unsigned 64).default 30000)
      |>.field "keep_alive_interval_ms" (·.keepAliveIntervalMs)
        ((Codec.unsigned 64).default 10000)
      |>.field "receive_window" (·.receiveWindow)
        ((Codec.unsigned 64).default 8388608)
      |>.field "stream_receive_window" (·.streamReceiveWindow)
        ((Codec.unsigned 64).default 2097152)
      |>.field "send_window" (·.sendWindow)
        ((Codec.unsigned 64).default 8388608)
      |>.field "enable_0rtt" (·.enable0rtt) (Codec.bool.default false)
      |>.field "mtu_discovery" (·.mtuDiscovery) (Codec.bool.default true)
      |>.field "initial_rtt_ms" (·.initialRttMs)
        ((Codec.unsigned 64).default 333)
      |>.field "max_ack_delay_ms" (·.maxAckDelayMs)
        ((Codec.unsigned 64).default 25)

/-- `Http3Config::default`. -/
def http3Default : Http3Config where
  maxHandlers := 0
  maxConcurrentBidiStreams := 200
  maxConcurrentUniStreams := 100
  idleTimeoutMs := 30000
  keepAliveIntervalMs := 10000
  receiveWindow := 8388608
  streamReceiveWindow := 2097152
  sendWindow := 8388608
  enable0rtt := false
  mtuDiscovery := true
  initialRttMs := 333
  maxAckDelayMs := 25

@[simp] theorem reads_http3Config (value : Http3Config) :
    http3Config.codec.Reads dialect value := by
  rw [Derived.reads_iff]
  simp [http3Config, Record.Reads]

/-- `CertKeyPair`. -/
def certKeyPair : Derived CertKeyPair where
  record :=
    Record.of CertKeyPair.mk
      |>.field "cert" (·.cert) Codec.text.required
      |>.field "key" (·.key) Codec.text.required

@[simp] theorem reads_certKeyPair (value : CertKeyPair) :
    certKeyPair.codec.Reads dialect value := by
  rw [Derived.reads_iff]
  simp [certKeyPair, Record.Reads]

/-- The fields of `DnsProviderConfig::Cloudflare`. -/
def cloudflare : Derived (String × Option String) where
  record :=
    Record.of Prod.mk
      |>.field "api_token" (·.1) Codec.text.required
      |>.field "zone_id" (·.2) (Codec.text.optional none)

/-- The fields of `DnsProviderConfig::Aliyun`. -/
def aliyun : Derived (String × String) where
  record :=
    Record.of Prod.mk
      |>.field "access_key_id" (·.1) Codec.text.required
      |>.field "access_key_secret" (·.2) Codec.text.required

/-- The fields of `DnsProviderConfig::Shell`. -/
def shell : Derived (String × Option String) where
  record :=
    Record.of Prod.mk
      |>.field "set_script" (·.1) Codec.text.required
      |>.field "del_script" (·.2) (Codec.text.optional none)

/-- `DnsProviderConfig`, with its variant in the member `type`. -/
def dnsProviderConfig : Codec DnsProviderConfig where
  write
    | .cloudflare apiToken zoneId =>
        .record
          (("type", .text "cloudflare") ::
            cloudflare.record.write (apiToken, zoneId))
    | .aliyun accessKeyId accessKeySecret =>
        .record
          (("type", .text "aliyun") ::
            aliyun.record.write (accessKeyId, accessKeySecret))
    | .shell setScript delScript =>
        .record
          (("type", .text "shell") ::
            shell.record.write (setScript, delScript))
  read?
    | .object members =>
        match Json.field? "type" members with
        | some (.string "cloudflare") =>
            ((cloudflare.record.read? members).map cloudflare.record.build).map
              fun fields => .cloudflare fields.1 fields.2
        | some (.string "aliyun") =>
            ((aliyun.record.read? members).map aliyun.record.build).map
              fun fields => .aliyun fields.1 fields.2
        | some (.string "shell") =>
            ((shell.record.read? members).map shell.record.build).map
              fun fields => .shell fields.1 fields.2
        | _ =>
            none
    | _ =>
        none
  present value := by
    cases value <;> rfl

@[simp] theorem reads_dnsProviderConfig (value : DnsProviderConfig) :
    dnsProviderConfig.Reads dialect value := by
  cases value with
  | cloudflare apiToken zoneId =>
      obtain ⟨members, isMembers, isTag, isRead⟩ :=
        cloudflare.reads_tagged
          (show cloudflare.record.Reads dialect (apiToken, zoneId) by
            simp [cloudflare, Record.Reads])
          (show "type" ∉ cloudflare.record.names by decide)
          "cloudflare"
      simp only [Codec.Reads, dnsProviderConfig, Data.tree?, isMembers,
        Option.map_some, Option.bind_some, isTag, isRead]
  | aliyun accessKeyId accessKeySecret =>
      obtain ⟨members, isMembers, isTag, isRead⟩ :=
        aliyun.reads_tagged
          (show aliyun.record.Reads dialect (accessKeyId, accessKeySecret) by
            simp [aliyun, Record.Reads])
          (show "type" ∉ aliyun.record.names by decide)
          "aliyun"
      simp only [Codec.Reads, dnsProviderConfig, Data.tree?, isMembers,
        Option.map_some, Option.bind_some, isTag, isRead]
  | shell setScript delScript =>
      obtain ⟨members, isMembers, isTag, isRead⟩ :=
        shell.reads_tagged
          (show shell.record.Reads dialect (setScript, delScript) by
            simp [shell, Record.Reads])
          (show "type" ∉ shell.record.names by decide)
          "shell"
      simp only [Codec.Reads, dnsProviderConfig, Data.tree?, isMembers,
        Option.map_some, Option.bind_some, isTag, isRead]

/-- `TlsConfig`. -/
def tlsConfig : Derived TlsConfig where
  record :=
    Record.of TlsConfig.mk
      |>.field "acme" (·.acme) (Codec.bool.default false)
      |>.field "acme_email" (·.acmeEmail) (Codec.text.optional none)
      |>.field "cert" (·.cert) (Codec.text.optional none)
      |>.field "key" (·.key) (Codec.text.optional none)
      |>.field "certs" (·.certs) (certKeyPair.codec.list.default [])
      |>.field "min_version" (·.minVersion) (Codec.text.default "tls1.2")
      |>.field "max_version" (·.maxVersion) (Codec.text.default "tls1.3")
      |>.field "acme_renew_days_before" (·.acmeRenewDaysBefore)
        ((Codec.unsigned 64).default 30)
      |>.field "acme_provider" (·.acmeProvider)
        (Codec.text.default "letsencrypt")
      |>.field "acme_challenge" (·.acmeChallenge) (Codec.text.default "http01")
      |>.field "dns_provider" (·.dnsProvider) (dnsProviderConfig.optional none)
      |>.field "protocols" (·.protocols)
        (Codec.text.list.default ["h3", "h2", "http/1.1"])
      |>.field "http3" (·.http3) (http3Config.codec.default http3Default)

@[simp] theorem reads_tlsConfig (value : TlsConfig) :
    tlsConfig.codec.Reads dialect value := by
  rw [Derived.reads_iff]
  simp [tlsConfig, Record.Reads]

/-! ## Locations -/

/-- `HeaderOverride`. -/
def headerOverride : Derived HeaderOverride where
  record :=
    Record.of HeaderOverride.mk
      |>.field "name" (·.name) Codec.text.required
      |>.field "value" (·.value) Codec.text.required

@[simp] theorem reads_headerOverride (value : HeaderOverride) :
    headerOverride.codec.Reads dialect value := by
  rw [Derived.reads_iff]
  simp [headerOverride, Record.Reads]

/-- `CacheRule`. -/
def cacheRule : Derived CacheRule where
  record :=
    Record.of CacheRule.mk
      |>.field "pattern" (·.pattern) Codec.text.required
      |>.field "cache_control" (·.cacheControl) Codec.text.required

@[simp] theorem reads_cacheRule (value : CacheRule) :
    cacheRule.codec.Reads dialect value := by
  rw [Derived.reads_iff]
  simp [cacheRule, Record.Reads]

/-- `SubFilter`. -/
def subFilter : Derived SubFilter where
  record :=
    Record.of SubFilter.mk
      |>.field "pattern" (·.pattern) Codec.text.required
      |>.field "replacement" (·.replacement) Codec.text.required

@[simp] theorem reads_subFilter (value : SubFilter) :
    subFilter.codec.Reads dialect value := by
  rw [Derived.reads_iff]
  simp [subFilter, Record.Reads]

/-- The texts of `AccessAction`. -/
def AccessAction.text : AccessAction → String
  | .allow =>
      "allow"
  | .deny =>
      "deny"

/-- `AccessAction`. -/
def accessAction : Codec AccessAction :=
  .variants AccessAction.text [.allow, .deny]

@[simp] theorem reads_accessAction (value : AccessAction) :
    accessAction.Reads dialect value :=
  reads_variants (fun value => by cases value <;> rfl) value

/-- `AccessRule`. -/
def accessRule : Derived AccessRule where
  record :=
    Record.of AccessRule.mk
      |>.field "action" (·.action) accessAction.required
      |>.field "source" (·.source) Codec.text.required
      |>.field "priority" (·.priority) ((Codec.unsigned 16).default 0)

@[simp] theorem reads_accessRule (value : AccessRule) :
    accessRule.codec.Reads dialect value := by
  rw [Derived.reads_iff]
  simp [accessRule, Record.Reads]

/-- The variants of `HandlerType` without a value. -/
def HandlerType.plain : List (String × HandlerType) :=
  [("static", .static), ("fastcgi", .fastcgi), ("websocket", .websocket),
    ("reverse_proxy", .reverseProxy), ("grpc", .grpc)]

/--
`HandlerType`: a plugin is written as its name, and read by
`deserialize_plugin_handler` from a text that begins with `plugin:`.
-/
def handlerType : Codec HandlerType where
  write
    | .static =>
        .text "static"
    | .fastcgi =>
        .text "fastcgi"
    | .websocket =>
        .text "websocket"
    | .reverseProxy =>
        .text "reverse_proxy"
    | .grpc =>
        .text "grpc"
    | .plugin name =>
        .text name
  read?
    | .string text =>
        (HandlerType.plain.lookup text).or
          ((text.toList.dropPrefix? "plugin:".toList).map fun name =>
            .plugin (String.ofList name))
    | _ =>
        none
  present value := by
    cases value <;> rfl

/-- The name of a plugin is read as another handler, or not at all. -/
theorem not_reads_plugin (name : String) :
    ¬ handlerType.Reads dialect (.plugin name) := by
  intro reads
  have isRead :
      (HandlerType.plain.lookup name).or
          ((name.toList.dropPrefix? "plugin:".toList).map fun rest =>
            .plugin (String.ofList rest)) =
        some (.plugin name) :=
    reads
  rcases Option.or_eq_some_iff.mp isRead with isPlain | ⟨_, isPlugin⟩
  · obtain ⟨front, back, isList, _⟩ := List.lookup_eq_some_iff.mp isPlain
    have member : (name, HandlerType.plugin name) ∈ HandlerType.plain := by
      rw [isList]
      exact List.mem_append_right front List.mem_cons_self
    simp [HandlerType.plain] at member
  · obtain ⟨rest, isRest, isName⟩ := Option.map_eq_some_iff.mp isPlugin
    have isText := dropPrefix?_eq_some_iff_append.mp isRest
    rw [← HandlerType.plugin.inj isName, String.toList_ofList] at isText
    have sameLength := congrArg List.length isText
    rw [List.length_append, String.length_toList] at sameLength
    simp at sameLength

/-- A plugin is never read back. -/
@[simp] theorem reads_handlerType_iff (value : HandlerType) :
    handlerType.Reads dialect value ↔ ∀ name, value ≠ .plugin name := by
  cases value with
  | plugin name =>
      simp [not_reads_plugin]
  | _ =>
      simp only [ne_eq, reduceCtorEq, not_false_eq_true, implies_true,
        iff_true]
      rfl

/-- `LocationConfig`. -/
def locationConfig : Derived LocationConfig where
  record :=
    Record.of LocationConfig.mk
      |>.field "path" (·.path) Codec.text.required
      |>.field "handler" (·.handler) handlerType.required
      |>.field "root" (·.root) (Codec.text.optional none)
      |>.field "upstream" (·.upstream) (Codec.text.optional none)
      |>.field "cache_control" (·.cacheControl) (Codec.text.optional none)
      |>.field "return_code" (·.returnCode) ((Codec.unsigned 16).optional none)
      |>.field "max_connections" (·.maxConnections)
        ((Codec.unsigned 64).optional none)
      |>.field "strip_cookie_secure" (·.stripCookieSecure)
        (Codec.bool.default false)
      |>.field "proxy_cookie_domain" (·.proxyCookieDomain)
        (Codec.text.optional none)
      |>.field "proxy_redirect_from" (·.proxyRedirectFrom)
        (Codec.text.optional none)
      |>.field "proxy_redirect_to" (·.proxyRedirectTo)
        (Codec.text.optional none)
      |>.field "proxy_set_headers" (·.proxySetHeaders)
        (headerOverride.codec.list.default [])
      |>.field "add_headers" (·.addHeaders)
        (headerOverride.codec.list.default [])
      |>.field "proxy_hide_headers" (·.proxyHideHeaders)
        (Codec.text.list.default [])
      |>.field "access_rules" (·.accessRules) (accessRule.codec.list.default [])
      |>.field "cache_rules" (·.cacheRules) (cacheRule.codec.list.default [])
      |>.field "return_url" (·.returnUrl) (Codec.text.optional none)
      |>.field "return_body" (·.returnBody) (Codec.text.optional none)
      |>.field "return_content_type" (·.returnContentType)
        (Codec.text.optional none)
      |>.field "limit_conn" (·.limitConn) ((Codec.unsigned 64).default 0)
      |>.field "proxy_buffering" (·.proxyBuffering) (Codec.bool.default false)
      |>.field "try_files" (·.tryFiles) (Codec.text.list.default [])
      |>.field "sub_filter" (·.subFilter) (subFilter.codec.list.default [])
      |>.field "auth_request" (·.authRequest) (Codec.text.optional none)
      |>.field "auth_failure_status" (·.authFailureStatus)
        ((Codec.unsigned 16).default 401)
      |>.field "auth_request_headers" (·.authRequestHeaders)
        (headerOverride.codec.list.default [])

/-- `ProxyCacheConfig`. -/
def proxyCacheConfig : Derived ProxyCacheConfig where
  record :=
    Record.of ProxyCacheConfig.mk
      |>.field "path" (·.path) (Codec.text.optional none)
      |>.field "max_entries" (·.maxEntries) ((Codec.unsigned 64).default 1000)
      |>.field "ttl" (·.ttl) ((Codec.unsigned 64).default 60)
      |>.field "cacheable_statuses" (·.cacheableStatuses)
        ((Codec.unsigned 16).list.default [200, 301, 302])
      |>.field "cacheable_methods" (·.cacheableMethods)
        (Codec.text.list.default ["GET", "HEAD"])
      |>.field "bypass_headers" (·.bypassHeaders)
        (Codec.text.list.default ["Authorization", "Cookie"])
      |>.field "ignore_headers" (·.ignoreHeaders) (Codec.text.list.default [])

@[simp] theorem reads_proxyCacheConfig (value : ProxyCacheConfig) :
    proxyCacheConfig.codec.Reads dialect value := by
  rw [Derived.reads_iff]
  simp [proxyCacheConfig, Record.Reads]

/-- The texts of `RewriteFlag`. -/
def RewriteFlag.text : RewriteFlag → String
  | .last =>
      "last"
  | .breaks =>
      "break"
  | .redirect =>
      "redirect"
  | .permanent =>
      "permanent"

/-- `RewriteFlag`. -/
def rewriteFlag : Codec RewriteFlag :=
  .variants RewriteFlag.text [.last, .breaks, .redirect, .permanent]

@[simp] theorem reads_rewriteFlag (value : RewriteFlag) :
    rewriteFlag.Reads dialect value :=
  reads_variants (fun value => by cases value <;> rfl) value

/-- `RewriteRule`. -/
def rewriteRule : Derived RewriteRule where
  record :=
    Record.of RewriteRule.mk
      |>.field "pattern" (·.pattern) Codec.text.required
      |>.field "target" (·.target) Codec.text.required
      |>.field "flag" (·.flag) (rewriteFlag.default .last)
      |>.field "condition" (·.condition) (Codec.text.optional none)

@[simp] theorem reads_rewriteRule (value : RewriteRule) :
    rewriteRule.codec.Reads dialect value := by
  rw [Derived.reads_iff]
  simp [rewriteRule, Record.Reads]

/-- The texts of `RateLimitDimension`. -/
def RateLimitDimension.text : RateLimitDimension → String
  | .ip =>
      "ip"
  | .path =>
      "path"
  | .header =>
      "header"
  | .userAgent =>
      "user_agent"
  | .ipPath =>
      "ip_path"

/-- `RateLimitDimension`. -/
def rateLimitDimension : Codec RateLimitDimension :=
  .variants RateLimitDimension.text
    [.ip, .path, .header, .userAgent, .ipPath]

@[simp] theorem reads_rateLimitDimension (value : RateLimitDimension) :
    rateLimitDimension.Reads dialect value :=
  reads_variants (fun value => by cases value <;> rfl) value

/-- `RateLimitRule`. -/
def rateLimitRule : Derived RateLimitRule where
  record :=
    Record.of RateLimitRule.mk
      |>.field "dimension" (·.dimension) rateLimitDimension.required
      |>.field "rate" (·.rate) ((Codec.unsigned 64).required)
      |>.field "burst" (·.burst) ((Codec.unsigned 64).default 0)
      |>.field "nodelay" (·.nodelay) (Codec.bool.default true)
      |>.field "path_pattern" (·.pathPattern) (Codec.text.optional none)
      |>.field "header_name" (·.headerName) (Codec.text.optional none)

@[simp] theorem reads_rateLimitRule (value : RateLimitRule) :
    rateLimitRule.codec.Reads dialect value := by
  rw [Derived.reads_iff]
  simp [rateLimitRule, Record.Reads]

/-- `RateLimitConfig`. -/
def rateLimitConfig : Derived RateLimitConfig where
  record :=
    Record.of RateLimitConfig.mk
      |>.field "rules" (·.rules) (rateLimitRule.codec.list.default [])

@[simp] theorem reads_rateLimitConfig (value : RateLimitConfig) :
    rateLimitConfig.codec.Reads dialect value := by
  rw [Derived.reads_iff]
  simp [rateLimitConfig, Record.Reads]

/-! ## Upstreams and FastCGI -/

/-- `UpstreamAddr::parse`. -/
def UpstreamAddr.parse (address : String) : UpstreamAddr :=
  match address.toList.dropPrefix? "unix:".toList with
  | some path =>
      .unix (String.ofList path)
  | none =>
      .tcp address

/-- `UpstreamAddr`: the derived writer, and the reader written by hand. -/
def upstreamAddr : Codec UpstreamAddr where
  write
    | .tcp address =>
        .record [("Tcp", .text address)]
    | .unix path =>
        .record [("Unix", .text path)]
  read?
    | .string text =>
        some (.parse text)
    | _ =>
        none
  present value := by
    cases value <;> rfl

/-- No address is read back: an object is written and a text is read. -/
@[simp] theorem not_reads_upstreamAddr (value : UpstreamAddr) :
    ¬ upstreamAddr.Reads dialect value := by
  cases value <;>
    simp [Codec.Reads, upstreamAddr, Data.tree?, Data.members?, Data.isNone]

/-- `UpstreamNode`. -/
def upstreamNode : Derived UpstreamNode where
  record :=
    Record.of UpstreamNode.mk
      |>.field "addr" (·.addr) upstreamAddr.required
      |>.field "weight" (·.weight) ((Codec.unsigned 32).default 1)
      |>.field "tls" (·.tls) (Codec.bool.default false)
      |>.field "tls_sni" (·.tlsSni) (Codec.text.optional none)
      |>.field "tls_insecure" (·.tlsInsecure) (Codec.bool.default false)
      |>.field "upstream_host" (·.upstreamHost) (Codec.text.optional none)
      |>.field "http2" (·.http2) (Codec.bool.default false)
      |>.field "send_proxy_protocol" (·.sendProxyProtocol)
        ((Codec.unsigned 8).default 0)

/-- `HealthCheckConfig`. -/
def healthCheckConfig : Derived HealthCheckConfig where
  record :=
    Record.of HealthCheckConfig.mk
      |>.field "enabled" (·.enabled) (Codec.bool.default true)
      |>.field "interval" (·.interval) ((Codec.unsigned 64).default 10)
      |>.field "timeout" (·.timeout) ((Codec.unsigned 64).default 3)
      |>.field "path" (·.path) (Codec.text.default "/health")

@[simp] theorem reads_healthCheckConfig (value : HealthCheckConfig) :
    healthCheckConfig.codec.Reads dialect value := by
  rw [Derived.reads_iff]
  simp [healthCheckConfig, Record.Reads]

/-- `CircuitBreakerConfig`. -/
def circuitBreakerConfig : Derived CircuitBreakerConfig where
  record :=
    Record.of CircuitBreakerConfig.mk
      |>.field "max_failures" (·.maxFailures) ((Codec.unsigned 32).default 5)
      |>.field "window_secs" (·.windowSecs) ((Codec.unsigned 64).default 60)
      |>.field "fail_timeout" (·.failTimeout) ((Codec.unsigned 64).default 30)

@[simp] theorem reads_circuitBreakerConfig (value : CircuitBreakerConfig) :
    circuitBreakerConfig.codec.Reads dialect value := by
  rw [Derived.reads_iff]
  simp [circuitBreakerConfig, Record.Reads]

/-- The texts of `LoadBalanceStrategy`. -/
def LoadBalanceStrategy.text : LoadBalanceStrategy → String
  | .roundRobin =>
      "round_robin"
  | .weighted =>
      "weighted"
  | .leastConn =>
      "least_conn"
  | .ipHash =>
      "ip_hash"

/-- `LoadBalanceStrategy`. -/
def loadBalanceStrategy : Codec LoadBalanceStrategy :=
  .variants LoadBalanceStrategy.text
    [.roundRobin, .weighted, .leastConn, .ipHash]

@[simp] theorem reads_loadBalanceStrategy (value : LoadBalanceStrategy) :
    loadBalanceStrategy.Reads dialect value :=
  reads_variants (fun value => by cases value <;> rfl) value

/-- The texts of `NextUpstreamCondition`. -/
def NextUpstreamCondition.text : NextUpstreamCondition → String
  | .error =>
      "error"
  | .timeout =>
      "timeout"
  | .http502 =>
      "http502"
  | .http503 =>
      "http503"
  | .http504 =>
      "http504"
  | .http429 =>
      "http429"
  | .nonIdempotent =>
      "non_idempotent"
  | .invalidHeader =>
      "invalid_header"
  | .off =>
      "off"

/-- `NextUpstreamCondition`. -/
def nextUpstreamCondition : Codec NextUpstreamCondition :=
  .variants NextUpstreamCondition.text
    [.error, .timeout, .http502, .http503, .http504, .http429,
     .nonIdempotent, .invalidHeader, .off]

@[simp] theorem reads_nextUpstreamCondition (value : NextUpstreamCondition) :
    nextUpstreamCondition.Reads dialect value :=
  reads_variants (fun value => by cases value <;> rfl) value

/-- `UpstreamConfig`. -/
def upstreamConfig : Derived UpstreamConfig where
  record :=
    Record.of UpstreamConfig.mk
      |>.field "name" (·.name) Codec.text.required
      |>.field "strategy" (·.strategy) (loadBalanceStrategy.default .roundRobin)
      |>.field "health_check" (·.healthCheck)
        (healthCheckConfig.codec.optional none)
      |>.field "nodes" (·.nodes) upstreamNode.codec.list.required
      |>.field "keepalive" (·.keepalive) ((Codec.unsigned 64).default 0)
      |>.field "keepalive_requests" (·.keepaliveRequests)
        ((Codec.unsigned 64).default 0)
      |>.field "keepalive_time" (·.keepaliveTime)
        ((Codec.unsigned 64).default 0)
      |>.field "connect_timeout" (·.connectTimeout)
        ((Codec.unsigned 64).default 10)
      |>.field "read_timeout" (·.readTimeout) ((Codec.unsigned 64).default 60)
      |>.field "write_timeout" (·.writeTimeout) ((Codec.unsigned 64).default 60)
      |>.field "retry" (·.retry) ((Codec.unsigned 32).default 0)
      |>.field "retry_timeout" (·.retryTimeout) ((Codec.unsigned 64).default 0)
      |>.field "proxy_next_upstream" (·.proxyNextUpstream)
        (nextUpstreamCondition.list.default [])
      |>.field "circuit_breaker" (·.circuitBreaker)
        (circuitBreakerConfig.codec.optional none)

/-- `FastCgiCacheConfig`. -/
def fastCgiCacheConfig : Derived FastCgiCacheConfig where
  record :=
    Record.of FastCgiCacheConfig.mk
      |>.field "path" (·.path) (Codec.text.optional none)
      |>.field "max_entries" (·.maxEntries) ((Codec.unsigned 64).default 1000)
      |>.field "ttl" (·.ttl) ((Codec.unsigned 64).default 60)
      |>.field "cacheable_statuses" (·.cacheableStatuses)
        ((Codec.unsigned 16).list.default [200, 301, 302])
      |>.field "cacheable_methods" (·.cacheableMethods)
        (Codec.text.list.default ["GET", "HEAD"])
      |>.field "bypass_headers" (·.bypassHeaders) (Codec.text.list.default [])
      |>.field "ignore_headers" (·.ignoreHeaders) (Codec.text.list.default [])

@[simp] theorem reads_fastCgiCacheConfig (value : FastCgiCacheConfig) :
    fastCgiCacheConfig.codec.Reads dialect value := by
  rw [Derived.reads_iff]
  simp [fastCgiCacheConfig, Record.Reads]

/-- `FastCgiConfig`. -/
def fastCgiConfig : Derived FastCgiConfig where
  record :=
    Record.of FastCgiConfig.mk
      |>.field "socket" (·.socket) (Codec.text.optional none)
      |>.field "host" (·.host) (Codec.text.optional none)
      |>.field "port" (·.port) ((Codec.unsigned 16).optional none)
      |>.field "pool_size" (·.poolSize) ((Codec.unsigned 64).default 32)
      |>.field "connect_timeout" (·.connectTimeout)
        ((Codec.unsigned 64).default 5)
      |>.field "read_timeout" (·.readTimeout) ((Codec.unsigned 64).default 30)
      |>.field "cache" (·.cache) (fastCgiCacheConfig.codec.optional none)

@[simp] theorem reads_fastCgiConfig (value : FastCgiConfig) :
    fastCgiConfig.codec.Reads dialect value := by
  rw [Derived.reads_iff]
  simp [fastCgiConfig, Record.Reads]

/-! ## Sites -/

/-- `RealIpConfig`. -/
def realIpConfig : Derived RealIpConfig where
  record :=
    Record.of RealIpConfig.mk
      |>.field "set_real_ip_from" (·.setRealIpFrom) (Codec.text.list.default [])
      |>.field "real_ip_header" (·.realIpHeader)
        (Codec.text.default "X-Forwarded-For")
      |>.field "recursive" (·.recursive) (Codec.bool.default false)

@[simp] theorem reads_realIpConfig (value : RealIpConfig) :
    realIpConfig.codec.Reads dialect value := by
  rw [Derived.reads_iff]
  simp [realIpConfig, Record.Reads]

/-- `HstsConfig`. -/
def hstsConfig : Derived HstsConfig where
  record :=
    Record.of HstsConfig.mk
      |>.field "max_age" (·.maxAge) ((Codec.unsigned 64).default 31536000)
      |>.field "include_sub_domains" (·.includeSubDomains)
        (Codec.bool.default false)
      |>.field "preload" (·.preload) (Codec.bool.default false)

/-- `HstsConfig::default`. -/
def hstsDefault : HstsConfig :=
  ⟨31536000, false, false⟩

@[simp] theorem reads_hstsConfig (value : HstsConfig) :
    hstsConfig.codec.Reads dialect value := by
  rw [Derived.reads_iff]
  simp [hstsConfig, Record.Reads]

/-- The texts of `SitePreset`. -/
def SitePreset.text : SitePreset → String
  | .wordPress =>
      "wordpress"
  | .laravel =>
      "laravel"
  | .static =>
      "static"

/-- `SitePreset`. -/
def sitePreset : Codec SitePreset :=
  .variants SitePreset.text [.wordPress, .laravel, .static]

@[simp] theorem reads_sitePreset (value : SitePreset) :
    sitePreset.Reads dialect value :=
  reads_variants (fun value => by cases value <;> rfl) value

/-- A member of a map with keys of 16 bits. -/
def pageOf? (member : String × Json) : Option (Sigma fun _ : U16 => String) :=
  match member.2 with
  | .string text =>
      (parseU16? member.1.toList).map fun status =>
        ⟨BitVec.ofNat 16 status, text⟩
  | _ =>
      none

/--
`HashMap<u16, String>` with `deserialize_u16_map`; which of two texts of one
number counts depends on the order of a hash map.
-/
def errorPages : Codec ErrorPages where
  write pages :=
    .numbered (pages.entries.map fun page => (page.1.toNat, page.2))
  read?
    | .object members =>
        (members.mapM pageOf?).map fun pages =>
          pages.foldr (fun page table => AList.insert page.1 page.2 table) ∅
    | _ =>
        none
  present _ := rfl

/-- `SiteConfig`. -/
def siteConfig : Derived SiteConfig where
  record :=
    Record.of SiteConfig.mk
      |>.field "name" (·.name) Codec.text.required
      |>.field "server_name" (·.serverName) Codec.text.list.required
      |>.field "listen" (·.listen) ((Codec.unsigned 16).list.default [80])
      |>.field "listen_tls" (·.listenTls) ((Codec.unsigned 16).list.default [])
      |>.field "root" (·.root) (Codec.text.optional none)
      |>.field "index" (·.index)
        (Codec.text.list.default ["index.html", "index.htm"])
      |>.field "access_log" (·.accessLog) (Codec.text.optional none)
      |>.field "access_log_format" (·.accessLogFormat)
        (Codec.text.optional none)
      |>.field "error_log" (·.errorLog) (Codec.text.optional none)
      |>.field "tls" (·.tls) (tlsConfig.codec.optional none)
      |>.field "fastcgi" (·.fastcgi) (fastCgiConfig.codec.optional none)
      |>.field "upstreams" (·.upstreams) (upstreamConfig.codec.list.default [])
      |>.field "locations" (·.locations) (locationConfig.codec.list.default [])
      |>.field "rewrites" (·.rewrites) (rewriteRule.codec.list.default [])
      |>.field "rate_limit" (·.rateLimit) (rateLimitConfig.codec.optional none)
      |>.field "hsts" (·.hsts) (hstsConfig.codec.optional (some hstsDefault))
      |>.field "fallback" (·.fallback) (Codec.bool.default false)
      |>.field "gzip" (·.gzip) (Codec.bool.optional none)
      |>.field "gzip_comp_level" (·.gzipCompLevel)
        ((Codec.unsigned 32).optional none)
      |>.field "compress" (·.compress)
        (siteCompressConfig.codec.default siteCompressDefault)
      |>.field "websocket" (·.websocket) (Codec.bool.default true)
      |>.field "force_https" (·.forceHttps) (Codec.bool.default true)
      |>.field "real_ip" (·.realIp) (realIpConfig.codec.optional none)
      |>.field "proxy_protocol" (·.proxyProtocol) (Codec.bool.default false)
      |>.field "error_pages" (·.errorPages) (errorPages.default ∅)
      |>.field "proxy_cache" (·.proxyCache)
        (proxyCacheConfig.codec.optional none)
      |>.field "preset" (·.preset) (sitePreset.optional none)
      |>.field "php_fastcgi" (·.phpFastcgi) (Codec.text.optional none)
      |>.field "acme_email" (·.acmeEmail) (Codec.text.optional none)

/-- `AppConfig`. -/
def appConfig : Derived AppConfig where
  record :=
    Record.of AppConfig.mk
      |>.field "global" (·.global) (globalConfig.codec.default globalDefault)
      |>.field "sites" (·.sites) (siteConfig.codec.list.default [])

end Sweety.ConfigModel
