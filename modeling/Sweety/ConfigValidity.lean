import Sweety.ConfigSerde
import Sweety.ConfigTree
import Sweety.HotReload
import Sweety.StepRun

namespace Sweety.ConfigValidity

open ConfigTree

/-!
# Whether the configuration in force is valid

Model of `load_config` and `validate_config` in `config/loader.rs`, of the
reload loop in `config/hot_reload.rs` and of the endpoints in
`admin_api/handlers/config.rs` that put a configuration in force.  The startup,
the reload loop and `/config/reload` read the configuration file with
`load_config`, which validates what it has read.  `/load` and the updates of the
configuration tree apply what `serde` makes of the request.

What a step does to the registry and to the resolvers is that of the model of
hot reloads.
-/

/-! ## Validation -/

/-- The checks of `validate_config` on a location. -/
def validateLocation
    (site : ConfigModel.SiteConfig)
    (location : ConfigModel.LocationConfig) :
    Except String Unit :=
  match location.handler with
  | .reverseProxy =>
      match location.upstream with
      | none =>
          throw
            ("站点 '" ++ site.name ++ "' 的 location '" ++ location.path ++
              "' 使用 reverse_proxy 但未指定 upstream")
      | some upName =>
          if site.upstreams.any fun upstream => upstream.name == upName then
            return
          else
            throw
              ("站点 '" ++ site.name ++ "' 的 location '" ++ location.path ++
                "' 引用了不存在的上游组 '" ++ upName ++ "'")
  | _ =>
      return

/-- The checks of `validate_config` on the certificates of a site. -/
def validateTls (site : ConfigModel.SiteConfig) : Except String Unit :=
  match site.tls with
  | some tls =>
      if !tls.acme && tls.certs.isEmpty &&
          (tls.cert.isNone || tls.key.isNone) then
        throw
          ("站点 '" ++ site.name ++
            "' 的 TLS 配置：非 ACME 模式必须指定 cert+key 或 certs 列表")
      else
        return
  | none =>
      return

/-- The body of the loop of `validate_config`. -/
def validateSite (site : ConfigModel.SiteConfig) : Except String Unit := do
  if site.name = "" then
    throw "站点 name 不能为空"
  if site.serverName = [] then
    throw ("站点 '" ++ site.name ++ "' 的 server_name 列表不能为空")
  for location in site.locations do
    validateLocation site location
  validateTls site

/-- `validate_config`. -/
def validateConfig (cfg : ConfigModel.AppConfig) : Except String Unit := do
  for site in cfg.sites do
    validateSite site

/-- A configuration that `validate_config` accepts. -/
def Valid (cfg : ConfigModel.AppConfig) : Prop :=
  validateConfig cfg = .ok ()

/-- `AppConfig::default()`. -/
def defaultConfig : ConfigModel.AppConfig where
  global := ConfigModel.globalDefault
  sites := []

theorem valid_defaultConfig : Valid defaultConfig :=
  rfl

/-! ## The sites of a configuration -/

/-- The settings of a response cache. -/
def cacheOf (cache : ConfigModel.ProxyCacheConfig) : ProxyCacheConfig where
  path := cache.path
  maxEntries := cache.maxEntries.toNat
  ttl := cache.ttl.toNat
  cacheableStatuses := cache.cacheableStatuses.map BitVec.toNat
  cacheableMethods := cache.cacheableMethods
  bypassHeaders := cache.bypassHeaders
  ignoreHeaders := cache.ignoreHeaders

/-- The settings of a FastCGI cache. -/
def fcgiCacheOf (cache : ConfigModel.FastCgiCacheConfig) :
    ProxyCacheConfig where
  path := cache.path
  maxEntries := cache.maxEntries.toNat
  ttl := cache.ttl.toNat
  cacheableStatuses := cache.cacheableStatuses.map BitVec.toNat
  cacheableMethods := cache.cacheableMethods
  bypassHeaders := cache.bypassHeaders
  ignoreHeaders := cache.ignoreHeaders

/-- A site as the registry and the resolvers see it. -/
def siteOf (site : ConfigModel.SiteConfig) :
    SiteConfig ConfigModel.TlsConfig ConfigModel.SiteConfig where
  name := site.name
  serverName := site.serverName
  listenTls := site.listenTls.map BitVec.toNat
  fallback := site.fallback
  tls := site.tls
  accessLog := site.accessLog
  accessLogFormat := site.accessLogFormat
  proxyCache := site.proxyCache.map cacheOf
  fastcgiCache :=
    (site.fastcgi.bind ConfigModel.FastCgiConfig.cache).map fcgiCacheOf
  other := site

def sitesOf (cfg : ConfigModel.AppConfig) :
    List (SiteConfig ConfigModel.TlsConfig ConfigModel.SiteConfig) :=
  cfg.sites.map siteOf

/-! ## The server -/

/-- What is used of other libraries, of the file system and of the presets. -/
structure ConfigEnv (Cert : Type) where
  externals : Externals ConfigModel.TlsConfig ConfigModel.SiteConfig Cert
  serde : Serde ConfigModel.AppConfig
  /-- `serde_json::from_slice::<AppConfig>`. -/
  configFromSlice : List UInt8 → Except String ConfigModel.AppConfig
  /-- `serde_json::from_slice::<Value>`. -/
  valueFromSlice : List UInt8 → Except String Json
  /-- `expand_config`. -/
  expandConfig : ConfigModel.AppConfig → ConfigModel.AppConfig
  /-- `preflight_tls`. -/
  preflightTls : ConfigModel.AppConfig → Except String Unit

/-- The configuration in force, and what is kept for its sites. -/
structure State (Cert : Type) where
  cfg : ConfigModel.AppConfig
  live : Live ConfigModel.TlsConfig ConfigModel.SiteConfig Cert

/-- What is found at the path of the configuration file. -/
inductive ConfigFile where
  | missing (path : String)
  | broken (text : String)
  | parsed (cfg : ConfigModel.AppConfig)

/-- How a step ends. -/
inductive Outcome where
  | success
  | rejected (status : Nat) (text : String)
  | unchanged (text : String)
  deriving Repr, DecidableEq

def Outcome.isSuccess : Outcome → Bool
  | .success =>
      true
  | .rejected _ _ | .unchanged _ =>
      false

/-- The steps; a path is given by its segments, a value by its text. -/
inductive Event where
  | hotReload (file : ConfigFile) (order : DiffOrder)
  | load (body : List UInt8)
  | post (segments : List String) (body : List UInt8)
  | put (segments : List String) (body : List UInt8)
  | patch (segments : List String) (body : List UInt8)
  | delete (segments : List String)
  | reload (file : Option ConfigFile)

section Handlers

variable {Cert : Type} (env : ConfigEnv Cert)

/-- `load_config`. -/
def loadConfig : ConfigFile → Except String ConfigModel.AppConfig
  | .missing path =>
      throw ("读取配置文件失败: " ++ path)
  | .broken text =>
      throw text
  | .parsed cfg => do
      validateConfig (env.expandConfig cfg)
      return env.expandConfig cfg

/-- The state at the start. -/
def startup (cfg : ConfigModel.AppConfig) : State Cert where
  cfg := cfg
  live := env.externals.startup (sitesOf cfg)

/-- `apply_config`. -/
def applyConfig (new : ConfigModel.AppConfig) (state : State Cert) :
    State Cert where
  cfg := new
  live := env.externals.applyConfig (sitesOf new) state.live

/-- `apply_diff`, and the configuration that the loop keeps. -/
def applyDiff
    (new : ConfigModel.AppConfig)
    (order : DiffOrder)
    (state : State Cert) :
    State Cert where
  cfg := new
  live :=
    { env.externals.applyDiff (sitesOf new) order state.live with
      currentConfig := sitesOf new }

/-- The body of the reload loop. -/
def hotReload (file : ConfigFile) (order : DiffOrder) (state : State Cert) :
    Outcome × State Cert :=
  match file with
  | .missing path =>
      (.unchanged ("配置文件已被删除或不可访问: " ++ path), state)
  | .broken _ | .parsed _ =>
      match loadConfig env file with
      | .error text =>
          (.unchanged ("配置文件有误，旧配置继续生效:" ++ text), state)
      | .ok new =>
          match validateConfig new with
          | .error text =>
              (.unchanged ("配置逻辑校验失败，旧配置继续生效:" ++ text), state)
          | .ok () =>
              match env.preflightTls new with
              | .error text =>
                  (.unchanged ("TLS 证书校验失败，旧配置继续生效:" ++ text),
                    state)
              | .ok () =>
                  (.success, applyDiff env new order state)

/-- `route_load`; `apply_config` does not fail. -/
def routeLoad (body : List UInt8) (state : State Cert) :
    Outcome × State Cert :=
  match env.configFromSlice body with
  | .error text =>
      (.rejected 400 ("JSON 解析失败: " ++ text), state)
  | .ok new =>
      (.success, applyConfig env new state)

/-- `config_tree_mutate`. -/
def treeMutate (request : Request) (state : State Cert) :
    Outcome × State Cert :=
  match configTreeMutate env.serde request state.cfg with
  | .error error =>
      (.rejected error.status error.text, state)
  | .ok new =>
      (.success, applyConfig env new state)

/-- The value of a request, if its body is one. -/
def withValue
    (body : List UInt8)
    (state : State Cert)
    (go : Json → Outcome × State Cert) :
    Outcome × State Cert :=
  match env.valueFromSlice body with
  | .error text =>
      (.rejected 400 ("JSON 解析失败: " ++ text), state)
  | .ok value =>
      go value

/-- `route_config_reload`. -/
def routeConfigReload (file : Option ConfigFile) (state : State Cert) :
    Outcome × State Cert :=
  match file with
  | none =>
      (.rejected 400 "未指定配置文件路径，无法热重载", state)
  | some file =>
      match loadConfig env file with
      | .ok new =>
          (.success, applyConfig env new state)
      | .error text =>
          (.rejected 400 ("配置加载失败: " ++ text), state)

/-- The handler of a step. -/
def handle (state : State Cert) : Event → Outcome × State Cert
  | .hotReload file order =>
      hotReload env file order state
  | .load body =>
      routeLoad env body state
  | .post segments body =>
      withValue env body state fun value =>
        treeMutate env (.post segments value) state
  | .put segments body =>
      withValue env body state fun value =>
        match segments.getLast? with
        | none =>
            (.rejected 400 "PUT /config/ 不能替换根配置，请使用 POST /load",
              state)
        | some last =>
            treeMutate env (.put segments.dropLast last value) state
  | .patch segments body =>
      withValue env body state fun value =>
        treeMutate env (.patch segments value) state
  | .delete segments =>
      match segments.getLast? with
      | none =>
          (.success, applyConfig env defaultConfig state)
      | some last =>
          treeMutate env (.delete segments.dropLast last) state
  | .reload file =>
      routeConfigReload env file state

def step (state : State Cert) (event : Event) : Option (State Cert) :=
  some (handle env state event).2

/-! ## What is wanted -/

/--
The configuration is valid after the step, and a step that does not succeed
leaves the configuration and the registry as they were.
-/
def Sound (before : State Cert) (event : Event) (after : State Cert) : Prop :=
  Valid after.cfg ∧
    ((handle env before event).1.isSuccess = false →
      after.cfg = before.cfg ∧
        after.live.registry = before.live.registry)

/-- The update of the tree that a step asks for. -/
def treeRequest? : Event → Option Request
  | .post segments body =>
      ((env.valueFromSlice body).toOption).map fun value =>
        .post segments value
  | .put segments body =>
      (env.valueFromSlice body).toOption.bind fun value =>
        segments.getLast?.map fun last => .put segments.dropLast last value
  | .patch segments body =>
      ((env.valueFromSlice body).toOption).map fun value =>
        .patch segments value
  | .delete segments =>
      segments.getLast?.map fun last => .delete segments.dropLast last
  | .hotReload _ _ | .load _ | .reload _ =>
      none

/--
What `/load` reads from a body, and what an update makes of the configuration in
force, is valid.
-/
def AsksForValid (before : State Cert) (event : Event) (_ : State Cert) :
    Prop :=
  (∀ body new,
    event = .load body →
    env.configFromSlice body = .ok new →
    Valid new) ∧
  ∀ request new,
    treeRequest? env event = some request →
    configTreeMutate env.serde request before.cfg = .ok new →
    Valid new

end Handlers

/-! ## Which steps are sound -/

section Steps

variable
  {Cert : Type}
  {env : ConfigEnv Cert}
  {state : State Cert}

/-- What a handler gives back is sound. -/
def SoundResult (before : State Cert) (result : Outcome × State Cert) :
    Prop :=
  Valid result.2.cfg ∧
    (result.1.isSuccess = false →
      result.2.cfg = before.cfg ∧
        result.2.live.registry = before.live.registry)

theorem soundResult_success
    (after : State Cert) :
    SoundResult state (.success, after) ↔ Valid after.cfg := by
  constructor
  · intro sound
    exact sound.1
  · intro isValid
    refine ⟨isValid, ?_⟩
    intro notSuccess
    cases notSuccess

/-- Whoever keeps the state is sound. -/
theorem soundResult_kept
    (isValid : Valid state.cfg)
    (outcome : Outcome) :
    SoundResult state (outcome, state) :=
  ⟨isValid, fun _ => ⟨rfl, rfl⟩⟩

/-- What is loaded has been validated. -/
theorem valid_of_loadConfig
    {file : ConfigFile}
    {new : ConfigModel.AppConfig}
    (isLoaded : loadConfig env file = .ok new) :
    Valid new := by
  cases file with
  | missing path =>
      cases isLoaded
  | broken text =>
      cases isLoaded
  | parsed cfg =>
      have isRead :
          (validateConfig (env.expandConfig cfg) >>= fun _ =>
            pure (env.expandConfig cfg)) = Except.ok new :=
        isLoaded
      cases isChecked : validateConfig (env.expandConfig cfg) with
      | error text =>
          rw [isChecked] at isRead
          cases isRead
      | ok done =>
          rw [isChecked] at isRead
          cases isRead
          exact isChecked

theorem soundResult_hotReload
    (isValid : Valid state.cfg)
    (file : ConfigFile)
    (order : DiffOrder) :
    SoundResult state (hotReload env file order state) := by
  unfold hotReload
  split
  · exact soundResult_kept isValid _
  all_goals
    split
    · exact soundResult_kept isValid _
    · split
      · exact soundResult_kept isValid _
      · rename_i new isLoaded _ _
        split
        · exact soundResult_kept isValid _
        · exact (soundResult_success _).mpr (valid_of_loadConfig isLoaded)

theorem soundResult_routeConfigReload
    (isValid : Valid state.cfg)
    (file : Option ConfigFile) :
    SoundResult state (routeConfigReload env file state) := by
  unfold routeConfigReload
  split
  · exact soundResult_kept isValid _
  · split
    · rename_i new isLoaded
      exact (soundResult_success _).mpr (valid_of_loadConfig isLoaded)
    · exact soundResult_kept isValid _

/-- A step that applies what it has made, or keeps the state. -/
theorem soundResult_iff_of_made
    {Error : Type}
    {made : Except Error ConfigModel.AppConfig}
    {result : Outcome × State Cert}
    (kept : ∀ error, made = .error error → SoundResult state result)
    (applied :
      ∀ new, made = .ok new → (SoundResult state result ↔ Valid new)) :
    SoundResult state result ↔ ∀ new, made = .ok new → Valid new := by
  cases made with
  | error error =>
      refine iff_of_true (kept error rfl) ?_
      intro new isMade
      cases isMade
  | ok new =>
      rw [applied new rfl]
      constructor
      · intro newValid other isOther
        cases isOther
        exact newValid
      · intro allValid
        exact allValid new rfl

theorem soundResult_routeLoad_iff
    (isValid : Valid state.cfg)
    (body : List UInt8) :
    SoundResult state (routeLoad env body state) ↔
      ∀ new, env.configFromSlice body = .ok new → Valid new := by
  apply soundResult_iff_of_made
  · intro text notRead
    rw [routeLoad, notRead]
    exact soundResult_kept isValid _
  · intro new isRead
    rw [routeLoad, isRead]
    exact soundResult_success _

theorem soundResult_treeMutate_iff
    (isValid : Valid state.cfg)
    (request : Request) :
    SoundResult state (treeMutate env request state) ↔
      ∀ new,
        configTreeMutate env.serde request state.cfg = .ok new →
        Valid new := by
  apply soundResult_iff_of_made
  · intro error notMade
    rw [treeMutate, notMade]
    exact soundResult_kept isValid _
  · intro new isMade
    rw [treeMutate, isMade]
    exact soundResult_success _

/-- A step that updates the tree, by its update. -/
theorem soundResult_treeMutate_iff_asks
    (isValid : Valid state.cfg)
    {event : Event}
    {request : Request}
    {after : State Cert}
    (isRequest : treeRequest? env event = some request) :
    SoundResult state (treeMutate env request state) ↔
      AsksForValid env state event after := by
  rw [soundResult_treeMutate_iff isValid]
  constructor
  · intro allValid
    constructor
    · rintro body new rfl
      cases isRequest
    · intro other new isOther
      cases isRequest.symm.trans isOther
      exact allValid new
  · intro asks new
    exact asks.2 request new isRequest

/-- A step that is no update and no `/load` asks for nothing. -/
theorem asksForValid_of_none
    {event : Event}
    {after : State Cert}
    (notLoad : ∀ body, event ≠ .load body)
    (noRequest : treeRequest? env event = none) :
    AsksForValid env state event after := by
  constructor
  · intro body new isLoad
    exact absurd isLoad (notLoad body)
  · intro request new isRequest
    cases noRequest.symm.trans isRequest

/-- A step that keeps the state and asks for nothing. -/
theorem soundResult_iff_of_kept
    (isValid : Valid state.cfg)
    {event : Event}
    {outcome : Outcome}
    {after : State Cert}
    (notLoad : ∀ body, event ≠ .load body)
    (noRequest : treeRequest? env event = none)
    (isKept : handle env state event = (outcome, state)) :
    SoundResult state (handle env state event) ↔
      AsksForValid env state event after := by
  rw [isKept]
  exact
    ⟨fun _ => asksForValid_of_none notLoad noRequest,
      fun _ => soundResult_kept isValid outcome⟩

/-- A step with a value that is not read. -/
theorem withValue_error
    {body : List UInt8}
    {text : String}
    (isRead : env.valueFromSlice body = .error text)
    (go : Json → Outcome × State Cert) :
    withValue env body state go =
      (.rejected 400 ("JSON 解析失败: " ++ text), state) := by
  rw [withValue, isRead]

theorem withValue_ok
    {body : List UInt8}
    {value : Json}
    (isRead : env.valueFromSlice body = .ok value)
    (go : Json → Outcome × State Cert) :
    withValue env body state go = go value := by
  rw [withValue, isRead]

/-- A step with a value from its body, which an update may be made of. -/
theorem soundResult_iff_of_body
    (isValid : Valid state.cfg)
    {event : Event}
    {after : State Cert}
    {body : List UInt8}
    {go : Json → Outcome × State Cert}
    (make : Json → Option Request)
    (notLoad : ∀ other, event ≠ .load other)
    (isStep : handle env state event = withValue env body state go)
    (isRequest :
      treeRequest? env event = (env.valueFromSlice body).toOption.bind make)
    (updates :
      ∀ value request,
        make value = some request →
        go value = treeMutate env request state)
    (keeps :
      ∀ value, make value = none → ∃ outcome, go value = (outcome, state)) :
    SoundResult state (handle env state event) ↔
      AsksForValid env state event after := by
  cases isRead : env.valueFromSlice body with
  | error text =>
      have noRequest : treeRequest? env event = none := by
        rw [isRequest, isRead]
        rfl
      exact
        soundResult_iff_of_kept isValid notLoad noRequest
          (isStep.trans (withValue_error isRead go))
  | ok value =>
      have isMade : treeRequest? env event = make value := by
        rw [isRequest, isRead]
        rfl
      have isGone := isStep.trans (withValue_ok isRead go)
      cases made : make value with
      | none =>
          obtain ⟨outcome, isKept⟩ := keeps value made
          exact
            soundResult_iff_of_kept isValid notLoad (isMade.trans made)
              (isGone.trans isKept)
      | some request =>
          rw [isGone, updates value request made]
          exact soundResult_treeMutate_iff_asks isValid (isMade.trans made)

/-- A step is sound exactly if what it asks for is valid. -/
theorem soundResult_handle_iff
    (isValid : Valid state.cfg)
    (event : Event)
    (after : State Cert) :
    SoundResult state (handle env state event) ↔
      AsksForValid env state event after := by
  cases event with
  | hotReload file order =>
      have asks :
          AsksForValid env state (.hotReload file order) after :=
        asksForValid_of_none (fun _ => Event.noConfusion) rfl
      exact ⟨fun _ => asks, fun _ => soundResult_hotReload isValid file order⟩
  | load body =>
      constructor
      · intro sound
        refine ⟨?_, ?_⟩
        · intro other new isLoad
          cases isLoad
          exact (soundResult_routeLoad_iff isValid body).mp sound new
        · intro request new isRequest
          cases isRequest
      · intro asks
        apply (soundResult_routeLoad_iff isValid body).mpr
        intro new
        exact asks.1 body new rfl
  | post segments body =>
      refine
        soundResult_iff_of_body isValid
          (fun value => some (.post segments value))
          (fun _ => Event.noConfusion) rfl Option.map_eq_bind ?_ ?_
      · intro value request made
        cases made
        rfl
      · intro value made
        cases made
  | put segments body =>
      refine
        soundResult_iff_of_body isValid
          (fun value =>
            segments.getLast?.map fun last => .put segments.dropLast last value)
          (fun _ => Event.noConfusion) rfl rfl ?_ ?_
      · intro value request made
        obtain ⟨last, isLast, rfl⟩ := Option.map_eq_some_iff.mp made
        rw [isLast]
      · intro value made
        rw [Option.map_eq_none_iff.mp made]
        exact ⟨_, rfl⟩
  | patch segments body =>
      refine
        soundResult_iff_of_body isValid
          (fun value => some (.patch segments value))
          (fun _ => Event.noConfusion) rfl Option.map_eq_bind ?_ ?_
      · intro value request made
        cases made
        rfl
      · intro value made
        cases made
  | delete segments =>
      cases isLast : segments.getLast? with
      | none =>
          have isCleared :
              handle env state (.delete segments) =
                (.success, applyConfig env defaultConfig state) := by
            rw [handle, isLast]
          have noRequest : treeRequest? env (.delete segments) = none := by
            rw [treeRequest?, isLast]
            rfl
          rw [isCleared]
          exact
            ⟨fun _ => asksForValid_of_none (fun _ => Event.noConfusion)
              noRequest,
              fun _ => (soundResult_success _).mpr valid_defaultConfig⟩
      | some last =>
          have isRequest :
              treeRequest? env (.delete segments) =
                some (.delete segments.dropLast last) := by
            rw [treeRequest?, isLast]
            rfl
          have isUpdate :
              handle env state (.delete segments) =
                treeMutate env (.delete segments.dropLast last) state := by
            rw [handle, isLast]
          rw [isUpdate]
          exact soundResult_treeMutate_iff_asks isValid isRequest
  | reload file =>
      have asks : AsksForValid env state (.reload file) after :=
        asksForValid_of_none (fun _ => Event.noConfusion) rfl
      exact
        ⟨fun _ => asks, fun _ => soundResult_routeConfigReload isValid file⟩

theorem sound_iff_asks
    (isValid : Valid state.cfg)
    {event : Event}
    {after : State Cert}
    (taken : step env state event = some after) :
    Sound env state event after ↔ AsksForValid env state event after := by
  cases taken
  exact soundResult_handle_iff isValid event _

/--
After a start with a configuration that was loaded, every step of a run is sound
exactly if every step asks for a valid configuration.
-/
theorem sound_along_iff
    {file : ConfigFile}
    {cfg : ConfigModel.AppConfig}
    (isLoaded : loadConfig env file = .ok cfg)
    (events : List Event) :
    StepRun.Along (step env) (Sound env) (startup env cfg) events ↔
      StepRun.Along (step env) (AsksForValid env) (startup env cfg) events := by
  have keeps :
      ∀ {before event after},
        Valid before.cfg →
        step env before event = some after →
        AsksForValid env before event after →
        Valid after.cfg := by
    intro before event after isValid taken asks
    exact ((sound_iff_asks isValid taken).mpr asks).1
  exact
    StepRun.along_congr_of_guarded keeps
      (fun isValid taken => sound_iff_asks isValid taken)
      (valid_of_loadConfig isLoaded)

end Steps

/-! ## A site without names -/

section Sample

/-- What is read of a site that gives its name and names for its hosts. -/
def sampleSite (serverName : List String) : ConfigModel.SiteConfig where
  name := "s"
  serverName := serverName
  listen := [80]
  listenTls := []
  root := none
  index := ["index.html", "index.htm"]
  accessLog := none
  accessLogFormat := none
  errorLog := none
  tls := none
  fastcgi := none
  upstreams := []
  locations := []
  rewrites := []
  rateLimit := none
  hsts := some ConfigModel.hstsDefault
  fallback := false
  gzip := none
  gzipCompLevel := none
  compress := ConfigModel.siteCompressDefault
  websocket := true
  forceHttps := true
  realIp := none
  proxyProtocol := false
  errorPages := ∅
  proxyCache := none
  preset := none
  phpFastcgi := none
  acmeEmail := none

def sampleConfig (serverName : List String) : ConfigModel.AppConfig where
  global := ConfigModel.globalDefault
  sites := [sampleSite serverName]

def namedBody : List UInt8 :=
  HttpText.encodeUtf8
    "\x7b\"sites\":[\x7b\"name\":\"s\",\"server_name\":[\"a\"]\x7d]\x7d".toList

def unnamedBody : List UInt8 :=
  HttpText.encodeUtf8
    "\x7b\"sites\":[\x7b\"name\":\"s\",\"server_name\":[]\x7d]\x7d".toList

/-- Two bodies are read as what they say. -/
def sampleEnv : ConfigEnv Unit where
  externals :=
    { lower := id
      siteToml := fun _ => none
      tlsToml := fun _ => none
      certifiedKeys := fun _ _ => []
      opensLog := fun _ => false
      first := fun _ => none }
  serde := ⟨fun _ => .ok .null, fun _ => .error "invalid type: null"⟩
  configFromSlice body :=
    if body == namedBody then
      .ok (sampleConfig ["a"])
    else if body == unnamedBody then
      .ok (sampleConfig [])
    else
      .error "expected value"
  valueFromSlice _ := .error "expected value"
  expandConfig := id
  preflightTls _ := .ok ()

/-- A valid configuration is loaded. -/
theorem sound_along_named :
    StepRun.Along (step sampleEnv) (Sound sampleEnv)
      (startup sampleEnv defaultConfig) [.load namedBody] := by
  have isLoaded :
      loadConfig sampleEnv (.parsed defaultConfig) = .ok defaultConfig :=
    rfl
  apply (sound_along_iff isLoaded [.load namedBody]).mpr
  intro next taken
  refine ⟨⟨?_, ?_⟩, trivial⟩
  · intro body new isLoad isRead
    cases isLoad
    have isNamed :
        sampleEnv.configFromSlice namedBody = .ok (sampleConfig ["a"]) :=
      rfl
    cases isNamed.symm.trans isRead
    rfl
  · intro request new isRequest
    cases isRequest

/-- `/load` puts a site without a name for a host in force. -/
theorem not_sound_along_unnamed :
    ¬ StepRun.Along (step sampleEnv) (Sound sampleEnv)
      (startup sampleEnv defaultConfig) [.load unnamedBody] := by
  intro along
  obtain ⟨sound, -⟩ := along _ rfl
  have isValid := sound.1
  have isUnnamed :
      sampleEnv.configFromSlice unnamedBody = .ok (sampleConfig []) :=
    rfl
  rw [handle, routeLoad, isUnnamed] at isValid
  cases isValid

end Sample

end Sweety.ConfigValidity
