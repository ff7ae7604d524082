import Sweety.ConfigSerde

namespace Sweety.ConfigModel

open HttpText ConfigTree KeyedTable SerdeDerive

/-!
# Which configurations survive the admin API

Every edit of the admin API writes the configuration as JSON and reads it again,
and a save writes it as TOML.  A configuration survives both if and only if it
has none of the parts whose reader and writer do not fit: upstream nodes and
plugins in either format, and in TOML error pages, a site without HSTS and
numbers beyond 63 bits.
-/

variable {dialect : Dialect}

/-! ## Error pages -/

theorem pageOf?_decimal (status : U16) (text : String) :
    pageOf? (decimal status.toNat, .string text) = some ⟨status, text⟩ := by
  have isDigits :
      (decimal status.toNat).toList = Nat.toDigits 10 status.toNat :=
    String.toList_ofList
  have small : status.toNat < 2 ^ 16 := status.isLt
  simp [pageOf?, isDigits, parseU16?_toDigits_of_lt small]

theorem mapM_pageOf? (pages : List (Sigma fun _ : U16 => String)) :
    ((pages.map fun page =>
        ((decimal page.1.toNat, .string page.2) : String × Json))).mapM
        pageOf? =
      some pages := by
  induction pages with
  | nil =>
      rfl
  | cons page rest inductionHypothesis =>
      rw [List.map_cons, List.mapM_cons, pageOf?_decimal,
        inductionHypothesis]
      rfl

/-- A table is built from its own entries. -/
theorem entries_foldr_insert
    {pages : List (Sigma fun _ : U16 => String)}
    (distinct : pages.NodupKeys) :
    (pages.foldr
        (fun page (table : ErrorPages) => AList.insert page.1 page.2 table)
        ∅).entries =
      pages := by
  induction pages with
  | nil =>
      rfl
  | cons page rest inductionHypothesis =>
      rw [List.nodupKeys_cons] at distinct
      have isRest := inductionHypothesis distinct.2
      rw [List.foldr_cons, AList.entries_insert_of_notMem, isRest]
      intro member
      rw [AList.mem_keys, AList.keys, isRest] at member
      exact distinct.1 member

theorem tree?_errorPages (pages : ErrorPages) :
    (errorPages.write pages).tree? dialect =
      if dialect = .json ∨ pages = ∅ then
        some (.object
          (pages.entries.map fun page =>
            (decimal page.1.toNat, .string page.2)))
      else
        none := by
  have isEmpty : pages.entries = [] ↔ pages = ∅ := by
    rw [AList.ext_iff]
    rfl
  simp only [errorPages, Data.tree?, List.map_eq_nil_iff, isEmpty,
    List.map_map]
  rfl

/-- TOML has no keys that are numbers. -/
@[simp] theorem reads_errorPages_iff (pages : ErrorPages) :
    errorPages.Reads dialect pages ↔ dialect = .json ∨ pages = ∅ := by
  rw [Codec.Reads, tree?_errorPages]
  by_cases written : dialect = .json ∨ pages = ∅
  · rw [if_pos written, Option.bind_some, iff_true_right written,
      errorPages]
    dsimp only
    rw [mapM_pageOf?, Option.map_some, Option.some.injEq]
    exact AList.ext (entries_foldr_insert pages.nodupKeys)
  · rw [if_neg written, Option.bind_none, iff_false_right written]
    simp

/-! ## Upstreams, locations and sites -/

/-- The name of a plugin. -/
def HandlerType.plugin? : HandlerType → Option String
  | .plugin name =>
      some name
  | _ =>
      none

theorem HandlerType.plugin?_eq_none_iff {handler : HandlerType} :
    handler.plugin? = none ↔ ∀ name, handler ≠ .plugin name := by
  cases handler <;> simp [HandlerType.plugin?]

@[simp] theorem not_reads_upstreamNode (node : UpstreamNode) :
    ¬ upstreamNode.codec.Reads dialect node := by
  rw [Derived.reads_iff]
  simp [upstreamNode, Record.Reads]

@[simp] theorem reads_upstreamConfig_iff (upstream : UpstreamConfig) :
    upstreamConfig.codec.Reads dialect upstream ↔ upstream.nodes = [] := by
  rw [Derived.reads_iff]
  simp [upstreamConfig, Record.Reads, List.eq_nil_iff_forall_not_mem]

@[simp] theorem reads_locationConfig_iff (location : LocationConfig) :
    locationConfig.codec.Reads dialect location ↔
      ∀ name, location.handler ≠ .plugin name := by
  rw [Derived.reads_iff]
  simp [locationConfig, Record.Reads]

@[simp] theorem reads_siteConfig_iff (site : SiteConfig) :
    siteConfig.codec.Reads dialect site ↔
      (∀ upstream ∈ site.upstreams, upstream.nodes = []) ∧
        (∀ location ∈ site.locations, ∀ name,
          location.handler ≠ .plugin name) ∧
        (dialect = .toml → site.hsts ≠ none) ∧
        (dialect = .json ∨ site.errorPages = ∅) := by
  rw [Derived.reads_iff]
  simp [siteConfig, Record.Reads, and_assoc]

theorem reads_appConfig_iff (config : AppConfig) :
    appConfig.codec.Reads dialect config ↔
      ∀ site ∈ config.sites, siteConfig.codec.Reads dialect site := by
  rw [Derived.reads_iff]
  simp [appConfig, Record.Reads]

/-- The upstream nodes of all sites. -/
def AppConfig.nodes (config : AppConfig) : List UpstreamNode :=
  config.sites.flatMap fun site =>
    site.upstreams.flatMap fun upstream => upstream.nodes

/-- The plugins that locations are handled by. -/
def AppConfig.plugins (config : AppConfig) : List String :=
  config.sites.flatMap fun site =>
    site.locations.filterMap fun location => location.handler.plugin?

/-- A configuration is read back from JSON unless it has nodes or plugins. -/
theorem reads_json_iff (config : AppConfig) :
    appConfig.codec.Reads .json config ↔
      config.nodes = [] ∧ config.plugins = [] := by
  simp only [reads_appConfig_iff, reads_siteConfig_iff, AppConfig.nodes,
    AppConfig.plugins, List.flatMap_eq_nil_iff, List.filterMap_eq_nil_iff,
    HandlerType.plugin?_eq_none_iff, reduceCtorEq, false_implies, true_or,
    and_true, forall_and]

/-! ## The admin API -/

/--
How the endpoint writes and reads a configuration; `refusal` is an error's text.
-/
def serde (refusal : String) : Serde AppConfig where
  toValue config :=
    (((appConfig.codec.write config).tree? .json).map .ok).getD
      (.error refusal)
  fromValue tree :=
    ((appConfig.codec.read? tree).map .ok).getD (.error refusal)

/-- The answer to a path that the tree does not have. -/
def pathMissing (segments : List String) : TreeError :=
  ⟨404, "配置路径不存在: /" ++ "/".intercalate segments⟩

/--
What an administrator expects of a configuration.  A `PUT` is unrelated if it
brings in neither a node nor a plugin; it is to lead to the configuration whose
tree has the value at the path, and is otherwise the same.
-/
structure Survives
    {Text : Type}
    (toml : Toml Text)
    (refusal : String)
    (config : AppConfig) :
    Prop where
  json : appConfig.codec.Reads .json config
  saved :
    ((toml.save (appConfig.codec.write config)).bind toml.parse).bind
        appConfig.codec.read? =
      some config
  put :
    ∀ parent last value tree changed new,
      (appConfig.codec.write config).tree? .json = some tree →
      changeAt (Request.put parent last value).change
        (pathMissing parent) parent tree = .ok changed →
      (appConfig.codec.write new).tree? .json = some changed →
      new.nodes ⊆ config.nodes →
      new.plugins ⊆ config.plugins →
      configTreeMutate (serde refusal) (.put parent last value) config =
        .ok new

/-- The configurations without the parts whose reader and writer do not fit. -/
structure Plain (config : AppConfig) : Prop where
  noNodes : config.nodes = []
  noPlugins : config.plugins = []
  hasHsts : ∀ site ∈ config.sites, site.hsts ≠ none
  noErrorPages : ∀ site ∈ config.sites, site.errorPages = ∅
  /-- No number has more than 63 bits. -/
  fits : (appConfig.codec.write config).fits = true

theorem reads_toml_iff (config : AppConfig) :
    appConfig.codec.Reads .toml config ↔
      appConfig.codec.Reads .json config ∧
        (∀ site ∈ config.sites, site.hsts ≠ none) ∧
        ∀ site ∈ config.sites, site.errorPages = ∅ := by
  simp only [reads_appConfig_iff, reads_siteConfig_iff, reduceCtorEq,
    false_implies, true_implies, true_or, false_or, and_true, forall_and,
    and_assoc]

/-- A mutation leads to the configuration whose tree it makes. -/
theorem configTreeMutate_eq_ok
    {refusal : String}
    {request : Request}
    {config new : AppConfig}
    {tree changed : Json}
    (isTree : (appConfig.codec.write config).tree? .json = some tree)
    (isChanged :
      changeAt request.change (pathMissing request.segments)
        request.segments tree = .ok changed)
    (isNew : (appConfig.codec.write new).tree? .json = some changed)
    (reads : appConfig.codec.Reads .json new) :
    configTreeMutate (serde refusal) request config = .ok new := by
  have isRead : appConfig.codec.read? changed = some new := by
    rwa [Codec.Reads, isNew, Option.bind_some] at reads
  have isValue : (serde refusal).toValue config = .ok tree := by
    rw [serde]
    dsimp only
    rw [isTree]
    rfl
  have isConfig : (serde refusal).fromValue changed = .ok new := by
    rw [serde]
    dsimp only
    rw [isRead]
    rfl
  rw [pathMissing] at isChanged
  rw [configTreeMutate, isValue]
  simp only [Except.mapError, bind, Except.bind]
  rw [isChanged]
  simp only [isConfig]

/-- The tree of a configuration has two members. -/
theorem tree?_appConfig (config : AppConfig) :
    (appConfig.codec.write config).tree? .json =
      ((globalConfig.codec.write config.global).tree? .json).bind
        fun settings =>
          (Data.trees? .json (config.sites.map siteConfig.codec.write)).map
            fun items =>
              .object [("global", settings), ("sites", .array items)] := by
  have isRecord :
      appConfig.codec.write config =
        .record
          [("global", globalConfig.codec.write config.global),
           ("sites", .seq (config.sites.map siteConfig.codec.write))] :=
    rfl
  rw [isRecord, Data.tree?, members?_cons, members?_cons, Data.members?,
    shown?_of_present (globalConfig.codec.present _),
    shown?_of_present rfl, Data.tree?]
  cases (globalConfig.codec.write config.global).tree? .json <;>
    cases Data.trees? .json (config.sites.map siteConfig.codec.write) <;>
      rfl

/-- The configuration with a site more. -/
def AppConfig.insertSite
    (config : AppConfig)
    (index : Nat)
    (site : SiteConfig) :
    AppConfig :=
  { config with
    sites := config.sites.take index ++ site :: config.sites.drop index }

/-- What a `PUT` of a site does to the tree. -/
theorem changeAt_put_site
    {config : AppConfig}
    {site : SiteConfig}
    {tree value : Json}
    {last : String}
    {index : Nat}
    (isTree : (appConfig.codec.write config).tree? .json = some tree)
    (isValue : (siteConfig.codec.write site).tree? .json = some value)
    (isIndex : parseIndex? last = some index)
    (inRange : index ≤ config.sites.length) :
    ∃ changed,
      changeAt (Request.put ["sites"] last value).change
        (pathMissing ["sites"]) ["sites"] tree = .ok changed ∧
      (appConfig.codec.write (config.insertSite index site)).tree? .json =
        some changed := by
  rw [tree?_appConfig, Option.bind_eq_some_iff] at isTree
  obtain ⟨settings, isSettings, isMap⟩ := isTree
  obtain ⟨items, isItems, rfl⟩ := Option.map_eq_some_iff.mp isMap
  rw [← List.take_append_drop index config.sites, List.map_append,
    trees?_append, Option.bind_eq_some_iff] at isItems
  obtain ⟨before, isBefore, isRest⟩ := isItems
  obtain ⟨after, isAfter, rfl⟩ := Option.map_eq_some_iff.mp isRest
  have isLength : before.length = index := by
    rw [length_of_trees? isBefore, List.length_map, List.length_take,
      Nat.min_eq_left inRange]
  subst isLength
  have isPut :
      (Request.put ["sites"] last value).change
          (.array (before ++ after)) =
        .ok (.array (before ++ value :: after)) := by
    have notBeyond : ¬ (before ++ after).length < before.length := by
      rw [List.length_append]
      omega
    simp only [Request.change, isIndex, if_neg notBeyond, List.take_left,
      List.drop_left]
    rfl
  refine
    ⟨.object
      [("global", settings), ("sites", .array (before ++ value :: after))],
      ?_, ?_⟩
  · simp [changeAt, Json.field?, Json.setField, isPut, Except.mapError]
  · rw [tree?_appConfig, AppConfig.insertSite]
    dsimp only
    rw [isSettings, List.map_append, trees?_append, isBefore,
      List.map_cons, Data.trees?, isValue, isAfter]
    rfl

/-- A `PUT` of a site puts it where the path says. -/
theorem configTreeMutate_put_site
    {refusal : String}
    {config : AppConfig}
    {site : SiteConfig}
    {value : Json}
    {last : String}
    {index : Nat}
    (reads : appConfig.codec.Reads .json config)
    (isValue : (siteConfig.codec.write site).tree? .json = some value)
    (siteReads : siteConfig.codec.Reads .json site)
    (isIndex : parseIndex? last = some index)
    (inRange : index ≤ config.sites.length) :
    configTreeMutate (serde refusal) (.put ["sites"] last value) config =
      .ok (config.insertSite index site) := by
  obtain ⟨tree, isTree, _⟩ := Option.bind_eq_some_iff.mp reads
  obtain ⟨changed, isChanged, isNew⟩ :=
    changeAt_put_site isTree isValue isIndex inRange
  refine configTreeMutate_eq_ok isTree isChanged isNew ?_
  rw [reads_appConfig_iff] at reads ⊢
  rw [AppConfig.insertSite]
  intro other isOther
  rcases List.mem_append.mp isOther with isBefore | isAfter
  · exact reads other (List.mem_of_mem_take isBefore)
  · rcases List.mem_cons.mp isAfter with rfl | isAfter
    · exact siteReads
    · exact reads other (List.mem_of_mem_drop isAfter)

/-! ## Both ways -/

/--
A configuration survives the admin API and its saved file exactly if it is
plain.
-/
theorem survives_iff
    {Text : Type}
    {toml : Toml Text}
    (documented : toml.Documented)
    (refusal : String)
    (config : AppConfig) :
    Survives toml refusal config ↔ Plain config := by
  constructor
  · intro survives
    have isJson := (reads_json_iff config).mp survives.json
    have isSaved := (documented.reloads_iff _ _).mp survives.saved
    have isToml := (reads_toml_iff config).mp isSaved.2
    exact ⟨isJson.1, isJson.2, isToml.2.1, isToml.2.2, isSaved.1⟩
  · intro plain
    have isJson : appConfig.codec.Reads .json config :=
      (reads_json_iff config).mpr ⟨plain.noNodes, plain.noPlugins⟩
    have isToml : appConfig.codec.Reads .toml config :=
      (reads_toml_iff config).mpr
        ⟨isJson, plain.hasHsts, plain.noErrorPages⟩
    refine
      ⟨isJson, (documented.reloads_iff _ _).mpr ⟨plain.fits, isToml⟩, ?_⟩
    intro parent last value tree changed new isTree isChanged isNew
      noneAdded noneAddedEither
    rw [plain.noNodes, List.subset_nil] at noneAdded
    rw [plain.noPlugins, List.subset_nil] at noneAddedEither
    exact
      configTreeMutate_eq_ok isTree isChanged isNew
        ((reads_json_iff new).mpr ⟨noneAdded, noneAddedEither⟩)

/-! ### With and without a node -/

/-- A TOML whose text is the tree itself. -/
def treeToml : Toml Json where
  save data :=
    if data.fits then data.tree? .toml else none
  parse := some

theorem treeToml_documented : treeToml.Documented where
  represented data tree fits isTree :=
    ⟨tree, (if_pos fits).trans isTree, rfl⟩
  refused data unwritten := by
    rw [treeToml]
    rcases unwritten with tooLarge | noTree
    · simp [tooLarge]
    · simp [noTree]

/-- A site as it is read from a file that says nothing but its name. -/
def bareSite (name : String) (upstreams : List UpstreamConfig) :
    SiteConfig where
  name := name
  serverName := [name]
  listen := [80]
  listenTls := []
  root := none
  index := ["index.html", "index.htm"]
  accessLog := none
  accessLogFormat := none
  errorLog := none
  tls := none
  fastcgi := none
  upstreams := upstreams
  locations := []
  rewrites := []
  rateLimit := none
  hsts := some hstsDefault
  fallback := false
  gzip := none
  gzipCompLevel := none
  compress := siteCompressDefault
  websocket := true
  forceHttps := true
  realIp := none
  proxyProtocol := false
  errorPages := ∅
  proxyCache := none
  preset := none
  phpFastcgi := none
  acmeEmail := none

theorem survives_bareSite :
    Plain ⟨globalDefault, [bareSite "a.example" []]⟩ ∧
      Survives treeToml "" ⟨globalDefault, [bareSite "a.example" []]⟩ := by
  have plain : Plain ⟨globalDefault, [bareSite "a.example" []]⟩ :=
    ⟨rfl, rfl, by simp [bareSite], by simp [bareSite], by decide⟩
  exact ⟨plain, (survives_iff treeToml_documented "" _).mpr plain⟩

/-- An upstream with the one address that the documentation starts with. -/
def localUpstream : UpstreamConfig where
  name := "backend"
  strategy := .roundRobin
  healthCheck := none
  nodes :=
    [⟨.parse "127.0.0.1:3000", 1, false, none, false, none, false, 0⟩]
  keepalive := 0
  keepaliveRequests := 0
  keepaliveTime := 0
  connectTimeout := 10
  readTimeout := 60
  writeTimeout := 60
  retry := 0
  retryTimeout := 0
  proxyNextUpstream := []
  circuitBreaker := none

/--
A site with one node: the node is written as an object and read as a text.
-/
theorem not_survives_localUpstream :
    treeToml.Documented ∧
      ¬ Survives treeToml ""
        ⟨globalDefault, [bareSite "a.example" [localUpstream]]⟩ := by
  refine ⟨treeToml_documented, ?_⟩
  intro survives
  have noNodes := ((reads_json_iff _).mp survives.json).1
  cases noNodes

end Sweety.ConfigModel
