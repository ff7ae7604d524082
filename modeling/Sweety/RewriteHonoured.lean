import Sweety.Router

namespace Sweety.Router

open HttpText Rewrite

/-!
# Which handlers honour a rewrite

An internal rewrite is honoured when the router ends as it would for a client
that asks for the rewritten path.  The location is chosen by the rewritten path
and a plugin is given it, but the other handlers work from the path of the
request.  For each handler this module says for which pairs of paths that makes
no difference in any site and on any file system.
-/

/-! ## The request that the rewrite stands for -/

/--
The request with the rewritten path; a query in it takes the place of the own.
-/
def Uri.asked (uri : Uri) (target : List Char) : Uri :=
  match splitOnce? '?' target with
  | some parts =>
      ⟨parts.1, some parts.2⟩
  | none =>
      ⟨target, uri.query⟩

/-- The site without rewrite rules. -/
def SiteInfo.unruled (site : SiteInfo) : SiteInfo :=
  { site with rewrites := [] }

/-- The router ends as for a client that asks for the rewritten path. -/
def Honoured
    (statCached : List Char → CachedMeta)
    (disk : Disk)
    (site : SiteInfo)
    (uri : Uri)
    (target : List Char) :
    Prop :=
  route statCached disk site uri =
    route statCached disk site.unruled (uri.asked target)

/--
The rewrite is honoured by a handler in every location, whatever the other
settings of the site and the file system are.
-/
def HonouredBy
    (handler : HandlerType)
    (statCached : List Char → CachedMeta)
    (site : SiteInfo)
    (uri : Uri)
    (target : List Char) :
    Prop :=
  ∀ (disk : Disk) (settings : SiteSettings) (location : CompiledLocation),
    matchLocation settings.locations target = some location →
    location.handler = handler →
    Honoured statCached disk { site with settings } uri target

/-- The paths make no difference to the handler. -/
def SameFor (handler : HandlerType) (path target : List Char) : Prop :=
  match handler with
  | .static =>
      relativePath? path = relativePath? target
  | .fastcgi | .reverseProxy | .grpc =>
      path = target
  | .websocket | .plugin _ =>
      True

/-! ## Queries -/

theorem asked_of_no_query
    {target : List Char}
    (noQuery : '?' ∉ target)
    (uri : Uri) :
    uri.asked target = ⟨target, uri.query⟩ := by
  rw [Uri.asked, splitOnce?_eq_none_iff.mpr noQuery]

/-- A target with a query is not the path of the request it stands for. -/
theorem path_asked_ne
    {target : List Char}
    (hasQuery : '?' ∈ target)
    (uri : Uri) :
    (uri.asked target).path ≠ target := by
  obtain ⟨front, rest, rfl, absent⟩ := List.eq_append_cons_of_mem hasQuery
  rw [Uri.asked, splitOnce?_append absent rest]
  intro isTarget
  rw [← isTarget] at hasQuery
  exact absent hasQuery

/-! ## The router after a rewrite -/

theorem outcomeOf_of_not_marked
    {text : List Char}
    (unmarked : ¬ Marked text)
    (path : List Char) :
    outcomeOf path (some text) = .serve text := by
  cases isOutcome : outcomeOf path (some text) with
  | redirect location status =>
      rcases outcomeOf_some_eq_redirect_iff.mp isOutcome with
        ⟨_, isText⟩ | ⟨_, isText⟩
      · exact absurd (.inl ⟨location, isText.symm⟩) unmarked
      · exact absurd (.inr ⟨location, isText.symm⟩) unmarked
  | serve effectivePath =>
      rw [outcomeOf] at isOutcome
      split at isOutcome
      · cases isOutcome
      · split at isOutcome
        · cases isOutcome
        · exact isOutcome.symm

/-- The router, for an effective path. -/
def serve
    (disk : Disk)
    (site : SiteInfo)
    (uri : Uri)
    (effectivePath : List Char) :
    Routed :=
  match matchLocation site.settings.locations effectivePath with
  | none =>
      .noLocation
  | some location =>
      .handled (dispatch disk site location uri effectivePath)

variable
  {statCached : List Char → CachedMeta}
  {site : SiteInfo}
  {uri : Uri}
  {target : List Char}

theorem route_of_applyRewrites
    (rewritten :
      applyRewrites statCached site.root uri.path site.rewrites =
        some target)
    (unmarked : ¬ Marked target)
    (disk : Disk)
    (settings : SiteSettings) :
    route statCached disk { site with settings } uri =
      serve disk { site with settings } uri target := by
  rw [route, rewriteStage]
  dsimp only
  rw [rewritten, outcomeOf_of_not_marked unmarked]
  rfl

theorem route_unruled (disk : Disk) (site : SiteInfo) (uri : Uri) :
    route statCached disk site.unruled uri = serve disk site uri uri.path :=
  rfl

theorem honoured_iff_serve
    (rewritten :
      applyRewrites statCached site.root uri.path site.rewrites =
        some target)
    (unmarked : ¬ Marked target)
    (disk : Disk)
    (settings : SiteSettings) :
    Honoured statCached disk { site with settings } uri target ↔
      serve disk { site with settings } uri target =
        serve disk { site with settings } (uri.asked target)
          (uri.asked target).path := by
  rw [Honoured, route_of_applyRewrites rewritten unmarked, route_unruled]

/-! ## Where the paths make no difference -/

theorem resolveSafePath_congr
    {path other : List Char}
    (same : relativePath? path = relativePath? other)
    (disk : Disk)
    (root : List Char)
    (canonicalRoot : Option (List Char)) :
    resolveSafePath disk root path canonicalRoot =
      resolveSafePath disk root other canonicalRoot := by
  rw [resolveSafePath, resolveSafePath, same]

theorem staticFile_congr
    {path other : List Char}
    (same : relativePath? path = relativePath? other)
    (disk : Disk)
    (site : SiteInfo)
    (location : CompiledLocation) :
    staticFile disk site location path =
      staticFile disk site location other := by
  rw [staticFile, staticFile]
  cases location.root.or site.root with
  | none =>
      rfl
  | some root =>
      dsimp only
      rw [resolveSafePath_congr same]

theorem dispatch_of_sameFor
    {location : CompiledLocation}
    (same : SameFor location.handler uri.path target)
    (disk : Disk)
    (site : SiteInfo) :
    dispatch disk site location uri target =
      dispatch disk site location ⟨target, uri.query⟩ target := by
  cases isHandler : location.handler with
  | static =>
      rw [isHandler] at same
      rw [dispatch, dispatch, isHandler]
      exact congrArg Action.static (staticFile_congr same disk site location)
  | fastcgi =>
      rw [isHandler] at same
      rw [← show uri.path = target from same]
  | websocket =>
      rw [dispatch, dispatch, isHandler]
  | reverseProxy =>
      rw [isHandler] at same
      rw [← show uri.path = target from same]
  | grpc =>
      rw [isHandler] at same
      rw [← show uri.path = target from same]
  | plugin name =>
      rw [dispatch, dispatch, isHandler]

/-! ## Where they do -/

/-- A location that is chosen for one path only. -/
def exactLocation (handler : HandlerType) (path : List Char) :
    CompiledLocation where
  path := []
  kind := .exact path
  handler
  root := some []
  tryFiles := []

/-- A site with one location. -/
def exactSettings (handler : HandlerType) (path : List Char) :
    SiteSettings where
  locations := [exactLocation handler path]
  index := []
  canonicalRoot := some []

/-- A file system in which every path is a file. -/
def fullDisk : Disk where
  canonicalize := some
  present _ := true
  isFile _ := true
  isDir _ := false

theorem matchLocation_exactSettings
    (handler : HandlerType)
    (path : List Char) :
    matchLocation (exactSettings handler path).locations path =
      some (exactLocation handler path) := by
  simp [matchLocation, exactSettings, CompiledLocation.isFirst,
    exactLocation]

theorem matchLocation_exactSettings_ne
    {path other : List Char}
    (differ : other ≠ path)
    (handler : HandlerType) :
    matchLocation (exactSettings handler path).locations other = none := by
  simp [matchLocation, exactSettings, exactLocation, Ne.symm differ,
    CompiledLocation.isFirst, CompiledLocation.isRegexMatch,
    CompiledLocation.isPrefixMatch, longest]

/-- With every path a file, the file shows the path behind the root. -/
theorem staticFile_fullDisk
    (handler : HandlerType)
    (site : SiteInfo)
    (other path : List Char) :
    staticFile fullDisk { site with settings := exactSettings handler other }
        (exactLocation handler other) path =
      (relativePath? path).elim .forbidden .file := by
  cases isRelative : relativePath? path <;>
    simp [staticFile, exactLocation, exactSettings, resolveSafePath,
      isRelative, fullDisk, joinPath, startsWithPath]

theorem proxyTarget_eq (uri : Uri) :
    proxyTarget uri = uri.pathAndQuery := by
  rw [proxyTarget]
  split
  case isTrue plain =>
    cases isQuery : uri.query with
    | none =>
        rw [Uri.pathAndQuery, isQuery]
    | some query =>
        rw [Uri.pathAndQuery, isQuery] at plain
        cases isPath : uri.path <;> simp [isPath] at plain
  case isFalse =>
    rfl

/-- The request target shows the path. -/
theorem pathAndQuery_inj
    {path other : List Char}
    {query : Option (List Char)}
    (same :
      Uri.pathAndQuery ⟨path, query⟩ = Uri.pathAndQuery ⟨other, query⟩) :
    path = other := by
  cases query with
  | none =>
      exact same
  | some query =>
      exact List.append_cancel_right same

theorem sameFor_of_dispatch
    {handler : HandlerType}
    (same :
      dispatch fullDisk
          { site with settings := exactSettings handler target }
          (exactLocation handler target) uri target =
        dispatch fullDisk
          { site with settings := exactSettings handler target }
          (exactLocation handler target) ⟨target, uri.query⟩ target) :
    SameFor handler uri.path target := by
  cases handler with
  | static =>
      have sameFile := Action.static.inj same
      rw [staticFile_fullDisk, staticFile_fullDisk] at sameFile
      rw [SameFor]
      cases isPath : relativePath? uri.path <;>
        cases isTarget : relativePath? target <;>
        simp_all
  | fastcgi =>
      exact congrArg ScriptParams.documentUri (Action.script.inj same)
  | websocket =>
      trivial
  | reverseProxy =>
      have sameTarget := Action.proxy.inj same
      rw [proxyTarget_eq, proxyTarget_eq] at sameTarget
      exact pathAndQuery_inj sameTarget
  | grpc =>
      exact pathAndQuery_inj (Action.grpc.inj same)
  | plugin name =>
      trivial

/-! ## The handlers that honour a rewrite -/

/--
For every site, rule list, request and internal target: a handler honours the
rewrite, whatever the locations, the other settings and the files are, if and
only if the target has no query and the two paths make no difference to the
handler.
-/
theorem honouredBy_iff
    (handler : HandlerType)
    (rewritten :
      applyRewrites statCached site.root uri.path site.rewrites =
        some target)
    (unmarked : ¬ Marked target) :
    HonouredBy handler statCached site uri target ↔
      '?' ∉ target ∧ SameFor handler uri.path target := by
  constructor
  · intro honoured
    have served :=
      (honoured_iff_serve rewritten unmarked fullDisk
        (exactSettings handler target)).mp
        (honoured fullDisk (exactSettings handler target)
          (exactLocation handler target)
          (matchLocation_exactSettings handler target) rfl)
    rw [serve, serve] at served
    dsimp only at served
    rw [matchLocation_exactSettings] at served
    by_cases hasQuery : '?' ∈ target
    · rw [matchLocation_exactSettings_ne (path_asked_ne hasQuery uri)]
        at served
      cases served
    · rw [asked_of_no_query hasQuery] at served
      rw [matchLocation_exactSettings] at served
      exact ⟨hasQuery, sameFor_of_dispatch (Routed.handled.inj served)⟩
  · rintro ⟨noQuery, same⟩ disk settings location chosen isHandler
    rw [honoured_iff_serve rewritten unmarked, asked_of_no_query noQuery,
      serve, serve]
    dsimp only
    rw [chosen]
    subst isHandler
    exact congrArg Routed.handled (dispatch_of_sameFor same disk _)

/-! ## A rewrite and a site -/

/-- The expression `^/old$`. -/
def oldPath : Regex where
  isMatch path := path == "/old".toList
  captures path :=
    if path == "/old".toList then
      some fun index => if index = 0 then some path else none
    else
      none

/-- `^/old$`, `/new` and `last`. -/
def oldToNew : CompiledRewrite where
  rule := ⟨"/new".toList, .last, none⟩
  regex := oldPath

/-- A reverse proxy for all paths. -/
def proxyLocation : CompiledLocation :=
  ⟨['/'], .prefixed, .reverseProxy, none, []⟩

/-- A site with that rule and that location. -/
def proxySite : SiteInfo where
  rewrites := [oldToNew]
  root := none
  settings := ⟨[proxyLocation], [], none⟩

/-- No file is there. -/
def noFiles (_ : List Char) : CachedMeta :=
  ⟨false, false, false, false⟩

theorem applyRewrites_oldToNew :
    applyRewrites noFiles proxySite.root "/old".toList proxySite.rewrites =
      some "/new".toList := by
  decide

theorem matchLocation_proxySite :
    matchLocation proxySite.settings.locations "/new".toList =
      some proxyLocation := by
  simp [matchLocation, proxySite, proxyLocation, longest,
    CompiledLocation.isFirst, CompiledLocation.isRegexMatch,
    CompiledLocation.isPrefixMatch]

theorem not_marked_new : ¬ Marked "/new".toList := by
  rw [Marked]
  decide

/-- A plugin is given the rewritten path. -/
theorem honouredBy_plugin :
    HonouredBy (.plugin "auth".toList) noFiles proxySite
      ⟨"/old".toList, none⟩ "/new".toList :=
  (honouredBy_iff (.plugin "auth".toList) applyRewrites_oldToNew
    not_marked_new).mpr
    ⟨by decide, trivial⟩

/-- The reverse proxy forwards the path of the request. -/
theorem not_honoured_proxy :
    ¬ ∀ (statCached : List Char → CachedMeta)
        (disk : Disk)
        (site : SiteInfo)
        (uri : Uri)
        (target : List Char)
        (location : CompiledLocation),
      applyRewrites statCached site.root uri.path site.rewrites =
        some target →
      ¬ Marked target →
      matchLocation site.settings.locations target = some location →
      Honoured statCached disk site uri target := by
  intro honoured
  have same :=
    honoured noFiles fullDisk proxySite ⟨"/old".toList, none⟩
      "/new".toList proxyLocation applyRewrites_oldToNew not_marked_new
      matchLocation_proxySite
  rw [Honoured] at same
  revert same
  decide

end Sweety.Router
