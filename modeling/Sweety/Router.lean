import Mathlib.Data.List.DropRight
import Sweety.FirstOccurrence
import Sweety.Rewrite

namespace Sweety.Router

open HttpText FirstOccurrence Rewrite

/-!
# The router and the paths that the handlers work from

Model of `multi_site_handler` in `server/router.rs` from the rewrite rules on:
`match_location` of `dispatcher/location.rs` and the handlers, as far as they
depend on the path of the request.  The router computes the effective path, but
most handlers read the path of the request again.

The checks between the choice of a location and its handler (size, `return`,
limits, access and authorization) do not read the effective path and are not
part of this model, nor is the cache of small files.  Regular expressions and
the state of the file system are parameters.
-/

/-! ## Requests and sites -/

/-- The path and the query of a request. -/
structure Uri where
  path : List Char
  query : Option (List Char)
  deriving Repr, DecidableEq

/-- `path_and_query`. -/
def Uri.pathAndQuery (uri : Uri) : List Char :=
  match uri.query with
  | some query =>
      uri.path ++ '?' :: query
  | none =>
      uri.path

/-- `HandlerType`. -/
inductive HandlerType where
  | static
  | fastcgi
  | websocket
  | reverseProxy
  | grpc
  | plugin (name : List Char)
  deriving Repr, DecidableEq

/-- `LocationKind`. -/
inductive LocationKind where
  | exact (path : List Char)
  | prefixPriority (path : List Char)
  | regex (regex : Regex)
  | prefixed

/-- `CompiledLocation`, with what the handlers read of its configuration. -/
structure CompiledLocation where
  path : List Char
  kind : LocationKind
  handler : HandlerType
  root : Option (List Char)
  tryFiles : List (List Char)

/-- What a site has besides its rules and its root. -/
structure SiteSettings where
  locations : List CompiledLocation
  index : List (List Char)
  canonicalRoot : Option (List Char)

/-- `SiteInfo`. -/
structure SiteInfo where
  rewrites : List CompiledRewrite
  root : Option (List Char)
  settings : SiteSettings

/-- What the handlers ask of the file system. -/
structure Disk where
  canonicalize : List Char → Option (List Char)
  present : List Char → Bool
  isFile : List Char → Bool
  isDir : List Char → Bool

/-! ## The location -/

/-- The first round of `match_location`. -/
def CompiledLocation.isFirst (path : List Char) (location : CompiledLocation) :
    Bool :=
  match location.kind with
  | .exact exactPath =>
      exactPath == path
  | .prefixPriority start =>
      start.isPrefixOf path
  | .regex _ | .prefixed =>
      false

/-- The second round. -/
def CompiledLocation.isRegexMatch
    (path : List Char)
    (location : CompiledLocation) :
    Bool :=
  match location.kind with
  | .regex regex =>
      regex.isMatch path
  | .exact _ | .prefixPriority _ | .prefixed =>
      false

/-- The third round. -/
def CompiledLocation.isPrefixMatch
    (path : List Char)
    (location : CompiledLocation) :
    Bool :=
  match location.kind with
  | .prefixed =>
      location.path.isPrefixOf path
  | .exact _ | .prefixPriority _ | .regex _ =>
      false

/-- The first location with the longest path. -/
def longest (locations : List CompiledLocation) : Option CompiledLocation :=
  locations.foldl
    (fun best location =>
      match best with
      | none =>
          some location
      | some before =>
          if byteLength before.path < byteLength location.path then
            some location
          else
            some before)
    none

/-- `match_location`. -/
def matchLocation (locations : List CompiledLocation) (path : List Char) :
    Option CompiledLocation :=
  (locations.find? (·.isFirst path)).or
    ((locations.find? (·.isRegexMatch path)).or
      (longest (locations.filter (·.isPrefixMatch path))))

/-! ## Files -/

/-- `Path::starts_with`. -/
def startsWithPath (path base : List Char) : Bool :=
  base.isEmpty ||
    (path.head? == some '/') == (base.head? == some '/') &&
      (components base).isPrefixOf (components path)

/--
The text that `resolve_safe_path_with_canon` joins to the root, or `none` where
it refuses the path.
-/
def relativePath? (requestPath : List Char) : Option (List Char) :=
  if hasTraversal (pathOnly requestPath) then
    none
  else
    some ((pathOnly requestPath).dropWhile isSeparator)

/-- `resolve_safe_path_with_canon`. -/
def resolveSafePath
    (disk : Disk)
    (root requestPath : List Char)
    (canonicalRoot : Option (List Char)) :
    Option (List Char) :=
  (relativePath? requestPath).bind fun relative =>
    let full := joinPath root relative
    match disk.canonicalize full,
        canonicalRoot.or (disk.canonicalize root) with
    | some canonical, some canonicalRoot =>
        if startsWithPath canonical canonicalRoot then
          some canonical
        else
          none
    | none, some canonicalRoot =>
        if canonicalRoot.isPrefixOf full then
          some full
        else
          none
    | _, none =>
        none

/-- The first default document that is a file. -/
def findIndex (disk : Disk) (dir : List Char) (names : List (List Char)) :
    Option (List Char) :=
  (names.map (joinPath dir)).find? disk.isFile

/-- How the static handler ends. -/
inductive StaticResult where
  | noRoot
  | forbidden
  | notFound
  | noListing
  | file (path : List Char)
  deriving Repr, DecidableEq

/-- The file that `static_file::handle_sweety` serves. -/
def staticFile
    (disk : Disk)
    (site : SiteInfo)
    (location : CompiledLocation)
    (path : List Char) :
    StaticResult :=
  match location.root.or site.root with
  | none =>
      .noRoot
  | some root =>
      match resolveSafePath disk root path site.settings.canonicalRoot with
      | none =>
          .forbidden
      | some filePath =>
          if disk.present filePath then
            if disk.isDir filePath then
              match findIndex disk filePath site.settings.index with
              | some candidate =>
                  .file candidate
              | none =>
                  .noListing
            else
              .file filePath
          else
            .notFound

/-- `TryFilesResult`. -/
inductive TryFilesResult where
  | file (path : List Char)
  | code (status : Nat)
  | notFound
  deriving Repr, DecidableEq

/-- The loop of `try_files_resolve_inner`. -/
def tryFilesLoop (disk : Disk) (root requestPath : List Char) :
    List (List Char) → TryFilesResult
  | [] =>
      .notFound
  | entry :: rest =>
      let entry := trim entry
      match entry.dropPrefix? ['='] with
      | some code =>
          match parseU16? code with
          | some status =>
              .code status
          | none =>
              tryFilesLoop disk root requestPath rest
      | none =>
          let expanded :=
            replace "$request_uri".toList requestPath
              (replace "$uri".toList (pathOnly requestPath) entry)
          if expanded.getLast? = some '/' then
            match resolveSafePath disk root (expanded.rdropWhile (· == '/'))
                none with
            | none =>
                tryFilesLoop disk root requestPath rest
            | some dir =>
                match findIndex disk dir
                    ["index.php".toList, "index.html".toList] with
                | some index =>
                    .file index
                | none =>
                    tryFilesLoop disk root requestPath rest
          else
            match resolveSafePath disk root expanded none with
            | none =>
                tryFilesLoop disk root requestPath rest
            | some filePath =>
                if disk.isFile filePath then
                  .file filePath
                else
                  tryFilesLoop disk root requestPath rest

/-- `try_files_resolve`. -/
def tryFilesResolve
    (disk : Disk)
    (tryFiles : List (List Char))
    (requestPath : List Char)
    (root : Option (List Char)) :
    TryFilesResult :=
  match root with
  | some root =>
      tryFilesLoop disk root requestPath tryFiles
  | none =>
      .notFound

/-- `Path::extension`. -/
def extension? (path : List Char) : Option (List Char) :=
  (components path).getLast?.bind fun name =>
    let start := name.rdropWhile (· != '.')
    if start.length ≤ 1 then
      none
    else
      some (name.drop start.length)

/-! ## FastCGI -/

/-- `split_script_path`. -/
def splitScriptPath (path : List Char) : List Char × List Char :=
  match position? ".php".toList path with
  | some index =>
      let stop := index + 4
      if stop = path.length ∨ path[stop]? = some '/' then
        (path.take stop, path.drop stop)
      else
        ("/index.php".toList, path)
  | none =>
      ("/index.php".toList, path)

/-- The parameters of a FastCGI request that depend on its path. -/
structure ScriptParams where
  requestUri : List Char
  documentUri : List Char
  queryString : List Char
  scriptFilename : List Char
  scriptName : List Char
  pathInfo : List Char
  pathTranslated : List Char
  deriving Repr, DecidableEq

/-- The parameters that `fastcgi::handle_sweety` sends. -/
def scriptParams
    (root : List Char)
    (uri : Uri)
    (resolvedScript : Option (List Char)) :
    ScriptParams :=
  let base := root.rdropWhile (· == '/')
  let script :=
    match resolvedScript with
    | some path =>
        (path,
          ((path.dropPrefix? base).getD path).map fun char =>
            if char = '\\' then '/' else char,
          [])
    | none =>
        let parts := splitScriptPath uri.path
        (base ++ parts.1, parts.1, parts.2)
  { requestUri := uri.pathAndQuery
    documentUri := uri.path
    queryString := uri.query.getD []
    scriptFilename := script.1
    scriptName := script.2.1
    pathInfo := script.2.2
    pathTranslated := base ++ script.2.2 }

/-! ## The handlers -/

/-- What a handler does, as far as it depends on the path. -/
inductive Action where
  | static (result : StaticResult)
  | status (code : Nat)
  | script (params : ScriptParams)
  | scriptNoRoot
  | websocket
  | proxy (target : List Char)
  | grpc (target : List Char)
  | plugin (name path : List Char)
  deriving Repr, DecidableEq

/-- `fastcgi::handle_sweety`. -/
def fastcgi
    (site : SiteInfo)
    (location : CompiledLocation)
    (uri : Uri)
    (resolvedScript : Option (List Char)) :
    Action :=
  match location.root.or site.root with
  | none =>
      .scriptNoRoot
  | some root =>
      .script (scriptParams root uri resolvedScript)

/-- The request target that `reverse_proxy::handle_sweety` forwards. -/
def proxyTarget (uri : Uri) : List Char :=
  if uri.pathAndQuery.isEmpty || uri.pathAndQuery == ['/'] then
    uri.path
  else
    uri.pathAndQuery

/-- The choice of the handler in `multi_site_handler`. -/
def dispatch
    (disk : Disk)
    (site : SiteInfo)
    (location : CompiledLocation)
    (uri : Uri)
    (effectivePath : List Char) :
    Action :=
  match location.handler with
  | .static =>
      .static (staticFile disk site location uri.path)
  | .fastcgi =>
      if location.tryFiles.isEmpty then
        fastcgi site location uri none
      else
        match tryFilesResolve disk location.tryFiles uri.path
            (location.root.or site.root) with
        | .file path =>
            if extension? path = some "php".toList then
              fastcgi site location uri (some path)
            else
              .static (staticFile disk site location uri.path)
        | .code code =>
            .status code
        | .notFound =>
            fastcgi site location uri none
  | .websocket =>
      .websocket
  | .reverseProxy =>
      .proxy (proxyTarget uri)
  | .grpc =>
      .grpc uri.pathAndQuery
  | .plugin name =>
      .plugin name effectivePath

/-- How the router ends. -/
inductive Routed where
  | redirect (location : List Char) (status : Nat)
  | noLocation
  | handled (action : Action)
  deriving Repr, DecidableEq

/-- `multi_site_handler`, from the rewrite rules on. -/
def route
    (statCached : List Char → CachedMeta)
    (disk : Disk)
    (site : SiteInfo)
    (uri : Uri) :
    Routed :=
  match rewriteStage statCached site.root site.rewrites uri.path with
  | .redirect location status =>
      .redirect location status
  | .serve effectivePath =>
      match matchLocation site.settings.locations effectivePath with
      | none =>
          .noLocation
      | some location =>
          .handled (dispatch disk site location uri effectivePath)

end Sweety.Router
