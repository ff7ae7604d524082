import Sweety.Router

namespace Sweety.TryFilesServed

open Router Rewrite

/-!
# What is served where `try_files` finds a file

For a FastCGI location `multi_site_handler` first asks `try_files_resolve`.  A
PHP file that it finds is passed to the FastCGI handler.  Any other file is not:
the static handler is called instead, and that works from the path of the
request again.
-/

/-- The file that was found is the one that is executed or sent. -/
def FileServed
    (disk : Disk)
    (site : Router.SiteInfo)
    (location : CompiledLocation)
    (uri : Uri)
    (effectivePath : List Char) :
    Prop :=
  ∀ path,
    tryFilesResolve disk location.tryFiles uri.path
          (location.root.or site.root) =
        .file path →
      if extension? path = some "php".toList then
        ∃ params,
          dispatch disk site location uri effectivePath = .script params ∧
            params.scriptFilename = path
      else
        dispatch disk site location uri effectivePath = .static (.file path)

/-- The path of the request leads to a file by itself, or to its index. -/
def LeadsTo
    (disk : Disk)
    (site : Router.SiteInfo)
    (root requestPath path : List Char) :
    Prop :=
  ∃ filePath,
    resolveSafePath disk root requestPath site.settings.canonicalRoot =
        some filePath ∧
      disk.present filePath = true ∧
      if disk.isDir filePath = true then
        findIndex disk filePath site.settings.index = some path
      else
        filePath = path

/-- A file that is no PHP file is also what the path of the request leads to. -/
def FoundByPath
    (disk : Disk)
    (site : Router.SiteInfo)
    (location : CompiledLocation)
    (requestPath : List Char) :
    Prop :=
  ∀ root path,
    location.root.or site.root = some root →
    tryFilesResolve disk location.tryFiles requestPath (some root) =
      .file path →
    extension? path ≠ some "php".toList →
    LeadsTo disk site root requestPath path

section Served

variable
  {disk : Disk}
  {site : Router.SiteInfo}
  {location : CompiledLocation}
  {uri : Uri}

theorem staticFile_eq_file_iff
    {root requestPath path : List Char}
    (isRoot : location.root.or site.root = some root) :
    staticFile disk site location requestPath = .file path ↔
      LeadsTo disk site root requestPath path := by
  unfold staticFile LeadsTo
  rw [isRoot]
  dsimp only
  cases resolveSafePath disk root requestPath site.settings.canonicalRoot with
  | none =>
      constructor
      · intro isFile
        cases isFile
      · rintro ⟨filePath, isResolved, _⟩
        cases isResolved
  | some filePath =>
      dsimp only
      constructor
      · intro isFile
        refine ⟨filePath, rfl, ?_⟩
        split at isFile
        · rename_i isPresent
          refine ⟨isPresent, ?_⟩
          split at isFile
          · rename_i isDir
            rw [if_pos isDir]
            split at isFile
            · rename_i candidate isIndex
              cases isFile
              exact isIndex
            · cases isFile
          · rename_i notDir
            rw [if_neg notDir]
            cases isFile
            rfl
        · cases isFile
      · rintro ⟨other, isOther, isPresent, leads⟩
        cases isOther
        rw [if_pos isPresent]
        split at leads
        · rename_i isDir
          rw [if_pos isDir, leads]
        · rename_i notDir
          rw [if_neg notDir, leads]

/-- Without a root nothing is found. -/
theorem root_of_file
    {requestPath path : List Char}
    {tryFiles : List (List Char)}
    {root : Option (List Char)}
    (isFound : tryFilesResolve disk tryFiles requestPath root = .file path) :
    ∃ given, root = some given := by
  cases root with
  | none =>
      cases isFound
  | some root =>
      exact ⟨root, rfl⟩

theorem dispatch_of_php
    {path root : List Char}
    (isFastcgi : location.handler = .fastcgi)
    (hasTry : location.tryFiles ≠ [])
    (isRoot : location.root.or site.root = some root)
    (isFound :
      tryFilesResolve disk location.tryFiles uri.path
          (location.root.or site.root) =
        .file path)
    (isPhp : extension? path = some "php".toList)
    (effectivePath : List Char) :
    dispatch disk site location uri effectivePath =
      .script (scriptParams root uri (some path)) := by
  have notEmpty : ¬ location.tryFiles.isEmpty = true := fun isEmpty =>
    hasTry (List.isEmpty_iff.mp isEmpty)
  unfold dispatch
  rw [isFastcgi]
  dsimp only
  rw [if_neg notEmpty, isFound]
  dsimp only
  rw [if_pos isPhp, fastcgi, isRoot]

theorem dispatch_of_not_php
    {path : List Char}
    (isFastcgi : location.handler = .fastcgi)
    (hasTry : location.tryFiles ≠ [])
    (isFound :
      tryFilesResolve disk location.tryFiles uri.path
          (location.root.or site.root) =
        .file path)
    (notPhp : extension? path ≠ some "php".toList)
    (effectivePath : List Char) :
    dispatch disk site location uri effectivePath =
      .static (staticFile disk site location uri.path) := by
  have notEmpty : ¬ location.tryFiles.isEmpty = true := fun isEmpty =>
    hasTry (List.isEmpty_iff.mp isEmpty)
  unfold dispatch
  rw [isFastcgi]
  dsimp only
  rw [if_neg notEmpty, isFound]
  dsimp only
  rw [if_neg notPhp]

end Served

/--
In a FastCGI location with a list, what was found is served exactly if it is a
PHP file or the path of the request leads to it anyway.
-/
theorem fileServed_iff
    (disk : Disk)
    (site : Router.SiteInfo)
    (location : CompiledLocation)
    (uri : Uri)
    (effectivePath : List Char)
    (isFastcgi : location.handler = .fastcgi)
    (hasTry : location.tryFiles ≠ []) :
    FileServed disk site location uri effectivePath ↔
      FoundByPath disk site location uri.path := by
  constructor
  · intro served root path isRoot isFound notPhp
    have isServed := served path (isRoot ▸ isFound)
    rw [if_neg notPhp] at isServed
    rw [dispatch_of_not_php isFastcgi hasTry (isRoot ▸ isFound) notPhp]
      at isServed
    exact (staticFile_eq_file_iff isRoot).mp (Action.static.inj isServed)
  · intro found path isFound
    obtain ⟨root, isRoot⟩ := root_of_file isFound
    by_cases isPhp : extension? path = some "php".toList
    · rw [if_pos isPhp]
      exact
        ⟨_, dispatch_of_php isFastcgi hasTry isRoot isFound isPhp _, rfl⟩
    · rw [if_neg isPhp,
        dispatch_of_not_php isFastcgi hasTry isFound isPhp effectivePath]
      have leads := found root path isRoot (isRoot ▸ isFound) isPhp
      exact congrArg Action.static ((staticFile_eq_file_iff isRoot).mpr leads)

/-! ## A page for everything -/

section Sample

/-- The files of a site with a page and a script. -/
def pageDisk : Disk where
  canonicalize := some
  present path := path == "/w/p.html".toList || path == "/w/i.php".toList
  isFile path := path == "/w/p.html".toList || path == "/w/i.php".toList
  isDir _ := false

def pageSite : Router.SiteInfo where
  rewrites := []
  root := some "/w".toList
  settings :=
    { locations := []
      index := []
      canonicalRoot := some "/w".toList }

def pageLocation (fallback : List Char) : CompiledLocation where
  path := "/".toList
  kind := .prefixed
  handler := .fastcgi
  root := none
  tryFiles := ["$uri".toList, fallback]

/-- A script for everything is executed. -/
theorem fileServed_script :
    FileServed pageDisk pageSite (pageLocation "/i.php".toList)
      ⟨"/x".toList, none⟩ "/x".toList := by
  apply
    (fileServed_iff pageDisk pageSite (pageLocation "/i.php".toList)
      ⟨"/x".toList, none⟩ "/x".toList rfl (List.cons_ne_nil _ _)).mpr
  intro root path isRoot isFound notPhp
  cases isRoot
  have isScript :
      tryFilesResolve pageDisk (pageLocation "/i.php".toList).tryFiles
          "/x".toList (some "/w".toList) =
        .file "/w/i.php".toList := by
    decide
  have same : path = "/w/i.php".toList :=
    TryFilesResult.file.inj (isFound.symm.trans isScript)
  rw [same] at notPhp
  exact absurd (by decide) notPhp

/-- A page for everything is not sent. -/
theorem not_fileServed_page :
    ¬ FileServed pageDisk pageSite (pageLocation "/p.html".toList)
      ⟨"/x".toList, none⟩ "/x".toList := by
  intro served
  have isPage :
      tryFilesResolve pageDisk (pageLocation "/p.html".toList).tryFiles
          "/x".toList (some "/w".toList) =
        .file "/w/p.html".toList := by
    decide
  have isServed := served "/w/p.html".toList isPage
  rw [if_neg (by decide)] at isServed
  exact absurd isServed (by decide)

end Sample

end Sweety.TryFilesServed
