import Sweety.FilePaths
import Sweety.LexicalWalk

namespace Sweety.ScriptPaths

open FileTree Router Rewrite FilePaths

/-!
# The paths that a FastCGI script gets

`fastcgi::handle_sweety` glues the document root, without the slashes at its
end, and a part of the path of the request together; nothing before it looks for
`..`.  A script that `try_files` has found is passed as its canonical path.

`SCRIPT_FILENAME` and `PATH_TRANSLATED` are meant to lie in the document root
once `.` and `..` in them are resolved as text.
-/

/-! ## Paths resolved as text -/

def isAbsolute (text : List Char) : Bool :=
  text.head? == some '/'

/-- Where a path leads by its text. -/
def lexical (text : List Char) : Reached FileName :=
  Reached.follow (isAbsolute text) Reached.origin (stepsOf text)

/-- A path is another one, or below it. -/
def Below (root text : List Char) : Prop :=
  isAbsolute root = isAbsolute text ∧
    Reached.Below (lexical root) (lexical text)

/-- `trim_end_matches('/')`. -/
def trimmed (root : List Char) : List Char :=
  root.rdropWhile (· == '/')

theorem isAbsolute_append
    {text : List Char}
    (nonempty : text ≠ [])
    (rest : List Char) :
    isAbsolute (text ++ rest) = isAbsolute text := by
  obtain ⟨first, others, rfl⟩ := List.exists_cons_of_ne_nil nonempty
  rfl

/-- What stands behind a slash is followed from what stands before it. -/
theorem lexical_append_slash
    {text : List Char}
    (nonempty : text ≠ [])
    (rest : List Char) :
    lexical (text ++ '/' :: rest) =
      Reached.follow (isAbsolute text) (lexical text) (stepsOf rest) := by
  rw [lexical, isAbsolute_append nonempty, stepsOf_append_slash,
    Reached.follow_append]
  rfl

theorem stepsOf_nil : stepsOf [] = [.here] :=
  rfl

/-- A slash at the end changes nothing. -/
theorem lexical_concat_slash
    {text : List Char}
    (nonempty : text ≠ []) :
    lexical (text ++ ['/']) = lexical text := by
  rw [lexical_append_slash nonempty, stepsOf_nil, Reached.follow_here,
    Reached.follow_nil]

/-- A root without its last slashes, if anything is left. -/
theorem lexical_trimmed
    {root : List Char}
    (nonempty : trimmed root ≠ []) :
    isAbsolute (trimmed root) = isAbsolute root ∧
      lexical (trimmed root) = lexical root := by
  induction root using List.reverseRecOn with
  | nil =>
      exact ⟨rfl, rfl⟩
  | append_singleton root char inductionHypothesis =>
      rw [trimmed, List.rdropWhile_concat] at nonempty ⊢
      split at nonempty
      · rename_i isSlash
        rw [if_pos isSlash]
        have same : char = '/' := beq_iff_eq.mp isSlash
        have left : root ≠ [] := by
          intro isNil
          rw [isNil] at nonempty
          exact nonempty rfl
        obtain ⟨sameRoot, samePlace⟩ := inductionHypothesis nonempty
        rw [same, isAbsolute_append left, lexical_concat_slash left]
        exact ⟨sameRoot, samePlace⟩
      · rename_i notSlash
        rw [if_neg notSlash]
        exact ⟨rfl, rfl⟩

/-- A root of slashes alone. -/
theorem lexical_of_trimmed_nil
    {root : List Char}
    (isNil : trimmed root = [])
    (nonempty : root ≠ []) :
    isAbsolute root = true ∧ lexical root = Reached.origin := by
  induction root using List.reverseRecOn with
  | nil =>
      exact absurd rfl nonempty
  | append_singleton root char inductionHypothesis =>
      rw [trimmed, List.rdropWhile_concat] at isNil
      split at isNil
      · rename_i isSlash
        have same : char = '/' := beq_iff_eq.mp isSlash
        rw [same]
        by_cases first : root = []
        · rw [first]
          exact ⟨rfl, rfl⟩
        · obtain ⟨absolute, atRoot⟩ := inductionHypothesis isNil first
          rw [isAbsolute_append first, lexical_concat_slash first]
          exact ⟨absolute, atRoot⟩
      · exact absurd isNil (List.concat_ne_nil _ _)

/--
When a part that is glued to the root stays below it.  A part that begins with a
slash climbs no higher than it comes down again by the names of the root;
without a part the root itself is left, unless it was nothing but slashes; any
other part runs into the last name of the root.
-/
def PartStays (root : List Char) : List Char → Prop
  | [] =>
      root = [] ∨ trimmed root ≠ []
  | char :: rest =>
      if char = '/' then
        root ≠ [] ∧
          Reached.Returns (isAbsolute root) (lexical root) (stepsOf rest)
      else
        Below root (trimmed root ++ char :: rest)

theorem below_trimmed_append_iff (root part : List Char) :
    Below root (trimmed root ++ part) ↔ PartStays root part := by
  cases part with
  | nil =>
      rw [List.append_nil, PartStays]
      by_cases left : trimmed root = []
      · by_cases isNil : root = []
        · subst isNil
          exact ⟨fun _ => Or.inl rfl,
            fun _ => ⟨rfl, Reached.below_refl _⟩⟩
        · have absolute := (lexical_of_trimmed_nil left isNil).1
          constructor
          · intro below
            have relative : isAbsolute root = false :=
              below.1.trans (left ▸ rfl)
            rw [absolute] at relative
            cases relative
          · rintro (isEmpty | nonempty)
            · exact absurd isEmpty isNil
            · exact absurd left nonempty
      · obtain ⟨sameRoot, samePlace⟩ := lexical_trimmed left
        constructor
        · intro _
          exact Or.inr left
        · intro _
          refine ⟨sameRoot.symm, ?_⟩
          rw [samePlace]
          exact Reached.below_refl _
  | cons char rest =>
      rw [PartStays]
      split
      · rename_i isSlash
        subst isSlash
        by_cases isNil : root = []
        · subst isNil
          constructor
          · intro below
            cases below.1
          · intro both
            exact absurd rfl both.1
        · have joined :
              isAbsolute (trimmed root ++ '/' :: rest) = isAbsolute root ∧
                lexical (trimmed root ++ '/' :: rest) =
                  Reached.follow (isAbsolute root) (lexical root)
                    (stepsOf rest) := by
            by_cases left : trimmed root = []
            · obtain ⟨absolute, atRoot⟩ := lexical_of_trimmed_nil left isNil
              rw [left, absolute, atRoot]
              refine ⟨rfl, ?_⟩
              rw [List.nil_append, lexical, stepsOf_slash,
                Reached.follow_here]
              rfl
            · obtain ⟨sameRoot, samePlace⟩ := lexical_trimmed left
              rw [isAbsolute_append left, lexical_append_slash left, sameRoot,
                samePlace]
              exact ⟨rfl, rfl⟩
          rw [Below, joined.1, joined.2, Reached.below_follow_iff]
          constructor
          · intro below
            exact ⟨isNil, below.2⟩
          · intro both
            exact ⟨rfl, both.2⟩
      · exact Iff.rfl

/-! ## The canonical path of a script -/

/-- A canonical path leads to its place by its text. -/
theorem lexical_absolute (place : Place) :
    lexical (absolute place) = ⟨0, place⟩ := by
  have isStart : isAbsolute (absolute place) = true := rfl
  rw [lexical, isStart, absolute, stepsOf_slash, Reached.follow_here]
  by_cases isRoot : place = []
  · subst isRoot
    rfl
  · rw [stepsOf_textOf isRoot, Reached.follow_names]
    rfl

theorem lexical_joinPath
    {root : List Char}
    (nonempty : root ≠ [])
    (relative : List Char) :
    lexical (joinPath root relative) =
      Reached.follow (isAbsolute root) (lexical root) (stepsOf relative) := by
  have notEmpty : root.isEmpty = false :=
    List.isEmpty_eq_false_iff.mpr nonempty
  rw [joinPath, notEmpty, Bool.false_or]
  split
  · rename_i endsSo
    obtain ⟨before, isBefore⟩ :=
      List.getLast?_eq_some_iff.mp (beq_iff_eq.mp endsSo)
    rw [isBefore]
    by_cases isNil : before = []
    · subst isNil
      rw [List.nil_append, List.singleton_append, lexical, stepsOf_slash,
        Reached.follow_here]
      rfl
    · rw [← List.append_cons, lexical_append_slash isNil,
        lexical_concat_slash isNil, isAbsolute_append isNil]
  · exact lexical_append_slash nonempty relative

theorem isAbsolute_joinPath
    {root : List Char}
    (nonempty : root ≠ [])
    (relative : List Char) :
    isAbsolute (joinPath root relative) = isAbsolute root := by
  rw [joinPath]
  split
  · exact isAbsolute_append nonempty relative
  · exact isAbsolute_append nonempty _

/-- A path that is resolved without a guard is canonical, or leads nowhere. -/
theorem resolveSafePath_cases
    {world : World}
    {root requestPath path : List Char}
    (isResolved :
      resolveSafePath world.disk root requestPath none = some path) :
    ∃ relative base,
      world.placeOf root = some base ∧
        ((∃ place,
            world.placeOf (joinPath root relative) = some place ∧
              base <+: place ∧
              path = absolute place) ∨
          (world.placeOf (joinPath root relative) = none ∧
            path = joinPath root relative)) := by
  cases isRelative : relativePath? requestPath with
  | none =>
      rw [resolveSafePath, isRelative] at isResolved
      cases isResolved
  | some relative =>
      refine ⟨relative, ?_⟩
      have guardIs :
          world.disk.canonicalize root =
            (world.placeOf root).map absolute :=
        rfl
      have fullIs :
          world.disk.canonicalize (joinPath root relative) =
            (world.placeOf (joinPath root relative)).map absolute :=
        rfl
      rw [resolveSafePath, isRelative, Option.bind_some, Option.none_or]
        at isResolved
      dsimp only at isResolved
      rw [guardIs, fullIs] at isResolved
      cases isBase : world.placeOf root with
      | none =>
          rw [isBase] at isResolved
          cases leads : world.placeOf (joinPath root relative) with
          | none =>
              rw [leads] at isResolved
              cases isResolved
          | some place =>
              rw [leads] at isResolved
              cases isResolved
      | some base =>
          refine ⟨base, rfl, ?_⟩
          rw [isBase] at isResolved
          cases leads : world.placeOf (joinPath root relative) with
          | none =>
              rw [leads] at isResolved
              dsimp only [Option.map_none, Option.map_some] at isResolved
              split at isResolved
              · exact Or.inr ⟨rfl, (Option.some.inj isResolved).symm⟩
              · cases isResolved
          | some place =>
              rw [leads] at isResolved
              dsimp only [Option.map_some] at isResolved
              split at isResolved
              · rename_i isUnder
                refine Or.inl ⟨place, rfl, ?_, ?_⟩
                · exact (startsWithPath_absolute place base).mp isUnder
                · exact (Option.some.inj isResolved).symm
              · cases isResolved

section Found

variable
  {world : World}
  {root : List Char}

/-- A script that was found lies below the canonical root. -/
def BelowCanonical (world : World) (root script : List Char) : Prop :=
  ∃ base, world.placeOf root = some base ∧ Below (absolute base) script

theorem below_absolute
    {base place : Place}
    (isUnder : base <+: place) :
    Below (absolute base) (absolute place) := by
  refine ⟨rfl, ?_⟩
  rw [lexical_absolute, lexical_absolute]
  exact ⟨rfl, isUnder⟩

/-- Something that stands at a path is found from there. -/
theorem placeOf_of_isFile
    {path : List Char}
    (isFile : world.disk.isFile path = true) :
    ∃ place, world.placeOf path = some place := by
  have isNode : world.nodeOf path = some .file := beq_iff_eq.mp isFile
  obtain ⟨place, isPlace, _⟩ := Option.bind_eq_some_iff.mp isNode
  exact ⟨place, isPlace⟩

/-- What stands in a directory stands where the directory is found. -/
theorem placeOf_of_joinPath
    {dir name : List Char}
    {place : Place}
    (nonempty : dir ≠ [])
    (isPlace : world.placeOf (joinPath dir name) = some place) :
    ∃ dirPlace, world.placeOf dir = some dirPlace := by
  obtain ⟨_, left, isLocated⟩ := World.placeOf_eq_some.mp isPlace
  rw [World.locate_joinPath nonempty] at isLocated
  obtain ⟨⟨dirLeft, dirPlace⟩, isDir, _⟩ :=
    Option.bind_eq_some_iff.mp isLocated
  exact ⟨dirPlace, World.placeOf_eq_some.mpr ⟨nonempty, dirLeft, isDir⟩⟩

theorem findIndex_eq_some
    {disk : Disk}
    {dir found : List Char}
    {names : List (List Char)}
    (isFound : findIndex disk dir names = some found) :
    ∃ name ∈ names, found = joinPath dir name ∧ disk.isFile found = true := by
  have isFile := List.find?_some isFound
  have isCandidate := List.mem_of_find?_eq_some isFound
  obtain ⟨name, isName, rfl⟩ := List.mem_map.mp isCandidate
  exact ⟨name, isName, rfl, isFile⟩

/-- A name is joined below a canonical directory. -/
theorem below_joinPath
    {base place : Place}
    {name : List Char}
    {indexName : FileName}
    (isUnder : base <+: place)
    (isName : stepsOf name = [.into indexName]) :
    Below (absolute base) (joinPath (absolute place) name) := by
  have nonempty : absolute place ≠ [] := List.cons_ne_nil _ _
  constructor
  · rw [isAbsolute_joinPath nonempty]
    rfl
  · rw [lexical_joinPath nonempty, lexical_absolute, lexical_absolute, isName]
    exact ⟨rfl, isUnder.trans (List.prefix_append place [indexName])⟩

/-- A file that a path without a guard leads to. -/
theorem belowCanonical_of_isFile
    {requestPath path : List Char}
    (isResolved :
      resolveSafePath world.disk root requestPath none = some path)
    (isFile : world.disk.isFile path = true) :
    BelowCanonical world root path := by
  obtain ⟨relative, base, isBase, found | lost⟩ :=
    resolveSafePath_cases isResolved
  · obtain ⟨place, _, isUnder, rfl⟩ := found
    exact ⟨base, isBase, below_absolute isUnder⟩
  · obtain ⟨noPlace, rfl⟩ := lost
    obtain ⟨place, isPlace⟩ := placeOf_of_isFile isFile
    rw [noPlace] at isPlace
    cases isPlace

/-- An index of a directory that a path without a guard leads to. -/
theorem belowCanonical_of_findIndex
    {requestPath dir path : List Char}
    (isResolved :
      resolveSafePath world.disk root requestPath none = some dir)
    (isIndex :
      findIndex world.disk dir ["index.php".toList, "index.html".toList] =
        some path) :
    BelowCanonical world root path := by
  obtain ⟨name, isName, rfl, isFile⟩ := findIndex_eq_some isIndex
  obtain ⟨relative, base, isBase, found | lost⟩ :=
    resolveSafePath_cases isResolved
  · obtain ⟨place, _, isUnder, rfl⟩ := found
    refine ⟨base, isBase, ?_⟩
    rcases List.mem_cons.mp isName with isPhp | isHtml
    · have isStep :
          ∃ indexName : FileName,
            stepsOf "index.php".toList = [.into indexName] :=
        ⟨_, rfl⟩
      obtain ⟨indexName, isStep⟩ := isStep
      rw [isPhp]
      exact below_joinPath isUnder isStep
    · have isStep :
          ∃ indexName : FileName,
            stepsOf "index.html".toList = [.into indexName] :=
        ⟨_, rfl⟩
      obtain ⟨indexName, isStep⟩ := isStep
      rw [List.mem_singleton.mp isHtml]
      exact below_joinPath isUnder isStep
  · obtain ⟨noPlace, rfl⟩ := lost
    obtain ⟨rootNonempty, _⟩ := World.placeOf_eq_some.mp isBase
    obtain ⟨place, isPlace⟩ := placeOf_of_isFile isFile
    obtain ⟨dirPlace, isDir⟩ :=
      placeOf_of_joinPath (World.joinPath_ne_nil rootNonempty relative)
        isPlace
    rw [noPlace] at isDir
    cases isDir

/-- Whatever `try_files` finds. -/
theorem belowCanonical_of_tryFilesLoop
    {requestPath path : List Char}
    {entries : List (List Char)}
    (isFound :
      tryFilesLoop world.disk root requestPath entries = .file path) :
    BelowCanonical world root path := by
  induction entries with
  | nil =>
      cases isFound
  | cons entry rest inductionHypothesis =>
      unfold tryFilesLoop at isFound
      dsimp only at isFound
      split at isFound
      · split at isFound
        · cases isFound
        · exact inductionHypothesis isFound
      · split at isFound
        · split at isFound
          · exact inductionHypothesis isFound
          · rename_i dir isResolved
            split at isFound
            · rename_i index isIndex
              cases isFound
              exact belowCanonical_of_findIndex isResolved isIndex
            · exact inductionHypothesis isFound
        · split at isFound
          · exact inductionHypothesis isFound
          · rename_i filePath isResolved
            split at isFound
            · rename_i isFile
              cases isFound
              exact belowCanonical_of_isFile isResolved isFile
            · exact inductionHypothesis isFound

end Found

/-! ## What the router passes on -/

/--
The script that `multi_site_handler` passes to `fastcgi::handle_sweety`, if it
calls that handler.
-/
def passedOn
    (disk : Disk)
    (site : Router.SiteInfo)
    (location : CompiledLocation)
    (requestPath : List Char) :
    Option (Option (List Char)) :=
  match location.handler with
  | .fastcgi =>
      if location.tryFiles.isEmpty then
        some none
      else
        match tryFilesResolve disk location.tryFiles requestPath
            (location.root.or site.root) with
        | .file path =>
            if extension? path = some "php".toList then
              some (some path)
            else
              none
        | .code _ =>
            none
        | .notFound =>
            some none
  | _ =>
      none

theorem tryFilesLoop_of_passedOn
    {disk : Disk}
    {site : Router.SiteInfo}
    {location : CompiledLocation}
    {requestPath root path : List Char}
    (isRoot : location.root.or site.root = some root)
    (isPassed :
      passedOn disk site location requestPath = some (some path)) :
    tryFilesLoop disk root requestPath location.tryFiles = .file path := by
  unfold passedOn at isPassed
  split at isPassed
  · split at isPassed
    · cases isPassed
    · rw [isRoot, tryFilesResolve] at isPassed
      split at isPassed
      · rename_i found isFile
        split at isPassed
        · cases isPassed
          exact isFile
        · cases isPassed
      · cases isPassed
      · cases isPassed
  · cases isPassed

/-! ## When scripts stay in the root -/

/--
The script and the translated path lie in the root.  A script that was found is
given by its canonical path, so it is compared with that of the root.
-/
def ScriptsStay
    (world : World)
    (site : Router.SiteInfo)
    (location : CompiledLocation)
    (uri : Uri) :
    Prop :=
  ∀ root script,
    location.root.or site.root = some root →
    passedOn world.disk site location uri.path = some script →
    (match script with
      | none =>
          Below root (scriptParams root uri script).scriptFilename
      | some _ =>
          BelowCanonical world root
            (scriptParams root uri script).scriptFilename) ∧
      Below root (scriptParams root uri script).pathTranslated

/-- Neither part of the path leaves the root. -/
def PathStays
    (world : World)
    (site : Router.SiteInfo)
    (location : CompiledLocation)
    (uri : Uri) :
    Prop :=
  ∀ root script,
    location.root.or site.root = some root →
    passedOn world.disk site location uri.path = some script →
    match script with
    | none =>
        PartStays root (splitScriptPath uri.path).1 ∧
          PartStays root (splitScriptPath uri.path).2
    | some _ =>
        PartStays root []

theorem scriptsStay_iff
    (world : World)
    (site : Router.SiteInfo)
    (location : CompiledLocation)
    (uri : Uri) :
    ScriptsStay world site location uri ↔
      PathStays world site location uri := by
  apply forall_congr'
  intro root
  apply forall_congr'
  intro script
  apply imp_congr_right
  intro isRoot
  apply imp_congr_right
  intro isPassed
  cases script with
  | none =>
      exact
        and_congr (below_trimmed_append_iff root (splitScriptPath uri.path).1)
          (below_trimmed_append_iff root (splitScriptPath uri.path).2)
  | some path =>
      have isFound : BelowCanonical world root path :=
        belowCanonical_of_tryFilesLoop
          (tryFilesLoop_of_passedOn isRoot isPassed)
      constructor
      · intro stays
        exact (below_trimmed_append_iff root []).mp stays.2
      · intro stays
        exact ⟨isFound, (below_trimmed_append_iff root []).mpr stays⟩

/-! ## A script above the root -/

section Sample

def phpSite : Router.SiteInfo where
  rewrites := []
  root := some "/w".toList
  settings :=
    { locations := []
      index := []
      canonicalRoot := none }

def phpLocation : CompiledLocation where
  path := "/".toList
  kind := .prefixed
  handler := .fastcgi
  root := none
  tryFiles := []

/-- Nothing but the root of the file system. -/
def emptyWorld : World where
  tree := DirTree.ofFiles []
  workingDirectory := []

/-- A path that begins with `..` names a script outside. -/
theorem not_scriptsStay_parent :
    ¬ ScriptsStay emptyWorld phpSite phpLocation
      ⟨"/../e.php".toList, none⟩ := by
  intro stays
  have below := (stays "/w".toList none rfl rfl).1.2
  have names : ¬ Reached.Below (lexical "/w".toList)
      (lexical "/w/../e.php".toList) := by
    intro inside
    exact absurd inside.2 (by decide)
  exact names below

end Sample

end Sweety.ScriptPaths
