import Sweety.FilePaths

namespace Sweety.DocumentRoot

open FileTree Router Rewrite FilePaths

/-!
# The document root

`handle_sweety` of `handler/static_file.rs` gives `resolve_safe_path_fast` the
root of the location, or else that of the site, together with the canonical root
of the site, which `SiteInfo::from_config` found when the site was loaded.  The
resolver guards the effective root with that canonical root, and only where
there is none with the canonical form of the effective root itself.

A path that is returned has to lie under the effective root, and every regular
file of the effective root that is reached without links has to be returned.
-/

/-! ## The resolver as the static handler calls it -/

/-- The site as `SiteInfo::from_config` loads it. -/
def loaded (start : World) (site : Router.SiteInfo) : Router.SiteInfo :=
  { site with
    settings :=
      { site.settings with
        canonicalRoot := site.root.bind start.disk.canonicalize } }

/-- The root that the handler works from. -/
def effectiveRoot
    (site : Router.SiteInfo)
    (location : CompiledLocation) :
    Option (List Char) :=
  location.root.or site.root

/-- The path that the handler goes on with. -/
def resolved
    (world : World)
    (site : Router.SiteInfo)
    (location : CompiledLocation)
    (requestPath : List Char) :
    Option (List Char) :=
  (effectiveRoot site location).bind fun root =>
    resolveSafePath world.disk root requestPath site.settings.canonicalRoot

/-- A path that is not resolved is forbidden. -/
theorem staticFile_eq_forbidden
    {world : World}
    {site : Router.SiteInfo}
    {location : CompiledLocation}
    {root : List Char}
    (isRoot : effectiveRoot site location = some root)
    (requestPath : List Char) :
    staticFile world.disk site location requestPath = .forbidden ↔
      resolved world site location requestPath = none := by
  rw [staticFile, resolved, isRoot, Option.bind_some]
  rw [effectiveRoot] at isRoot
  rw [isRoot]
  dsimp only
  cases resolveSafePath world.disk root requestPath
      site.settings.canonicalRoot with
  | none =>
      exact ⟨fun _ => rfl, fun _ => rfl⟩
  | some path =>
      constructor
      · intro isForbidden
        dsimp only at isForbidden
        split at isForbidden
        · split at isForbidden
          · split at isForbidden <;> cases isForbidden
          · cases isForbidden
        · cases isForbidden
      · intro isNone
        cases isNone

/-! ## What the root is for -/

/-- Whatever is returned lies under the effective root. -/
def Contained
    (world : World)
    (site : Router.SiteInfo)
    (location : CompiledLocation) :
    Prop :=
  ∀ requestPath path place,
    resolved world site location requestPath = some path →
    world.placeOf path = some place →
    ∃ root base,
      effectiveRoot site location = some root ∧
        world.placeOf root = some base ∧
        base <+: place

/-- A request names a regular file without links and without `..`. -/
structure Names
    (world : World)
    (base : Place)
    (requestPath : List Char)
    (place : Place) :
    Prop where
  clean : hasTraversal (pathOnly requestPath) = false
  below : base <+: place
  leads :
    world.tree.walk 0 base (stepsOf (pathOnly requestPath)) =
      some (0, place)
  isFile : world.tree.node place = some .file

/-- Every such file of the effective root is returned. -/
def Complete
    (world : World)
    (site : Router.SiteInfo)
    (location : CompiledLocation) :
    Prop :=
  ∀ root base requestPath place,
    effectiveRoot site location = some root →
    world.placeOf root = some base →
    Names world base requestPath place →
    resolved world site location requestPath = some (absolute place)

/-! ## The guard -/

/-- The place that the resolver compares with. -/
def guardOf
    (start world : World)
    (site : Router.SiteInfo)
    (root : List Char) :
    Option Place :=
  (site.root.bind start.placeOf).or (world.placeOf root)

/--
The guard fits the effective root: what requests lead to under the guard is
under the root, the files of the root are under the guard, and they are still
reached when the leading slashes and backslashes of the request are gone.
-/
structure GuardFits
    (start world : World)
    (site : Router.SiteInfo)
    (location : CompiledLocation) :
    Prop where
  inside :
    ∀ root guard requestPath relative place,
      effectiveRoot site location = some root →
      guardOf start world site root = some guard →
      relativePath? requestPath = some relative →
      world.placeOf (joinPath root relative) = some place →
      guard <+: place →
      ∃ base, world.placeOf root = some base ∧ base <+: place
  covers :
    ∀ root guard base requestPath place,
      effectiveRoot site location = some root →
      guardOf start world site root = some guard →
      world.placeOf root = some base →
      Names world base requestPath place →
      guard <+: place
  trimmed :
    ∀ root base requestPath relative place,
      effectiveRoot site location = some root →
      world.placeOf root = some base →
      Names world base requestPath place →
      relativePath? requestPath = some relative →
      world.placeOf (joinPath root relative) = some place

section Resolver

variable
  {start world : World}
  {site : Router.SiteInfo}
  {location : CompiledLocation}
  {root requestPath relative : List Char}
  {guard place : Place}

/-- The guard is what the resolver is given or finds. -/
theorem canonicalRoot_or
    (start world : World)
    (site : Router.SiteInfo)
    (root : List Char) :
    (loaded start site).settings.canonicalRoot.or
        (world.disk.canonicalize root) =
      (guardOf start world site root).map absolute := by
  have atStart :
      (loaded start site).settings.canonicalRoot =
        (site.root.bind start.placeOf).map absolute := by
    rw [Option.map_bind]
    rfl
  rw [atStart, guardOf]
  cases site.root.bind start.placeOf with
  | none =>
      rfl
  | some guard =>
      rfl

theorem resolved_of_refused
    (isRefused : relativePath? requestPath = none) :
    resolved world site location requestPath = none := by
  rw [resolved]
  cases effectiveRoot site location with
  | none =>
      rfl
  | some root =>
      rw [Option.bind_some, resolveSafePath, isRefused]
      rfl

theorem resolved_of_no_guard
    (isRoot : effectiveRoot site location = some root)
    (noGuard : guardOf start world site root = none) :
    resolved world (loaded start site) location requestPath = none := by
  have sameRoot : effectiveRoot (loaded start site) location = some root :=
    isRoot
  rw [resolved, sameRoot, Option.bind_some, resolveSafePath,
    canonicalRoot_or, noGuard]
  cases relativePath? requestPath with
  | none =>
      rfl
  | some relative =>
      dsimp only [Option.bind_some, Option.map_none]
      cases world.disk.canonicalize (joinPath root relative) with
      | none =>
          rfl
      | some canonical =>
          rfl

/-- A path that leads somewhere is returned where that lies under the guard. -/
theorem resolved_of_placeOf
    (isRoot : effectiveRoot site location = some root)
    (isGuard : guardOf start world site root = some guard)
    (isRelative : relativePath? requestPath = some relative)
    (isPlace : world.placeOf (joinPath root relative) = some place) :
    resolved world (loaded start site) location requestPath =
      if guard <+: place then some (absolute place) else none := by
  have sameRoot : effectiveRoot (loaded start site) location = some root :=
    isRoot
  have isCanonical :
      world.disk.canonicalize (joinPath root relative) =
        some (absolute place) :=
    congrArg (Option.map absolute) isPlace
  rw [resolved, sameRoot, Option.bind_some, resolveSafePath, isRelative,
    Option.bind_some, canonicalRoot_or, isGuard]
  dsimp only [Option.map_some]
  rw [isCanonical]
  dsimp only
  by_cases isUnder : guard <+: place
  · rw [if_pos ((startsWithPath_absolute place guard).mpr isUnder),
      if_pos isUnder]
  · have notUnder :
        ¬ startsWithPath (absolute place) (absolute guard) = true :=
      fun starts => isUnder ((startsWithPath_absolute place guard).mp starts)
    rw [if_neg notUnder, if_neg isUnder]

/-- A path that leads nowhere is returned as it is, if at all. -/
theorem resolved_of_no_place
    {path : List Char}
    (isRoot : effectiveRoot site location = some root)
    (isRelative : relativePath? requestPath = some relative)
    (noPlace : world.placeOf (joinPath root relative) = none)
    (isResolved :
      resolved world site location requestPath = some path) :
    path = joinPath root relative := by
  have noCanonical :
      world.disk.canonicalize (joinPath root relative) = none :=
    congrArg (Option.map absolute) noPlace
  rw [resolved, isRoot, Option.bind_some, resolveSafePath, isRelative,
    Option.bind_some] at isResolved
  dsimp only at isResolved
  rw [noCanonical] at isResolved
  split at isResolved
  · rename_i isNone _
    cases isNone
  · split at isResolved
    · exact (Option.some.inj isResolved).symm
    · cases isResolved
  · cases isResolved

end Resolver

/-! ## When the root is contained and complete -/

section Settled

variable
  {start world : World}
  {site : Router.SiteInfo}
  {location : CompiledLocation}

theorem contained_of_inside
    (inside :
      ∀ root guard requestPath relative place,
        effectiveRoot site location = some root →
        guardOf start world site root = some guard →
        relativePath? requestPath = some relative →
        world.placeOf (joinPath root relative) = some place →
        guard <+: place →
        ∃ base, world.placeOf root = some base ∧ base <+: place) :
    Contained world (loaded start site) location := by
  intro requestPath path place isResolved isPlace
  cases isRoot : effectiveRoot site location with
  | none =>
      have noRoot : effectiveRoot (loaded start site) location = none :=
        isRoot
      rw [resolved, noRoot] at isResolved
      cases isResolved
  | some root =>
      have sameRoot :
          effectiveRoot (loaded start site) location = some root :=
        isRoot
      cases isRelative : relativePath? requestPath with
      | none =>
          rw [resolved_of_refused isRelative] at isResolved
          cases isResolved
      | some relative =>
          cases isGuard : guardOf start world site root with
          | none =>
              rw [resolved_of_no_guard isRoot isGuard] at isResolved
              cases isResolved
          | some guard =>
              cases leads : world.placeOf (joinPath root relative) with
              | none =>
                  have isFull :=
                    resolved_of_no_place sameRoot isRelative leads
                      isResolved
                  rw [isFull, leads] at isPlace
                  cases isPlace
              | some reached =>
                  rw [resolved_of_placeOf isRoot isGuard isRelative leads]
                    at isResolved
                  split at isResolved
                  · rename_i isUnder
                    cases isResolved
                    rw [World.placeOf_absolute
                      (World.real_of_placeOf leads)] at isPlace
                    have same : reached = place :=
                      Option.some.inj isPlace
                    rw [same] at leads isUnder
                    obtain ⟨base, isBase, isPrefix⟩ :=
                      inside root guard requestPath relative place isRoot
                        isGuard isRelative leads isUnder
                    exact ⟨root, base, isRoot, isBase, isPrefix⟩
                  · cases isResolved

theorem inside_of_contained
    (isContained : Contained world (loaded start site) location)
    (root : List Char)
    (guard : Place)
    (requestPath relative : List Char)
    (place : Place)
    (isRoot : effectiveRoot site location = some root)
    (isGuard : guardOf start world site root = some guard)
    (isRelative : relativePath? requestPath = some relative)
    (leads : world.placeOf (joinPath root relative) = some place)
    (isUnder : guard <+: place) :
    ∃ base, world.placeOf root = some base ∧ base <+: place := by
  have isResolved :=
    resolved_of_placeOf isRoot isGuard isRelative leads
  rw [if_pos isUnder] at isResolved
  obtain ⟨other, base, isOther, isBase, isPrefix⟩ :=
    isContained requestPath (absolute place) place isResolved
      (World.placeOf_absolute (World.real_of_placeOf leads))
  have sameRoot : some root = some other := isRoot.symm.trans isOther
  cases sameRoot
  exact ⟨base, isBase, isPrefix⟩

/--
A file is returned exactly if the trimmed path leads to it under the guard.
-/
theorem resolved_eq_file_iff
    {root requestPath relative : List Char}
    {guard place : Place}
    (isRoot : effectiveRoot site location = some root)
    (isGuard : guardOf start world site root = some guard)
    (isRelative : relativePath? requestPath = some relative)
    (isReal : world.tree.Real place) :
    resolved world (loaded start site) location requestPath =
        some (absolute place) ↔
      world.placeOf (joinPath root relative) = some place ∧
        guard <+: place := by
  have sameRoot : effectiveRoot (loaded start site) location = some root :=
    isRoot
  constructor
  · intro isResolved
    cases leads : world.placeOf (joinPath root relative) with
    | none =>
        have isFull :=
          resolved_of_no_place sameRoot isRelative leads isResolved
        rw [← isFull, World.placeOf_absolute isReal] at leads
        cases leads
    | some reached =>
        rw [resolved_of_placeOf isRoot isGuard isRelative leads]
          at isResolved
        split at isResolved
        · rename_i isUnder
          have same : reached = place :=
            absolute_injective (Option.some.inj isResolved)
          cases same
          exact ⟨rfl, isUnder⟩
        · cases isResolved
  · intro both
    rw [resolved_of_placeOf isRoot isGuard isRelative both.1,
      if_pos both.2]

theorem Names.relative
    {base place : Place}
    {requestPath : List Char}
    (names : Names world base requestPath place) :
    relativePath? requestPath =
      some ((pathOnly requestPath).dropWhile isSeparator) := by
  rw [relativePath?, names.clean, if_neg Bool.false_ne_true]

theorem guardOf_of_placeOf
    {root : List Char}
    {base : Place}
    (start : World)
    (site : Router.SiteInfo)
    (isBase : world.placeOf root = some base) :
    ∃ guard, guardOf start world site root = some guard := by
  rw [guardOf, isBase]
  cases site.root.bind start.placeOf with
  | none =>
      exact ⟨base, rfl⟩
  | some guard =>
      exact ⟨guard, rfl⟩

theorem complete_of_guardFits
    (fits : GuardFits start world site location) :
    Complete world (loaded start site) location := by
  intro root base requestPath place isRoot isBase names
  obtain ⟨guard, isGuard⟩ :=
    guardOf_of_placeOf start site isBase
  have leads :=
    fits.trimmed root base requestPath _ place isRoot isBase names
      names.relative
  have isUnder :=
    fits.covers root guard base requestPath place isRoot isGuard isBase names
  exact
    (resolved_eq_file_iff isRoot isGuard names.relative
      (Or.inr names.isFile)).mpr ⟨leads, isUnder⟩

/--
The root is contained and complete exactly if the guard fits it: the site's own
root, a root of the location and a tree that changed since the site was loaded
are all decided by that.
-/
theorem contained_and_complete_iff
    (start world : World)
    (site : Router.SiteInfo)
    (location : CompiledLocation) :
    Contained world (loaded start site) location ∧
        Complete world (loaded start site) location ↔
      GuardFits start world site location := by
  constructor
  · rintro ⟨isContained, isComplete⟩
    constructor
    · exact inside_of_contained isContained
    · intro root guard base requestPath place isRoot isGuard isBase names
      have isResolved :=
        isComplete root base requestPath place isRoot isBase names
      exact
        ((resolved_eq_file_iff isRoot isGuard names.relative
          (Or.inr names.isFile)).mp isResolved).2
    · intro root base requestPath relative place isRoot isBase names
        isRelative
      obtain ⟨guard, isGuard⟩ :=
        guardOf_of_placeOf start site isBase
      have isResolved :=
        isComplete root base requestPath place isRoot isBase names
      exact
        ((resolved_eq_file_iff isRoot isGuard isRelative
          (Or.inr names.isFile)).mp isResolved).1
  · intro fits
    exact
      ⟨contained_of_inside fits.inside, complete_of_guardFits fits⟩

/-! ## A guard that is the root -/

/-- Where no name begins with a backslash, trimming changes no walk. -/
theorem walk_trimmed
    {base : Place}
    (unescaped :
      ∀ name : FileName,
        world.tree.node (base ++ [name]) ≠ none →
        name.text.head? ≠ some '\\')
    {text : List Char}
    (isWalk : world.tree.walk 0 base (stepsOf text) = some (0, place)) :
    world.tree.walk 0 base (stepsOf (text.dropWhile isSeparator)) =
      some (0, place) := by
  induction text with
  | nil =>
      exact isWalk
  | cons char rest inductionHypothesis =>
      by_cases isSlash : char = '/'
      · subst char
        rw [stepsOf_slash,
          DirTree.walk_here_append (stepsOf_ne_nil rest)] at isWalk
        rw [List.dropWhile_cons_of_pos rfl]
        exact inductionHypothesis isWalk
      · by_cases isBackslash : char = '\\'
        · subst char
          exfalso
          have isDir := DirTree.dir_of_walk (stepsOf_ne_nil _) isWalk
          obtain ⟨segment, others, isSplit⟩ :=
            List.exists_cons_of_ne_nil (List.splitOn_ne_nil '/' rest)
          have noSlash : '/' ∉ segment := by
            apply @HttpText.not_mem_of_mem_splitOn '/' rest
            rw [isSplit]
            exact List.mem_cons_self
          let name : FileName :=
            { text := '\\' :: segment
              nonempty := List.cons_ne_nil _ _
              noSlash := by
                intro member
                rcases List.mem_cons.mp member with isHead | inSegment
                · exact absurd isHead (by decide)
                · exact noSlash inSegment
              notDot := fun same =>
                absurd (List.head_eq_of_cons_eq same) (by decide)
              notParent := fun same =>
                absurd (List.head_eq_of_cons_eq same) (by decide) }
          have isSteps :
              stepsOf ('\\' :: rest) =
                .into name :: others.map stepOf := by
            rw [stepsOf, splitOn_backslash, isSplit]
            exact congrArg (· :: others.map stepOf) (stepOf_text name)
          rw [isSteps] at isWalk
          cases stands : world.tree.node (base ++ [name]) with
          | none =>
              rw [DirTree.walk_into_none isDir stands] at isWalk
              cases isWalk
          | some node =>
              have isSome : world.tree.node (base ++ [name]) ≠ none := by
                rw [stands]
                exact Option.some_ne_none node
              exact unescaped name isSome rfl
        · have notSeparator : isSeparator char = false := by
            rw [isSeparator, beq_eq_false_iff_ne.mpr isSlash,
              beq_eq_false_iff_ne.mpr isBackslash]
            rfl
          rw [List.dropWhile_cons_of_neg
            (by rw [notSeparator]; exact Bool.false_ne_true)]
          exact isWalk

/--
A guard that is the effective root fits it where no name in the root begins with
a backslash.
-/
theorem guardFits_of_same
    {root : List Char}
    {base : Place}
    (isRoot : effectiveRoot site location = some root)
    (isBase : world.placeOf root = some base)
    (same : guardOf start world site root = some base)
    (unescaped :
      ∀ name : FileName,
        world.tree.node (base ++ [name]) ≠ none →
        name.text.head? ≠ some '\\') :
    GuardFits start world site location := by
  constructor
  · intro other guard requestPath relative place isOther isGuard _ _ isUnder
    cases isRoot.symm.trans isOther
    cases same.symm.trans isGuard
    exact ⟨base, isBase, isUnder⟩
  · intro other guard otherBase requestPath place isOther isGuard isOtherBase
      names
    cases isRoot.symm.trans isOther
    cases same.symm.trans isGuard
    cases isBase.symm.trans isOtherBase
    exact names.below
  · intro other otherBase requestPath relative place isOther isOtherBase names
      isRelative
    cases isRoot.symm.trans isOther
    cases isBase.symm.trans isOtherBase
    cases names.relative.symm.trans isRelative
    obtain ⟨nonempty, left, isLocated⟩ := World.placeOf_eq_some.mp isBase
    apply World.placeOf_eq_some.mpr
    refine ⟨World.joinPath_ne_nil nonempty _, left, ?_⟩
    rw [World.locate_joinPath nonempty, isLocated]
    exact DirTree.walk_of_zero (walk_trimmed unescaped names.leads)

end Settled

/-! ## A root of a location -/

section Sample

/-- The name of one letter. -/
def letter
    (char : Char)
    (isLetter : char.isAlpha = true) :
    FileName where
  text := [char]
  nonempty := List.cons_ne_nil _ _
  noSlash := by
    intro member
    rw [← List.mem_singleton.mp member] at isLetter
    exact absurd isLetter (by decide)
  notDot := by
    intro same
    rw [List.head_eq_of_cons_eq same] at isLetter
    exact absurd isLetter (by decide)
  notParent := by
    intro same
    cases List.tail_eq_of_cons_eq same

def nameA : FileName := letter 'a' rfl

def nameB : FileName := letter 'b' rfl

/-- Two directories with a file in each. -/
def twoRoots : World where
  tree := DirTree.ofFiles [[nameA, nameA], [nameB, nameB]]
  workingDirectory := []

def siteA : Router.SiteInfo where
  rewrites := []
  root := some "/a".toList
  settings :=
    { locations := []
      index := []
      canonicalRoot := none }

def locationB : CompiledLocation where
  path := "/".toList
  kind := .prefixed
  handler := .static
  root := some "/b".toList
  tryFiles := []

/-- A location with a root of its own refuses every file of that root. -/
theorem not_contained_and_complete_locationRoot :
    ¬ (Contained twoRoots (loaded twoRoots siteA) locationB ∧
      Complete twoRoots (loaded twoRoots siteA) locationB) := by
  rintro ⟨-, isComplete⟩
  have realA : twoRoots.tree.Real [nameA] := Or.inl (by decide)
  have realB : twoRoots.tree.Real [nameB] := Or.inl (by decide)
  have realFile : twoRoots.tree.Real [nameB, nameB] := Or.inr (by decide)
  have isBase : twoRoots.placeOf "/b".toList = some [nameB] :=
    World.placeOf_absolute realB
  have isGuard :
      guardOf twoRoots twoRoots siteA "/b".toList = some [nameA] := by
    have atStart : twoRoots.placeOf "/a".toList = some [nameA] :=
      World.placeOf_absolute realA
    rw [guardOf, siteA, Option.bind_some, atStart]
    rfl
  have leads :
      twoRoots.tree.walk 0 [nameB] (stepsOf "/b".toList) =
        some (0, [nameB, nameB]) := by
    have isSteps : stepsOf "/b".toList = [.here, .into nameB] := by
      decide
    rw [isSteps, DirTree.walk_here (by decide),
      DirTree.walk_into_real (by decide) realFile, DirTree.walk_nil]
    rfl
  have names : Names twoRoots [nameB] "/b".toList [nameB, nameB] :=
    ⟨by decide, ⟨[nameB], rfl⟩, leads, by decide⟩
  have isResolved :=
    isComplete "/b".toList [nameB] "/b".toList [nameB, nameB] rfl isBase
      names
  have isRoot : effectiveRoot siteA locationB = some "/b".toList := rfl
  have isUnder : [nameA] <+: [nameB, nameB] :=
    ((resolved_eq_file_iff isRoot isGuard names.relative realFile).mp
      isResolved).2
  exact absurd isUnder (by decide)

end Sample

end Sweety.DocumentRoot
