import Sweety.FileTree
import Sweety.Router

namespace Sweety.FilePaths

open FileTree Rewrite Router

/-!
# Texts of paths over a tree of files

The operating system cuts the text of a path at `/` and walks its steps, from
the root or from the working directory, following forty symbolic links at most.
`canonicalize` writes the place where the walk ends.  The disk that the handlers
ask is a tree seen through these texts.
-/

/-! ## Names and texts -/

/-- A name that can stand in a directory. -/
structure FileName where
  text : List Char
  nonempty : text ≠ []
  noSlash : '/' ∉ text
  notDot : text ≠ ['.']
  notParent : text ≠ ['.', '.']
  deriving DecidableEq

theorem FileName.text_injective : Function.Injective FileName.text := by
  intro first second same
  cases first
  cases second
  congr

/-- The names on the way to a file. -/
abbrev Place := List FileName

/-- The name that a segment is, if it is one. -/
def fileName? (segment : List Char) : Option FileName :=
  if isName :
      segment ≠ [] ∧ '/' ∉ segment ∧ segment ≠ ['.'] ∧
        segment ≠ ['.', '.'] then
    some ⟨segment, isName.1, isName.2.1, isName.2.2.1, isName.2.2.2⟩
  else
    none

/-- The step of a segment; `.` and the empty segment stay. -/
def stepOf (segment : List Char) : Step FileName :=
  if segment = ['.', '.'] then
    .up
  else
    match fileName? segment with
    | some name =>
        .into name
    | none =>
        .here

/-- The steps of the text of a path. -/
def stepsOf (text : List Char) : List (Step FileName) :=
  (text.splitOn '/').map stepOf

/-- The text of a relative path of names. -/
def textOf (names : Place) : List Char :=
  ['/'].intercalate (names.map FileName.text)

/-- The absolute path of a place. -/
def absolute (place : Place) : List Char :=
  '/' :: textOf place

/-! ## Steps -/

@[simp] theorem stepOf_text (name : FileName) :
    stepOf name.text = .into name := by
  rw [stepOf, if_neg name.notParent, fileName?,
    dif_pos ⟨name.nonempty, name.noSlash, name.notDot, name.notParent⟩]

theorem stepsOf_ne_nil (text : List Char) :
    stepsOf text ≠ [] := by
  intro isNil
  exact List.splitOn_ne_nil '/' text (List.map_eq_nil_iff.mp isNil)

/-- The steps on both sides of a slash. -/
theorem stepsOf_append_slash (before rest : List Char) :
    stepsOf (before ++ '/' :: rest) = stepsOf before ++ stepsOf rest := by
  rw [stepsOf, List.splitOn_append_cons_self, List.map_append]
  rfl

@[simp] theorem stepsOf_slash (rest : List Char) :
    stepsOf ('/' :: rest) = .here :: stepsOf rest :=
  stepsOf_append_slash [] rest

theorem splitOn_textOf
    {names : Place}
    (nonempty : names ≠ []) :
    (textOf names).splitOn '/' = names.map FileName.text := by
  apply List.splitOn_intercalate
  · intro segment member
    obtain ⟨name, -, rfl⟩ := List.mem_map.mp member
    exact name.noSlash
  · intro isNil
    exact nonempty (List.map_eq_nil_iff.mp isNil)

/-- Written names are read back. -/
theorem stepsOf_textOf
    {names : Place}
    (nonempty : names ≠ []) :
    stepsOf (textOf names) = names.map .into := by
  rw [stepsOf, splitOn_textOf nonempty, List.map_map]
  apply List.map_congr_left
  intro name _
  exact stepOf_text name

/-! ## Components -/

theorem components_absolute (place : Place) :
    components (absolute place) = place.map FileName.text := by
  rw [components, absolute, splitOn_slash]
  by_cases isRoot : place = []
  · rw [isRoot]
    rfl
  · rw [splitOn_textOf isRoot, List.filter_cons_of_neg Bool.false_ne_true]
    apply List.filter_eq_self.mpr
    intro segment member
    obtain ⟨name, -, rfl⟩ := List.mem_map.mp member
    have nonempty : name.text.isEmpty = false := by
      rw [List.isEmpty_eq_false_iff]
      exact name.nonempty
    have notDot : (name.text != ['.']) = true :=
      bne_iff_ne.mpr name.notDot
    rw [nonempty, notDot]
    rfl

/-- `starts_with` compares places. -/
theorem startsWithPath_absolute (place base : Place) :
    startsWithPath (absolute place) (absolute base) = true ↔
      base <+: place := by
  have bothAbsolute :
      startsWithPath (absolute place) (absolute base) =
        (components (absolute base)).isPrefixOf
          (components (absolute place)) :=
    rfl
  rw [bothAbsolute, components_absolute, components_absolute,
    List.isPrefixOf_iff_prefix]
  exact List.prefix_map_iff_of_injective FileName.text_injective

theorem absolute_injective : Function.Injective absolute := by
  intro first second same
  have sameNames := congrArg components same
  rw [components_absolute, components_absolute] at sameNames
  exact FileName.text_injective.list_map sameNames

/-! ## The disk -/

/-- What the operating system walks over. -/
structure World where
  tree : DirTree FileName
  workingDirectory : Place

namespace World

/-- `MAXSYMLINKS`. -/
def linkLimit : Nat := 40

variable (world : World)

/-- Where the text of a path leads, and how many more links may follow. -/
def locate (text : List Char) : Option (Nat × Place) :=
  world.tree.walk linkLimit
    (if text.head? = some '/' then [] else world.workingDirectory)
    (stepsOf text)

/-- The place of a path; the empty text is none. -/
def placeOf (text : List Char) : Option Place :=
  if text = [] then
    none
  else
    (world.locate text).map Prod.snd

/-- What stands where a path leads. -/
def nodeOf (text : List Char) : Option (Node FileName) :=
  (world.placeOf text).bind world.tree.node

/-- The disk that the handlers ask. -/
def disk : Disk where
  canonicalize text := (world.placeOf text).map absolute
  present text := (world.placeOf text).isSome
  isFile text := world.nodeOf text == some .file
  isDir text := world.nodeOf text == some .dir

variable {world : World}

theorem placeOf_eq_some
    {text : List Char}
    {place : Place} :
    world.placeOf text = some place ↔
      text ≠ [] ∧ ∃ left, world.locate text = some (left, place) := by
  rw [placeOf]
  split
  · rename_i isNil
    constructor
    · intro isPlace
      cases isPlace
    · intro both
      exact absurd isNil both.1
  · rename_i nonempty
    rw [Option.map_eq_some_iff]
    constructor
    · rintro ⟨⟨left, reached⟩, isLocated, rfl⟩
      exact ⟨nonempty, left, isLocated⟩
    · rintro ⟨-, left, isLocated⟩
      exact ⟨(left, place), isLocated, rfl⟩

/-- Something stands where a path leads. -/
theorem real_of_placeOf
    {text : List Char}
    {place : Place}
    (isPlace : world.placeOf text = some place) :
    world.tree.Real place := by
  obtain ⟨-, left, isLocated⟩ := placeOf_eq_some.mp isPlace
  have isDir := DirTree.dir_of_walk (stepsOf_ne_nil text) isLocated
  exact DirTree.real_of_walk (Or.inl isDir) isLocated

/-- A canonical path leads to its own place. -/
theorem placeOf_absolute
    {place : Place}
    (isReal : world.tree.Real place) :
    world.placeOf (absolute place) = some place := by
  apply placeOf_eq_some.mpr
  refine ⟨List.cons_ne_nil _ _, linkLimit, ?_⟩
  have fromRoot :
      world.locate (absolute place) =
        world.tree.walk linkLimit [] (.here :: stepsOf (textOf place)) := by
    rw [← stepsOf_slash]
    rfl
  rw [fromRoot, DirTree.walk_here_append (stepsOf_ne_nil _)]
  by_cases isRoot : place = []
  · rw [isRoot]
    have stays : stepsOf (textOf []) = [.here] := rfl
    rw [stays, DirTree.walk_here world.tree.root, DirTree.walk_nil]
  · rw [stepsOf_textOf isRoot]
    exact DirTree.walk_reached isReal

/-- A joined path is walked behind the path that it is joined to. -/
theorem locate_joinPath
    {root : List Char}
    (nonempty : root ≠ [])
    (relative : List Char) :
    world.locate (joinPath root relative) =
      (world.locate root).bind fun reached =>
        world.tree.walk reached.1 reached.2 (stepsOf relative) := by
  have notEmpty : root.isEmpty = false :=
    List.isEmpty_eq_false_iff.mpr nonempty
  obtain ⟨first, others, rfl⟩ := List.exists_cons_of_ne_nil nonempty
  rw [joinPath, notEmpty, Bool.false_or]
  split
  · rename_i endsSo
    obtain ⟨before, isBefore⟩ :=
      List.getLast?_eq_some_iff.mp (beq_iff_eq.mp endsSo)
    have sameHead :
        (first :: others ++ relative).head? = (first :: others).head? := rfl
    rw [locate, locate, sameHead, isBefore, ← List.append_cons,
      stepsOf_append_slash, stepsOf_append_slash, ← DirTree.walk_append,
      List.append_assoc, DirTree.walk_append, DirTree.walk_append]
    apply congrArg
    funext reached
    have stays : stepsOf [] = [.here] := rfl
    rw [stays, List.singleton_append,
      DirTree.walk_here_append (stepsOf_ne_nil relative)]
  · rw [locate, locate, ← DirTree.walk_append, ← stepsOf_append_slash]
    rfl

theorem joinPath_ne_nil
    {root : List Char}
    (nonempty : root ≠ [])
    (relative : List Char) :
    joinPath root relative ≠ [] := by
  rw [joinPath]
  split
  · exact List.append_ne_nil_of_left_ne_nil nonempty relative
  · exact List.append_ne_nil_of_left_ne_nil nonempty _

end World

end Sweety.FilePaths
