import Mathlib.Data.List.Infix

namespace FileTree

/-!
# Trees of directories with symbolic links

A tree says what stands at each place, where a place is the names on the way to
it from the root.  A path is walked step by step; a symbolic link puts its own
steps in front of the others, and only so many links are followed.  Where a walk
ends there is no link, so walking straight to that place ends there again.
-/

/-- One step of a path. -/
inductive Step (Name : Type) where
  | here
  | up
  | into (name : Name)
  deriving DecidableEq

/-- What a symbolic link says. -/
structure Target (Name : Type) where
  absolute : Bool
  steps : List (Step Name)
  deriving DecidableEq

/-- What stands at a place. -/
inductive Node (Name : Type) where
  | dir
  | file
  | link (target : Target Name)
  deriving DecidableEq

/-- A tree; everything stands in a directory. -/
structure DirTree (Name : Type) where
  node : List Name → Option (Node Name)
  root : node [] = some .dir
  parent :
    ∀ place name, node (place ++ [name]) ≠ none → node place = some .dir

namespace DirTree

variable {Name : Type} (tree : DirTree Name)

/-- Where a link begins. -/
def begin (place : List Name) (target : Target Name) : List Name :=
  if target.absolute then [] else place

/--
Walk some steps from a place, following no more links than the budget; returns
what is left of the budget, and the place.
-/
def walk (budget : Nat) (place : List Name) :
    List (Step Name) → Option (Nat × List Name)
  | [] =>
      some (budget, place)
  | step :: rest =>
      match tree.node place with
      | some .dir =>
          match step with
          | .here =>
              walk budget place rest
          | .up =>
              walk budget place.dropLast rest
          | .into name =>
              match tree.node (place ++ [name]) with
              | none =>
                  none
              | some (.link target) =>
                  match budget with
                  | 0 =>
                      none
                  | less + 1 =>
                      walk less (begin place target) (target.steps ++ rest)
              | some _ =>
                  walk budget (place ++ [name]) rest
      | _ =>
          none
  termination_by steps => (budget, steps.length)

/-- A directory or a file stands at the place. -/
def Real (place : List Name) : Prop :=
  tree.node place = some .dir ∨ tree.node place = some .file

variable {tree}

/-! ## Places where something stands -/

/-- What is no link is real. -/
theorem real_of_node
    {place : List Name}
    {found : Node Name}
    (stands : tree.node place = some found)
    (notLink : ∀ target, found = .link target → False) :
    tree.Real place := by
  cases found with
  | dir =>
      exact Or.inl stands
  | file =>
      exact Or.inr stands
  | link target =>
      exact absurd rfl (notLink target)

theorem Real.ne_none
    {place : List Name}
    (isReal : tree.Real place) :
    tree.node place ≠ none := by
  rcases isReal with isDir | isFile
  · rw [isDir]
    exact Option.some_ne_none _
  · rw [isFile]
    exact Option.some_ne_none _

/-- What has something below it is a directory. -/
theorem dir_of_append
    {place below : List Name}
    (stands : tree.node (place ++ below) ≠ none)
    (deeper : below ≠ []) :
    tree.node place = some .dir := by
  induction below using List.reverseRecOn with
  | nil =>
      exact absurd rfl deeper
  | append_singleton init last inductionHypothesis =>
      have isDir : tree.node (place ++ init) = some .dir := by
        rw [← List.append_assoc] at stands
        exact tree.parent _ _ stands
      cases init with
      | nil =>
          rwa [List.append_nil] at isDir
      | cons first others =>
          have below : tree.node (place ++ first :: others) ≠ none :=
            Real.ne_none (Or.inl isDir)
          exact inductionHypothesis below (List.cons_ne_nil _ _)

/-- The directory that a directory stands in. -/
theorem dir_dropLast
    {place : List Name}
    (isDir : tree.node place = some .dir) :
    tree.node place.dropLast = some .dir := by
  cases place using List.reverseRecOn with
  | nil =>
      exact isDir
  | append_singleton init last =>
      rw [List.dropLast_concat]
      exact tree.parent init last (Real.ne_none (Or.inl isDir))

theorem dir_begin
    {place : List Name}
    (isDir : tree.node place = some .dir)
    (target : Target Name) :
    tree.node (begin place target) = some .dir := by
  unfold begin
  split
  · exact tree.root
  · exact isDir

/-! ## Walking -/

section Walking

variable
  {budget : Nat}
  {place : List Name}

@[simp] theorem walk_nil :
    tree.walk budget place [] = some (budget, place) := by
  rw [walk]

/-- Steps are taken from a directory only. -/
theorem walk_cons_of_not_dir
    (notDir : tree.node place ≠ some .dir)
    (step : Step Name)
    (rest : List (Step Name)) :
    tree.walk budget place (step :: rest) = none := by
  rw [walk.eq_def]
  dsimp only
  split
  · rename_i isDir
    exact absurd isDir notDir
  · rfl

theorem walk_here
    (isDir : tree.node place = some .dir)
    (rest : List (Step Name)) :
    tree.walk budget place (.here :: rest) =
      tree.walk budget place rest := by
  rw [walk, isDir]

theorem walk_up
    (isDir : tree.node place = some .dir)
    (rest : List (Step Name)) :
    tree.walk budget place (.up :: rest) =
      tree.walk budget place.dropLast rest := by
  rw [walk, isDir]

theorem walk_into_none
    {name : Name}
    (isDir : tree.node place = some .dir)
    (isNone : tree.node (place ++ [name]) = none)
    (rest : List (Step Name)) :
    tree.walk budget place (.into name :: rest) = none := by
  rw [walk, isDir]
  dsimp only
  rw [isNone]

theorem walk_into_real
    {name : Name}
    (isDir : tree.node place = some .dir)
    (isReal : tree.Real (place ++ [name]))
    (rest : List (Step Name)) :
    tree.walk budget place (.into name :: rest) =
      tree.walk budget (place ++ [name]) rest := by
  rw [walk, isDir]
  dsimp only
  rcases isReal with isReal | isReal
  · rw [isReal]
  · rw [isReal]

theorem walk_into_link
    {name : Name}
    {target : Target Name}
    (isDir : tree.node place = some .dir)
    (isLink : tree.node (place ++ [name]) = some (.link target))
    (rest : List (Step Name)) :
    tree.walk (budget + 1) place (.into name :: rest) =
      tree.walk budget (begin place target) (target.steps ++ rest) := by
  rw [walk, isDir]
  dsimp only
  rw [isLink]

theorem walk_into_spent
    {name : Name}
    {target : Target Name}
    (isDir : tree.node place = some .dir)
    (isLink : tree.node (place ++ [name]) = some (.link target))
    (rest : List (Step Name)) :
    tree.walk 0 place (.into name :: rest) = none := by
  rw [walk, isDir]
  dsimp only
  rw [isLink]

/-- A walk goes on where a first walk ends. -/
theorem walk_append
    (first second : List (Step Name)) :
    tree.walk budget place (first ++ second) =
      (tree.walk budget place first).bind fun reached =>
        tree.walk reached.1 reached.2 second := by
  induction budget, place, first using DirTree.walk.induct tree with
  | case1 budget place =>
      rw [walk_nil]
      rfl
  | case2 budget place rest isDir inductionHypothesis =>
      rw [List.cons_append, walk_here isDir, walk_here isDir,
        inductionHypothesis]
  | case3 budget place rest isDir inductionHypothesis =>
      rw [List.cons_append, walk_up isDir, walk_up isDir,
        inductionHypothesis]
  | case4 budget place rest isDir name isNone =>
      rw [List.cons_append, walk_into_none isDir isNone,
        walk_into_none isDir isNone]
      rfl
  | case5 place rest isDir name target isLink =>
      rw [List.cons_append, walk_into_spent isDir isLink,
        walk_into_spent isDir isLink]
      rfl
  | case6 place rest isDir name target isLink less inductionHypothesis =>
      rw [List.cons_append, walk_into_link isDir isLink,
        walk_into_link isDir isLink, ← List.append_assoc,
        inductionHypothesis]
  | case7 budget place rest isDir name found isFound notLink
      inductionHypothesis =>
      have isReal : tree.Real (place ++ [name]) :=
        real_of_node notLink isFound
      rw [List.cons_append, walk_into_real isDir isReal,
        walk_into_real isDir isReal, inductionHypothesis]
  | case8 budget place step rest notDir =>
      rw [List.cons_append, walk_cons_of_not_dir notDir,
        walk_cons_of_not_dir notDir]
      rfl

/-- A walk from a place where something stands ends at such a place. -/
theorem real_of_walk
    {steps : List (Step Name)}
    {left : Nat}
    {reached : List Name}
    (isReal : tree.Real place)
    (isWalk : tree.walk budget place steps = some (left, reached)) :
    tree.Real reached := by
  induction budget, place, steps using DirTree.walk.induct tree with
  | case1 budget place =>
      rw [walk_nil] at isWalk
      cases isWalk
      exact isReal
  | case2 budget place rest isDir inductionHypothesis =>
      rw [walk_here isDir] at isWalk
      exact inductionHypothesis isReal isWalk
  | case3 budget place rest isDir inductionHypothesis =>
      rw [walk_up isDir] at isWalk
      exact inductionHypothesis (Or.inl (dir_dropLast isDir)) isWalk
  | case4 budget place rest isDir name isNone =>
      rw [walk_into_none isDir isNone] at isWalk
      cases isWalk
  | case5 place rest isDir name target isLink =>
      rw [walk_into_spent isDir isLink] at isWalk
      cases isWalk
  | case6 place rest isDir name target isLink less inductionHypothesis =>
      rw [walk_into_link isDir isLink] at isWalk
      exact inductionHypothesis (Or.inl (dir_begin isDir target)) isWalk
  | case7 budget place rest isDir name found isFound notLink
      inductionHypothesis =>
      have isNext : tree.Real (place ++ [name]) :=
        real_of_node notLink isFound
      rw [walk_into_real isDir isNext] at isWalk
      exact inductionHypothesis isNext isWalk
  | case8 budget place step rest notDir =>
      rw [walk_cons_of_not_dir notDir] at isWalk
      cases isWalk

/-- A step that stays is nothing in front of another one. -/
theorem walk_here_append
    {steps : List (Step Name)}
    (goesOn : steps ≠ []) :
    tree.walk budget place (.here :: steps) =
      tree.walk budget place steps := by
  obtain ⟨next, rest, rfl⟩ := List.exists_cons_of_ne_nil goesOn
  by_cases isDir : tree.node place = some .dir
  · exact walk_here isDir (next :: rest)
  · rw [walk_cons_of_not_dir isDir, walk_cons_of_not_dir isDir]

/-- A walk that may follow no link is the same under every budget. -/
theorem walk_of_zero
    {steps : List (Step Name)}
    {left : Nat}
    {reached : List Name}
    (isWalk : tree.walk 0 place steps = some (left, reached)) :
    tree.walk budget place steps = some (budget, reached) := by
  induction steps generalizing place with
  | nil =>
      rw [walk_nil] at isWalk ⊢
      cases isWalk
      rfl
  | cons step rest inductionHypothesis =>
      have isDir : tree.node place = some .dir := by
        by_contra notDir
        rw [walk_cons_of_not_dir notDir] at isWalk
        cases isWalk
      cases step with
      | here =>
          rw [walk_here isDir] at isWalk ⊢
          exact inductionHypothesis isWalk
      | up =>
          rw [walk_up isDir] at isWalk ⊢
          exact inductionHypothesis isWalk
      | into name =>
          cases found : tree.node (place ++ [name]) with
          | none =>
              rw [walk_into_none isDir found] at isWalk
              cases isWalk
          | some node =>
              by_cases isLink : ∃ target, node = .link target
              · obtain ⟨target, rfl⟩ := isLink
                rw [walk_into_spent isDir found] at isWalk
                cases isWalk
              · have isReal : tree.Real (place ++ [name]) :=
                  real_of_node found fun target isTarget =>
                    isLink ⟨target, isTarget⟩
                rw [walk_into_real isDir isReal] at isWalk ⊢
                exact inductionHypothesis isWalk

/-- Only a directory is walked on from. -/
theorem dir_of_walk
    {steps : List (Step Name)}
    {found : Nat × List Name}
    (goesOn : steps ≠ [])
    (isWalk : tree.walk budget place steps = some found) :
    tree.node place = some .dir := by
  by_contra notDir
  obtain ⟨step, rest, rfl⟩ := List.exists_cons_of_ne_nil goesOn
  rw [walk_cons_of_not_dir notDir] at isWalk
  cases isWalk

/-- Names lead straight to what stands below a place. -/
theorem walk_names
    {names : List Name}
    (isReal : tree.Real (place ++ names)) :
    tree.walk budget place (names.map .into) =
      some (budget, place ++ names) := by
  induction names generalizing place with
  | nil =>
      rw [List.map_nil, walk_nil, List.append_nil]
  | cons name rest inductionHypothesis =>
      have isDir : tree.node place = some .dir :=
        dir_of_append isReal.ne_none (List.cons_ne_nil name rest)
      rw [List.append_cons] at isReal ⊢
      have isNext : tree.Real (place ++ [name]) := by
        cases rest with
        | nil =>
            rwa [List.append_nil] at isReal
        | cons next others =>
            exact Or.inl
              (dir_of_append isReal.ne_none (List.cons_ne_nil next others))
      rw [List.map_cons, walk_into_real isDir isNext]
      exact inductionHypothesis isReal

/-- Where a walk ends is where its own name leads. -/
theorem walk_reached
    {reached : List Name}
    (isReal : tree.Real reached) :
    tree.walk budget [] (reached.map .into) = some (budget, reached) := by
  have isWalk :
      tree.walk budget [] (reached.map .into) =
        some (budget, [] ++ reached) :=
    walk_names isReal
  exact isWalk

end Walking

/-! ## The tree of some files -/

section Files

variable [DecidableEq Name] (files : List (List Name))

/-- What stands at a place where some files are given. -/
def nodeOfFiles (place : List Name) : Option (Node Name) :=
  if place = [] ∨ ∃ file ∈ files, place <+: file ∧ place ≠ file then
    some .dir
  else if place ∈ files then
    some .file
  else
    none

/-- The tree in which some files stand. -/
def ofFiles : DirTree Name where
  node := nodeOfFiles files
  root := if_pos (Or.inl rfl)
  parent := by
    intro place name stands
    have below : ∃ file ∈ files, place ++ [name] <+: file := by
      unfold nodeOfFiles at stands
      split at stands
      · rename_i isDir
        rcases isDir with isNil | ⟨file, isFile, isPrefix, _⟩
        · exact absurd isNil (List.concat_ne_nil _ _)
        · exact ⟨file, isFile, isPrefix⟩
      · split at stands
        · rename_i isFile
          exact ⟨_, isFile, List.prefix_rfl⟩
        · exact absurd rfl stands
    obtain ⟨file, isFile, isPrefix⟩ := below
    apply if_pos
    refine Or.inr ⟨file, isFile, ?_, ?_⟩
    · exact (List.prefix_append place [name]).trans isPrefix
    · intro same
      have longer := isPrefix.length_le
      rw [← same, List.length_append, List.length_singleton] at longer
      exact absurd longer (Nat.not_succ_le_self _)

end Files

end DirTree

end FileTree
