import Sweety.FirstOccurrence

/-!
# Blocks of lines

A block is a list of lines, each followed by a line end of two symbols, and an
empty line.  Lines that are not empty and hold neither symbol can be read back
from the block whatever follows it, and an empty line stands at its end only.
-/

namespace LineBreaks

open FirstOccurrence

variable {α : Type} (cr lf : α)

/-- A line of a block. -/
structure IsLine (line : List α) : Prop where
  nonempty : line ≠ []
  noReturn : cr ∉ line
  noFeed : lf ∉ line

/-- The lines, each ended, and an empty line. -/
def block : List (List α) → List α
  | [] =>
      [cr, lf]
  | line :: rest =>
      line ++ cr :: lf :: block rest

theorem block_eq_flatMap (lines : List (List α)) :
    block cr lf lines =
      (lines.flatMap fun line => line ++ [cr, lf]) ++ [cr, lf] := by
  induction lines with
  | nil =>
      rfl
  | cons line others inductionHypothesis =>
      simp [block, inductionHypothesis]

/-! ## Reading a block -/

section Reading

variable [DecidableEq α]

/-- The symbols before the first line end, and those after it. -/
def readLine? : List α → Option (List α × List α)
  | [] =>
      none
  | symbol :: rest =>
      if symbol = cr ∧ rest.head? = some lf then
        some ([], rest.tail)
      else
        (readLine? rest).map fun read => (symbol :: read.1, read.2)

theorem length_readLine?_lt
    {text line rest : List α}
    (isLine : readLine? cr lf text = some (line, rest)) :
    rest.length < text.length := by
  induction text generalizing line with
  | nil =>
      cases isLine
  | cons symbol others inductionHypothesis =>
      unfold readLine? at isLine
      split at isLine
      · cases isLine
        rw [List.length_tail, List.length_cons]
        exact Nat.lt_succ_of_le (Nat.sub_le _ _)
      · obtain ⟨⟨shorter, after⟩, isRead, same⟩ :=
          Option.map_eq_some_iff.mp isLine
        cases same
        exact Nat.lt_succ_of_lt (inductionHypothesis isRead)

/-- The lines up to the first empty one, and what follows it. -/
def readBlock? (text : List α) : Option (List (List α) × List α) :=
  match _isLine : readLine? cr lf text with
  | none =>
      none
  | some ([], rest) =>
      some ([], rest)
  | some (symbol :: line, rest) =>
      (readBlock? rest).map fun read => ((symbol :: line) :: read.1, read.2)
  termination_by text.length
  decreasing_by exact length_readLine?_lt cr lf _isLine

variable {cr lf}

theorem readLine?_append
    {line : List α}
    (noReturn : cr ∉ line)
    (rest : List α) :
    readLine? cr lf (line ++ cr :: lf :: rest) = some (line, rest) := by
  induction line with
  | nil =>
      simp [readLine?]
  | cons symbol others inductionHypothesis =>
      have notFirst : symbol ≠ cr := by
        rintro rfl
        exact noReturn List.mem_cons_self
      have notLater : cr ∉ others := fun isLater =>
        noReturn (List.mem_cons_of_mem symbol isLater)
      simp [readLine?, notFirst, inductionHypothesis notLater]

/-- A block is read back, whatever follows it. -/
theorem readBlock?_block
    {lines : List (List α)}
    (areLines : ∀ line ∈ lines, IsLine cr lf line)
    (rest : List α) :
    readBlock? cr lf (block cr lf lines ++ rest) = some (lines, rest) := by
  induction lines with
  | nil =>
      have isLine :
          readLine? cr lf (block cr lf [] ++ rest) = some ([], rest) :=
        readLine?_append List.not_mem_nil rest
      rw [readBlock?]
      split <;> simp_all
  | cons line others inductionHypothesis =>
      obtain ⟨isFirst, areOthers⟩ := List.forall_mem_cons.mp areLines
      have isText :
          block cr lf (line :: others) ++ rest =
            line ++ cr :: lf :: (block cr lf others ++ rest) := by
        simp [block]
      have isLine := @readLine?_append _ cr lf _ _ isFirst.noReturn
        (block cr lf others ++ rest)
      have isRest := inductionHypothesis areOthers
      have nonempty := isFirst.nonempty
      rw [isText, readBlock?]
      split <;> simp_all

end Reading

/-! ## The empty line -/

variable {cr lf}

/-- A block that begins with a line end has no lines. -/
theorem eq_nil_of_block_eq_cons
    {lines : List (List α)}
    {rest : List α}
    (areLines : ∀ line ∈ lines, IsLine cr lf line)
    (isBlock : block cr lf lines = cr :: rest) :
    lines = [] := by
  cases lines with
  | nil =>
      rfl
  | cons line others =>
      have isFirst := areLines line List.mem_cons_self
      cases line with
      | nil =>
          exact absurd rfl isFirst.nonempty
      | cons symbol shorter =>
          obtain ⟨rfl, _⟩ := List.cons.inj isBlock
          exact absurd List.mem_cons_self isFirst.noReturn

/-- An empty line stands at the end of a block only. -/
theorem standsAt_block
    {lines : List (List α)}
    (differ : cr ≠ lf)
    (areLines : ∀ line ∈ lines, IsLine cr lf line)
    {index : Nat}
    (stands : StandsAt [cr, lf, cr, lf] (block cr lf lines) index) :
    index + 4 = (block cr lf lines).length := by
  induction lines generalizing index with
  | nil =>
      have within := stands.1
      simp [block] at within
  | cons line others inductionHypothesis =>
      obtain ⟨isFirst, areOthers⟩ := List.forall_mem_cons.mp areLines
      obtain ⟨before, after, isText, rfl⟩ := standsAt_iff_exists.mp stands
      have fromLine
          (middle : List α)
          (isEnd :
            cr :: lf :: block cr lf others =
              middle ++ [cr, lf, cr, lf] ++ after) :
          middle.length + 4 = (block cr lf others).length + 2 := by
        -- The empty line begins where the line ends, or in a later line.
        rcases middle with _ | ⟨first, _ | ⟨second, later⟩⟩
        · have isRest : block cr lf others = cr :: lf :: after := by
            simpa using isEnd
          have noOthers := eq_nil_of_block_eq_cons areOthers isRest
          subst noOthers
          rfl
        · obtain ⟨_, isLater⟩ := List.cons.inj isEnd
          obtain ⟨swapped, _⟩ := List.cons.inj isLater
          exact absurd swapped.symm differ
        · have isRest :
              block cr lf others =
                later ++ ([cr, lf, cr, lf] ++ after) := by
            obtain ⟨_, isLater⟩ := List.cons.inj isEnd
            obtain ⟨_, isLast⟩ := List.cons.inj isLater
            simpa using isLast
          have inOthers := inductionHypothesis areOthers
            (standsAt_iff_exists.mpr ⟨later, after, isRest, rfl⟩)
          simp only [List.length_cons]
          omega
      rw [block, List.append_eq_append_iff] at isText
      rcases isText with
          ⟨middle, rfl, isEnd⟩ | ⟨middle, rfl, isEnd⟩
      · have isLength := fromLine middle (by simpa using isEnd)
        simp only [block, List.length_append, List.length_cons]
        omega
      · cases middle with
        | nil =>
            have isLength := fromLine [] (by simpa using isEnd.symm)
            simp only [List.length_nil, block, List.append_nil,
              List.length_append, List.length_cons] at isLength ⊢
            omega
        | cons first later =>
            obtain ⟨rfl, _⟩ := List.cons.inj isEnd
            have isReturn : cr ∈ before ++ cr :: later := by
              simp
            exact absurd isReturn isFirst.noReturn

end LineBreaks
