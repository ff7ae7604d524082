import Sweety.StepRun

/-!
# Two updates of a shared cell

Each of two writers loads the cell, computes a new value from what it has
loaded, and stores it; a writer may also find nothing to do and store nothing.
Loads and stores are atomic, and nothing else is: there is no lock and no
compare-and-swap. The module works out what a complete run of both leaves in the
cell.  It names no particular cell.
-/

namespace ReadModifyWrite

open StepRun

/-- The two writers. -/
inductive Writer where
  | first
  | second
  deriving Repr, DecidableEq

/-- The other writer. -/
def Writer.other : Writer → Writer
  | .first =>
      .second
  | .second =>
      .first

variable {Value : Type}

/-- How far a writer is. -/
inductive Phase (Value : Type) where
  | ready
  | loaded (value : Value)
  | done

/-- The cell and the writers. -/
structure State (Value : Type) where
  cell : Value
  phase : Writer → Phase Value

/-- Both writers are about to load the cell. -/
def start (cell : Value) : State Value where
  cell := cell
  phase := fun _ => .ready

/-- What each writer makes of the value it has loaded, if it stores one. -/
abbrev Updates (Value : Type) :=
  Writer → Value → Option Value

/-- The next step of a writer: a load, or a store. -/
def step?
    (updates : Updates Value)
    (state : State Value)
    (writer : Writer) :
    Option (State Value) :=
  match state.phase writer with
  | .ready =>
      some
        { state with
          phase := fun other =>
            if other = writer then
              .loaded state.cell
            else
              state.phase other }
  | .loaded value =>
      some
        { cell := (updates writer value).getD state.cell
          phase := fun other =>
            if other = writer then .done else state.phase other }
  | .done =>
      none

/-- A run in which both writers finish, and what it leaves in the cell. -/
def Finishes
    (updates : Updates Value)
    (cell : Value)
    (schedule : List Writer)
    (result : Value) :
    Prop :=
  ∃ final,
    run? (step? updates) (start cell) schedule = some final ∧
      (∀ writer, final.phase writer = .done) ∧
      final.cell = result

/-- One update, run by itself. -/
def alone
    (updates : Updates Value)
    (writer : Writer)
    (cell : Value) :
    Value :=
  (updates writer cell).getD cell

/-- Both updates, one after the other. -/
def inTurn
    (updates : Updates Value)
    (writer : Writer)
    (cell : Value) :
    Value :=
  alone updates writer.other (alone updates writer cell)

/-- Each writer loads the cell before the other has stored. -/
def Overlap (schedule : List Writer) : Prop :=
  schedule[0]? ≠ schedule[1]?

instance (schedule : List Writer) : Decidable (Overlap schedule) :=
  inferInstanceAs (Decidable (schedule[0]? ≠ schedule[1]?))

/-- The writer that stores last. -/
def lastWriter (schedule : List Writer) : Writer :=
  (schedule[3]?).getD .second

/--
What a run leaves: both updates in turn, or the last one on the old value.
-/
theorem result_of_finishes
    {updates : Updates Value}
    {cell result : Value}
    {schedule : List Writer}
    (finishes : Finishes updates cell schedule result) :
    (¬ Overlap schedule ∧
      ∃ writer, result = inTurn updates writer cell) ∨
    (Overlap schedule ∧
      result =
        (updates (lastWriter schedule) cell).getD
          (alone updates (lastWriter schedule).other cell)) := by
  obtain ⟨final, accepted, done, rfl⟩ := finishes
  have firstDone := done .first
  have secondDone := done .second
  -- A complete run has exactly four steps, two of each writer.
  rcases schedule with _ | ⟨a, _ | ⟨b, _ | ⟨c, _ | ⟨d, rest⟩⟩⟩⟩
  · cases accepted
    cases firstDone
  · cases a <;> cases accepted <;> simp [start] at firstDone secondDone
  · cases a <;> cases b <;> cases accepted <;>
      simp [start] at firstDone secondDone
  · cases a <;> cases b <;> cases c <;> cases accepted <;>
      simp [start] at firstDone secondDone
  · cases rest with
    | nil =>
        cases a <;> cases b <;> cases c <;> cases d <;>
          cases accepted <;>
          first
            | exact .inl ⟨by decide, .first, rfl⟩
            | exact .inl ⟨by decide, .second, rfl⟩
            | exact .inr ⟨by decide, rfl⟩
    | cons e more =>
        cases a <;> cases b <;> cases c <;> cases d <;> cases e <;>
          cases accepted

/-- A writer is one of two. -/
theorem Writer.exists_iff
    {property : Writer → Prop}
    (last : Writer) :
    (∃ writer, property writer) ↔
      property last.other ∨ property last := by
  constructor
  · rintro ⟨writer, holds⟩
    cases writer <;> cases last <;> simp [other, holds]
  · rintro (holds | holds)
    · exact ⟨_, holds⟩
    · exact ⟨_, holds⟩

@[simp]
theorem Writer.other_other (writer : Writer) :
    writer.other.other = writer := by
  cases writer <;> rfl

/-- The first of the two cases below, for a writer that stores nothing. -/
theorem inTurn_of_stores_nothing
    {updates : Updates Value}
    {writer : Writer}
    {cell : Value}
    (nothing : updates writer cell = none) :
    inTurn updates writer cell = alone updates writer.other cell := by
  have unchanged : alone updates writer cell = cell := by
    rw [alone, nothing, Option.getD_none]
  rw [inTurn, unchanged]

/--
A run leaves both updates in turn unless they overlap.  If they do, it leaves
the last one alone, and the question is whether that is the same.
-/
theorem exists_inTurn_iff
    {updates : Updates Value}
    {cell result : Value}
    {schedule : List Writer}
    {Same : Value → Value → Prop}
    (reflexive : ∀ value, Same value value)
    (finishes : Finishes updates cell schedule result) :
    (∃ writer, Same result (inTurn updates writer cell)) ↔
      (Overlap schedule →
        updates (lastWriter schedule) cell = none ∨
          ∃ writer,
            Same (alone updates (lastWriter schedule) cell)
              (inTurn updates writer cell)) := by
  rcases result_of_finishes finishes with
      ⟨apart, writer, rfl⟩ | ⟨overlap, rfl⟩
  · constructor
    · intro _ overlap
      exact absurd overlap apart
    · intro _
      exact ⟨writer, reflexive _⟩
  · cases stored : updates (lastWriter schedule) cell with
    | none =>
        constructor
        · intro _ _
          exact .inl rfl
        · intro _
          refine ⟨lastWriter schedule, ?_⟩
          rw [Option.getD_none, inTurn_of_stores_nothing stored]
          exact reflexive _
    | some value =>
        have isAlone :
            alone updates (lastWriter schedule) cell = value := by
          rw [alone, stored, Option.getD_some]
        rw [Option.getD_some, isAlone]
        constructor
        · intro survives _
          exact .inr survives
        · intro survives
          rcases survives overlap with isNone | found
          · cases isNone
          · exact found

end ReadModifyWrite
