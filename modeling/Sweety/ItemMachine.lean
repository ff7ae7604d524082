import Mathlib.Data.List.Basic
import Mathlib.Tactic.Common

/-!
# Machines that read item by item

A machine reads a list item by item and puts something out at each of them.  It
may stop, and then leaves what it has not read.  What it does with a list does
not depend on the pieces in which the list arrives, as long as what it leaves of
one piece is put before the next.
-/

/-- A machine: whether it has stopped, and what it does with an item if not. -/
structure ItemMachine (State Item Out : Type*) where
  stopped : State → Bool
  step : State → Item → State × List Out

namespace ItemMachine

/-- What a machine has put out, its state, and what it has not read. -/
@[ext] structure Outcome (State Item Out : Type*) where
  out : List Out
  state : State
  rest : List Item

variable
  {State Item Out : Type*}

/-- An outcome with more put out before it. -/
def Outcome.after
    (earlier : List Out)
    (later : Outcome State Item Out) :
    Outcome State Item Out :=
  { later with out := earlier ++ later.out }

namespace Outcome

variable
  (earlier : List Out)
  (later : Outcome State Item Out)

@[simp] theorem out_after : (later.after earlier).out = earlier ++ later.out :=
  rfl

@[simp] theorem state_after : (later.after earlier).state = later.state :=
  rfl

@[simp] theorem rest_after : (later.after earlier).rest = later.rest :=
  rfl

@[simp] theorem after_nil : later.after [] = later :=
  rfl

@[simp] theorem after_after (first : List Out) :
    (later.after earlier).after first = later.after (first ++ earlier) := by
  simp [after]

end Outcome

variable
  (machine : ItemMachine State Item Out)

/-- The machine reads a list. -/
def run : State → List Item → Outcome State Item Out
  | state, [] =>
      ⟨[], state, []⟩
  | state, item :: items =>
      if machine.stopped state then
        ⟨[], state, item :: items⟩
      else
        (run (machine.step state item).1 items).after
          (machine.step state item).2

/-- The list arrives in pieces; `left` is what has not been read of it. -/
def runPieces :
    State → List Item → List (List Item) → Outcome State Item Out
  | state, left, [] =>
      ⟨[], state, left⟩
  | state, left, piece :: pieces =>
      let now := machine.run state (left ++ piece)
      (runPieces now.state now.rest pieces).after now.out

variable {machine} {state : State}

@[simp] theorem run_nil : machine.run state [] = ⟨[], state, []⟩ :=
  rfl

theorem run_of_stopped
    (isStopped : machine.stopped state = true)
    (items : List Item) :
    machine.run state items = ⟨[], state, items⟩ := by
  cases items with
  | nil =>
      rfl
  | cons item rest =>
      rw [run, if_pos isStopped]

theorem run_cons_of_running
    (isRunning : machine.stopped state = false)
    (item : Item)
    (items : List Item) :
    machine.run state (item :: items) =
      (machine.run (machine.step state item).1 items).after
        (machine.step state item).2 := by
  rw [run, if_neg (by simp [isRunning])]

/-- A machine that leaves something has stopped. -/
theorem stopped_of_rest
    {items : List Item}
    (leaves : (machine.run state items).rest ≠ []) :
    machine.stopped (machine.run state items).state = true := by
  induction items generalizing state with
  | nil =>
      exact absurd rfl leaves
  | cons item items inductionHypothesis =>
      cases isStopped : machine.stopped state with
      | true =>
          rw [run_of_stopped isStopped]
          exact isStopped
      | false =>
          rw [run_cons_of_running isStopped] at leaves ⊢
          exact inductionHypothesis leaves

/-- What every step keeps, a run keeps. -/
theorem state_invariant
    (Kept : State → Prop)
    (keeps : ∀ state item, Kept state → Kept (machine.step state item).1)
    (isKept : Kept state)
    (items : List Item) :
    Kept (machine.run state items).state := by
  induction items generalizing state with
  | nil =>
      exact isKept
  | cons item items inductionHypothesis =>
      cases isStopped : machine.stopped state with
      | true =>
          rw [run_of_stopped isStopped]
          exact isKept
      | false =>
          rw [run_cons_of_running isStopped]
          exact inductionHypothesis (keeps state item isKept)

/-- A list in two parts: the second is read behind what the first left. -/
theorem run_append (state : State) (first second : List Item) :
    machine.run state (first ++ second) =
      let now := machine.run state first
      (machine.run now.state (now.rest ++ second)).after now.out := by
  induction first generalizing state with
  | nil =>
      rfl
  | cons item items inductionHypothesis =>
      cases isStopped : machine.stopped state with
      | true =>
          simp [run_of_stopped isStopped]
      | false =>
          rw [List.cons_append, run_cons_of_running isStopped,
            run_cons_of_running isStopped, inductionHypothesis]
          exact Outcome.after_after ..

/-- A machine has read all it can of what it has. -/
theorem run_run (state : State) (items : List Item) :
    machine.run (machine.run state items).state
        (machine.run state items).rest =
      ⟨[], (machine.run state items).state,
        (machine.run state items).rest⟩ := by
  by_cases isRead : (machine.run state items).rest = []
  · rw [isRead, run_nil]
  · exact run_of_stopped (stopped_of_rest isRead) _

/--
The pieces do not matter: a machine that has read all it can of what it has
does with the pieces what it does with the whole list.
-/
theorem runPieces_eq
    {left : List Item}
    (settled : machine.run state left = ⟨[], state, left⟩)
    (pieces : List (List Item)) :
    machine.runPieces state left pieces =
      machine.run state (left ++ pieces.flatten) := by
  induction pieces generalizing state left with
  | nil =>
      rw [List.flatten_nil, List.append_nil, settled, runPieces]
  | cons piece pieces inductionHypothesis =>
      rw [runPieces, inductionHypothesis (run_run state (left ++ piece)),
        List.flatten_cons,
        ← List.append_assoc, run_append state (left ++ piece)]

end ItemMachine
