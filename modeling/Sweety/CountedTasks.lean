import Mathlib.Data.List.Basic

/-!
# Tasks that a counter counts

A list of tasks, each at some point of its program: a task is started at the end
of the list, and one task moves at a time.  A shared counter that says how many
tasks are at some points is kept right if every move changes it by what the
task's own share changes.  This module names no particular program.
-/

namespace CountedTasks

variable {Task : Type}

/-- How many tasks are at a point where `holds`. -/
def count (holds : Task → Bool) (tasks : List Task) : Nat :=
  tasks.countP holds

/-- What one task adds to the number. -/
def share (holds : Task → Bool) (task : Task) : Nat :=
  (holds task).toNat

variable
  {holds first second : Task → Bool}
  {tasks : List Task}
  {task next : Task}
  {index : Nat}

@[simp] theorem count_nil (holds : Task → Bool) : count holds [] = 0 :=
  rfl

theorem count_cons (task : Task) (tasks : List Task) :
    count holds (task :: tasks) = count holds tasks + share holds task := by
  unfold count share
  rw [List.countP_cons]
  cases holds task <;> rfl

theorem share_of_holds (isHolding : holds task = true) :
    share holds task = 1 := by
  rw [share, isHolding]
  rfl

theorem share_of_not (notHolding : holds task = false) :
    share holds task = 0 := by
  rw [share, notHolding]
  rfl

/-- A task that starts adds its share. -/
theorem count_start
    (holds : Task → Bool)
    (tasks : List Task)
    (task : Task) :
    count holds (tasks ++ [task]) = count holds tasks + share holds task := by
  induction tasks with
  | nil =>
      exact count_cons task []
  | cons other others inductionHypothesis =>
      rw [List.cons_append, count_cons, count_cons, inductionHypothesis,
        Nat.add_right_comm]

/-- A task that moves takes its old share off, and adds its new one. -/
theorem count_move
    (holds : Task → Bool)
    (isTask : tasks[index]? = some task)
    (next : Task) :
    count holds (tasks.set index next) + share holds task =
      count holds tasks + share holds next := by
  induction tasks generalizing index with
  | nil =>
      cases isTask
  | cons other others inductionHypothesis =>
      cases index with
      | zero =>
          cases isTask
          rw [List.set_cons_zero, count_cons, count_cons,
            Nat.add_right_comm]
      | succ index =>
          have moved := inductionHypothesis isTask
          rw [List.set_cons_succ, count_cons, count_cons,
            Nat.add_right_comm, moved, Nat.add_right_comm]

/-- The share of a task is part of the number. -/
theorem share_le_count
    (holds : Task → Bool)
    (isTask : tasks[index]? = some task) :
    share holds task ≤ count holds tasks := by
  induction tasks generalizing index with
  | nil =>
      cases isTask
  | cons other others inductionHypothesis =>
      rw [count_cons]
      cases index with
      | zero =>
          cases isTask
          exact Nat.le_add_left _ _
      | succ index =>
          exact Nat.le_add_right_of_le (inductionHypothesis isTask)

theorem count_pos_of_holds
    (isTask : tasks[index]? = some task)
    (isHolding : holds task = true) :
    0 < count holds tasks := by
  have less := share_le_count holds isTask
  rw [share_of_holds isHolding] at less
  exact less

/-- Points that exclude each other are counted one by one. -/
theorem count_eq_add
    (splits :
      ∀ task, share holds task = share first task + share second task)
    (tasks : List Task) :
    count holds tasks = count first tasks + count second tasks := by
  induction tasks with
  | nil =>
      rfl
  | cons task others inductionHypothesis =>
      rw [count_cons, count_cons, count_cons, inductionHypothesis,
        splits task, Nat.add_add_add_comm]

/-- Of more points there are at least as many. -/
theorem count_le_count
    (implies : ∀ task, first task = true → second task = true)
    (tasks : List Task) :
    count first tasks ≤ count second tasks :=
  List.countP_mono_left fun task _ => implies task

/--
A number of tasks stays within a limit if a task that moves to such a point was
at one before, or finds fewer than the limit.
-/
theorem count_move_le
    {limit : Nat}
    (isTask : tasks[index]? = some task)
    (within : count holds tasks ≤ limit)
    (fits :
      holds next = true → holds task = true ∨ count holds tasks < limit) :
    count holds (tasks.set index next) ≤ limit := by
  have moved := count_move holds isTask next
  cases isNext : holds next with
  | false =>
      rw [share_of_not isNext] at moved
      exact Nat.le_trans (Nat.le.intro moved) within
  | true =>
      rw [share_of_holds isNext] at moved
      rcases fits isNext with isHolding | fewer
      · rw [share_of_holds isHolding] at moved
        rw [Nat.add_right_cancel moved]
        exact within
      · have atMost := Nat.le.intro moved
        exact Nat.le_trans atMost fewer

end CountedTasks
