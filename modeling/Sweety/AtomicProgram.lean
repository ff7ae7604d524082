import Mathlib.Tactic.Common

/-!
# Programs over atomic operations

A `Program` is code that reaches shared state only through atomic operations:
at each point it has finished, has aborted, or performs one operation and goes
on with the reply.  The same program can be run in one piece (`run`) or be kept
as the remaining code of a thread and performed operation by operation, with
other threads in between.  This module names no particular shared state.
-/

/-- Code over operations `Op`; operation `op` is answered by a `Reply op`. -/
inductive Program (Op : Type) (Reply : Op → Type) (α : Type) where
  | done (value : α)
  | abort
  | call (op : Op) (next : Reply op → Program Op Reply α)

namespace Program

variable {Op : Type} {Reply : Op → Type} {α β State : Type}

/-- Sequential composition. -/
def bind
    (next : α → Program Op Reply β) :
    Program Op Reply α → Program Op Reply β
  | .done value =>
      next value
  | .abort =>
      .abort
  | .call op rest =>
      .call op fun reply => bind next (rest reply)

instance : Monad (Program Op Reply) where
  pure := .done
  bind program next := bind next program

/-- One operation on its own. -/
def perform (op : Op) : Program Op Reply (Reply op) :=
  .call op .done

/--
Run a program in one piece, `answer` telling how the state replies to an
operation and changes under it.  An aborted program has no value.
-/
def run
    (answer : State → (op : Op) → Reply op × State) :
    Program Op Reply α → State → Option α × State
  | .done value, state =>
      (some value, state)
  | .abort, state =>
      (none, state)
  | .call op next, state =>
      run answer (next (answer state op).1) (answer state op).2

variable {answer : State → (op : Op) → Reply op × State} {state : State}

@[simp] theorem run_done (value : α) :
    run answer (.done value : Program Op Reply α) state =
      (some value, state) :=
  rfl

@[simp] theorem run_pure (value : α) :
    run answer (pure value : Program Op Reply α) state =
      (some value, state) :=
  rfl

/-- Running one operation performs it on the state. -/
@[simp] theorem run_perform (op : Op) :
    run answer (perform op : Program Op Reply (Reply op)) state =
      (some (answer state op).1, (answer state op).2) :=
  rfl

/-- A composition runs its second part from where the first one ended. -/
theorem run_bind
    (program : Program Op Reply α)
    (next : α → Program Op Reply β) :
    run answer (program >>= next) state =
      match run answer program state with
      | (some value, middle) =>
          run answer (next value) middle
      | (none, middle) =>
          (none, middle) := by
  induction program generalizing state with
  | done value =>
      rfl
  | abort =>
      rfl
  | call op rest inductionHypothesis =>
      exact inductionHypothesis (answer state op).1

/-- Composition after a first part that returned. -/
theorem run_bind_of_some
    {program : Program Op Reply α}
    {next : α → Program Op Reply β}
    {value : α}
    {middle : State}
    (first : run answer program state = (some value, middle)) :
    run answer (program >>= next) state =
      run answer (next value) middle := by
  rw [run_bind, first]

/-- Composition after a first part that aborted. -/
theorem run_bind_of_none
    {program : Program Op Reply α}
    {next : α → Program Op Reply β}
    {middle : State}
    (first : run answer program state = (none, middle)) :
    run answer (program >>= next) state = (none, middle) := by
  rw [run_bind, first]

/-! ## Every way through a program -/

/--
Every way through a program whose replies are `allowed` ends with a value that
has the property `post`, if it ends with a value.
-/
def Meets
    (allowed : (op : Op) → Reply op → Prop)
    (post : α → Prop) :
    Program Op Reply α → Prop
  | .done value =>
      post value
  | .abort =>
      True
  | .call op next =>
      ∀ reply, allowed op reply → Meets allowed post (next reply)

section Meets

variable
  {allowed : (op : Op) → Reply op → Prop}
  {post weaker : α → Prop}
  {later : β → Prop}

theorem meets_pure
    {value : α}
    (holds : post value) :
    Meets allowed post (pure value : Program Op Reply α) :=
  holds

theorem meets_perform (op : Op) :
    Meets allowed (allowed op) (perform op) :=
  fun _ isAllowed => isAllowed

/-- A composition goes on from any value of its first part. -/
theorem Meets.bind
    {program : Program Op Reply α}
    {next : α → Program Op Reply β}
    (first : Meets allowed post program)
    (second : ∀ value, post value → Meets allowed later (next value)) :
    Meets allowed later (program >>= next) := by
  induction program with
  | done value =>
      exact second value first
  | abort =>
      trivial
  | call op rest inductionHypothesis =>
      intro reply isAllowed
      exact inductionHypothesis reply (first reply isAllowed)

theorem Meets.mono
    {program : Program Op Reply α}
    (meets : Meets allowed post program)
    (implies : ∀ value, post value → weaker value) :
    Meets allowed weaker program := by
  induction program with
  | done value =>
      exact implies value meets
  | abort =>
      trivial
  | call op rest inductionHypothesis =>
      intro reply isAllowed
      exact inductionHypothesis reply (meets reply isAllowed)

theorem meets_true (program : Program Op Reply α) :
    Meets allowed (fun _ => True) program := by
  induction program with
  | done value =>
      trivial
  | abort =>
      trivial
  | call op rest inductionHypothesis =>
      intro reply isAllowed
      exact inductionHypothesis reply

end Meets

end Program
