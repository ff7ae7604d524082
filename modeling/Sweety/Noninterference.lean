import Mathlib.Data.List.Basic
import Mathlib.Tactic.Common

/-!
# What an observer sees when hidden steps are left out

A machine takes labelled steps, some of which show an output to an observer.
If a relation between two states survives a hidden step of the first one alone
and any other step of both, and related states show the same, then the observer
sees the same with and without the hidden steps.  This module names no
particular machine.
-/

namespace Noninterference

variable {State Label Output : Type}

/-- A machine with an observer. -/
structure Machine (State Label Output : Type) where
  step : State → Label → State
  shows : State → Label → Option Output

namespace Machine

variable (machine : Machine State Label Output)

/-- What the observer sees of a run. -/
def observed : State → List Label → List Output
  | _, [] =>
      []
  | state, label :: rest =>
      (machine.shows state label).toList ++
        observed (machine.step state label) rest

/-- The state after a run. -/
def runFrom (state : State) (labels : List Label) : State :=
  labels.foldl machine.step state

/-- Steps that show nothing only change the state. -/
theorem observed_append_of_silent
    {leading trailing : List Label}
    (silent :
      ∀ state, ∀ label ∈ leading, machine.shows state label = none)
    (state : State) :
    machine.observed state (leading ++ trailing) =
      machine.observed (machine.runFrom state leading) trailing := by
  induction leading generalizing state with
  | nil =>
      rfl
  | cons label rest inductionHypothesis =>
      have nothing := silent state label List.mem_cons_self
      rw [List.cons_append, observed, nothing]
      apply inductionHypothesis
      intro other laterLabel member
      exact silent other laterLabel (List.mem_cons_of_mem label member)

/-- A relation that hidden steps cannot break. -/
structure Unwinding
    (hidden : Label → Bool)
    (Related : State → State → Prop) :
    Prop where
  skip :
    ∀ {first second label},
      hidden label = true →
      Related first second →
      Related (machine.step first label) second
  both :
    ∀ {first second label},
      hidden label = false →
      Related first second →
      Related (machine.step first label) (machine.step second label)
  silent :
    ∀ {state label},
      hidden label = true →
      machine.shows state label = none
  same :
    ∀ {first second label},
      hidden label = false →
      Related first second →
      machine.shows first label = machine.shows second label

/-- The observer sees the same without the hidden steps. -/
theorem Unwinding.observed_filter
    {machine : Machine State Label Output}
    {hidden : Label → Bool}
    {Related : State → State → Prop}
    (unwinding : machine.Unwinding hidden Related)
    {first second : State}
    (related : Related first second)
    (labels : List Label) :
    machine.observed first labels =
      machine.observed second
        (labels.filter fun label => !hidden label) := by
  induction labels generalizing first second with
  | nil =>
      rfl
  | cons label rest inductionHypothesis =>
      cases isHidden : hidden label with
      | true =>
          have later :=
            inductionHypothesis (unwinding.skip isHidden related)
          rw [observed, unwinding.silent isHidden, later,
            List.filter_cons_of_neg (by simp [isHidden])]
          rfl
      | false =>
          have later :=
            inductionHypothesis (unwinding.both isHidden related)
          rw [List.filter_cons_of_pos (by simp [isHidden]), observed,
            observed, later, unwinding.same isHidden related]

end Machine

end Noninterference
