import Mathlib.Tactic.Common

/-!
# Runs of a labelled step function

A machine is a partial step function: `step state label` is `none` when the
label is not enabled.  This module holds the run vocabulary that the concrete
machines share: executing a label list, asking a property of every transition
a label list takes, and the two rules that turn a statement about one step
into a statement about whole runs.  It names no particular machine.
-/

namespace StepRun

variable {State Label : Type}

/-- Execute a label list; a disabled label refuses the whole list. -/
def run?
    (step : State → Label → Option State) :
    State → List Label → Option State
  | state, [] =>
      some state
  | state, label :: rest =>
      match step state label with
      | none =>
          none
      | some next =>
          run? step next rest

/--
`Along step property state labels`: every transition that the label list takes
from `state` satisfies `property before label after`.
-/
def Along
    (step : State → Label → Option State)
    (property : State → Label → State → Prop) :
    State → List Label → Prop
  | _, [] =>
      True
  | state, label :: rest =>
      ∀ next,
        step state label = some next →
        property state label next ∧
          Along step property next rest

variable
  {step : State → Label → Option State}
  {state final : State}
  {labels : List Label}

@[simp] theorem along_nil
    (property : State → Label → State → Prop)
    (state : State) :
    Along step property state [] :=
  trivial

/-- An accepted first label peels one transition off `Along`. -/
theorem along_cons_of_step
    {property : State → Label → State → Prop}
    {label : Label}
    {rest : List Label}
    {next : State}
    (taken : step state label = some next) :
    Along step property state (label :: rest) ↔
      property state label next ∧
        Along step property next rest := by
  constructor
  · intro along
    exact along next taken
  · intro both other otherTaken
    have same : other = next :=
      Option.some.inj (otherTaken.symm.trans taken)
    subst other
    exact both

/-- A decidable transition property can be checked along a concrete run. -/
instance decidableAlong
    {property : State → Label → State → Prop}
    [decides : ∀ before label after,
      Decidable (property before label after)] :
    ∀ (state : State) (labels : List Label),
      Decidable (Along step property state labels)
  | _, [] =>
      isTrue trivial
  | state, label :: rest =>
      match taken : step state label with
      | none =>
          isTrue fun _ accepted =>
            nomatch (taken.symm.trans accepted)
      | some next =>
          @decidable_of_iff' _ _
            (along_cons_of_step taken)
            (@instDecidableAnd _ _
              (decides state label next)
              (decidableAlong next rest))

/-- An accepted run of a non-empty list starts with an accepted step. -/
theorem run?_cons
    {label : Label}
    {rest : List Label}
    (accepted : run? step state (label :: rest) = some final) :
    ∃ next,
      step state label = some next ∧
        run? step next rest = some final := by
  unfold run? at accepted
  cases taken : step state label with
  | none =>
      simp [taken] at accepted
  | some next =>
      simp only [taken] at accepted
      exact ⟨next, rfl, accepted⟩

/-- A run goes on from where its first part ends. -/
theorem run?_append
    {leading : List Label}
    {middle : State}
    (accepted : run? step state leading = some middle)
    (trailing : List Label) :
    run? step state (leading ++ trailing) = run? step middle trailing := by
  induction leading generalizing state with
  | nil =>
      obtain rfl := Option.some.inj accepted
      rfl
  | cons label rest inductionHypothesis =>
      obtain ⟨next, taken, later⟩ := run?_cons accepted
      simp [run?, taken, inductionHypothesis later]

/-- What holds along a concatenation holds along its second part. -/
theorem along_of_append
    {property : State → Label → State → Prop}
    {leading trailing : List Label}
    {middle : State}
    (along : Along step property state (leading ++ trailing))
    (accepted : run? step state leading = some middle) :
    Along step property middle trailing := by
  induction leading generalizing state with
  | nil =>
      obtain rfl := Option.some.inj accepted
      exact along
  | cons label rest inductionHypothesis =>
      obtain ⟨next, taken, later⟩ := run?_cons accepted
      exact inductionHypothesis (along next taken).2 later

/--
Guarded invariant rule.  If a guarded step keeps the invariant, then a run
whose transitions all meet the guard ends in a state with the invariant.
-/
theorem invariant_of_along
    {guard : State → Label → State → Prop}
    {invariant : State → Prop}
    (preserved :
      ∀ {before label after},
        invariant before →
        step before label = some after →
        guard before label after →
        invariant after)
    (start : invariant state)
    (guarded : Along step guard state labels)
    (accepted : run? step state labels = some final) :
    invariant final := by
  induction labels generalizing state with
  | nil =>
      simp only [run?, Option.some.injEq] at accepted
      subst final
      exact start
  | cons label rest inductionHypothesis =>
      obtain ⟨next, taken, later⟩ := run?_cons accepted
      obtain ⟨headGuard, restGuarded⟩ :=
        (along_cons_of_step taken).mp guarded
      exact inductionHypothesis
        (preserved start taken headGuard) restGuarded later

/--
Guarded transition rule.  If a guarded step from a state with the invariant
keeps it and has the property, then a run whose transitions all meet the guard
has the property at every transition.
-/
theorem along_of_guarded_step
    {guard property : State → Label → State → Prop}
    {invariant : State → Prop}
    (preserved :
      ∀ {before label after},
        invariant before →
        step before label = some after →
        guard before label after →
        invariant after)
    (implies :
      ∀ {before label after},
        invariant before →
        step before label = some after →
        guard before label after →
        property before label after)
    (start : invariant state)
    (guarded : Along step guard state labels) :
    Along step property state labels := by
  induction labels generalizing state with
  | nil =>
      trivial
  | cons label rest inductionHypothesis =>
      intro next taken
      obtain ⟨headGuard, restGuarded⟩ := guarded next taken
      have kept := preserved start taken headGuard
      exact ⟨implies start taken headGuard,
        inductionHypothesis kept restGuarded⟩

/-- The same for a property of the state after a transition. -/
theorem along_of_guarded
    {guard property : State → Label → State → Prop}
    {invariant : State → Prop}
    (preserved :
      ∀ {before label after},
        invariant before →
        step before label = some after →
        guard before label after →
        invariant after)
    (implies :
      ∀ {before label after},
        invariant after →
        property before label after)
    (start : invariant state)
    (guarded : Along step guard state labels) :
    Along step property state labels :=
  along_of_guarded_step preserved
    (fun kept taken meets => implies (preserved kept taken meets))
    start guarded

/-- What is true of every label of a list is true along it. -/
theorem along_of_forall
    {allowed : Label → Prop}
    (areAllowed : ∀ label ∈ labels, allowed label) :
    Along step (fun _ label _ => allowed label) state labels := by
  induction labels generalizing state with
  | nil =>
      trivial
  | cons label rest inductionHypothesis =>
      intro next _
      refine ⟨areAllowed label List.mem_cons_self, ?_⟩
      apply inductionHypothesis
      intro other member
      exact areAllowed other (List.mem_cons_of_mem label member)

/--
Rule for restricted labels.  If a step with an allowed label keeps the invariant
and has the property, then a run of allowed labels has the property at every
transition.
-/
theorem along_of_allowed
    {allowed : Label → Prop}
    {property : State → Label → State → Prop}
    {invariant : State → Prop}
    (preserved :
      ∀ {before label after},
        invariant before →
        step before label = some after →
        allowed label →
        invariant after)
    (implies :
      ∀ {before label after},
        invariant before →
        step before label = some after →
        allowed label →
        property before label after)
    (start : invariant state)
    (areAllowed : ∀ label ∈ labels, allowed label) :
    Along step property state labels := by
  induction labels generalizing state with
  | nil =>
      trivial
  | cons label rest inductionHypothesis =>
      intro next taken
      have allowedNow := areAllowed label List.mem_cons_self
      have kept := preserved start taken allowedNow
      refine ⟨implies start taken allowedNow, ?_⟩
      apply inductionHypothesis kept
      intro other member
      exact areAllowed other (List.mem_cons_of_mem label member)

/-- Unguarded invariant rule. -/
theorem invariant_of_run
    {invariant : State → Prop}
    (preserved :
      ∀ {before label after},
        invariant before →
        step before label = some after →
        invariant after)
    (start : invariant state)
    (accepted : run? step state labels = some final) :
    invariant final := by
  induction labels generalizing state with
  | nil =>
      simp only [run?, Option.some.injEq] at accepted
      subst final
      exact start
  | cons label rest inductionHypothesis =>
      obtain ⟨next, taken, later⟩ := run?_cons accepted
      exact inductionHypothesis (preserved start taken) later

/--
Transition-equivalence rule.  Two transition properties that agree on every
step from an invariant state agree on every run from such a state.  The
invariant need only be kept by steps with the property: up to the first step
without it the two properties agree, and there both fail.
-/
theorem along_congr_of_guarded
    {first second : State → Label → State → Prop}
    {invariant : State → Prop}
    (preserved :
      ∀ {before label after},
        invariant before →
        step before label = some after →
        second before label after →
        invariant after)
    (same :
      ∀ {before label after},
        invariant before →
        step before label = some after →
        (first before label after ↔ second before label after))
    (start : invariant state) :
    Along step first state labels ↔
      Along step second state labels := by
  induction labels generalizing state with
  | nil =>
      simp
  | cons label rest inductionHypothesis =>
      cases taken : step state label with
      | none =>
          simp [Along, taken]
      | some next =>
          rw [along_cons_of_step taken, along_cons_of_step taken,
            same start taken]
          exact and_congr_right fun holds =>
            inductionHypothesis (preserved start taken holds)

/-- The same if every step keeps the invariant. -/
theorem along_congr
    {first second : State → Label → State → Prop}
    {invariant : State → Prop}
    (preserved :
      ∀ {before label after},
        invariant before →
        step before label = some after →
        invariant after)
    (same :
      ∀ {before label after},
        invariant before →
        step before label = some after →
        (first before label after ↔ second before label after))
    (start : invariant state) :
    Along step first state labels ↔
      Along step second state labels :=
  along_congr_of_guarded
    (fun kept taken _ => preserved kept taken)
    same start

end StepRun
