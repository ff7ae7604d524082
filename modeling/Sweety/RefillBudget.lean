import Mathlib.Algebra.Order.Field.Basic
import Mathlib.Data.List.Pairwise
import Mathlib.Tactic.Common
import Mathlib.Tactic.Linarith
import Mathlib.Tactic.Ring
import Sweety.StepRun

/-!
# Budgets that refill over time

A machine takes steps at moments that never go back, and some of its steps
spend one unit.  If a level between zero and a capacity pays for every unit
spent and otherwise grows no faster than a rate, then no window of time sees
more units spent than the capacity and what the rate adds in the window.  This
module names no particular machine.
-/

namespace RefillBudget

open StepRun

variable
  {State Label K : Type}
  [LinearOrder K]

/-- A machine whose steps have a moment, some of which spend one unit. -/
structure Machine (State Label K : Type) where
  step : State → Label → State
  spends : State → Label → Bool
  moment : Label → K

namespace Machine

variable (machine : Machine State Label K)

/-- Every step is enabled. -/
def step? (state : State) (label : Label) : Option State :=
  some (machine.step state label)

/-- The state that a run ends in. -/
def runFrom (state : State) (labels : List Label) : State :=
  labels.foldl machine.step state

/-- How many units a run spends between two moments, both included. -/
def spentWithin
    (first last : K) :
    State → List Label → Nat
  | _, [] =>
      0
  | state, label :: rest =>
      (if first ≤ machine.moment label ∧ machine.moment label ≤ last ∧
          machine.spends state label then
        1
      else
        0) +
        spentWithin first last (machine.step state label) rest

/-- The moments of a run start at one moment and never go back. -/
def Ordered (start : K) (labels : List Label) : Prop :=
  (start :: labels.map machine.moment).Pairwise (· ≤ ·)

theorem ordered_cons
    {start : K}
    {label : Label}
    {rest : List Label}
    (ordered : machine.Ordered start (label :: rest)) :
    start ≤ machine.moment label ∧
      machine.Ordered (machine.moment label) rest := by
  have split := List.pairwise_cons.mp ordered
  exact ⟨split.1 _ List.mem_cons_self, split.2⟩

/-- A run whose moments never go back starts at its first one. -/
theorem ordered_first
    {label : Label}
    {rest : List Label}
    (sorted : ((label :: rest).map machine.moment).Pairwise (· ≤ ·)) :
    machine.Ordered (machine.moment label) (label :: rest) := by
  apply List.pairwise_cons.mpr
  refine ⟨?_, sorted⟩
  intro moment member
  obtain rfl | later := List.mem_cons.mp member
  · exact le_rfl
  · exact (List.pairwise_cons.mp sorted).1 moment later

theorem exists_ordered
    [Inhabited K]
    {labels : List Label}
    (sorted : (labels.map machine.moment).Pairwise (· ≤ ·)) :
    ∃ start, machine.Ordered start labels := by
  cases labels with
  | nil =>
      exact ⟨default, List.pairwise_singleton _ _⟩
  | cons label rest =>
      exact ⟨machine.moment label, machine.ordered_first sorted⟩

/-- After the window nothing counts. -/
theorem spentWithin_after
    {first last start : K}
    {state : State}
    {labels : List Label}
    (ordered : machine.Ordered start labels)
    (isAfter : last < start) :
    machine.spentWithin first last state labels = 0 := by
  induction labels generalizing state start with
  | nil =>
      rfl
  | cons label rest inductionHypothesis =>
      obtain ⟨later, restOrdered⟩ := machine.ordered_cons ordered
      have labelAfter : last < machine.moment label :=
        lt_of_lt_of_le isAfter later
      rw [spentWithin, if_neg fun within =>
          absurd within.2.1 (not_le_of_gt labelAfter),
        inductionHypothesis restOrdered labelAfter]

end Machine

variable [Field K]

/--
A level that refills: `Settled state moment` says that the state was reached by
that moment, and the guard is what a step must meet for the level to pay.
-/
structure Budget
    (machine : Machine State Label K)
    (guard : State → Label → Prop)
    (Settled : State → K → Prop)
    (level : State → K → K)
    (capacity rate : K) :
    Prop where
  rate_nonneg : 0 ≤ rate
  level_nonneg :
    ∀ {state moment},
      Settled state moment →
      0 ≤ level state moment
  level_le :
    ∀ {state moment},
      Settled state moment →
      level state moment ≤ capacity
  level_grows :
    ∀ {state earlier later},
      Settled state earlier →
      earlier ≤ later →
      level state later ≤ level state earlier + rate * (later - earlier)
  settled_later :
    ∀ {state earlier later},
      Settled state earlier →
      earlier ≤ later →
      Settled state later
  settled_step :
    ∀ {state label},
      Settled state (machine.moment label) →
      Settled (machine.step state label) (machine.moment label)
  pays :
    ∀ {state label},
      Settled state (machine.moment label) →
      guard state label →
      level (machine.step state label) (machine.moment label) +
          (if machine.spends state label then 1 else 0) ≤
        level state (machine.moment label)

namespace Budget

variable
  [IsStrictOrderedRing K]
  {machine : Machine State Label K}
  {guard : State → Label → Prop}
  {Settled : State → K → Prop}
  {level : State → K → K}
  {capacity rate : K}
  {first last start : K}
  {state : State}
  {labels : List Label}

/-- A window that is already open spends at most the level and the refill. -/
theorem spentWithin_le_level
    (first : K)
    (budget : Budget machine guard Settled level capacity rate)
    (settled : Settled state start)
    (ordered : machine.Ordered start labels)
    (guarded :
      Along machine.step? (fun before label _ => guard before label)
        state labels)
    (isOpen : start ≤ last) :
    (machine.spentWithin first last state labels : K) ≤
      level state start + rate * (last - start) := by
  induction labels generalizing state start with
  | nil =>
      have refill : 0 ≤ rate * (last - start) :=
        mul_nonneg budget.rate_nonneg (sub_nonneg.mpr isOpen)
      have notNegative := budget.level_nonneg settled
      simp only [Machine.spentWithin, Nat.cast_zero]
      linarith
  | cons label rest inductionHypothesis =>
      obtain ⟨later, restOrdered⟩ := machine.ordered_cons ordered
      have settledNow := budget.settled_later settled later
      have grows := budget.level_grows settled later
      obtain ⟨meets, restGuarded⟩ :=
        (along_cons_of_step rfl).mp guarded
      by_cases inWindow : machine.moment label ≤ last
      · have pays := budget.pays settledNow meets
        have restSpends :=
          inductionHypothesis (budget.settled_step settledNow) restOrdered
            restGuarded inWindow
        have spendsNow :
            ((if first ≤ machine.moment label ∧
                machine.moment label ≤ last ∧
                machine.spends state label then
              1
            else
              0 : ℕ) : K) ≤
              if machine.spends state label then 1 else 0 := by
          by_cases spends : machine.spends state label = true
          · rw [if_pos spends]
            split
            · rw [Nat.cast_one]
            · rw [Nat.cast_zero]
              exact zero_le_one
          · rw [if_neg spends, if_neg fun within => spends within.2.2,
              Nat.cast_zero]
        have apart :
            rate * (last - start) =
              rate * (machine.moment label - start) +
                rate * (last - machine.moment label) := by
          ring
        rw [Machine.spentWithin, Nat.cast_add]
        linarith
      · have isAfter := lt_of_not_ge inWindow
        have nothing :
            machine.spentWithin first last state (label :: rest) = 0 := by
          rw [Machine.spentWithin,
            if_neg fun within => inWindow within.2.1,
            machine.spentWithin_after restOrdered isAfter]
        have refill : 0 ≤ rate * (last - start) :=
          mul_nonneg budget.rate_nonneg (sub_nonneg.mpr isOpen)
        have notNegative := budget.level_nonneg settled
        rw [nothing, Nat.cast_zero]
        linarith

/--
A window spends at most the capacity and the refill.  Before the window opens
nothing counts; when it opens the level is at most the capacity.
-/
theorem spentWithin_le
    (budget : Budget machine guard Settled level capacity rate)
    (settled : Settled state start)
    (ordered : machine.Ordered start labels)
    (guarded :
      Along machine.step? (fun before label _ => guard before label)
        state labels)
    (isWindow : first ≤ last) :
    (machine.spentWithin first last state labels : K) ≤
      capacity + rate * (last - first) := by
  have refill : 0 ≤ rate * (last - first) :=
    mul_nonneg budget.rate_nonneg (sub_nonneg.mpr isWindow)
  induction labels generalizing state start with
  | nil =>
      have notNegative := budget.level_nonneg settled
      have bounded := budget.level_le settled
      simp only [Machine.spentWithin, Nat.cast_zero]
      linarith
  | cons label rest inductionHypothesis =>
      obtain ⟨later, restOrdered⟩ := machine.ordered_cons ordered
      have settledNow := budget.settled_later settled later
      by_cases opened : first ≤ machine.moment label
      · have bounded := budget.level_le settledNow
        by_cases inWindow : machine.moment label ≤ last
        · have spent :=
            budget.spentWithin_le_level first settledNow
              (machine.ordered_first (List.pairwise_cons.mp ordered).2)
              guarded inWindow
          have shorter :
              rate * (last - machine.moment label) ≤
                rate * (last - first) :=
            mul_le_mul_of_nonneg_left (sub_le_sub_left opened last)
              budget.rate_nonneg
          linarith
        · have notNegative := budget.level_nonneg settledNow
          rw [Machine.spentWithin,
            if_neg fun within => inWindow within.2.1,
            machine.spentWithin_after restOrdered (lt_of_not_ge inWindow),
            Nat.cast_zero]
          linarith
      · obtain ⟨_, restGuarded⟩ := (along_cons_of_step rfl).mp guarded
        rw [Machine.spentWithin, if_neg fun within => opened within.1,
          Nat.zero_add]
        exact inductionHypothesis (budget.settled_step settledNow)
          restOrdered restGuarded

end Budget

end RefillBudget
