import Mathlib.Data.List.Infix
import Sweety.FileTree

namespace FileTree

/-!
# Paths without their files

Where steps lead is also worked out from their names alone: `..` takes back the
name before it, and where there is none it goes up, except from the root.  Steps
that are followed from somewhere go up by as many names as they climb on their
own, and then down by their own names.
-/

/-- So many directories up, and then down the names. -/
structure Reached (Name : Type) where
  ups : Nat
  names : List Name
  deriving DecidableEq

namespace Reached

variable {Name : Type}

def origin : Reached Name :=
  ⟨0, []⟩

/-- One step; nothing is above the root. -/
def take (bounded : Bool) (reached : Reached Name) : Step Name → Reached Name
  | .here =>
      reached
  | .into name =>
      ⟨reached.ups, reached.names ++ [name]⟩
  | .up =>
      if reached.names.isEmpty then
        if bounded then
          reached
        else
          ⟨reached.ups + 1, []⟩
      else
        ⟨reached.ups, reached.names.dropLast⟩

/-- Some steps. -/
def follow
    (bounded : Bool)
    (reached : Reached Name)
    (steps : List (Step Name)) :
    Reached Name :=
  steps.foldl (take bounded) reached

/-- Steps on their own. -/
def net (steps : List (Step Name)) : Reached Name :=
  follow false origin steps

/-- At the same place or further down. -/
def Below (base reached : Reached Name) : Prop :=
  base.ups = reached.ups ∧ base.names <+: reached.names

variable
  {bounded : Bool}
  {base : Reached Name}
  {steps : List (Step Name)}

@[simp] theorem follow_nil :
    follow bounded base [] = base :=
  rfl

theorem follow_append (first second : List (Step Name)) :
    follow bounded base (first ++ second) =
      follow bounded (follow bounded base first) second :=
  List.foldl_append

theorem follow_concat (step : Step Name) :
    follow bounded base (steps ++ [step]) =
      take bounded (follow bounded base steps) step := by
  rw [follow_append]
  rfl

@[simp] theorem follow_here :
    follow bounded base (.here :: steps) = follow bounded base steps :=
  rfl

theorem take_up_of_nil
    {ups : Nat} :
    take bounded ⟨ups, ([] : List Name)⟩ .up =
      ⟨if bounded then ups else ups + 1, []⟩ := by
  cases bounded <;> rfl

theorem take_up_of_ne_nil
    {ups : Nat}
    {names : List Name}
    (nonempty : names ≠ []) :
    take bounded ⟨ups, names⟩ .up = ⟨ups, names.dropLast⟩ := by
  obtain ⟨first, rest, rfl⟩ := List.exists_cons_of_ne_nil nonempty
  rfl

/-- Where steps lead from somewhere, by where they lead on their own. -/
theorem follow_eq
    (bounded : Bool)
    (base : Reached Name)
    (steps : List (Step Name)) :
    follow bounded base steps =
      ⟨base.ups +
          (if bounded then 0 else (net steps).ups - base.names.length),
        base.names.take (base.names.length - (net steps).ups) ++
          (net steps).names⟩ := by
  induction steps using List.reverseRecOn with
  | nil =>
      cases bounded <;> simp [net, origin]
  | append_singleton steps step inductionHypothesis =>
      have isNet : net (steps ++ [step]) = take false (net steps) step :=
        follow_concat step
      rw [follow_concat, inductionHypothesis, isNet]
      cases step with
      | here =>
          rfl
      | into name =>
          simp only [take, List.append_assoc]
      | up =>
          obtain ⟨ups, names⟩ := base
          obtain ⟨climbed, below⟩ := net steps
          dsimp only
          by_cases isNil : below = []
          · subst below
            rw [take_up_of_nil, List.append_nil, if_neg Bool.false_ne_true]
            by_cases above : names.length ≤ climbed
            · have noNames : names.take (names.length - climbed) = [] := by
                rw [Nat.sub_eq_zero_of_le above, List.take_zero]
              have still : names.take (names.length - (climbed + 1)) = [] := by
                rw [Nat.sub_eq_zero_of_le (Nat.le_succ_of_le above),
                  List.take_zero]
              rw [noNames, take_up_of_nil]
              dsimp only
              rw [still]
              cases bounded with
              | true =>
                  rfl
              | false =>
                  have counted :
                      ups + (climbed - names.length) + 1 =
                        ups + (climbed + 1 - names.length) := by
                    omega
                  simp only [Bool.false_eq_true, if_false, counted,
                    List.append_nil]
            · have some : names.take (names.length - climbed) ≠ [] := by
                intro isEmpty
                have noLength := congrArg List.length isEmpty
                rw [List.length_take, List.length_nil] at noLength
                omega
              have shorter :
                  (names.take (names.length - climbed)).dropLast =
                    names.take (names.length - (climbed + 1)) := by
                rw [List.dropLast_eq_take, List.take_take, List.length_take]
                congr 1
                omega
              have noneAbove : climbed - names.length = 0 := by omega
              have noneMore : climbed + 1 - names.length = 0 := by omega
              rw [take_up_of_ne_nil some, shorter]
              dsimp only
              rw [noneAbove, noneMore, List.append_nil]
          · have both :
                names.take (names.length - climbed) ++ below ≠ [] :=
              List.append_ne_nil_of_right_ne_nil _ isNil
            rw [take_up_of_ne_nil both, take_up_of_ne_nil isNil,
              List.dropLast_append_of_ne_nil isNil]

/-- The steps climb no higher than they come down again by the same names. -/
def Returns (bounded : Bool) (base : Reached Name) (steps : List (Step Name)) :
    Prop :=
  (bounded = true ∨ (net steps).ups ≤ base.names.length) ∧
    base.names.drop (base.names.length - (net steps).ups) <+:
      (net steps).names

/-- Exactly such steps stay below where they begin. -/
theorem below_follow_iff :
    Below base (follow bounded base steps) ↔ Returns bounded base steps := by
  rw [follow_eq, Below, Returns]
  apply and_congr
  · cases bounded with
    | true =>
        simp
    | false =>
        simp only [Bool.false_eq_true, if_false, false_or]
        constructor <;> intro _ <;> omega
  · have parts :
        base.names <+:
            base.names.take (base.names.length - (net steps).ups) ++
              (net steps).names ↔
          base.names.take (base.names.length - (net steps).ups) ++
              base.names.drop (base.names.length - (net steps).ups) <+:
            base.names.take (base.names.length - (net steps).ups) ++
              (net steps).names := by
      rw [List.take_append_drop]
    exact parts.trans (List.prefix_append_right_inj _)

theorem below_refl (reached : Reached Name) : Below reached reached :=
  ⟨rfl, List.prefix_rfl⟩

/-- Names alone are followed down. -/
theorem follow_names (names : List Name) :
    follow bounded base (names.map .into) =
      ⟨base.ups, base.names ++ names⟩ := by
  induction names generalizing base with
  | nil =>
      rw [List.append_nil]
      rfl
  | cons name rest inductionHypothesis =>
      have onward :
          follow bounded base (List.map .into (name :: rest)) =
            follow bounded ⟨base.ups, base.names ++ [name]⟩
              (rest.map .into) :=
        rfl
      rw [onward, inductionHypothesis, List.append_assoc]
      rfl

end Reached

end FileTree
