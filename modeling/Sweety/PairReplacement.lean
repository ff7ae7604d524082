import Mathlib.Tactic.Common

namespace Sweety

/-!
# Replacing a pair of items

`replacePair` replaces every occurrence of two items that stand one behind the
other, from left to right.  What it does to a list of two parts is what it does
to each, unless an occurrence begins in the first and ends in the second.
-/

namespace PairReplacement

variable {α : Type} [DecidableEq α]

/-- The number of occurrences of a pair. -/
def occurrences (first second : α) : List α → Nat
  | one :: two :: rest =>
      (if one = first ∧ two = second then 1 else 0) +
        occurrences first second (two :: rest)
  | _ =>
      0

/-- Replace the occurrences of a pair by a list. -/
def replacePair (first second : α) (replacement : List α) :
    List α → List α
  | one :: two :: rest =>
      if one = first ∧ two = second then
        replacement ++ replacePair first second replacement rest
      else
        one :: replacePair first second replacement (two :: rest)
  | [one] =>
      [one]
  | [] =>
      []

/-- A pair begins at the end of one part and ends in the next. -/
def Straddles (first second : α) (front rest : List α) : Prop :=
  front.getLast? = some first ∧ rest.head? = some second

instance (first second : α) (front rest : List α) :
    Decidable (Straddles first second front rest) :=
  inferInstanceAs (Decidable (_ ∧ _))

section Parts

variable
  {first second : α}
  {front rest replacement text : List α}

theorem occurrences_cons (one : α) (rest : List α) :
    occurrences first second (one :: rest) =
      (if Straddles first second [one] rest then 1 else 0) +
        occurrences first second rest := by
  cases rest with
  | nil =>
      simp [occurrences, Straddles]
  | cons two others =>
      simp [occurrences, Straddles]

theorem occurrences_append (front rest : List α) :
    occurrences first second (front ++ rest) =
      occurrences first second front +
        (if Straddles first second front rest then 1 else 0) +
          occurrences first second rest := by
  induction front with
  | nil =>
      simp [occurrences, Straddles]
  | cons one others inductionHypothesis =>
      rw [List.cons_append, occurrences_cons, inductionHypothesis,
        occurrences_cons]
      cases others with
      | nil =>
          simp [occurrences, Straddles]
      | cons two more =>
          have sameEnd :
              Straddles first second (one :: two :: more) rest ↔
                Straddles first second (two :: more) rest := by
            rw [Straddles, List.getLast?_cons_cons]
            rfl
          have sameStart :
              Straddles first second [one] (two :: more ++ rest) ↔
                Straddles first second [one] (two :: more) :=
            Iff.rfl
          simp only [sameEnd, sameStart]
          omega

/-- Without an occurrence nothing is replaced. -/
theorem replacePair_of_none
    (none_ : occurrences first second text = 0) :
    replacePair first second replacement text = text := by
  induction text using replacePair.induct first second with
  | case1 one two rest isPair inductionHypothesis =>
      rw [occurrences, if_pos isPair] at none_
      omega
  | case2 one two rest notPair inductionHypothesis =>
      rw [occurrences, if_neg notPair, Nat.zero_add] at none_
      rw [replacePair, if_neg notPair, inductionHypothesis none_]
  | case3 one =>
      rfl
  | case4 =>
      rfl

/-- A part without an occurrence is kept. -/
theorem replacePair_append
    (none_ : occurrences first second front = 0)
    (notStraddles : ¬Straddles first second front rest) :
    replacePair first second replacement (front ++ rest) =
      front ++ replacePair first second replacement rest := by
  induction front with
  | nil =>
      rfl
  | cons one others inductionHypothesis =>
      rw [occurrences_cons, Nat.add_eq_zero_iff] at none_
      obtain ⟨noStart, noneRest⟩ := none_
      cases others with
      | nil =>
          cases rest with
          | nil =>
              rfl
          | cons two more =>
              have notPair : ¬(one = first ∧ two = second) := by
                rintro ⟨rfl, rfl⟩
                exact notStraddles ⟨rfl, rfl⟩
              rw [List.cons_append, List.nil_append, replacePair,
                if_neg notPair]
              rfl
      | cons two more =>
          have notPair : ¬(one = first ∧ two = second) := by
            rintro ⟨rfl, rfl⟩
            rw [if_pos ⟨rfl, rfl⟩] at noStart
            nomatch noStart
          have notRest : ¬Straddles first second (two :: more) rest := by
            intro straddles
            exact notStraddles
              ⟨List.getLast?_cons_cons.trans straddles.1, straddles.2⟩
          rw [List.cons_append, List.cons_append, replacePair,
            if_neg notPair, ← List.cons_append,
            inductionHypothesis noneRest notRest]
          rfl

theorem replacePair_pair (rest : List α) :
    replacePair first second replacement (first :: second :: rest) =
      replacement ++ replacePair first second replacement rest := by
  rw [replacePair, if_pos ⟨rfl, rfl⟩]

/-- No pair is left if the replacement is another item. -/
theorem occurrences_replacePair
    {other : α}
    (notFirst : other ≠ first)
    (notSecond : other ≠ second)
    (text : List α) :
    occurrences first second (replacePair first second [other] text) =
      0 := by
  induction text using replacePair.induct first second with
  | case1 one two rest isPair inductionHypothesis =>
      have alone : ¬Straddles first second [other]
          (replacePair first second [other] rest) := by
        rintro ⟨isLast, -⟩
        exact notFirst (Option.some.inj isLast)
      rw [replacePair, if_pos isPair, List.singleton_append,
        occurrences_cons, if_neg alone, inductionHypothesis]
  | case2 one two rest notPair inductionHypothesis =>
      have alone : ¬Straddles first second [one]
          (replacePair first second [other] (two :: rest)) := by
        rintro ⟨isLast, isHead⟩
        have isOne : one = first := Option.some.inj isLast
        -- The head is the next item, or the replacement of a pair.
        cases rest with
        | nil =>
            exact notPair ⟨isOne, Option.some.inj isHead⟩
        | cons three more =>
            rw [replacePair] at isHead
            split at isHead
            · exact notSecond (Option.some.inj isHead)
            · exact notPair ⟨isOne, Option.some.inj isHead⟩
      rw [replacePair, if_neg notPair, occurrences_cons, if_neg alone,
        inductionHypothesis]
  | case3 one =>
      rfl
  | case4 =>
      rfl

end Parts

end PairReplacement

end Sweety
