import Mathlib.Tactic.Common

/-!
# Parsers of a growing buffer

A parser that sees only the beginning of a stream is called again each time its
buffer has grown, until it does not ask for more.  It settles on a buffer when
it returns the same on every longer one.
-/

namespace PrefixParser

section Settling

variable
  {Error Value Other : Type}
  {undecided : Error → Bool}

/-- A later result is the earlier one, unless the earlier one asks for more. -/
def Settles
    (undecided : Error → Bool)
    (earlier later : Except Error Value) : Prop :=
  (∃ error, earlier = .error error ∧ undecided error = true) ∨
    later = earlier

theorem Settles.refl (result : Except Error Value) :
    Settles undecided result result :=
  .inr rfl

theorem Settles.of_undecided
    {error : Error}
    (later : Except Error Value)
    (asks : undecided error = true) :
    Settles undecided (.error error) later :=
  .inl ⟨error, rfl, asks⟩

/-- A branch that both take settles if its sides do. -/
theorem Settles.ite
    {condition : Prop}
    [Decidable condition]
    {earlier later earlierElse laterElse : Except Error Value}
    (isTrue : condition → Settles undecided earlier later)
    (isFalse : ¬ condition → Settles undecided earlierElse laterElse) :
    Settles undecided
      (if condition then earlier else earlierElse)
      (if condition then later else laterElse) := by
  by_cases holds : condition
  · rw [if_pos holds, if_pos holds]
    exact isTrue holds
  · rw [if_neg holds, if_neg holds]
    exact isFalse holds

end Settling

section Reading

variable
  {Byte Error Value : Type}
  (undecided : Error → Bool)
  (parse : List Byte → Except Error Value)

/-- Whether a result asks for more. -/
def asksForMore : Except Error Value → Bool
  | .error error =>
      undecided error
  | .ok _ =>
      false

/-- The parser is called after each read, until it does not ask for more. -/
def readUntil (buffer : List Byte) :
    List (List Byte) → Except Error Value
  | [] =>
      parse buffer
  | read :: later =>
      if asksForMore undecided (parse buffer) then
        readUntil (buffer ++ read) later
      else
        parse buffer

/-- What is read is the result for some beginning of the stream. -/
theorem readUntil_eq
    (buffer : List Byte)
    (reads : List (List Byte)) :
    ∃ front back,
      buffer ++ reads.flatten = front ++ back ∧
        readUntil undecided parse buffer reads = parse front ∧
        (back = [] ∨ asksForMore undecided (parse front) = false) := by
  induction reads generalizing buffer with
  | nil =>
      exact ⟨buffer, [], by simp, rfl, .inl rfl⟩
  | cons read later inductionHypothesis =>
      unfold readUntil
      split
      · obtain ⟨front, back, isStream, isResult, ended⟩ :=
          inductionHypothesis (buffer ++ read)
        rw [List.append_assoc] at isStream
        exact ⟨front, back, isStream, isResult, ended⟩
      · next decided =>
          exact ⟨buffer, _, rfl, rfl, .inr (Bool.eq_false_iff.mpr decided)⟩

end Reading

end PrefixParser
