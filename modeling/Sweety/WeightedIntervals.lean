import Mathlib.Algebra.BigOperators.Group.List.Basic
import Mathlib.Algebra.GroupWithZero.Nat
import Mathlib.Data.List.Count
import Mathlib.Data.Nat.Count
import Mathlib.Tactic.Common

/-!
# Intervals of given lengths, one after the other

`holder?` finds the interval that a number lies in.  Of the numbers below the
sum of all lengths each interval holds as many as it is long, and so it does of
any run of as many consecutive numbers that are reduced modulo the sum.  Of the
first numbers, however many, an interval that is made longer does not get fewer.
-/

namespace WeightedIntervals

/-- The interval that a number lies in. -/
def holder? : List Nat → Nat → Option Nat
  | [], _ =>
      none
  | length :: rest, number =>
      if number < length then
        some 0
      else
        (holder? rest (number - length)).map (· + 1)

variable
  {lengths : List Nat}
  {index number : Nat}

theorem holder?_cons_of_lt
    {length : Nat}
    (inFirst : number < length) :
    holder? (length :: lengths) number = some 0 :=
  if_pos inFirst

theorem holder?_cons_add (length number : Nat) :
    holder? (length :: lengths) (length + number) =
      (holder? lengths number).map (· + 1) := by
  have notFirst : ¬length + number < length :=
    Nat.not_lt.mpr (Nat.le_add_right length number)
  rw [holder?, if_neg notFirst, Nat.add_sub_cancel_left]

/-- A number below the sum lies in one of the intervals. -/
theorem exists_holder
    (below : number < lengths.sum) :
    ∃ index, holder? lengths number = some index ∧
      index < lengths.length := by
  induction lengths generalizing number with
  | nil =>
      cases below
  | cons length rest inductionHypothesis =>
      by_cases inFirst : number < length
      · exact ⟨0, holder?_cons_of_lt inFirst, Nat.succ_pos _⟩
      · obtain ⟨later, rfl⟩ := Nat.exists_eq_add_of_le (Nat.not_lt.mp inFirst)
        rw [List.sum_cons] at below
        obtain ⟨index, isHolder, within⟩ :=
          inductionHypothesis (Nat.lt_of_add_lt_add_left below)
        refine ⟨index + 1, ?_, Nat.succ_lt_succ within⟩
        rw [holder?_cons_add, isHolder]
        rfl

/-- Each interval holds as many numbers as it is long. -/
theorem count_holder? (lengths : List Nat) (index : Nat) :
    ((List.range lengths.sum).map (holder? lengths)).count (some index) =
      lengths[index]?.getD 0 := by
  induction lengths generalizing index with
  | nil =>
      rfl
  | cons length rest inductionHypothesis =>
      have first :
          (List.range length).map (holder? (length :: rest)) =
            List.replicate length (some 0) := by
        rw [List.map_congr_left
          (fun number member =>
            holder?_cons_of_lt (List.mem_range.mp member)),
          List.map_const', List.length_range]
      have later :
          ((List.range rest.sum).map (length + ·)).map
              (holder? (length :: rest)) =
            ((List.range rest.sum).map (holder? rest)).map
              (Option.map (· + 1)) := by
        rw [List.map_map, List.map_map]
        exact List.map_congr_left fun number _ => holder?_cons_add length number
      rw [List.sum_cons, List.range_add, List.map_append, List.count_append,
        first, later]
      cases index with
      | zero =>
          have absent :
              some 0 ∉
                ((List.range rest.sum).map (holder? rest)).map
                  (Option.map (· + 1)) := by
            intro member
            obtain ⟨answer, _, isZero⟩ := List.mem_map.mp member
            obtain ⟨other, _, isZero⟩ := Option.map_eq_some_iff.mp isZero
            exact Nat.succ_ne_zero other isZero
          rw [List.count_replicate_self, List.count_eq_zero_of_not_mem absent]
          rfl
      | succ index =>
          have injective :
              Function.Injective (Option.map (· + 1) : Option Nat → _) :=
            Option.map_injective (add_left_injective 1)
          have notFirst :
              some (index + 1) ∉ List.replicate length (some 0) := by
            intro member
            cases List.eq_of_mem_replicate member
          rw [List.count_eq_zero_of_not_mem notFirst, Nat.zero_add]
          have shifted :=
            List.count_map_of_injective
              ((List.range rest.sum).map (holder? rest)) _ injective
              (some index)
          exact shifted.trans (inductionHypothesis index)

/-- A run of a period meets a test as often as the period from 0. -/
theorem countP_range'_mod
    (test : Nat → Bool)
    (start period : Nat) :
    (List.range' start period).countP (fun number => test (number % period)) =
      (List.range period).countP test := by
  induction start with
  | zero =>
      rw [← List.range_eq_range']
      apply List.countP_congr
      intro number member
      rw [Nat.mod_eq_of_lt (List.mem_range.mp member)]
  | succ start inductionHypothesis =>
      -- The number that leaves at the front has the residue of the new one.
      have sameResidue : (start + period) % period = start % period :=
        Nat.add_mod_right start period
      have longer :
          start :: List.range' (start + 1) period =
            List.range' start period ++ [start + period] := by
        rw [← List.range'_succ, List.range'_1_concat]
      have counted :=
        congrArg (List.countP fun number => test (number % period)) longer
      rw [List.countP_cons, List.countP_append, List.countP_singleton,
        sameResidue, inductionHypothesis] at counted
      exact Nat.add_right_cancel counted

/-- The same for what a function answers. -/
theorem count_map_range'_mod
    {Answer : Type}
    [BEq Answer]
    (answer : Nat → Answer)
    (start period : Nat)
    (value : Answer) :
    ((List.range' start period).map fun number =>
        answer (number % period)).count value =
      ((List.range period).map answer).count value := by
  rw [List.count_eq_countP, List.countP_map, List.count_eq_countP,
    List.countP_map]
  exact countP_range'_mod (fun number => answer number == value) start period

/--
Of any run of as many consecutive numbers as the lengths add up to, each
interval holds as many as it is long.
-/
theorem count_consecutive
    (lengths : List Nat)
    (start index : Nat) :
    ((List.range' start lengths.sum).map fun number =>
        holder? lengths (number % lengths.sum)).count (some index) =
      lengths[index]?.getD 0 := by
  rw [count_map_range'_mod (holder? lengths), count_holder?]

/-! ## Longer intervals -/

/-- An interval begins where the lengths before it end. -/
theorem holder?_eq_some_iff :
    holder? lengths number = some index ↔
      (lengths.take index).sum ≤ number ∧
        number < (lengths.take (index + 1)).sum := by
  induction lengths generalizing index number with
  | nil =>
      simp [holder?]
  | cons length rest inductionHypothesis =>
      by_cases inFirst : number < length
      · rw [holder?_cons_of_lt inFirst]
        cases index with
        | zero =>
            simp [inFirst]
        | succ index =>
            rw [List.take_succ_cons, List.sum_cons]
            constructor
            · nofun
            · rintro ⟨begun, _⟩
              omega
      · obtain ⟨later, rfl⟩ := Nat.exists_eq_add_of_le (Nat.not_lt.mp inFirst)
        rw [holder?_cons_add, Option.map_eq_some_iff]
        cases index with
        | zero =>
            simp
        | succ index =>
            simp only [Nat.add_right_cancel_iff, exists_eq_right,
              inductionHypothesis, List.take_succ_cons, List.sum_cons,
              Nat.add_le_add_iff_left, Nat.add_lt_add_iff_left]

section Longer

variable {before less extra after : Nat}

/--
The number reduces into an interval of a length, with `before` and `after` the
sums of the lengths around it.
-/
def Hits (before length after number : Nat) : Prop :=
  before ≤ number % (before + length + after) ∧
    number % (before + length + after) < before + length

instance : DecidablePred (Hits before less after) :=
  fun _ => inferInstanceAs (Decidable (_ ∧ _))

/-- Where a residue outside the longer interval is outside the shorter one. -/
def squeeze (before extra residue : Nat) : Nat :=
  if residue < before then residue else residue - extra

theorem squeeze_le (before extra residue : Nat) :
    squeeze before extra residue ≤ residue := by
  unfold squeeze
  split <;> omega

/-- The residues outside the longer interval keep their places. -/
theorem squeeze_cases
    {residue : Nat}
    (below : residue < before + (less + extra) + after)
    (outside : ¬(before ≤ residue ∧ residue < before + (less + extra))) :
    (residue < before ∧ squeeze before extra residue = residue) ∨
      (before + less ≤ squeeze before extra residue ∧
        squeeze before extra residue < before + less + after ∧
        residue = squeeze before extra residue + extra) := by
  unfold squeeze
  split <;> omega

/-- A number that misses the longer interval, in the shorter period. -/
def shorten (before less extra after number : Nat) : Nat :=
  number / (before + (less + extra) + after) * (before + less + after) +
    squeeze before extra (number % (before + (less + extra) + after))

theorem shorten_le (before less extra after number : Nat) :
    shorten before less extra after number ≤ number := by
  have shorter :
      number / (before + (less + extra) + after) * (before + less + after) ≤
        number / (before + (less + extra) + after) *
          (before + (less + extra) + after) :=
    Nat.mul_le_mul_left _ (by omega)
  have squeezed :=
    squeeze_le before extra (number % (before + (less + extra) + after))
  have parts := Nat.div_add_mod' number (before + (less + extra) + after)
  unfold shorten
  omega

/-- The quotient stays and the residue is squeezed. -/
theorem shorten_spec
    {number : Nat}
    (positive : 0 < before + (less + extra) + after)
    (missed : ¬Hits before (less + extra) after number) :
    shorten before less extra after number / (before + less + after) =
        number / (before + (less + extra) + after) ∧
      shorten before less extra after number % (before + less + after) =
        squeeze before extra (number % (before + (less + extra) + after)) := by
  have cases := squeeze_cases (Nat.mod_lt number positive) missed
  have inShort :
      squeeze before extra (number % (before + (less + extra) + after)) <
        before + less + after := by
    omega
  constructor
  · rw [shorten, Nat.add_comm,
      Nat.add_mul_div_right _ _ (Nat.zero_lt_of_lt inShort),
      Nat.div_eq_of_lt inShort, Nat.zero_add]
  · rw [shorten, Nat.mul_add_mod_of_lt inShort]

theorem shorten_missed
    {number : Nat}
    (positive : 0 < before + (less + extra) + after)
    (missed : ¬Hits before (less + extra) after number) :
    ¬Hits before less after (shorten before less extra after number) := by
  have cases := squeeze_cases (Nat.mod_lt number positive) missed
  rw [Hits, (shorten_spec positive missed).2]
  omega

theorem shorten_injective
    {number other : Nat}
    (positive : 0 < before + (less + extra) + after)
    (missed : ¬Hits before (less + extra) after number)
    (otherMissed : ¬Hits before (less + extra) after other)
    (same :
      shorten before less extra after number =
        shorten before less extra after other) :
    number = other := by
  obtain ⟨quotient, residue⟩ := shorten_spec positive missed
  obtain ⟨otherQuotient, otherResidue⟩ := shorten_spec positive otherMissed
  have cases := squeeze_cases (Nat.mod_lt number positive) missed
  have otherCases := squeeze_cases (Nat.mod_lt other positive) otherMissed
  rw [same] at quotient residue
  have sameQuotient := quotient.symm.trans otherQuotient
  have sameResidue :
      number % (before + (less + extra) + after) =
        other % (before + (less + extra) + after) := by
    omega
  rw [← Nat.div_add_mod' number (before + (less + extra) + after),
    ← Nat.div_add_mod' other (before + (less + extra) + after),
    sameQuotient, sameResidue]

/-- Of the first numbers as many or more reduce into a longer interval. -/
theorem count_hits_mono
    {more : Nat}
    (le : less ≤ more)
    (before after numbers : Nat) :
    Nat.count (Hits before less after) numbers ≤
      Nat.count (Hits before more after) numbers := by
  obtain ⟨extra, rfl⟩ := Nat.exists_eq_add_of_le le
  rcases Nat.eq_zero_or_pos (before + (less + extra) + after) with
      isZero | positive
  · have noExtra : extra = 0 := by
      omega
    rw [noExtra, Nat.add_zero]
  · have misses :
        {number ∈ Finset.range numbers |
            ¬Hits before (less + extra) after number}.card ≤
          {number ∈ Finset.range numbers |
            ¬Hits before less after number}.card := by
      apply Finset.card_le_card_of_injOn (shorten before less extra after)
      · intro number member
        obtain ⟨below, missed⟩ := Finset.mem_filter.mp member
        have smaller := shorten_le before less extra after number
        exact
          Finset.mem_filter.mpr
            ⟨Finset.mem_range.mpr
              (Nat.lt_of_le_of_lt smaller (Finset.mem_range.mp below)),
              shorten_missed positive missed⟩
      · intro number member other otherMember same
        exact
          shorten_injective positive (Finset.mem_filter.mp member).2
            (Finset.mem_filter.mp otherMember).2 same
    have parts :=
      (@Finset.card_filter_add_card_filter_not _ (Finset.range numbers)
          (Hits before less after) _ _).trans
        (@Finset.card_filter_add_card_filter_not _ (Finset.range numbers)
          (Hits before (less + extra) after) _ _).symm
    rw [Nat.count_eq_card_filter_range, Nat.count_eq_card_filter_range]
    exact
      Nat.le_of_add_le_add_right
        (parts.le.trans (Nat.add_le_add_left misses _))

end Longer

theorem sum_set_of_lt
    (within : index < lengths.length)
    (length : Nat) :
    (lengths.set index length).sum =
      (lengths.take index).sum + length + (lengths.drop (index + 1)).sum := by
  rw [List.set_eq_take_append_cons_drop, if_pos within, List.sum_append,
    List.sum_cons, Nat.add_assoc]

/-- Whether a number reduces into an interval whose length is replaced. -/
theorem holder?_set_eq_some_iff
    {length : Nat}
    (within : index < lengths.length) :
    holder? (lengths.set index length)
        (number % (lengths.set index length).sum) =
        some index ↔
      Hits (lengths.take index).sum length (lengths.drop (index + 1)).sum
        number := by
  have begins :
      (lengths.set index length).take index = lengths.take index := by
    rw [List.take_set_of_le (Nat.le_refl index)]
  have ends :
      ((lengths.set index length).take (index + 1)).sum =
        (lengths.take index).sum + length := by
    rw [List.take_add_one, begins, List.getElem?_set_self within,
      Option.toList_some, List.sum_append, List.sum_singleton]
  rw [holder?_eq_some_iff, begins, ends, sum_set_of_lt within]
  rfl

/-- Among empty intervals the only one that is not gets every number. -/
theorem holder?_set_of_sum_eq_zero
    {less more : Nat}
    (within : index < lengths.length)
    (empty : (lengths.set index less).sum = 0)
    (positive : 0 < more)
    (number : Nat) :
    holder? (lengths.set index more)
        (number % (lengths.set index more).sum) =
      some index := by
  rw [sum_set_of_lt within] at empty
  have noneBefore : (lengths.take index).sum = 0 := by
    omega
  have noneAfter : (lengths.drop (index + 1)).sum = 0 := by
    omega
  rw [holder?_set_eq_some_iff within, Hits, noneBefore, noneAfter,
    Nat.zero_add, Nat.add_zero]
  exact ⟨Nat.zero_le _, Nat.mod_lt number positive⟩

/-- A longer interval is reduced into as often or more often. -/
theorem count_holder?_mono
    {less more : Nat}
    (le : less ≤ more)
    (lengths : List Nat)
    (index numbers : Nat) :
    Nat.count
        (fun number =>
          holder? (lengths.set index less)
              (number % (lengths.set index less).sum) =
            some index)
        numbers ≤
      Nat.count
        (fun number =>
          holder? (lengths.set index more)
              (number % (lengths.set index more).sum) =
            some index)
        numbers := by
  by_cases within : index < lengths.length
  · simp only [holder?_set_eq_some_iff within]
    exact count_hits_mono le _ _ numbers
  · have outside : lengths.length ≤ index :=
      Nat.not_lt.mp within
    rw [List.set_eq_of_length_le outside, List.set_eq_of_length_le outside]

end WeightedIntervals
