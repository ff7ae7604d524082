import Mathlib.Data.List.Infix
import Mathlib.Tactic.Common

/-!
# The first place of a pattern in a list

`position?` is the first index at which a pattern stands in a list.  The place
does not move when the list grows, and a pattern that is found only in the
longer list ends in what was added.
-/

namespace FirstOccurrence

variable {α : Type}

/-- The pattern stands at an index. -/
def StandsAt (pattern text : List α) (index : Nat) : Prop :=
  index + pattern.length ≤ text.length ∧ pattern <+: text.drop index

section Place

variable
  {pattern text more : List α}
  {index : Nat}

theorem standsAt_iff_exists :
    StandsAt pattern text index ↔
      ∃ before after,
        text = before ++ (pattern ++ after) ∧ before.length = index := by
  constructor
  · rintro ⟨within, after, isDrop⟩
    refine ⟨text.take index, after, ?_, ?_⟩
    · rw [isDrop, List.take_append_drop]
    · rw [List.length_take]
      omega
  · rintro ⟨before, after, rfl, rfl⟩
    refine ⟨by simp, after, ?_⟩
    rw [List.drop_left]

theorem StandsAt.append
    (stands : StandsAt pattern text index) :
    StandsAt pattern (text ++ more) index := by
  obtain ⟨before, after, rfl, isIndex⟩ := standsAt_iff_exists.mp stands
  exact standsAt_iff_exists.mpr
    ⟨before, after ++ more, by simp only [List.append_assoc], isIndex⟩

/-- A pattern that ends before what was added was there before. -/
theorem StandsAt.of_append
    (stands : StandsAt pattern (text ++ more) index)
    (within : index + pattern.length ≤ text.length) :
    StandsAt pattern text index := by
  refine ⟨within, ?_⟩
  have isDrop := stands.2
  rw [List.drop_append_of_le_length (by omega)] at isDrop
  apply List.prefix_of_prefix_length_le isDrop (List.prefix_append _ _)
  rw [List.length_drop]
  omega

theorem StandsAt.getElem?
    (stands : StandsAt pattern text index)
    {offset : Nat}
    (within : offset < pattern.length) :
    text[index + offset]? = pattern[offset]? := by
  obtain ⟨before, after, rfl, rfl⟩ := standsAt_iff_exists.mp stands
  rw [List.getElem?_append_right (Nat.le_add_right _ _),
    Nat.add_sub_cancel_left, List.getElem?_append_left within]

end Place

variable [DecidableEq α]

/-- The first index at which the pattern stands. -/
def position? (pattern text : List α) : Option Nat :=
  (List.range (text.length + 1 - pattern.length)).find? fun index =>
    pattern.isPrefixOf (text.drop index)

variable
  {pattern text more : List α}
  {index : Nat}

theorem position?_eq_some_iff :
    position? pattern text = some index ↔
      StandsAt pattern text index ∧
        ∀ earlier, earlier < index → ¬ StandsAt pattern text earlier := by
  rw [position?, List.find?_range_eq_some]
  simp only [Bool.not_eq_true', Bool.eq_false_iff, ne_eq,
    List.isPrefixOf_iff_prefix, List.mem_range, StandsAt]
  constructor
  · rintro ⟨stands, within, first⟩
    refine ⟨⟨by omega, stands⟩, ?_⟩
    rintro earlier before ⟨_, standsEarlier⟩
    exact first earlier before standsEarlier
  · rintro ⟨⟨within, stands⟩, first⟩
    refine ⟨stands, by omega, ?_⟩
    intro earlier before standsEarlier
    exact first earlier before ⟨by omega, standsEarlier⟩

/-- A pattern that stands somewhere is found there or before. -/
theorem exists_position?_of_standsAt
    (stands : StandsAt pattern text index) :
    ∃ first ≤ index, position? pattern text = some first := by
  have isSome : (position? pattern text).isSome = true := by
    rw [position?, List.find?_isSome]
    have within := stands.1
    exact ⟨index, List.mem_range.mpr (by omega),
      List.isPrefixOf_iff_prefix.mpr stands.2⟩
  obtain ⟨first, isFirst⟩ := Option.isSome_iff_exists.mp isSome
  refine ⟨first, ?_, isFirst⟩
  by_contra isLater
  exact (position?_eq_some_iff.mp isFirst).2 index (Nat.not_le.mp isLater)
    stands

/-- The first place does not move. -/
theorem position?_append
    (isPlace : position? pattern text = some index) :
    position? pattern (text ++ more) = some index := by
  obtain ⟨stands, first⟩ := position?_eq_some_iff.mp isPlace
  refine position?_eq_some_iff.mpr ⟨stands.append, ?_⟩
  intro earlier before standsEarlier
  have within := stands.1
  exact first earlier before (standsEarlier.of_append (by omega))

/-- The first place is found once its pattern has arrived. -/
theorem position?_of_append
    (isPlace : position? pattern (text ++ more) = some index)
    (within : index + pattern.length ≤ text.length) :
    position? pattern text = some index := by
  obtain ⟨stands, first⟩ := position?_eq_some_iff.mp isPlace
  refine position?_eq_some_iff.mpr ⟨stands.of_append within, ?_⟩
  intro earlier before standsEarlier
  exact first earlier before standsEarlier.append

/-- A pattern that is found later ends in what was added. -/
theorem length_lt_of_position?_append
    (isNone : position? pattern text = none)
    (isPlace : position? pattern (text ++ more) = some index) :
    text.length < index + pattern.length := by
  by_contra within
  have found := position?_of_append isPlace (Nat.not_lt.mp within)
  rw [isNone] at found
  cases found

theorem position?_take
    {count : Nat}
    (isPlace : position? pattern text = some index)
    (within : index + pattern.length ≤ count) :
    position? pattern (text.take count) = some index := by
  have isLength := (position?_eq_some_iff.mp isPlace).1.1
  rw [← List.take_append_drop count text] at isPlace
  apply position?_of_append isPlace
  rw [List.length_take]
  omega

theorem position?_take_eq_none
    {count : Nat}
    (isPlace : position? pattern text = some index)
    (before : count < index + pattern.length) :
    position? pattern (text.take count) = none := by
  by_contra isSome
  obtain ⟨found, isFound⟩ := Option.ne_none_iff_exists'.mp isSome
  have within := (position?_eq_some_iff.mp isFound).1.1
  have isFirst := @position?_append _ _ _ _ (text.drop count) _ isFound
  rw [List.take_append_drop, isPlace] at isFirst
  obtain rfl := Option.some.inj isFirst
  rw [List.length_take] at within
  omega

/-- A pattern whose first element has not come before stands here first. -/
theorem position?_of_not_mem
    {first : α}
    {others before after : List α}
    (absent : first ∉ before) :
    position? (first :: others) (before ++ (first :: others ++ after)) =
      some before.length := by
  refine position?_eq_some_iff.mpr
    ⟨standsAt_iff_exists.mpr ⟨before, after, rfl, rfl⟩, ?_⟩
  intro earlier isEarlier stands
  obtain ⟨start, rest, isText, rfl⟩ := standsAt_iff_exists.mp stands
  have isFirst := congrArg (fun text => text[start.length]?) isText
  simp only [List.getElem?_append_left isEarlier, List.cons_append,
    List.getElem?_append_right (Nat.le_refl _), Nat.sub_self,
    List.getElem?_cons_zero] at isFirst
  exact absent (List.mem_of_getElem? isFirst)

end FirstOccurrence
