import Mathlib.Order.Lattice
import Mathlib.Tactic.Common

namespace Sweety

/-!
# The first largest item of a list

`firstMaximum` walks through a list and keeps the first item of the largest size
so far.  Its result does not change when the list is rearranged, as long as the
items that compete for the largest size keep their order.
-/

namespace FirstMaximum

variable {α ι κ : Type} [LinearOrder κ]

/-- The larger of two items, or the first. -/
def larger (size : α → κ) (best item : α) : α :=
  if size best < size item then
    item
  else
    best

/-- The first item of the largest size. -/
def firstMaximum (size : α → κ) (items : List α) : Option α :=
  items.foldl
    (fun best item =>
      match best with
      | none =>
          some item
      | some before =>
          if size before < size item then
            some item
          else
            some before)
    none

/-- The item is larger than those before it and not smaller than the others. -/
def IsFirstMaximum (size : α → κ) (items : List α) (item : α) : Prop :=
  ∃ before after,
    items = before ++ item :: after ∧
      (∀ other ∈ before, size other < size item) ∧
        ∀ other ∈ after, size other ≤ size item

section Maximum

variable
  {size : α → κ}
  {items others : List α}
  {item other : α}

theorem firstMaximum_cons_cons (first second : α) (rest : List α) :
    firstMaximum size (first :: second :: rest) =
      firstMaximum size (larger size first second :: rest) := by
  unfold firstMaximum larger
  rw [List.foldl_cons, List.foldl_cons, List.foldl_cons]
  dsimp only
  split
  · rfl
  · rfl

theorem IsFirstMaximum.mem (isFirst : IsFirstMaximum size items item) :
    item ∈ items := by
  obtain ⟨before, after, rfl, -, -⟩ := isFirst
  exact List.mem_append_right _ List.mem_cons_self

theorem IsFirstMaximum.le
    (isFirst : IsFirstMaximum size items item)
    (member : other ∈ items) :
    size other ≤ size item := by
  obtain ⟨before, after, rfl, smaller, notLarger⟩ := isFirst
  rcases List.mem_append.mp member with inBefore | inRest
  · exact le_of_lt (smaller other inBefore)
  · rcases List.mem_cons.mp inRest with rfl | inAfter
    · exact le_refl _
    · exact notLarger other inAfter

/-- There is one first largest item. -/
theorem IsFirstMaximum.unique
    (isFirst : IsFirstMaximum size items item)
    (isOther : IsFirstMaximum size items other) :
    item = other := by
  have sameSize : size item = size other :=
    le_antisymm (isOther.le isFirst.mem) (isFirst.le isOther.mem)
  obtain ⟨before, after, isItems, smaller, -⟩ := isFirst
  obtain ⟨beforeOther, afterOther, isOthers, smallerOther, -⟩ := isOther
  rw [isItems] at isOthers
  rcases List.append_eq_append_iff.mp isOthers with
    ⟨between, isBefore, isRest⟩ | ⟨between, isBefore, isRest⟩
  · cases between with
    | nil =>
        exact (List.cons.inj isRest).1
    | cons head tail =>
        have isHead : item = head := (List.cons.inj isRest).1
        have below := smallerOther item (by simp [isBefore, isHead])
        exact absurd sameSize (ne_of_lt below)
  · cases between with
    | nil =>
        exact (List.cons.inj isRest).1.symm
    | cons head tail =>
        have isHead : other = head := (List.cons.inj isRest).1
        have below := smaller other (by simp [isBefore, isHead])
        exact absurd sameSize.symm (ne_of_lt below)

/-- The walk finds the first largest item. -/
theorem exists_firstMaximum (first : α) (rest : List α) :
    ∃ item,
      firstMaximum size (first :: rest) = some item ∧
        IsFirstMaximum size (first :: rest) item := by
  induction rest generalizing first with
  | nil =>
      exact ⟨first, rfl, [], [], rfl, by simp, by simp⟩
  | cons second rest inductionHypothesis =>
      obtain ⟨item, isFound, isFirst⟩ :=
        inductionHypothesis (larger size first second)
      refine ⟨item, (firstMaximum_cons_cons first second rest).trans isFound,
        ?_⟩
      obtain ⟨before, after, isItems, smaller, notLarger⟩ := isFirst
      by_cases grows : size first < size second
      · rw [larger, if_pos grows] at isItems
        cases before with
        | nil =>
            cases isItems
            refine ⟨[first], rest, rfl, ?_, notLarger⟩
            intro other member
            rw [List.mem_singleton.mp member]
            exact grows
        | cons head before =>
            cases isItems
            refine ⟨first :: second :: before, after, rfl, ?_, notLarger⟩
            intro other member
            rcases List.mem_cons.mp member with rfl | inRest
            · exact lt_trans grows (smaller second List.mem_cons_self)
            · exact smaller other inRest
      · rw [larger, if_neg grows] at isItems
        have atMost : size second ≤ size first := le_of_not_gt grows
        cases before with
        | nil =>
            cases isItems
            refine ⟨[], second :: rest, rfl, by simp, ?_⟩
            intro other member
            rcases List.mem_cons.mp member with rfl | inAfter
            · exact atMost
            · exact notLarger other inAfter
        | cons head before =>
            cases isItems
            refine ⟨first :: second :: before, after, rfl, ?_, notLarger⟩
            intro other member
            have below := smaller first List.mem_cons_self
            rcases List.mem_cons.mp member with rfl | inRest
            · exact below
            · rcases List.mem_cons.mp inRest with rfl | inBefore
              · exact lt_of_le_of_lt atMost below
              · exact smaller other (List.mem_cons_of_mem _ inBefore)

theorem firstMaximum_eq_some_iff :
    firstMaximum size items = some item ↔
      IsFirstMaximum size items item := by
  cases items with
  | nil =>
      constructor
      · nofun
      · intro isFirst
        nomatch isFirst.mem
  | cons first rest =>
      obtain ⟨found, isFound, isFirst⟩ :=
        @exists_firstMaximum _ _ _ size first rest
      rw [isFound, Option.some.injEq]
      constructor
      · rintro rfl
        exact isFirst
      · intro isOther
        exact isFirst.unique isOther

/-- The head is the first largest item if no other is larger. -/
theorem firstMaximum_cons_eq_head_iff {rest : List α} :
    firstMaximum size (item :: rest) = some item ↔
      ∀ other ∈ rest, size other ≤ size item := by
  rw [firstMaximum_eq_some_iff]
  constructor
  · intro isFirst other member
    exact isFirst.le (List.mem_cons_of_mem _ member)
  · intro notLarger
    exact ⟨[], rest, rfl, by simp, notLarger⟩

/-- The first largest item is the first of the items with its key. -/
theorem IsFirstMaximum.head?_filter
    [DecidableEq ι]
    {key : α → ι}
    (sizeOfKey : ∀ first second, key first = key second →
      size first = size second)
    (isFirst : IsFirstMaximum size items item) :
    (items.filter fun other => key other = key item).head? = some item := by
  obtain ⟨before, after, rfl, smaller, -⟩ := isFirst
  have noneBefore :
      before.filter (fun other => key other = key item) = [] := by
    rw [List.filter_eq_nil_iff]
    intro other member isKey
    exact absurd (sizeOfKey other item (of_decide_eq_true isKey))
      (ne_of_lt (smaller other member))
  rw [List.filter_append, noneBefore, List.nil_append,
    List.filter_cons_of_pos (by simp)]
  rfl

/-- Rearranging items of different keys does not change the first largest. -/
theorem firstMaximum_congr
    [DecidableEq ι]
    {key : α → ι}
    (sizeOfKey : ∀ first second, key first = key second →
      size first = size second)
    (keyOfSize : ∀ first ∈ items, ∀ second ∈ items,
      size first = size second → key first = key second)
    (same : ∀ value,
      items.filter (fun item => key item = value) =
        others.filter fun item => key item = value) :
    firstMaximum size items = firstMaximum size others := by
  have sameMember (asked : α) : asked ∈ items ↔ asked ∈ others := by
    have inBoth := congrArg (asked ∈ ·) (same (key asked))
    simpa using inBoth
  cases items with
  | nil =>
      cases others with
      | nil =>
          rfl
      | cons first rest =>
          nomatch (sameMember first).mpr List.mem_cons_self
  | cons first rest =>
      cases others with
      | nil =>
          nomatch (sameMember first).mp List.mem_cons_self
      | cons firstOther restOther =>
          obtain ⟨item, isFound, isFirst⟩ :=
            @exists_firstMaximum _ _ _ size first rest
          obtain ⟨other, isFoundOther, isFirstOther⟩ :=
            @exists_firstMaximum _ _ _ size firstOther restOther
          have sameSize : size item = size other :=
            le_antisymm
              (isFirstOther.le ((sameMember item).mp isFirst.mem))
              (isFirst.le ((sameMember other).mpr isFirstOther.mem))
          have sameKey : key item = key other :=
            keyOfSize item isFirst.mem other
              ((sameMember other).mpr isFirstOther.mem) sameSize
          have isHead := isFirst.head?_filter sizeOfKey
          have isHeadOther := isFirstOther.head?_filter sizeOfKey
          rw [sameKey, same (key other), isHeadOther] at isHead
          rw [isFound, isFoundOther, isHead]

end Maximum

end FirstMaximum

end Sweety
