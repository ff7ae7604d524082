import Mathlib.Data.List.Sort
import Mathlib.Data.Prod.Lex
import Mathlib.Order.Bounds.Basic

namespace Sweety

/-!
# Stable sorting by a key

`sortByKey` sorts a list by a key and keeps the order of items with the same
key.  What it does is fixed by two facts: the keys of the result are sorted, and
the items with one key stand in it as they stood in the list.  The first match
in the sorted list is therefore the match that is least in the lexicographic
order of key and place.
-/

namespace StableSort

variable {α β κ : Type}

section Sorting

variable
  [LinearOrder κ]
  {key : α → κ}

/-- The keys allow the first item to stand before the second. -/
def Before (key : α → κ) (first second : α) : Prop :=
  key first ≤ key second

instance (key : α → κ) : DecidableRel (Before key) :=
  fun first second => inferInstanceAs (Decidable (key first ≤ key second))

instance (key : α → κ) : Std.Total (Before key) :=
  ⟨fun first second => le_total (key first) (key second)⟩

instance (key : α → κ) : IsTrans α (Before key) :=
  ⟨fun _ _ _ => le_trans⟩

/-- Sort by a key; items with the same key keep their order. -/
def sortByKey (key : α → κ) (items : List α) : List α :=
  items.insertionSort (Before key)

/-- The keys are sorted. -/
def KeysSorted (key : α → κ) (items : List α) : Prop :=
  items.Pairwise (Before key)

/-- The items with a key, in their order. -/
def withKey (key : α → κ) (value : κ) (items : List α) : List α :=
  items.filter fun item => key item = value

theorem mem_withKey
    {value : κ}
    {items : List α}
    {item : α} :
    item ∈ withKey key value items ↔ item ∈ items ∧ key item = value := by
  simp only [withKey, List.mem_filter, decide_eq_true_eq]

theorem mem_sortByKey
    {items : List α}
    {item : α} :
    item ∈ sortByKey key items ↔ item ∈ items :=
  List.mem_insertionSort _

theorem keysSorted_sortByKey
    (key : α → κ)
    (items : List α) :
    KeysSorted key (sortByKey key items) :=
  List.pairwise_insertionSort _ items

/-- An item is inserted before the items that have its key. -/
theorem withKey_orderedInsert
    (value : κ)
    (item : α)
    (items : List α) :
    withKey key value (items.orderedInsert (Before key) item) =
      withKey key value (item :: items) := by
  induction items with
  | nil =>
      rfl
  | cons head rest inductionHypothesis =>
      by_cases before : Before key item head
      · rw [List.orderedInsert_cons_of_le _ _ before]
      · have differs : ¬(key item = value ∧ key head = value) := by
          rintro ⟨rfl, same⟩
          exact before same.ge
        rw [List.orderedInsert_of_not_le _ _ before]
        simp only [withKey, List.filter_cons] at inductionHypothesis ⊢
        rw [inductionHypothesis]
        by_cases isItem : key item = value
        · have notHead : key head ≠ value :=
            fun isHead => differs ⟨isItem, isHead⟩
          simp only [isItem, notHead, decide_true, decide_false, if_true,
            Bool.false_eq_true, if_false]
        · simp only [isItem, decide_false, Bool.false_eq_true, if_false]

theorem withKey_sortByKey
    (key : α → κ)
    (value : κ)
    (items : List α) :
    withKey key value (sortByKey key items) = withKey key value items := by
  induction items with
  | nil =>
      rfl
  | cons item rest inductionHypothesis =>
      rw [sortByKey, List.insertionSort_cons, withKey_orderedInsert]
      simp only [withKey, List.filter_cons]
      have sameRest := inductionHypothesis
      simp only [withKey, sortByKey] at sameRest
      rw [sameRest]

/-- The head of a sorted list is the first item with the least key. -/
theorem KeysSorted.eq_of_withKey
    {items others : List α}
    (sorted : KeysSorted key items)
    (sortedOther : KeysSorted key others)
    (same : ∀ value,
      withKey key value items = withKey key value others) :
    items = others := by
  induction items generalizing others with
  | nil =>
      cases others with
      | nil =>
          rfl
      | cons other rest =>
          have absent := same (key other)
          simp [withKey] at absent
  | cons item rest inductionHypothesis =>
      cases others with
      | nil =>
          have absent := same (key item)
          simp [withKey] at absent
      | cons other others =>
          obtain ⟨below, sortedRest⟩ := List.pairwise_cons.mp sorted
          obtain ⟨belowOther, sortedOthers⟩ :=
            List.pairwise_cons.mp sortedOther
          -- Each head has an item of its key in the other list.
          have sameMember (asked : α) :
              asked ∈ item :: rest ↔ asked ∈ other :: others := by
            have inBoth := congrArg (asked ∈ ·) (same (key asked))
            simpa only [mem_withKey, and_true, eq_iff_iff] using inBoth
          have atMost : key item ≤ key other := by
            have member := (sameMember other).mpr List.mem_cons_self
            rcases List.mem_cons.mp member with rfl | inRest
            · exact le_refl _
            · exact below other inRest
          have atLeast : key other ≤ key item := by
            have member := (sameMember item).mp List.mem_cons_self
            rcases List.mem_cons.mp member with rfl | inOthers
            · exact le_refl _
            · exact belowOther item inOthers
          have sameKey : key item = key other := le_antisymm atMost atLeast
          have sameHead : item = other := by
            have heads := same (key item)
            simp only [withKey, List.filter_cons, sameKey,
              decide_true, if_true] at heads
            exact (List.cons.inj heads).1
          subst sameHead
          have sameRest := inductionHypothesis sortedRest sortedOthers
            (fun value => by
              have both := same value
              simp only [withKey, List.filter_cons] at both
              split at both
              · exact (List.cons.inj both).2
              · exact both)
          rw [sameRest]

/-- Lists with the same items in the same order for each key sort alike. -/
theorem sortByKey_congr
    {items others : List α}
    (same : ∀ value,
      withKey key value items = withKey key value others) :
    sortByKey key items = sortByKey key others := by
  apply (keysSorted_sortByKey key items).eq_of_withKey
    (keysSorted_sortByKey key others)
  intro value
  rw [withKey_sortByKey, withKey_sortByKey, same]

/-- Leaving out items commutes with sorting. -/
theorem sortByKey_filterMap
    {keyOf : β → κ}
    {select : α → Option β}
    (keeps : ∀ item selected,
      select item = some selected → keyOf selected = key item)
    (items : List α) :
    sortByKey keyOf (items.filterMap select) =
      (sortByKey key items).filterMap select := by
  apply (keysSorted_sortByKey keyOf _).eq_of_withKey
  · rw [KeysSorted, List.pairwise_filterMap]
    apply (keysSorted_sortByKey key items).imp
    intro first second inOrder selected isFirst other isSecond
    rw [Before, keeps _ _ isFirst, keeps _ _ isSecond]
    exact inOrder
  · intro value
    rw [withKey_sortByKey]
    have selects (listed : List α) :
        withKey keyOf value (listed.filterMap select) =
          (withKey key value listed).filterMap select := by
      rw [withKey, withKey, List.filter_filterMap, List.filterMap_filter]
      apply List.filterMap_congr
      intro item _
      cases isSelected : select item with
      | none =>
          simp
      | some selected =>
          rw [← keeps item selected isSelected]
          by_cases isValue : keyOf selected = value
          · simp [isValue]
          · simp [isValue]
    rw [selects, selects, withKey_sortByKey]

end Sorting

/-! ## The first match -/

section Rank

variable
  [LinearOrder κ]
  {key : α → κ}
  {isMatch : α → Bool}
  {items : List α}

/-- The keys and places of the matches. -/
def ranks (key : α → κ) (isMatch : α → Bool) (items : List α) :
    Set (κ ×ₗ ℕ) :=
  {rank | ∃ item,
    items[(ofLex rank).2]? = some item ∧ key item = (ofLex rank).1 ∧
      isMatch item = true}

/-- The item at a place is the match with the least key and place. -/
def IsBest
    (key : α → κ)
    (isMatch : α → Bool)
    (items : List α)
    (place : ℕ)
    (item : α) :
    Prop :=
  items[place]? = some item ∧
    IsLeast (ranks key isMatch items) (toLex (key item, place))

theorem isBest_iff
    {place : ℕ}
    {item : α} :
    IsBest key isMatch items place item ↔
      items[place]? = some item ∧ isMatch item = true ∧
        ∀ (otherPlace : ℕ) (other : α),
          items[otherPlace]? = some other → isMatch other = true →
            key item < key other ∨
              key item = key other ∧ place ≤ otherPlace := by
  constructor
  · rintro ⟨isItem, ⟨found, isFound, -, matches_⟩, least⟩
    have same : item = found := Option.some.inj (isItem.symm.trans isFound)
    subst same
    refine ⟨isItem, matches_, fun otherPlace other isOther matchesOther => ?_⟩
    have below := least
      (show toLex (key other, otherPlace) ∈ ranks key isMatch items from
        ⟨other, isOther, rfl, matchesOther⟩)
    rwa [Prod.Lex.toLex_le_toLex] at below
  · rintro ⟨isItem, matches_, least⟩
    refine ⟨isItem, ⟨item, isItem, rfl, matches_⟩, ?_⟩
    rintro rank ⟨other, isOther, isKey, matchesOther⟩
    have below := least _ other isOther matchesOther
    rw [isKey] at below
    exact Prod.Lex.le_iff.mpr below

/-- There is at most one best match. -/
theorem IsBest.unique
    {place otherPlace : ℕ}
    {item other : α}
    (best : IsBest key isMatch items place item)
    (bestOther : IsBest key isMatch items otherPlace other) :
    item = other := by
  have sameRank := best.2.unique bestOther.2
  have samePlace : place = otherPlace :=
    congrArg (fun rank => (ofLex rank).2) sameRank
  subst samePlace
  exact Option.some.inj (best.1.symm.trans bestOther.1)

/-- The first match of a sorted list has the least key of all matches. -/
theorem KeysSorted.le_of_find?
    {item other : α}
    (sorted : KeysSorted key items)
    (first : items.find? isMatch = some item)
    (member : other ∈ items)
    (matchesOther : isMatch other = true) :
    key item ≤ key other := by
  induction items with
  | nil =>
      nomatch first
  | cons head rest inductionHypothesis =>
      obtain ⟨below, sortedRest⟩ := List.pairwise_cons.mp sorted
      by_cases matchesHead : isMatch head = true
      · rw [List.find?_cons_of_pos matchesHead] at first
        cases first
        rcases List.mem_cons.mp member with rfl | inRest
        · exact le_refl _
        · exact below other inRest
      · rw [List.find?_cons_of_neg matchesHead] at first
        rcases List.mem_cons.mp member with rfl | inRest
        · exact absurd matchesOther matchesHead
        · exact inductionHypothesis sortedRest first inRest

/-- Sorting does not change matches with one key, nor their order. -/
theorem filter_sortByKey_of_key
    {value : κ}
    (sameKey : ∀ item ∈ items, isMatch item = true → key item = value) :
    (sortByKey key items).filter isMatch = items.filter isMatch := by
  have inClass
      {listed : List α}
      (inItems : ∀ item ∈ listed, item ∈ items) :
      listed.filter isMatch =
        (withKey key value listed).filter isMatch := by
    rw [withKey, List.filter_filter]
    apply List.filter_congr
    intro item member
    by_cases matches_ : isMatch item = true
    · simp [matches_, sameKey item (inItems item member) matches_]
    · simp [matches_]
  rw [inClass fun item member => mem_sortByKey.mp member, withKey_sortByKey,
    ← inClass fun item member => member]

/-- Nor does it change which of them is the first. -/
theorem find?_sortByKey_of_key
    {value : κ}
    (sameKey : ∀ item ∈ items, isMatch item = true → key item = value) :
    (sortByKey key items).find? isMatch = items.find? isMatch := by
  rw [← List.head?_filter, filter_sortByKey_of_key sameKey,
    List.head?_filter]

/-- Of two kinds of matches, those with the smaller key come first. -/
theorem KeysSorted.find?_or
    {isFirst isSecond : α → Bool}
    (sorted : KeysSorted key items)
    (below :
      ∀ first ∈ items, ∀ second ∈ items,
        isFirst first = true → isSecond second = true →
          key first < key second) :
    items.find? (fun item => isFirst item || isSecond item) =
      (items.find? isFirst).or (items.find? isSecond) := by
  induction items with
  | nil =>
      rfl
  | cons head rest inductionHypothesis =>
      obtain ⟨atLeast, sortedRest⟩ := List.pairwise_cons.mp sorted
      cases firstHead : isFirst head with
      | true =>
          simp [firstHead]
      | false =>
          cases secondHead : isSecond head with
          | true =>
              have noFirst : rest.find? isFirst = none := by
                rw [List.find?_eq_none]
                intro item member isItem
                exact absurd (atLeast item member)
                  (not_le_of_gt
                    (below item (List.mem_cons_of_mem _ member) head
                      List.mem_cons_self isItem secondHead))
              simp [firstHead, secondHead, noFirst]
          | false =>
              have belowRest :
                  ∀ first ∈ rest, ∀ second ∈ rest,
                    isFirst first = true → isSecond second = true →
                      key first < key second :=
                fun first inFirst second inSecond =>
                  below first (List.mem_cons_of_mem _ inFirst) second
                    (List.mem_cons_of_mem _ inSecond)
              simp [firstHead, secondHead,
                inductionHypothesis sortedRest belowRest]

/-- The first match of a list is the first match among those with its key. -/
theorem find?_withKey
    {item : α}
    (first : items.find? isMatch = some item) :
    (withKey key (key item) items).find? isMatch = some item := by
  obtain ⟨matchesItem, before, after, rfl, noneBefore⟩ :=
    List.find?_eq_some_iff_append.mp first
  rw [withKey, List.find?_filter, List.find?_eq_some_iff_append]
  refine ⟨by simp [matchesItem], before, after, rfl, fun other member => ?_⟩
  have notOther := noneBefore other member
  simp only [Bool.not_eq_true'] at notOther
  simp [notOther]

/-- The first match in the sorted list is the best match of the list. -/
theorem isBest_of_find?_sortByKey
    {item : α}
    (first : (sortByKey key items).find? isMatch = some item) :
    ∃ place, IsBest key isMatch items place item := by
  have inClass :
      (withKey key (key item) (sortByKey key items)).find? isMatch =
        some item :=
    find?_withKey first
  rw [withKey_sortByKey, withKey, List.find?_filter,
    List.find?_eq_some_iff_getElem] at inClass
  obtain ⟨selected, place, inBounds, isItem, noneBefore⟩ := inClass
  refine ⟨place, isBest_iff.mpr ⟨?_, ?_, ?_⟩⟩
  · rw [List.getElem?_eq_getElem inBounds, isItem]
  · exact List.find?_some first
  · intro otherPlace other isOther matchesOther
    have member : other ∈ items := List.mem_of_getElem? isOther
    have atMost : key item ≤ key other :=
      (keysSorted_sortByKey key items).le_of_find? first
        (mem_sortByKey.mpr member) matchesOther
    rcases lt_or_eq_of_le atMost with below | sameKey
    · exact Or.inl below
    · right
      refine ⟨sameKey, Nat.le_of_not_lt fun earlier => ?_⟩
      obtain ⟨otherBounds, isAt⟩ := List.getElem?_eq_some_iff.mp isOther
      have notSelected := noneBefore otherPlace earlier
      simp [isAt, sameKey, matchesOther] at notSelected

theorem find?_sortByKey_eq_some_iff
    {item : α} :
    (sortByKey key items).find? isMatch = some item ↔
      ∃ place, IsBest key isMatch items place item := by
  constructor
  · exact isBest_of_find?_sortByKey
  · rintro ⟨place, best⟩
    have member : item ∈ sortByKey key items :=
      mem_sortByKey.mpr (List.mem_of_getElem? best.1)
    obtain ⟨found, isFound⟩ := Option.isSome_iff_exists.mp
      (List.find?_isSome.mpr ⟨item, member, (isBest_iff.mp best).2.1⟩)
    obtain ⟨foundPlace, bestFound⟩ := isBest_of_find?_sortByKey isFound
    rw [isFound, best.unique bestFound]

theorem find?_sortByKey_eq_none_iff :
    (sortByKey key items).find? isMatch = none ↔
      ∀ item ∈ items, ¬isMatch item = true := by
  rw [List.find?_eq_none]
  constructor
  · intro noMatch item member
    exact noMatch item (mem_sortByKey.mpr member)
  · intro noMatch item member
    exact noMatch item (mem_sortByKey.mp member)

end Rank

end StableSort

end Sweety
