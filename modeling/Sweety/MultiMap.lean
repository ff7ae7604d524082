import Mathlib.Tactic.Common

/-!
# Tables with several values for a name

A table is a function from names to lists of values, in the order in which the
values were added; a name without values is absent.  Two tables are equal when
every name has the same values.  The rules at the end say what a loop over a
list of items leaves for one name, given what a single item does for it.
-/

/-- The values of each name. -/
def MultiMap (Name Value : Type) : Type :=
  Name → List Value

namespace MultiMap

variable {Name Value Item : Type}

instance : EmptyCollection (MultiMap Name Value) :=
  ⟨fun _ => []⟩

/-- The values of a name. -/
def getAll (name : Name) (table : MultiMap Name Value) : List Value :=
  table name

/-- The first value of a name. -/
def get? (name : Name) (table : MultiMap Name Value) : Option Value :=
  (table.getAll name).head?

@[simp] theorem getAll_empty (name : Name) :
    getAll name (∅ : MultiMap Name Value) = [] :=
  rfl

section Operations

variable [DecidableEq Name]

/-- Replace the values of a name by one value. -/
def insert (name : Name) (value : Value) (table : MultiMap Name Value) :
    MultiMap Name Value :=
  fun other => if other = name then [value] else table other

/-- Add a value to a name. -/
def append (name : Name) (value : Value) (table : MultiMap Name Value) :
    MultiMap Name Value :=
  fun other => if other = name then table other ++ [value] else table other

/-- Forget a name. -/
def remove (name : Name) (table : MultiMap Name Value) :
    MultiMap Name Value :=
  fun other => if other = name then [] else table other

@[simp] theorem getAll_insert
    (name other : Name)
    (value : Value)
    (table : MultiMap Name Value) :
    getAll name (insert other value table) =
      if name = other then [value] else getAll name table :=
  rfl

@[simp] theorem getAll_append
    (name other : Name)
    (value : Value)
    (table : MultiMap Name Value) :
    getAll name (append other value table) =
      if name = other then getAll name table ++ [value]
      else getAll name table :=
  rfl

@[simp] theorem getAll_remove
    (name other : Name)
    (table : MultiMap Name Value) :
    getAll name (remove other table) =
      if name = other then [] else getAll name table :=
  rfl

end Operations

/-! ## Loops -/

section Loops

variable
  {name : Name}
  {step : MultiMap Name Value → Item → MultiMap Name Value}
  {step? : MultiMap Name Value → Item → Option (MultiMap Name Value)}

/-- A loop that can stop with nothing does for a name what its items do. -/
theorem getAll_foldlM
    {stepAt : List Value → Item → List Value}
    (does :
      ∀ table item after,
        step? table item = some after →
          getAll name after = stepAt (getAll name table) item)
    {items : List Item}
    {table after : MultiMap Name Value}
    (ends : items.foldlM step? table = some after) :
    getAll name after = items.foldl stepAt (getAll name table) := by
  induction items generalizing table with
  | nil =>
      obtain rfl : table = after := Option.some.inj ends
      rfl
  | cons item rest inductionHypothesis =>
      rw [List.foldlM_cons] at ends
      obtain ⟨middle, isMiddle, fromMiddle⟩ :=
        Option.bind_eq_some_iff.mp ends
      rw [List.foldl_cons, inductionHypothesis fromMiddle,
        does table item middle isMiddle]

theorem foldl_replace
    (value? : Item → Option Value)
    (items : List Item)
    (values : List Value) :
    items.foldl
        (fun values item => (value? item).elim values fun value => [value])
        values =
      (items.filterMap value?).getLast?.elim values fun value => [value] := by
  induction items generalizing values with
  | nil =>
      rfl
  | cons item rest inductionHypothesis =>
      rw [List.foldl_cons, inductionHypothesis, List.filterMap_cons]
      cases value? item with
      | none =>
          rfl
      | some value =>
          rw [List.getLast?_cons]
          cases (rest.filterMap value?).getLast? <;> rfl

theorem foldl_add
    (value? : Item → Option Value)
    (items : List Item)
    (values : List Value) :
    items.foldl (fun values item => values ++ (value? item).toList) values =
      values ++ items.filterMap value? := by
  induction items generalizing values with
  | nil =>
      rw [List.foldl_nil, List.filterMap_nil, List.append_nil]
  | cons item rest inductionHypothesis =>
      rw [List.foldl_cons, inductionHypothesis, List.filterMap_cons]
      cases value? item <;> simp

/-- A loop whose items replace leaves the last value, if there is one. -/
theorem getAll_foldlM_replace
    {value? : Item → Option Value}
    (does :
      ∀ table item after,
        step? table item = some after →
          getAll name after =
            (value? item).elim (getAll name table) fun value => [value])
    {items : List Item}
    {table after : MultiMap Name Value}
    (ends : items.foldlM step? table = some after) :
    getAll name after =
      (items.filterMap value?).getLast?.elim (getAll name table)
        fun value => [value] := by
  rw [← foldl_replace]
  exact getAll_foldlM does ends

/-- A loop whose items add leaves all their values. -/
theorem getAll_foldlM_add
    {value? : Item → Option Value}
    (does :
      ∀ table item after,
        step? table item = some after →
          getAll name after = getAll name table ++ (value? item).toList)
    {items : List Item}
    {table after : MultiMap Name Value}
    (ends : items.foldlM step? table = some after) :
    getAll name after = getAll name table ++ items.filterMap value? := by
  rw [← foldl_add]
  exact getAll_foldlM does ends

/-- A loop that always goes on. -/
theorem foldlM_some (items : List Item) (table : MultiMap Name Value) :
    items.foldlM (fun table item => some (step table item)) table =
      some (items.foldl step table) := by
  induction items generalizing table with
  | nil =>
      rfl
  | cons item rest inductionHypothesis =>
      exact inductionHypothesis (step table item)

theorem getAll_foldl_replace
    {value? : Item → Option Value}
    (does :
      ∀ table item,
        getAll name (step table item) =
          (value? item).elim (getAll name table) fun value => [value])
    (items : List Item)
    (table : MultiMap Name Value) :
    getAll name (items.foldl step table) =
      (items.filterMap value?).getLast?.elim (getAll name table)
        fun value => [value] := by
  refine getAll_foldlM_replace ?_ (foldlM_some items table)
  intro table item after isAfter
  obtain rfl := Option.some.inj isAfter
  exact does table item

theorem getAll_foldl_add
    {value? : Item → Option Value}
    (does :
      ∀ table item,
        getAll name (step table item) =
          getAll name table ++ (value? item).toList)
    (items : List Item)
    (table : MultiMap Name Value) :
    getAll name (items.foldl step table) =
      getAll name table ++ items.filterMap value? := by
  refine getAll_foldlM_add ?_ (foldlM_some items table)
  intro table item after isAfter
  obtain rfl := Option.some.inj isAfter
  exact does table item

/-- A loop whose items forget the name or leave it alone. -/
theorem getAll_foldl_forget
    {forgets : Item → Bool}
    (does :
      ∀ table item,
        getAll name (step table item) =
          if forgets item then [] else getAll name table)
    (items : List Item)
    (table : MultiMap Name Value) :
    getAll name (items.foldl step table) =
      if items.any forgets then [] else getAll name table := by
  induction items generalizing table with
  | nil =>
      rfl
  | cons item rest inductionHypothesis =>
      rw [List.foldl_cons, inductionHypothesis, does, List.any_cons]
      cases forgets item <;> simp

end Loops

end MultiMap
