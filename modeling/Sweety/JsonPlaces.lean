import Sweety.ConfigTree

namespace Sweety.ConfigTree

/-!
# Places in a JSON tree

A place is the way from the root of a tree to one of its nodes.  Replacing the
node at a place changes neither the nodes beside it nor the shape of the nodes
above it.
-/

namespace Json

/-! ## Fields of one object -/

section Fields

variable
  {name other : String}
  {value : Json}
  {fields : List (String × Json)}

theorem field?_cons
    (entry : String × Json)
    (rest : List (String × Json)) :
    field? name (entry :: rest) =
      if entry.1 = name then some entry.2 else field? name rest := by
  rw [field?, List.find?_cons]
  by_cases isName : entry.1 = name
  · rw [if_pos isName, beq_iff_eq.mpr isName]
    rfl
  · rw [if_neg isName, beq_eq_false_iff_ne.mpr isName]
    rfl

/-- The entries after a field that is there has been set. -/
def overwrite (name : String) (value : Json) (entry : String × Json) :
    String × Json :=
  if entry.1 = name then (name, value) else entry

@[simp] theorem overwrite_fst (entry : String × Json) :
    (overwrite name value entry).1 = entry.1 := by
  rw [overwrite]
  split
  case isTrue isName =>
    exact isName.symm
  case isFalse =>
    rfl

theorem setField_of_some
    {child : Json}
    (isField : field? name fields = some child)
    (value : Json) :
    setField name value fields = fields.map (overwrite name value) := by
  rw [setField, isField]
  rfl

theorem setField_of_none
    (isNone : field? name fields = none)
    (value : Json) :
    setField name value fields = fields ++ [(name, value)] := by
  rw [setField, isNone]

/-- A field that is there is found with the value that it is set to. -/
theorem field?_map_overwrite
    {child : Json}
    (isField : field? name fields = some child)
    (value : Json) :
    field? name (fields.map (overwrite name value)) = some value := by
  induction fields with
  | nil =>
      cases isField
  | cons entry rest inductionHypothesis =>
      rw [field?_cons] at isField
      rw [List.map_cons, field?_cons, overwrite_fst]
      split at isField
      case isTrue isName =>
        rw [if_pos isName, overwrite, if_pos isName]
      case isFalse isOther =>
        rw [if_neg isOther]
        exact inductionHypothesis isField

theorem field?_map_overwrite_of_ne (differs : other ≠ name) :
    field? other (fields.map (overwrite name value)) =
      field? other fields := by
  induction fields with
  | nil =>
      rfl
  | cons entry rest inductionHypothesis =>
      rw [List.map_cons, field?_cons, field?_cons, overwrite_fst,
        inductionHypothesis]
      by_cases isOther : entry.1 = other
      · have isKept : overwrite name value entry = entry :=
          if_neg (isOther ▸ differs)
        rw [isKept]
      · rw [if_neg isOther, if_neg isOther]

/-- The names stay. -/
theorem map_fst_overwrite (name : String) (value : Json) :
    (fields.map (overwrite name value)).map Prod.fst =
      fields.map Prod.fst := by
  rw [List.map_map]
  exact List.map_congr_left fun entry _ => overwrite_fst entry

/-- The last value that is set counts. -/
theorem map_overwrite_overwrite (name : String) (first second : Json) :
    (fields.map (overwrite name first)).map (overwrite name second) =
      fields.map (overwrite name second) := by
  rw [List.map_map]
  apply List.map_congr_left
  intro entry _
  rw [Function.comp_apply, overwrite, overwrite_fst]
  split
  case isTrue isName =>
    rw [overwrite, if_pos isName]
  case isFalse isOther =>
    rw [overwrite, if_neg isOther, overwrite, if_neg isOther]

/-- Setting a field to the value that it has changes nothing. -/
theorem map_overwrite_self
    (distinct : (fields.map Prod.fst).Nodup)
    (isField : field? name fields = some value) :
    fields.map (overwrite name value) = fields := by
  induction fields with
  | nil =>
      rfl
  | cons entry rest inductionHypothesis =>
      rw [List.map_cons, List.nodup_cons] at distinct
      rw [field?_cons] at isField
      rw [List.map_cons]
      split at isField
      case isTrue isName =>
        have isKept : ∀ later ∈ rest, overwrite name value later = later := by
          intro later member
          refine if_neg fun isSame => distinct.1 ?_
          rw [isName, ← isSame]
          exact List.mem_map_of_mem member
        rw [overwrite, if_pos isName, List.map_congr_left isKept, List.map_id',
          ← Option.some.inj isField, ← isName]
      case isFalse isOther =>
        rw [overwrite, if_neg isOther, inductionHypothesis distinct.2 isField]

/-- A field that is added is found. -/
theorem field?_append_of_none
    (isNone : field? name fields = none)
    (value : Json) :
    field? name (fields ++ [(name, value)]) = some value := by
  induction fields with
  | nil =>
      exact (field?_cons (name, value) []).trans (if_pos rfl)
  | cons entry rest inductionHypothesis =>
      rw [field?_cons] at isNone
      split at isNone
      case isTrue =>
        cases isNone
      case isFalse isOther =>
        rw [List.cons_append, field?_cons, if_neg isOther]
        exact inductionHypothesis isNone

/-- A field that was added is removed again. -/
theorem removeField_append_of_none
    (isNone : field? name fields = none)
    (value : Json) :
    removeField name (fields ++ [(name, value)]) = fields := by
  rw [removeField, List.filter_append]
  have isKept : fields.filter (fun entry => entry.1 != name) = fields := by
    rw [List.filter_eq_self]
    intro entry member
    rw [field?, Option.map_eq_none_iff, List.find?_eq_none] at isNone
    rw [bne_iff_ne]
    intro isName
    exact isNone entry member (beq_iff_eq.mpr isName)
  rw [isKept, List.filter_cons_of_neg (by simp), List.filter_nil,
    List.append_nil]

end Fields

/-! ## Well-formed trees -/

/-- The names of every object are distinct, as in a `serde_json::Map`. -/
inductive Distinct : Json → Prop where
  | null :
      Distinct .null
  | bool (value : Bool) :
      Distinct (.bool value)
  | number (text : String) :
      Distinct (.number text)
  | string (text : String) :
      Distinct (.string text)
  | array
      {items : List Json}
      (each : ∀ item ∈ items, Distinct item) :
      Distinct (.array items)
  | object
      {fields : List (String × Json)}
      (names : (fields.map Prod.fst).Nodup)
      (each : ∀ entry ∈ fields, Distinct entry.2) :
      Distinct (.object fields)

end Json

/-! ## Steps to a child -/

/-- A step down a tree. -/
inductive Step where
  | field (name : String)
  | index (position : Nat)
  deriving Repr, DecidableEq

/-- The way from the root to a node. -/
abbrev Place :=
  List Step

/-- What is seen of a node without its children. -/
inductive Label where
  | null
  | bool (value : Bool)
  | number (text : String)
  | string (text : String)
  | array (count : Nat)
  | object (names : List String)
  deriving Repr, DecidableEq

namespace Json

def label : Json → Label
  | .null =>
      .null
  | .bool value =>
      .bool value
  | .number text =>
      .number text
  | .string text =>
      .string text
  | .array items =>
      .array items.length
  | .object fields =>
      .object (fields.map Prod.fst)

/-- The child that a step leads to. -/
def child? : Step → Json → Option Json
  | .field name, .object fields =>
      field? name fields
  | .index position, .array items =>
      items[position]?
  | _, _ =>
      none

/-- The node with another child. -/
def setChild : Step → Json → Json → Json
  | .field name, value, .object fields =>
      .object (setField name value fields)
  | .index position, value, .array items =>
      .array (items.set position value)
  | _, _, tree =>
      tree

section Steps

variable
  {step other : Step}
  {tree child : Json}

/-- A step to a child is a name in an object or a position in an array. -/
theorem child?_eq_some_iff :
    child? step tree = some child ↔
      (∃ name fields,
        step = .field name ∧ tree = .object fields ∧
          field? name fields = some child) ∨
      ∃ position items,
        step = .index position ∧ tree = .array items ∧
          items[position]? = some child := by
  constructor
  · intro isChild
    cases step with
    | field name =>
        cases tree with
        | object fields =>
            exact .inl ⟨name, fields, rfl, rfl, isChild⟩
        | _ =>
            cases isChild
    | index position =>
        cases tree with
        | array items =>
            exact .inr ⟨position, items, rfl, rfl, isChild⟩
        | _ =>
            cases isChild
  · rintro (⟨name, fields, rfl, rfl, isChild⟩ |
      ⟨position, items, rfl, rfl, isChild⟩)
    · exact isChild
    · exact isChild

theorem child?_setChild
    (isChild : child? step tree = some child)
    (value : Json) :
    child? step (setChild step value tree) = some value := by
  rcases child?_eq_some_iff.mp isChild with
    ⟨name, fields, rfl, rfl, isField⟩ | ⟨position, items, rfl, rfl, isItem⟩
  · rw [setChild, child?, setField_of_some isField]
    exact field?_map_overwrite isField value
  · rw [setChild, child?]
    exact List.getElem?_set_self (List.getElem?_eq_some_iff.mp isItem).1

/-- The other children stay. -/
theorem child?_setChild_of_ne
    (isChild : child? step tree = some child)
    (differs : other ≠ step)
    (value : Json) :
    child? other (setChild step value tree) = child? other tree := by
  rcases child?_eq_some_iff.mp isChild with
    ⟨name, fields, rfl, rfl, isField⟩ | ⟨position, items, rfl, rfl, isItem⟩
  · rw [setChild, setField_of_some isField]
    cases other with
    | field otherName =>
        refine field?_map_overwrite_of_ne fun same => differs ?_
        rw [same]
    | index otherPosition =>
        rfl
  · rw [setChild]
    cases other with
    | field otherName =>
        rfl
    | index otherPosition =>
        refine List.getElem?_set_ne fun same => differs ?_
        rw [same]

theorem label_setChild
    (isChild : child? step tree = some child)
    (value : Json) :
    (setChild step value tree).label = tree.label := by
  rcases child?_eq_some_iff.mp isChild with
    ⟨name, fields, rfl, rfl, isField⟩ | ⟨position, items, rfl, rfl, isItem⟩
  · rw [setChild, setField_of_some isField, label, label, map_fst_overwrite]
  · rw [setChild, label, label, List.length_set]

theorem setChild_setChild
    (isChild : child? step tree = some child)
    (first second : Json) :
    setChild step second (setChild step first tree) =
      setChild step second tree := by
  rcases child?_eq_some_iff.mp isChild with
    ⟨name, fields, rfl, rfl, isField⟩ | ⟨position, items, rfl, rfl, isItem⟩
  · rw [setChild, setChild, setField_of_some isField,
      setField_of_some (field?_map_overwrite isField first),
      map_overwrite_overwrite, setChild, setField_of_some isField]
  · rw [setChild, setChild, List.set_set, setChild]

/-- In a well-formed tree a child that is set to itself changes nothing. -/
theorem setChild_self
    (distinct : tree.Distinct)
    (isChild : child? step tree = some child) :
    setChild step child tree = tree := by
  rcases child?_eq_some_iff.mp isChild with
    ⟨name, fields, rfl, rfl, isField⟩ | ⟨position, items, rfl, rfl, isItem⟩
  · obtain _ | _ | _ | _ | _ | ⟨names, _⟩ := distinct
    rw [setChild, setField_of_some isField, map_overwrite_self names isField]
  · obtain ⟨within, rfl⟩ := List.getElem?_eq_some_iff.mp isItem
    rw [setChild, List.set_getElem_self]

/-- Setting a field keeps an object well-formed. -/
theorem Distinct.setField
    {fields : List (String × Json)}
    {value : Json}
    (distinct : (Json.object fields).Distinct)
    (isDistinct : value.Distinct)
    (name : String) :
    (Json.object (setField name value fields)).Distinct := by
  obtain _ | _ | _ | _ | _ | ⟨names, each⟩ := distinct
  cases isField : field? name fields with
  | some child =>
      rw [setField_of_some isField]
      refine .object ?_ ?_
      · rwa [map_fst_overwrite]
      · intro entry member
        obtain ⟨old, isOld, rfl⟩ := List.mem_map.mp member
        rw [overwrite]
        split
        case isTrue =>
          exact isDistinct
        case isFalse =>
          exact each old isOld
  | none =>
      rw [setField_of_none isField]
      refine .object ?_ ?_
      · rw [List.map_append, List.map_singleton, List.nodup_append]
        refine ⟨names, List.pairwise_singleton _ name, ?_⟩
        intro other isOther last isLast same
        obtain ⟨entry, member, rfl⟩ := List.mem_map.mp isOther
        rw [field?, Option.map_eq_none_iff, List.find?_eq_none] at isField
        rw [List.mem_singleton.mp isLast] at same
        exact isField entry member (beq_iff_eq.mpr same)
      · intro entry member
        rcases List.mem_append.mp member with isOld | isNew
        · exact each entry isOld
        · rw [List.mem_singleton.mp isNew]
          exact isDistinct

/-- Removing a field keeps an object well-formed. -/
theorem Distinct.removeField
    {fields : List (String × Json)}
    (distinct : (Json.object fields).Distinct)
    (name : String) :
    (Json.object (removeField name fields)).Distinct := by
  obtain _ | _ | _ | _ | _ | ⟨names, each⟩ := distinct
  refine .object ?_ ?_
  · exact names.sublist (List.filter_sublist.map Prod.fst)
  · intro entry member
    exact each entry (List.mem_filter.mp member).1

/-- Setting a child keeps a node well-formed. -/
theorem Distinct.setChild
    {value : Json}
    (distinct : tree.Distinct)
    (isDistinct : value.Distinct)
    (step : Step) :
    (Json.setChild step value tree).Distinct := by
  cases step with
  | field name =>
      cases tree with
      | object fields =>
          exact distinct.setField isDistinct name
      | _ =>
          exact distinct
  | index position =>
      cases tree with
      | array items =>
          obtain _ | _ | _ | _ | each := distinct
          refine .array fun item member => ?_
          rcases List.mem_or_eq_of_mem_set member with isOld | rfl
          · exact each item isOld
          · exact isDistinct
      | _ =>
          exact distinct

theorem Distinct.of_child?
    (distinct : tree.Distinct)
    (isChild : child? step tree = some child) :
    child.Distinct := by
  rcases child?_eq_some_iff.mp isChild with
    ⟨name, fields, rfl, rfl, isField⟩ | ⟨position, items, rfl, rfl, isItem⟩
  · obtain _ | _ | _ | _ | _ | ⟨_, each⟩ := distinct
    rw [field?] at isField
    obtain ⟨entry, isFound, rfl⟩ := Option.map_eq_some_iff.mp isField
    exact each entry (List.mem_of_find?_eq_some isFound)
  · obtain _ | _ | _ | _ | each := distinct
    exact each child (List.mem_of_getElem? isItem)

end Steps

/-! ## Nodes at a place -/

/-- The node at a place. -/
def valueAt : Place → Json → Option Json
  | [], tree =>
      some tree
  | step :: rest, tree =>
      (child? step tree).bind (valueAt rest)

/-- What is seen of the node at a place. -/
def labelAt (place : Place) (tree : Json) : Option Label :=
  (valueAt place tree).map label

/-- The tree with another node at a place. -/
def replaceAt : Place → Json → Json → Json
  | [], value, _ =>
      value
  | step :: rest, value, tree =>
      match child? step tree with
      | some child =>
          setChild step (replaceAt rest value child) tree
      | none =>
          tree

section Places

variable
  {place other : Place}
  {tree node child : Json}
  {step : Step}
  {rest : Place}

theorem valueAt_cons (isChild : child? step tree = some child) :
    valueAt (step :: rest) tree = valueAt rest child := by
  rw [valueAt, isChild, Option.bind_some]

theorem replaceAt_cons
    (isChild : child? step tree = some child)
    (value : Json) :
    replaceAt (step :: rest) value tree =
      setChild step (replaceAt rest value child) tree := by
  rw [replaceAt, isChild]

/-- A place of a node begins with a step to a child. -/
theorem exists_child_of_valueAt
    (isNode : valueAt (step :: rest) tree = some node) :
    ∃ child, child? step tree = some child ∧
      valueAt rest child = some node :=
  Option.bind_eq_some_iff.mp isNode

theorem replaceAt_replaceAt
    (isNode : valueAt place tree = some node)
    (first second : Json) :
    replaceAt place second (replaceAt place first tree) =
      replaceAt place second tree := by
  induction place generalizing tree with
  | nil =>
      rfl
  | cons step rest inductionHypothesis =>
      obtain ⟨child, isChild, isLater⟩ := exists_child_of_valueAt isNode
      rw [replaceAt_cons isChild, replaceAt_cons isChild,
        replaceAt_cons (child?_setChild isChild _),
        setChild_setChild isChild, inductionHypothesis isLater]

/-- Putting a node where it is changes nothing in a well-formed tree. -/
theorem replaceAt_self
    (distinct : tree.Distinct)
    (isNode : valueAt place tree = some node) :
    replaceAt place node tree = tree := by
  induction place generalizing tree with
  | nil =>
      exact (Option.some.inj isNode).symm
  | cons step rest inductionHypothesis =>
      obtain ⟨child, isChild, isLater⟩ := exists_child_of_valueAt isNode
      rw [replaceAt_cons isChild,
        inductionHypothesis (distinct.of_child? isChild) isLater,
        setChild_self distinct isChild]

/-- Replacing a node keeps a tree well-formed. -/
theorem Distinct.replaceAt
    {value : Json}
    (distinct : tree.Distinct)
    (isDistinct : value.Distinct)
    (place : Place) :
    (Json.replaceAt place value tree).Distinct := by
  induction place generalizing tree with
  | nil =>
      exact isDistinct
  | cons step rest inductionHypothesis =>
      cases isChild : child? step tree with
      | none =>
          rw [Json.replaceAt, isChild]
          exact distinct
      | some child =>
          rw [replaceAt_cons isChild]
          exact distinct.setChild
            (inductionHypothesis (distinct.of_child? isChild)) step

/-- The node at a place of a well-formed tree is well-formed. -/
theorem Distinct.of_valueAt
    (distinct : tree.Distinct)
    (isNode : valueAt place tree = some node) :
    node.Distinct := by
  induction place generalizing tree with
  | nil =>
      cases isNode
      exact distinct
  | cons step rest inductionHypothesis =>
      obtain ⟨child, isChild, isLater⟩ := exists_child_of_valueAt isNode
      exact inductionHypothesis (distinct.of_child? isChild) isLater

/-- A place that is not below has the same label, by induction on the way. -/
theorem labelAt_replaceAt
    (isNode : valueAt place tree = some node)
    (notBelow : ¬place <+: other)
    (value : Json) :
    labelAt other (replaceAt place value tree) = labelAt other tree := by
  induction place generalizing tree other with
  | nil =>
      exact absurd List.nil_prefix notBelow
  | cons step rest inductionHypothesis =>
      obtain ⟨child, isChild, isLater⟩ := exists_child_of_valueAt isNode
      rw [replaceAt_cons isChild]
      cases other with
      | nil =>
          exact congrArg some (label_setChild isChild _)
      | cons otherStep later =>
          by_cases isStep : otherStep = step
          · subst isStep
            rw [labelAt, labelAt, valueAt_cons (child?_setChild isChild _),
              valueAt_cons isChild]
            refine inductionHypothesis isLater fun isBelow => notBelow ?_
            exact List.prefix_cons_inj _ |>.mpr isBelow
          · rw [labelAt, labelAt, valueAt, valueAt,
              child?_setChild_of_ne isChild isStep]

/-- A place that is neither below nor above has the same node. -/
theorem valueAt_replaceAt_of_apart
    (isNode : valueAt place tree = some node)
    (notBelow : ¬place <+: other)
    (notAbove : ¬other <+: place)
    (value : Json) :
    valueAt other (replaceAt place value tree) = valueAt other tree := by
  induction place generalizing tree other with
  | nil =>
      exact absurd List.nil_prefix notBelow
  | cons step rest inductionHypothesis =>
      obtain ⟨child, isChild, isLater⟩ := exists_child_of_valueAt isNode
      rw [replaceAt_cons isChild]
      cases other with
      | nil =>
          exact absurd List.nil_prefix notAbove
      | cons otherStep later =>
          by_cases isStep : otherStep = step
          · subst isStep
            rw [valueAt_cons (child?_setChild isChild _),
              valueAt_cons isChild]
            exact inductionHypothesis isLater
              (fun isBelow => notBelow ((List.prefix_cons_inj _).mpr isBelow))
              (fun isAbove => notAbove ((List.prefix_cons_inj _).mpr isAbove))
          · rw [valueAt, valueAt, child?_setChild_of_ne isChild isStep]

end Places

end Json

end Sweety.ConfigTree
