import Sweety.JsonPlaces

namespace Sweety.ConfigTree

open Json

/-!
# Laws of the edits of the configuration tree

Model of `json_navigate` and `json_navigate_mut` in
`admin_api/handlers/config.rs`, and what they and the `PUT`, `PATCH` and
`DELETE` of `route_config_tree` make of a tree: what is put is found, deleting
it restores the tree, and the rest of the tree stays.
-/

/-! ## The walkers -/

/-- A `&Value`, with the place that it points to. -/
structure NodeRef where
  place : Place
  value : Json

/-- A `&mut Value`, with what storing a value in it makes of the whole tree. -/
structure NodeMut extends NodeRef where
  put : Json → Json

/-- `json_navigate`, from a node on. -/
def jsonNavigate : List String → Json → Option NodeRef
  | [], current =>
      some ⟨[], current⟩
  | segment :: rest, current =>
      if segment = "" then
        jsonNavigate rest current
      else
        match current with
        | .object fields => do
            let child ← field? segment fields
            let node ← jsonNavigate rest child
            return ⟨.field segment :: node.place, node.value⟩
        | .array items => do
            let index ← parseIndex? segment
            let child ← items[index]?
            let node ← jsonNavigate rest child
            return ⟨.index index :: node.place, node.value⟩
        | _ =>
            none

/-- `json_navigate_mut`, from a node on. -/
def jsonNavigateMut : List String → Json → Option NodeMut
  | [], current =>
      some { place := [], value := current, put := id }
  | segment :: rest, current =>
      if segment = "" then
        jsonNavigateMut rest current
      else
        match current with
        | .object fields => do
            let child ← field? segment fields
            let node ← jsonNavigateMut rest child
            return {
              place := .field segment :: node.place
              value := node.value
              put := fun value =>
                .object (setField segment (node.put value) fields) }
        | .array items => do
            let index ← parseIndex? segment
            let child ← items[index]?
            let node ← jsonNavigateMut rest child
            return {
              place := .index index :: node.place
              value := node.value
              put := fun value =>
                .array (items.set index (node.put value)) }
        | _ =>
            none

/-- The step that a segment is at a node, and the child that it leads to. -/
def next? (segment : String) : Json → Option (Step × Json)
  | .object fields =>
      (field? segment fields).map fun child => (.field segment, child)
  | .array items => do
      let index ← parseIndex? segment
      let child ← items[index]?
      return (.index index, child)
  | _ =>
      none

/-- A node that was reached from a child. -/
def NodeRef.under (step : Step) (node : NodeRef) : NodeRef :=
  ⟨step :: node.place, node.value⟩

/-- A node of a child, with what storing in it makes of the parent. -/
def NodeMut.under (parent : Json) (step : Step) (node : NodeMut) : NodeMut where
  toNodeRef := node.toNodeRef.under step
  put := fun value => setChild step (node.put value) parent

section Walkers

variable
  {segment : String}
  {segments rest : List String}
  {root current child : Json}
  {step : Step}
  {node : NodeRef}
  {change : Json → Except String Json}
  {missing : TreeError}

/-! ### One segment -/

theorem child?_of_next? (isNext : next? segment current = some (step, child)) :
    child? step current = some child := by
  cases current with
  | object fields =>
      obtain ⟨found, isField, same⟩ := Option.map_eq_some_iff.mp isNext
      cases same
      exact isField
  | array items =>
      obtain ⟨index, _, isNext⟩ := Option.bind_eq_some_iff.mp isNext
      obtain ⟨found, isItem, same⟩ := Option.bind_eq_some_iff.mp isNext
      cases same
      exact isItem
  | _ =>
      cases isNext

/-- After a child has been set a segment leads to the child that was set. -/
theorem next?_setChild
    (isNext : next? segment current = some (step, child))
    (value : Json) :
    next? segment (setChild step value current) = some (step, value) := by
  have isSet := child?_setChild (child?_of_next? isNext) value
  cases current with
  | object fields =>
      obtain ⟨found, _, same⟩ := Option.map_eq_some_iff.mp isNext
      cases same
      exact Option.map_eq_some_iff.mpr ⟨value, isSet, rfl⟩
  | array items =>
      obtain ⟨index, isIndex, isNext⟩ := Option.bind_eq_some_iff.mp isNext
      obtain ⟨found, _, same⟩ := Option.bind_eq_some_iff.mp isNext
      cases same
      exact Option.bind_eq_some_iff.mpr ⟨index, isIndex,
        Option.bind_eq_some_iff.mpr ⟨value, isSet, rfl⟩⟩
  | _ =>
      cases isNext

theorem jsonNavigate_empty (rest : List String) (current : Json) :
    jsonNavigate ("" :: rest) current = jsonNavigate rest current := by
  cases current <;> exact if_pos rfl

theorem jsonNavigateMut_empty (rest : List String) (current : Json) :
    jsonNavigateMut ("" :: rest) current = jsonNavigateMut rest current := by
  cases current <;> exact if_pos rfl

theorem changeAt_empty (rest : List String) (current : Json) :
    changeAt change missing ("" :: rest) current =
      changeAt change missing rest current := by
  cases current <;> exact if_pos rfl

theorem jsonNavigate_cons
    (nonempty : segment ≠ "")
    (rest : List String)
    (current : Json) :
    jsonNavigate (segment :: rest) current =
      (next? segment current).bind fun next =>
        (jsonNavigate rest next.2).map (NodeRef.under next.1) := by
  cases current with
  | object fields =>
      rw [jsonNavigate, if_neg nonempty, next?]
      cases field? segment fields with
      | none =>
          rfl
      | some child =>
          change (jsonNavigate rest child).bind _ =
            (jsonNavigate rest child).map _
          cases jsonNavigate rest child <;> rfl
  | array items =>
      rw [jsonNavigate, if_neg nonempty, next?]
      cases parseIndex? segment with
      | none =>
          rfl
      | some index =>
          change items[index]?.bind _ = (items[index]?.bind _).bind _
          cases items[index]? with
          | none =>
              rfl
          | some child =>
              change (jsonNavigate rest child).bind _ =
                (jsonNavigate rest child).map _
              cases jsonNavigate rest child <;> rfl
  | _ =>
      exact if_neg nonempty

theorem jsonNavigateMut_cons
    (nonempty : segment ≠ "")
    (rest : List String)
    (current : Json) :
    jsonNavigateMut (segment :: rest) current =
      (next? segment current).bind fun next =>
        (jsonNavigateMut rest next.2).map
          (NodeMut.under current next.1) := by
  cases current with
  | object fields =>
      rw [jsonNavigateMut, if_neg nonempty, next?]
      cases field? segment fields with
      | none =>
          rfl
      | some child =>
          change (jsonNavigateMut rest child).bind _ =
            (jsonNavigateMut rest child).map _
          cases jsonNavigateMut rest child <;> rfl
  | array items =>
      rw [jsonNavigateMut, if_neg nonempty, next?]
      cases parseIndex? segment with
      | none =>
          rfl
      | some index =>
          change items[index]?.bind _ = (items[index]?.bind _).bind _
          cases items[index]? with
          | none =>
              rfl
          | some child =>
              change (jsonNavigateMut rest child).bind _ =
                (jsonNavigateMut rest child).map _
              cases jsonNavigateMut rest child <;> rfl
  | _ =>
      exact if_neg nonempty

/-- A change below a child changes that child. -/
theorem changeAt_cons
    (nonempty : segment ≠ "")
    (isNext : next? segment current = some (step, child)) :
    changeAt change missing (segment :: rest) current =
      (changeAt change missing rest child).map fun changed =>
        setChild step changed current := by
  cases current with
  | object fields =>
      obtain ⟨found, isField, same⟩ := Option.map_eq_some_iff.mp isNext
      cases same
      rw [changeAt, if_neg nonempty]
      simp only [isField]
      rfl
  | array items =>
      obtain ⟨index, isIndex, isNext⟩ := Option.bind_eq_some_iff.mp isNext
      obtain ⟨found, isItem, same⟩ := Option.bind_eq_some_iff.mp isNext
      cases same
      rw [changeAt, if_neg nonempty]
      simp only [isIndex, isItem]
      rfl
  | _ =>
      cases isNext

/-- Without a child nothing is changed. -/
theorem changeAt_cons_none
    (nonempty : segment ≠ "")
    (isNone : next? segment current = none) :
    changeAt change missing (segment :: rest) current = .error missing := by
  cases current with
  | object fields =>
      rw [next?, Option.map_eq_none_iff] at isNone
      rw [changeAt, if_neg nonempty]
      simp only [isNone]
      rfl
  | array items =>
      rw [changeAt, if_neg nonempty]
      cases isIndex : parseIndex? segment with
      | none =>
          rfl
      | some index =>
          have noItem : items[index]? = none := by
            rw [next?, isIndex] at isNone
            change items[index]?.bind _ = none at isNone
            rw [Option.bind_eq_none_iff] at isNone
            refine Option.eq_none_iff_forall_ne_some.mpr fun found isItem => ?_
            exact Option.some_ne_none _ (isNone found isItem)
          simp only [noItem]
          rfl
  | _ =>
      exact if_neg nonempty

/-! ### Whole walks -/

/-- One segment of a walk that arrives. -/
theorem exists_of_jsonNavigate_cons
    (nonempty : segment ≠ "")
    (arrives : jsonNavigate (segment :: rest) current = some node) :
    ∃ step child later,
      next? segment current = some (step, child) ∧
        jsonNavigate rest child = some later ∧
        node = later.under step := by
  rw [jsonNavigate_cons nonempty] at arrives
  obtain ⟨⟨step, child⟩, isNext, arrives⟩ :=
    Option.bind_eq_some_iff.mp arrives
  obtain ⟨later, isLater, rfl⟩ := Option.map_eq_some_iff.mp arrives
  exact ⟨step, child, later, isNext, isLater, rfl⟩

/-- A walk that arrives tells the node at its place. -/
theorem valueAt_of_jsonNavigate
    (arrives : jsonNavigate segments root = some node) :
    valueAt node.place root = some node.value := by
  induction segments generalizing root node with
  | nil =>
      cases arrives
      rfl
  | cons segment rest inductionHypothesis =>
      by_cases isEmpty : segment = ""
      · rw [isEmpty, jsonNavigate_empty] at arrives
        exact inductionHypothesis arrives
      · obtain ⟨step, child, later, isNext, isLater, rfl⟩ :=
          exists_of_jsonNavigate_cons isEmpty arrives
        exact (valueAt_cons (child?_of_next? isNext)).trans
          (inductionHypothesis isLater)

/-- The same walk arrives at what has been put at its place. -/
theorem jsonNavigate_replaceAt
    (arrives : jsonNavigate segments root = some node)
    (value : Json) :
    jsonNavigate segments (replaceAt node.place value root) =
      some ⟨node.place, value⟩ := by
  induction segments generalizing root node with
  | nil =>
      cases arrives
      rfl
  | cons segment rest inductionHypothesis =>
      by_cases isEmpty : segment = ""
      · rw [isEmpty, jsonNavigate_empty] at arrives ⊢
        exact inductionHypothesis arrives
      · obtain ⟨step, child, later, isNext, isLater, rfl⟩ :=
          exists_of_jsonNavigate_cons isEmpty arrives
        rw [NodeRef.under, replaceAt_cons (child?_of_next? isNext),
          jsonNavigate_cons isEmpty, next?_setChild isNext,
          Option.bind_some, inductionHypothesis isLater]
        rfl

/-- A walk over two lists of segments. -/
theorem jsonNavigate_append
    (first second : List String)
    (root : Json) :
    jsonNavigate (first ++ second) root =
      (jsonNavigate first root).bind fun node =>
        (jsonNavigate second node.value).map fun inner =>
          ⟨node.place ++ inner.place, inner.value⟩ := by
  induction first generalizing root with
  | nil =>
      rw [List.nil_append, jsonNavigate, Option.bind_some]
      exact Option.map_id'.symm
  | cons segment rest inductionHypothesis =>
      by_cases isEmpty : segment = ""
      · rw [isEmpty, List.cons_append, jsonNavigate_empty, jsonNavigate_empty]
        exact inductionHypothesis root
      · rw [List.cons_append, jsonNavigate_cons isEmpty,
          jsonNavigate_cons isEmpty, Option.bind_assoc]
        congr 1
        funext next
        rw [inductionHypothesis next.2, Option.map_bind, Option.bind_map]
        congr 1
        funext node
        rw [Function.comp_apply, Option.map_map]
        rfl

/-- The mutable reference that a shared one is in a tree. -/
def NodeRef.mutable (root : Json) (node : NodeRef) : NodeMut where
  toNodeRef := node
  put := fun value => replaceAt node.place value root

/-- A mutable reference in a child is one in the node. -/
theorem NodeRef.mutable_under
    (isChild : child? step current = some child)
    (node : NodeRef) :
    (node.mutable child).under current step =
      (node.under step).mutable current := by
  rw [NodeRef.mutable, NodeRef.mutable, NodeMut.under]
  congr 1
  funext value
  exact (replaceAt_cons isChild value).symm

/-- Both walkers go the same way, by induction on the segments. -/
theorem jsonNavigateMut_eq (segments : List String) (root : Json) :
    jsonNavigateMut segments root =
      (jsonNavigate segments root).map (NodeRef.mutable root) := by
  induction segments generalizing root with
  | nil =>
      rfl
  | cons segment rest inductionHypothesis =>
      by_cases isEmpty : segment = ""
      · rw [isEmpty, jsonNavigateMut_empty, jsonNavigate_empty]
        exact inductionHypothesis root
      · rw [jsonNavigateMut_cons isEmpty, jsonNavigate_cons isEmpty]
        cases isNext : next? segment root with
        | none =>
            rfl
        | some next =>
            rw [Option.bind_some, Option.bind_some,
              inductionHypothesis next.2, Option.map_map, Option.map_map]
            congr 1
            funext node
            exact node.mutable_under (child?_of_next? isNext)

/-! ### Changes at the end of a walk -/

/-- What a change makes of the tree through a reference, if there is one. -/
def storeAt
    (change : Json → Except String Json)
    (missing : TreeError) :
    Option NodeMut → Except TreeError Json
  | some target =>
      ((change target.value).mapError fun text => ⟨400, text⟩).map target.put
  | none =>
      .error missing

/-- A change of a child goes on to its parent. -/
theorem storeAt_under
    (found : Option NodeMut)
    (parent : Json)
    (step : Step) :
    storeAt change missing (found.map (NodeMut.under parent step)) =
      (storeAt change missing found).map fun changed =>
        setChild step changed parent := by
  cases found with
  | none =>
      rfl
  | some target =>
      rw [Option.map_some, storeAt, storeAt]
      change ((change target.value).mapError _).map _ = _
      cases change target.value <;> rfl

/-- `config_tree_mutate` changes the value behind the reference. -/
theorem changeAt_eq_storeAt (segments : List String) (root : Json) :
    changeAt change missing segments root =
      storeAt change missing (jsonNavigateMut segments root) := by
  induction segments generalizing root with
  | nil =>
      rw [changeAt, jsonNavigateMut, storeAt]
      cases change root <;> rfl
  | cons segment rest inductionHypothesis =>
      by_cases isEmpty : segment = ""
      · rw [isEmpty, changeAt_empty, jsonNavigateMut_empty]
        exact inductionHypothesis root
      · rw [jsonNavigateMut_cons isEmpty]
        cases isNext : next? segment root with
        | none =>
            exact changeAt_cons_none isEmpty isNext
        | some next =>
            rw [changeAt_cons isEmpty isNext, Option.bind_some,
              inductionHypothesis next.2, storeAt_under]

/-- A change that succeeds replaces the node where the walk arrives. -/
theorem changeAt_eq_ok_iff {after : Json} :
    changeAt change missing segments root = .ok after ↔
      ∃ node value,
        jsonNavigate segments root = some node ∧
          change node.value = .ok value ∧
          after = replaceAt node.place value root := by
  rw [changeAt_eq_storeAt, jsonNavigateMut_eq]
  constructor
  · intro isOk
    cases isNode : jsonNavigate segments root with
    | none =>
        rw [isNode] at isOk
        cases isOk
    | some node =>
        rw [isNode, Option.map_some, storeAt] at isOk
        cases isValue : change node.value with
        | error text =>
            change ((change node.value).mapError _).map _ = _ at isOk
            rw [isValue] at isOk
            cases isOk
        | ok value =>
            change ((change node.value).mapError _).map _ = _ at isOk
            rw [isValue] at isOk
            exact ⟨node, value, rfl, isValue, (Except.ok.inj isOk).symm⟩
  · rintro ⟨node, value, isNode, isValue, rfl⟩
    rw [isNode, Option.map_some, storeAt]
    change ((change node.value).mapError _).map _ = _
    rw [isValue]
    rfl

end Walkers

/-! ## The requests -/

/-- What `config_tree_mutate` makes of the tree of a configuration. -/
def Request.edit (request : Request) (root : Json) : Except TreeError Json :=
  changeAt request.change
    ⟨404, "配置路径不存在: /" ++ "/".intercalate request.segments⟩
    request.segments root

theorem configTreeMutate_eq
    {Config : Type}
    (serde : Serde Config)
    (request : Request)
    (config : Config) :
    configTreeMutate serde request config = (do
      let root ←
        (serde.toValue config).mapError fun text =>
          ⟨500, "序列化失败: " ++ text⟩
      let changed ← request.edit root
      (serde.fromValue changed).mapError fun text =>
        ⟨400, "变更后配置无效（未生效）: " ++ text⟩) :=
  rfl

section Requests

variable
  {parent segments : List String}
  {last : String}
  {value target changed root after : Json}

/-- A new item is removed from its position again. -/
theorem eraseIdx_take_append
    {items : List Json}
    {index : Nat}
    (within : index ≤ items.length) :
    (items.take index ++ value :: items.drop index).eraseIdx index =
      items := by
  have isLength : (items.take index).length = index := by
    rw [List.length_take, Nat.min_eq_left within]
  rw [List.eraseIdx_append_of_length_le (Nat.le_of_eq isLength), isLength,
    Nat.sub_self, List.eraseIdx_cons_zero, List.take_append_drop]

/-- A `PUT` adds a field to an object or an item to an array. -/
theorem put_cases
    (isPut : (Request.put parent last value).change target = .ok changed) :
    (∃ fields,
      target = .object fields ∧ field? last fields = none ∧
        changed = .object (fields ++ [(last, value)])) ∨
    ∃ items index,
      target = .array items ∧ parseIndex? last = some index ∧
        index ≤ items.length ∧
        changed = .array (items.take index ++ value :: items.drop index) := by
  cases target with
  | object fields =>
      rw [Request.change] at isPut
      split at isPut
      case h_1 =>
        cases isPut
      case h_2 isNone =>
        cases isPut
        rw [setField_of_none isNone]
        exact .inl ⟨fields, rfl, isNone, rfl⟩
  | array items =>
      rw [Request.change] at isPut
      split at isPut
      case h_1 index isIndex =>
        split at isPut
        case isTrue =>
          cases isPut
        case isFalse isWithin =>
          cases isPut
          exact .inr
            ⟨items, index, rfl, isIndex, Nat.not_lt.mp isWithin, rfl⟩
      case h_2 =>
        cases isPut
  | _ =>
      cases isPut

/-- A `DELETE` removes a field of an object or an item of an array. -/
theorem delete_cases
    (isDelete : (Request.delete parent last).change target = .ok changed) :
    (∃ fields,
      target = .object fields ∧ changed = .object (removeField last fields)) ∨
    ∃ items index,
      target = .array items ∧ changed = .array (items.eraseIdx index) := by
  cases target with
  | object fields =>
      rw [Request.change] at isDelete
      split at isDelete
      case h_1 =>
        cases isDelete
        exact .inl ⟨fields, rfl, rfl⟩
      case h_2 =>
        cases isDelete
  | array items =>
      rw [Request.change] at isDelete
      split at isDelete
      case h_1 index _ =>
        split at isDelete
        case isTrue =>
          cases isDelete
          exact .inr ⟨items, index, rfl, rfl⟩
        case isFalse =>
          cases isDelete
      case h_2 =>
        cases isDelete
  | _ =>
      cases isDelete

/-- What is put into a node is found under its segment. -/
theorem next?_of_put
    (isPut : (Request.put parent last value).change target = .ok changed) :
    ∃ step, next? last changed = some (step, value) := by
  rcases put_cases isPut with
    ⟨fields, rfl, isNone, rfl⟩ | ⟨items, index, rfl, isIndex, within, rfl⟩
  · rw [next?, field?_append_of_none isNone]
    exact ⟨_, rfl⟩
  · have isItem :
        (items.take index ++ value :: items.drop index)[index]? =
          some value := by
      rw [List.getElem?_append_right (List.length_take_le _ _),
        List.length_take, Nat.min_eq_left within, Nat.sub_self]
      rfl
    exact ⟨.index index,
      Option.bind_eq_some_iff.mpr ⟨index, isIndex,
        Option.bind_eq_some_iff.mpr ⟨value, isItem, rfl⟩⟩⟩

/-- What is put into a node is deleted from it again. -/
theorem delete_of_put
    (isPut : (Request.put parent last value).change target = .ok changed) :
    (Request.delete parent last).change changed = .ok target := by
  rcases put_cases isPut with
    ⟨fields, rfl, isNone, rfl⟩ | ⟨items, index, rfl, isIndex, within, rfl⟩
  · rw [Request.change, field?_append_of_none isNone]
    simp only [removeField_append_of_none isNone]
    rfl
  · have isShorter :
        index < (items.take index ++ value :: items.drop index).length := by
      rw [List.length_append, List.length_cons, List.length_take,
        Nat.min_eq_left within]
      omega
    rw [Request.change, isIndex]
    simp only [if_pos isShorter, eraseIdx_take_append within]
    rfl

/-! ## What is wanted -/

/-- Nothing but what is at a place or below it has changed. -/
structure KeepsRest (place : Place) (root after : Json) : Prop where
  labels :
    ∀ other, ¬place <+: other → labelAt other after = labelAt other root
  nodes :
    ∀ other,
      ¬place <+: other →
      ¬other <+: place →
      valueAt other after = valueAt other root

theorem keepsRest_replaceAt
    {place : Place}
    {node : Json}
    (isNode : valueAt place root = some node)
    (value : Json) :
    KeepsRest place root (replaceAt place value root) where
  labels _ notBelow := labelAt_replaceAt isNode notBelow value
  nodes _ notBelow notAbove :=
    valueAt_replaceAt_of_apart isNode notBelow notAbove value

/-- A `PUT` can be read and undone, and changes nothing above its parent. -/
structure PutLaws
    (parent : List String)
    (last : String)
    (value root after : Json) :
    Prop where
  found :
    (jsonNavigate (parent ++ [last]) after).map (·.value) = some value
  restored : (Request.delete parent last).edit after = .ok root
  rest :
    ∃ node,
      jsonNavigate parent root = some node ∧ KeepsRest node.place root after

/-- A `PATCH` can be read, and changes nothing but its target. -/
structure PatchLaws
    (segments : List String)
    (value root after : Json) :
    Prop where
  found : (jsonNavigate segments after).map (·.value) = some value
  rest :
    ∃ node,
      jsonNavigate segments root = some node ∧ KeepsRest node.place root after

/-- The laws of a `PUT`, from those of the walk and of the parent. -/
theorem putLaws_of_edit
    (distinct : root.Distinct)
    (nonempty : last ≠ "")
    (isEdit : (Request.put parent last value).edit root = .ok after) :
    PutLaws parent last value root after := by
  obtain ⟨node, changed, arrives, isPut, rfl⟩ :=
    changeAt_eq_ok_iff.mp isEdit
  have isNode := valueAt_of_jsonNavigate arrives
  have arrivesAfter :
      jsonNavigate parent (replaceAt node.place changed root) =
        some ⟨node.place, changed⟩ :=
    jsonNavigate_replaceAt arrives changed
  constructor
  case found =>
    obtain ⟨step, isNext⟩ := next?_of_put isPut
    rw [jsonNavigate_append, arrivesAfter, Option.bind_some,
      jsonNavigate_cons nonempty, isNext]
    rfl
  case restored =>
    refine changeAt_eq_ok_iff.mpr
      ⟨_, node.value, arrivesAfter, delete_of_put isPut, ?_⟩
    rw [replaceAt_replaceAt isNode, replaceAt_self distinct isNode]
  case rest =>
    exact ⟨node, arrives, keepsRest_replaceAt isNode changed⟩

/-- What a `PATCH` stores is its value. -/
theorem eq_of_patch
    (isPatch : (Request.patch segments value).change target = .ok changed) :
    changed = value := by
  cases target with
  | null =>
      cases isPatch
  | _ =>
      exact (Except.ok.inj isPatch).symm

theorem patchLaws_of_edit
    (isEdit : (Request.patch segments value).edit root = .ok after) :
    PatchLaws segments value root after := by
  obtain ⟨node, changed, arrives, isPatch, rfl⟩ :=
    changeAt_eq_ok_iff.mp isEdit
  obtain rfl := eq_of_patch isPatch
  have isNode := valueAt_of_jsonNavigate arrives
  have arrivesAfter :
      jsonNavigate segments (replaceAt node.place changed root) =
        some ⟨node.place, changed⟩ :=
    jsonNavigate_replaceAt arrives changed
  constructor
  case found =>
    rw [arrivesAfter]
    rfl
  case rest =>
    exact ⟨node, arrives, keepsRest_replaceAt isNode changed⟩

end Requests

/-! ## Edits of well-formed trees -/

/-- The value in the body of a request. -/
def Request.body? : Request → Option Json
  | .post _ value | .put _ _ value | .patch _ value =>
      some value
  | .delete _ _ =>
      none

section Runs

variable
  {parent segments : List String}
  {last : String}
  {value target changed root after : Json}

/-- Adding the fields of one object to another. -/
theorem distinct_mergeFields
    {added fields : List (String × Json)}
    (each : ∀ entry ∈ added, entry.2.Distinct)
    (distinct : (Json.object fields).Distinct) :
    (Json.object
      (added.foldl (fun fields entry => setField entry.1 entry.2 fields)
        fields)).Distinct := by
  induction added generalizing fields with
  | nil =>
      exact distinct
  | cons entry rest inductionHypothesis =>
      rw [List.forall_mem_cons] at each
      exact inductionHypothesis each.2 (distinct.setField each.1 entry.1)

theorem distinct_post
    (distinct : target.Distinct)
    (isDistinct : value.Distinct)
    (isPost : (Request.post segments value).change target = .ok changed) :
    changed.Distinct := by
  cases target with
  | array items =>
      cases isPost
      obtain _ | _ | _ | _ | each := distinct
      refine .array fun item member => ?_
      rcases List.mem_append.mp member with isOld | isNew
      · exact each item isOld
      · rw [List.mem_singleton.mp isNew]
        exact isDistinct
  | object fields =>
      cases value with
      | object added =>
          cases isPost
          obtain _ | _ | _ | _ | _ | ⟨_, each⟩ := isDistinct
          exact distinct_mergeFields each distinct
      | _ =>
          cases isPost
          exact isDistinct
  | _ =>
      cases isPost
      exact isDistinct

theorem distinct_put
    (distinct : target.Distinct)
    (isDistinct : value.Distinct)
    (isPut : (Request.put parent last value).change target = .ok changed) :
    changed.Distinct := by
  rcases put_cases isPut with
    ⟨fields, rfl, isNone, rfl⟩ | ⟨items, index, rfl, _, _, rfl⟩
  · rw [← setField_of_none isNone]
    exact distinct.setField isDistinct last
  · obtain _ | _ | _ | _ | each := distinct
    refine .array fun item member => ?_
    rcases List.mem_append.mp member with isBefore | isLater
    · exact each item (List.mem_of_mem_take isBefore)
    · rcases List.mem_cons.mp isLater with rfl | isBehind
      · exact isDistinct
      · exact each item (List.mem_of_mem_drop isBehind)

theorem distinct_delete
    (distinct : target.Distinct)
    (isDelete : (Request.delete parent last).change target = .ok changed) :
    changed.Distinct := by
  rcases delete_cases isDelete with
    ⟨fields, rfl, rfl⟩ | ⟨items, index, rfl, rfl⟩
  · exact distinct.removeField last
  · obtain _ | _ | _ | _ | each := distinct
    exact .array fun item member => each item (List.mem_of_mem_eraseIdx member)

/-- Every edit keeps a tree well-formed, if the body of the request is. -/
theorem distinct_edit
    {request : Request}
    (distinct : root.Distinct)
    (body : ∀ value, request.body? = some value → value.Distinct)
    (isEdit : request.edit root = .ok after) :
    after.Distinct := by
  obtain ⟨node, changed, arrives, isChange, rfl⟩ :=
    changeAt_eq_ok_iff.mp isEdit
  have nodeDistinct := distinct.of_valueAt (valueAt_of_jsonNavigate arrives)
  refine distinct.replaceAt ?_ node.place
  cases request with
  | post segments value =>
      exact distinct_post nodeDistinct (body value rfl) isChange
  | put parent last value =>
      exact distinct_put nodeDistinct (body value rfl) isChange
  | patch segments value =>
      rw [eq_of_patch isChange]
      exact body value rfl
  | delete parent last =>
      exact distinct_delete nodeDistinct isChange

end Runs

/-- A `serde_json::Value`, whose objects have distinct names. -/
structure Tree where
  json : Json
  distinct : json.Distinct

/-- The laws of the edits and of the two walkers. -/
theorem edits_lawful (tree : Tree) (value : Json) :
    (∀ parent last after,
      (∀ segment ∈ parent ++ [last], segment ≠ "") →
      (Request.put parent last value).edit tree.json = .ok after →
      PutLaws parent last value tree.json after) ∧
    (∀ segments after,
      (Request.patch segments value).edit tree.json = .ok after →
      PatchLaws segments value tree.json after) ∧
    ∀ segments,
      (jsonNavigateMut segments tree.json).map NodeMut.toNodeRef =
        jsonNavigate segments tree.json := by
  refine ⟨?_, ?_, ?_⟩
  · intro parent last after nonempty isEdit
    have isLast : last ≠ "" :=
      nonempty last (List.mem_append_right _ (List.mem_singleton_self last))
    exact putLaws_of_edit tree.distinct isLast isEdit
  · intro segments after isEdit
    exact patchLaws_of_edit isEdit
  · intro segments
    rw [jsonNavigateMut_eq, Option.map_map]
    exact Option.map_id'

/-- A site with one location. -/
def siteTree : Tree where
  json :=
    .object [("name", .string "a"), ("locations", .array [.string "/"])]
  distinct := by
    refine .object (by decide) ?_
    rw [List.forall_mem_cons, List.forall_mem_singleton]
    refine ⟨.string _, .array ?_⟩
    rw [List.forall_mem_singleton]
    exact .string _

/-- A location before the first one, and another name. -/
theorem edits_lawful_site :
    PutLaws ["locations"] "0" (.string "b") siteTree.json
        (.object
          [("name", .string "a"),
            ("locations", .array [.string "b", .string "/"])]) ∧
      PatchLaws ["name"] (.string "b") siteTree.json
        (.object
          [("name", .string "b"), ("locations", .array [.string "/"])]) :=
  have laws := edits_lawful siteTree (.string "b")
  ⟨laws.1 ["locations"] "0" _ (by decide) rfl, laws.2.1 ["name"] _ rfl⟩

end Sweety.ConfigTree
