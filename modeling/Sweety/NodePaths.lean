import Sweety.AdminDisable
import Sweety.BackendHeaders
import Sweety.FirstOccurrence
import Sweety.PercentText
import Sweety.UpstreamViews

namespace Sweety.NodePaths

open BackendHeaders FirstOccurrence HttpText PercentText UpstreamViews

/-!
# Paths that name an upstream node

Model of `route_upstream_node_action` in `admin_api/handlers/upstreams.rs`: how
it takes a pool and a node from the path of a request, and what it does to the
node.  The pools are those of all sites, in the order in which the sites are
gone through; a site has at most one pool of a name.
-/

/-! ## The endpoint -/

/-- `split_once` at a text. -/
def splitOnceAt? (pattern text : List Char) :
    Option (List Char × List Char) :=
  (position? pattern text).map fun index =>
    (text.take index, text.drop (index + pattern.length))

/-- What the path says. -/
structure NodePath where
  name : List Char
  addr : List Char
  action : List Char
  deriving Repr, DecidableEq

def nodePath? (path : List Char) : Option NodePath := do
  let rest ← path.dropPrefix? "/api/upstreams/".toList
  let (name, rest) ← splitOnceAt? "/nodes/".toList rest
  let (addrEncoded, action) ← rsplitOnce? '/' rest
  return { name := name, addr := urldecode addrEncoded, action := action }

/-- The first pool of the name. -/
def findPool? (name : List Char) (entries : List Entry) : Option Nat :=
  entries.findIdx? fun entry => entry.name == String.ofList name

/-- The first node of that pool with the address. -/
def findNode? (parts : NodePath) (entries : List Entry) :
    Option (Nat × Nat) := do
  let place ← findPool? parts.name entries
  let entry ← entries[place]?
  let node ← AdminDisable.find? entry.pool (String.ofList parts.addr)
  return (place, node)

/-- A request, with the weight in its body if that is JSON. -/
structure Request where
  method : String
  path : List Char
  body : Except String (Option Nat)

/-- The JSON of `ok_json` or `err_json`. -/
structure Answer where
  status : Nat
  success : Bool
  text : String
  deriving Repr, DecidableEq

/-- What the endpoint does to the node, if the action has this method. -/
def change? (request : Request) (addr : String) (action : List Char) :
    Option (Except Answer ((NodeState → NodeState) × String)) :=
  if action = "enable".toList ∧ request.method = "POST" then
    some (.ok (NodeState.markHealthy, "节点 " ++ addr ++ " 已启用"))
  else if action = "disable".toList ∧ request.method = "POST" then
    some (.ok (NodeState.markUnhealthy, "节点 " ++ addr ++ " 已禁用"))
  else if action = "weight".toList ∧ request.method = "PUT" then
    match request.body with
    | .ok (some weight) =>
        some (.ok (fun node => { node with weight := weight % 2 ^ 32 },
          "节点 " ++ addr ++ " 权重已更新为 " ++ toString weight))
    | .ok none =>
        some (.error ⟨400, false, "缺少 weight 字段"⟩)
    | .error text =>
        some (.error ⟨400, false, "JSON 解析失败: " ++ text⟩)
  else
    none

/-- A change of one node of one pool. -/
def modifyAt
    (place node : Nat)
    (change : NodeState → NodeState)
    (entries : List Entry) :
    List Entry :=
  entries.modify place fun entry =>
    { entry with pool := entry.pool.modifyNode node change }

/-- What is answered, and the pools after it. -/
def answerNode
    (request : Request)
    (parts : NodePath)
    (entries : List Entry) :
    Answer × List Entry :=
  let name := String.ofList parts.name
  let addr := String.ofList parts.addr
  match findPool? parts.name entries with
  | none =>
      (⟨404, false, "上游组 '" ++ name ++ "' 不存在"⟩, entries)
  | some _ =>
      let missing : Answer :=
        ⟨404, false, "节点 '" ++ addr ++ "' 在上游组 '" ++ name ++ "' 中不存在"⟩
      match findNode? parts entries with
      | none =>
          (missing, entries)
      | some (place, node) =>
          match change? request addr parts.action with
          | some (.ok (change, text)) =>
              (⟨200, true, text⟩, modifyAt place node change entries)
          | some (.error answer) =>
              (answer, entries)
          | none =>
              (missing, entries)

/-- `route_upstream_node_action`. -/
def routeUpstreamNodeAction (request : Request) (entries : List Entry) :
    Option (Answer × List Entry) :=
  (nodePath? request.path).map fun parts => answerNode request parts entries

/-! ## Requests about a node -/

inductive Action where
  | enable
  | disable
  | weight
  deriving Repr, DecidableEq

/-- The last part of the path. -/
def Action.text : Action → List Char
  | .enable =>
      "enable".toList
  | .disable =>
      "disable".toList
  | .weight =>
      "weight".toList

theorem Action.slash_not_mem (action : Action) : '/' ∉ action.text := by
  cases action <;> decide

/-- The path for a node, with its address in some encoding. -/
def pathOf (name addrEncoded : List Char) (action : Action) : List Char :=
  "/api/upstreams/".toList ++
    (name ++ ("/nodes/".toList ++ (addrEncoded ++ '/' :: action.text)))

/-- The endpoint acts on the node at a place. -/
def Reaches
    (entries : List Entry)
    (path : List Char)
    (action : Action)
    (place node : Nat) :
    Prop :=
  ∃ parts,
    nodePath? path = some parts ∧
      parts.action = action.text ∧
      findNode? parts entries = some (place, node)

/-- A node with its pool, among the pools of all sites. -/
structure Known
    (entries : List Entry)
    (place node : Nat)
    (entry : Entry)
    (state : NodeState) :
    Prop where
  isEntry : entries[place]? = some entry
  isNode : entry.pool.nodes[node]? = some state

/--
The address is of ASCII, the name has no other cut before its end, and no pool
of the same name or node of the same address comes first.
-/
structure Addressable
    (entries : List Entry)
    (place node : Nat)
    (entry : Entry)
    (state : NodeState) :
    Prop where
  ascii : IsAscii state.addr.asStr.toList
  cut :
    position? "/nodes/".toList (entry.name.toList ++ "/nodes/".toList) =
      some entry.name.toList.length
  firstPool : findPool? entry.name.toList entries = some place
  firstNode : AdminDisable.find? entry.pool state.addr.asStr = some node

section Reaching

variable
  {entries : List Entry}
  {place node : Nat}
  {entry : Entry}
  {state : NodeState}
  {name encoded addr : List Char}

/-- What is found first under a text has this text. -/
theorem eq_of_findIdx?
    {α : Type}
    {items : List α}
    {item : α}
    {index : Nat}
    {text : String}
    (key : α → String)
    (isFound : (items.findIdx? fun other => key other == text) = some index)
    (isItem : items[index]? = some item) :
    key item = text := by
  obtain ⟨within, hasText, _⟩ :=
    List.findIdx?_eq_some_iff_getElem.mp isFound
  rw [List.getElem?_eq_getElem within, Option.some.injEq] at isItem
  rw [isItem] at hasText
  exact beq_iff_eq.mp hasText

theorem findNode?_eq_some_iff
    (isEntry : entries[place]? = some entry)
    (parts : NodePath) :
    findNode? parts entries = some (place, node) ↔
      findPool? parts.name entries = some place ∧
        AdminDisable.find? entry.pool (String.ofList parts.addr) =
          some node := by
  rw [findNode?]
  constructor
  · intro isFound
    obtain ⟨found, isPlace, rest⟩ := Option.bind_eq_some_iff.mp isFound
    obtain ⟨other, isOther, rest⟩ := Option.bind_eq_some_iff.mp rest
    obtain ⟨index, isIndex, same⟩ := Option.bind_eq_some_iff.mp rest
    cases same
    rw [isEntry, Option.some.injEq] at isOther
    rw [isOther]
    exact ⟨isPlace, isIndex⟩
  · rintro ⟨isPlace, isNode⟩
    refine Option.bind_eq_some_iff.mpr ⟨place, isPlace, ?_⟩
    refine Option.bind_eq_some_iff.mpr ⟨entry, isEntry, ?_⟩
    exact Option.bind_eq_some_iff.mpr ⟨node, isNode, rfl⟩

/-- The pattern stands behind the name, so the cut is there or before. -/
theorem position?_nodes (name rest : List Char) :
    ∃ index ≤ name.length,
      position? "/nodes/".toList (name ++ ("/nodes/".toList ++ rest)) =
        some index :=
  exists_position?_of_standsAt
    (standsAt_iff_exists.mpr ⟨name, rest, rfl, rfl⟩)

/-- The cut does not depend on what follows. -/
theorem position?_nodes_eq_iff (name rest : List Char) :
    position? "/nodes/".toList (name ++ ("/nodes/".toList ++ rest)) =
        some name.length ↔
      position? "/nodes/".toList (name ++ "/nodes/".toList) =
        some name.length := by
  rw [← List.append_assoc]
  constructor
  · intro isPlace
    exact position?_of_append isPlace (by rw [List.length_append])
  · exact position?_append

/-- The three cuts of a path. -/
theorem nodePath?_eq_some_iff
    {path : List Char}
    {parts : NodePath} :
    nodePath? path = some parts ↔
      ∃ rest split final,
        path = "/api/upstreams/".toList ++ rest ∧
          splitOnceAt? "/nodes/".toList rest = some split ∧
          rsplitOnce? '/' split.2 = some final ∧
          parts = ⟨split.1, urldecode final.1, final.2⟩ := by
  constructor
  · intro isRead
    obtain ⟨rest, isStripped, isRead⟩ := Option.bind_eq_some_iff.mp isRead
    obtain ⟨split, isSplit, isRead⟩ := Option.bind_eq_some_iff.mp isRead
    obtain ⟨final, isFinal, isRead⟩ := Option.bind_eq_some_iff.mp isRead
    exact ⟨rest, split, final,
      dropPrefix?_eq_some_iff_append.mp isStripped, isSplit, isFinal,
      (Option.some.inj isRead).symm⟩
  · rintro ⟨rest, split, final, isPath, isSplit, isFinal, rfl⟩
    have isStripped := dropPrefix?_eq_some_iff_append.mpr isPath
    refine Option.bind_eq_some_iff.mpr ⟨rest, isStripped, ?_⟩
    refine Option.bind_eq_some_iff.mpr ⟨split, isSplit, ?_⟩
    exact Option.bind_eq_some_iff.mpr ⟨final, isFinal, rfl⟩

/-- The path of a node, if it is cut behind the name of the pool. -/
theorem nodePath?_pathOf
    (action : Action)
    (isCut :
      position? "/nodes/".toList (name ++ "/nodes/".toList) =
        some name.length) :
    nodePath? (pathOf name encoded action) =
      some ⟨name, urldecode encoded, action.text⟩ := by
  have isPlace :=
    (position?_nodes_eq_iff name (encoded ++ '/' :: action.text)).mpr isCut
  have isSplit :
      splitOnceAt? "/nodes/".toList
          (name ++ ("/nodes/".toList ++ (encoded ++ '/' :: action.text))) =
        some (name, encoded ++ '/' :: action.text) := by
    rw [splitOnceAt?, isPlace, Option.map_some, List.take_left,
      ← List.drop_drop, List.drop_left, List.drop_left]
  have isEnd :
      rsplitOnce? '/' (encoded ++ '/' :: action.text) =
        some (encoded, action.text) :=
    rsplitOnce?_eq_some_iff.mpr ⟨rfl, action.slash_not_mem⟩
  exact nodePath?_eq_some_iff.mpr ⟨_, _, _, rfl, isSplit, isEnd, rfl⟩

/-- The name that is read stands before the cut. -/
theorem name_of_nodePath?
    {action : Action}
    {parts : NodePath}
    (isRead : nodePath? (pathOf name encoded action) = some parts) :
    ∃ index ≤ name.length,
      parts.name = name.take index ∧
        position? "/nodes/".toList
            (name ++ ("/nodes/".toList ++ (encoded ++ '/' :: action.text))) =
          some index := by
  obtain ⟨rest, split, final, isPath, isSplit, _, rfl⟩ :=
    nodePath?_eq_some_iff.mp isRead
  obtain rfl := List.append_cancel_left isPath
  obtain ⟨index, within, isPlace⟩ :=
    position?_nodes name (encoded ++ '/' :: action.text)
  rw [splitOnceAt?, isPlace, Option.map_some, Option.some.injEq] at isSplit
  refine ⟨index, within, ?_, isPlace⟩
  rw [← isSplit]
  exact List.take_append_of_le_length within

/-- A path that reaches its node is cut behind the name of the pool. -/
theorem cut_of_nodePath?
    {action : Action}
    {parts : NodePath}
    (isRead : nodePath? (pathOf name encoded action) = some parts)
    (hasName : parts.name = name) :
    position? "/nodes/".toList (name ++ "/nodes/".toList) =
      some name.length := by
  obtain ⟨index, within, isTaken, isPlace⟩ := name_of_nodePath? isRead
  have isLength := congrArg List.length (isTaken.symm.trans hasName)
  rw [List.length_take, Nat.min_eq_left within] at isLength
  rw [isLength] at isPlace
  exact (position?_nodes_eq_iff name _).mp isPlace

/-- The decoded address finds the node exactly if it is the node's. -/
theorem find?_urldecode_iff
    (isNode : entry.pool.nodes[node]? = some state)
    (encodes : Encodes (encodeUtf8 state.addr.asStr.toList) encoded) :
    AdminDisable.find? entry.pool (String.ofList (urldecode encoded)) =
        some node ↔
      IsAscii state.addr.asStr.toList ∧
        AdminDisable.find? entry.pool state.addr.asStr = some node := by
  constructor
  · intro isFound
    have isAddr :=
      eq_of_findIdx? (fun state : NodeState => state.addr.asStr) isFound isNode
    rw [← isAddr] at isFound
    refine ⟨(urldecode_eq_iff encodes).mp ?_, isFound⟩
    rw [isAddr, String.toList_ofList]
  · rintro ⟨isAscii, isFound⟩
    rw [(urldecode_eq_iff encodes).mpr isAscii, String.ofList_toList]
    exact isFound

/-- The paths of a node reach it exactly if it is addressable. -/
theorem reaches_iff
    (known : Known entries place node entry state)
    (encodes : Encodes (encodeUtf8 state.addr.asStr.toList) encoded)
    (action : Action) :
    Reaches entries (pathOf entry.name.toList encoded action) action place
        node ↔
      Addressable entries place node entry state := by
  constructor
  · rintro ⟨parts, isRead, _, isFound⟩
    rw [findNode?_eq_some_iff known.isEntry] at isFound
    obtain ⟨isPool, isNode⟩ := isFound
    have isName := eq_of_findIdx? Entry.name isPool known.isEntry
    have hasName : parts.name = entry.name.toList := by
      rw [isName, String.toList_ofList]
    have isCut := cut_of_nodePath? isRead hasName
    rw [nodePath?_pathOf action isCut, Option.some.injEq] at isRead
    rw [← isRead] at isNode
    obtain ⟨isAscii, isFirst⟩ :=
      (find?_urldecode_iff known.isNode encodes).mp isNode
    exact ⟨isAscii, isCut, hasName ▸ isPool, isFirst⟩
  · intro addressable
    refine ⟨_, nodePath?_pathOf action addressable.cut, rfl, ?_⟩
    rw [findNode?_eq_some_iff known.isEntry]
    exact ⟨addressable.firstPool,
      (find?_urldecode_iff known.isNode encodes).mpr
        ⟨addressable.ascii, addressable.firstNode⟩⟩

/-- A node that is reached is changed, and no other. -/
theorem routeUpstreamNodeAction_of_reaches
    {request : Request}
    {action : Action}
    {change : NodeState → NodeState}
    {answer : String}
    (reaches : Reaches entries request.path action place node)
    (changes :
      ∀ addr,
        change? request addr action.text = some (.ok (change, answer))) :
    routeUpstreamNodeAction request entries =
      some (⟨200, true, answer⟩, modifyAt place node change entries) := by
  obtain ⟨parts, isRead, isAction, isFound⟩ := reaches
  obtain ⟨pool, isPool, _⟩ := Option.bind_eq_some_iff.mp isFound
  rw [routeUpstreamNodeAction, isRead, Option.map_some, answerNode, isPool]
  simp only [isFound, isAction, changes]

end Reaching

/--
A text is decoded to itself exactly if it is one of ASCII, and a node with this
address is reached exactly if besides that its name and its place allow it.
-/
theorem urldecode_inverts_iff
    (text encoded : List Char)
    (encodes : Encodes (encodeUtf8 text) encoded) :
    (urldecode encoded = text ↔ IsAscii text) ∧
      ∀ entries place node entry state,
        Known entries place node entry state →
        state.addr.asStr.toList = text →
        ∀ action,
          Reaches entries (pathOf entry.name.toList encoded action) action
              place node ↔
            Addressable entries place node entry state := by
  refine ⟨urldecode_eq_iff encodes, ?_⟩
  rintro entries place node entry state known rfl action
  exact reaches_iff known encodes action

/-! ## Two nodes -/

/-- A node of an address. -/
def nodeAt (address : String) : NodeState :=
  { UpstreamPool.sampleNode none with addr := .tcp address }

/-- The only pool of the only site. -/
def poolAt (address : String) : Entry where
  site := "site"
  name := "app"
  strategy := none
  pool := UpstreamPool.samplePool [nodeAt address] 0

theorem known_poolAt (address : String) :
    Known [poolAt address] 0 0 (poolAt address) (nodeAt address) where
  isEntry := rfl
  isNode := rfl

/-- A node with a port. -/
theorem urldecode_inverts_iff_port :
    (urldecode (urlEncode "10.0.0.1:80".toList) = "10.0.0.1:80".toList ↔
        IsAscii "10.0.0.1:80".toList) ∧
      (Reaches [poolAt "10.0.0.1:80"]
          (pathOf "app".toList (urlEncode "10.0.0.1:80".toList) .disable)
          .disable 0 0 ↔
        Addressable [poolAt "10.0.0.1:80"] 0 0 (poolAt "10.0.0.1:80")
          (nodeAt "10.0.0.1:80")) :=
  have both :=
    urldecode_inverts_iff "10.0.0.1:80".toList _ (encodes_urlEncode _)
  ⟨both.1, both.2 _ 0 0 _ _ (known_poolAt "10.0.0.1:80") rfl .disable⟩

/-- The two bytes of a letter become two letters, and its node is missing. -/
theorem urldecode_not_inverse :
    (¬∀ text encoded,
        Encodes (encodeUtf8 text) encoded → urldecode encoded = text) ∧
      urldecode (urlEncode "é".toList) = "Ã©".toList ∧
      ¬Reaches [poolAt "é:80"]
          (pathOf "app".toList (urlEncode "é:80".toList) .disable)
          .disable 0 0 := by
  refine ⟨?_, by decide, ?_⟩
  · intro all
    have isSame := all "é".toList _ (encodes_urlEncode _)
    exact absurd isSame (by decide)
  · intro reaches
    have addressable :=
      (reaches_iff (known_poolAt "é:80") (encodes_urlEncode _) .disable).mp
        reaches
    exact absurd (addressable.ascii 'é' (by decide)) (by decide)

end Sweety.NodePaths
