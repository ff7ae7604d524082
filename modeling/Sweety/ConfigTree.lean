import Sweety.HttpText

namespace Sweety.ConfigTree

open HttpText

/-!
# Updates of the configuration tree

Model of the `/config/[path]` endpoint in `admin_api/handlers/config.rs`.  An
update writes the live configuration as a JSON tree, changes the tree at a path
and reads a configuration back.  How a configuration is written and read is up
to `serde`, so both directions are parameters.
-/

/-- `serde_json::Value`; a number is kept as its text. -/
inductive Json where
  | null
  | bool (value : Bool)
  | number (text : String)
  | string (text : String)
  | array (items : List Json)
  | object (fields : List (String × Json))

namespace Json

/-- The value of a field. -/
def field? (name : String) (fields : List (String × Json)) :
    Option Json :=
  (fields.find? fun entry => entry.1 == name).map Prod.snd

/-- `Map::insert`. -/
def setField
    (name : String)
    (value : Json)
    (fields : List (String × Json)) :
    List (String × Json) :=
  match field? name fields with
  | some _ =>
      fields.map fun entry =>
        if entry.1 = name then (name, value) else entry
  | none =>
      fields ++ [(name, value)]

/-- `Map::remove`. -/
def removeField (name : String) (fields : List (String × Json)) :
    List (String × Json) :=
  fields.filter fun entry => entry.1 != name

end Json

/-- `str::parse::<usize>` of a path segment. -/
def parseIndex? (segment : String) : Option Nat :=
  parseUsize? segment.toList

/-- An answer of the endpoint that leaves the configuration as it is. -/
structure TreeError where
  status : Nat
  text : String
  deriving Repr, DecidableEq

/-- `json_navigate_mut` followed by a change of the value it arrives at. -/
def changeAt
    (change : Json → Except String Json)
    (missing : TreeError) :
    List String → Json → Except TreeError Json
  | [], target =>
      (change target).mapError fun text => ⟨400, text⟩
  | segment :: rest, target =>
      if segment = "" then
        changeAt change missing rest target
      else
        match target with
        | .object fields =>
            match Json.field? segment fields with
            | some child => do
                let changed ← changeAt change missing rest child
                return .object (Json.setField segment changed fields)
            | none =>
                throw missing
        | .array items =>
            match parseIndex? segment with
            | some index =>
                match items[index]? with
                | some child => do
                    let changed ← changeAt change missing rest child
                    return .array (items.set index changed)
                | none =>
                    throw missing
            | none =>
                throw missing
        | _ =>
            throw missing

/-! ## The requests -/

/-- A request that changes the tree; `last` is the last segment of its path. -/
inductive Request where
  | post (segments : List String) (value : Json)
  | put (parent : List String) (last : String) (value : Json)
  | patch (segments : List String) (value : Json)
  | delete (parent : List String) (last : String)

namespace Request

/-- The path that `config_tree_mutate` is called with. -/
def segments : Request → List String
  | .post segments _ =>
      segments
  | .put parent _ _ =>
      parent
  | .patch segments _ =>
      segments
  | .delete parent _ =>
      parent

/-- The change that a request makes to the value at its path. -/
def change : Request → Json → Except String Json
  | .post _ value, .array items =>
      return .array (items ++ [value])
  | .post _ (.object added), .object fields =>
      return .object
        (added.foldl
          (fun fields entry => Json.setField entry.1 entry.2 fields)
          fields)
  | .post _ value, _ =>
      return value
  | .put _ last value, .array items =>
      match parseIndex? last with
      | some index =>
          if items.length < index then
            throw "索引越界"
          else
            return .array (items.take index ++ value :: items.drop index)
      | none =>
          throw "数组索引无效"
  | .put _ last value, .object fields =>
      match Json.field? last fields with
      | some _ =>
          throw "键已存在，PUT 为严格创建模式"
      | none =>
          return .object (Json.setField last value fields)
  | .put _ _ _, _ =>
      throw "父节点非对象/数组"
  | .patch _ _, .null =>
      throw "路径不存在，PATCH 仅能替换已有值"
  | .patch _ value, _ =>
      return value
  | .delete _ last, .object fields =>
      match Json.field? last fields with
      | some _ =>
          return .object (Json.removeField last fields)
      | none =>
          throw "键不存在"
  | .delete _ last, .array items =>
      match parseIndex? last with
      | some index =>
          if index < items.length then
            return .array (items.eraseIdx index)
          else
            throw "索引越界"
      | none =>
          throw "数组索引无效"
  | .delete _ _, _ =>
      throw "父节点非对象/数组"

end Request

/-- Writing a configuration as a tree, and reading one. -/
structure Serde (Config : Type) where
  toValue : Config → Except String Json
  fromValue : Json → Except String Config

/-- `config_tree_mutate`, up to the configuration that it applies. -/
def configTreeMutate
    {Config : Type}
    (serde : Serde Config)
    (request : Request)
    (config : Config) :
    Except TreeError Config := do
  let root ←
    (serde.toValue config).mapError fun text =>
      ⟨500, "序列化失败: " ++ text⟩
  let changed ←
    changeAt request.change
      ⟨404, "配置路径不存在: /" ++ "/".intercalate request.segments⟩
      request.segments root
  (serde.fromValue changed).mapError fun text =>
    ⟨400, "变更后配置无效（未生效）: " ++ text⟩

end Sweety.ConfigTree
