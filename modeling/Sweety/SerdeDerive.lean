import Sweety.ConfigTree

namespace Sweety.SerdeDerive

open HttpText ConfigTree

/-!
# Derived serialisers

What `serde` derives for a type is a writer into its data model and a reader of
a tree.  The data model is written as JSON by `serde_json` and as TOML by
`toml`; the two differ in what they do with an option that is `None`, and in the
keys and numbers that they can write.  A `Codec` is such a pair of a writer and
a reader; nothing asks that the reader reads what the writer writes, so that a
type whose two directions were written by hand has a codec as well.

`Reads` says that a value is read back.  For the derived codecs it comes down to
the values inside: a record is read back if and only if each of its fields is.
-/

/-! ## The data model -/

/-- The part of the data model of `serde` that a configuration uses. -/
inductive Data where
  | none
  | bool (value : Bool)
  | number (value : Nat)
  | text (value : String)
  | seq (items : List Data)
  | record (members : List (String × Data))
  /-- A map whose keys are numbers and whose values are texts. -/
  | numbered (entries : List (Nat × String))

/-- The two formats that a configuration is written in. -/
inductive Dialect where
  | json
  | toml
  deriving Repr, DecidableEq

/-- The decimal text of a number. -/
def decimal (value : Nat) : String :=
  String.ofList (Nat.toDigits 10 value)

namespace Data

/-- Whether the value is `None`. -/
def isNone : Data → Bool
  | .none =>
      true
  | _ =>
      false

mutual

/--
The tree that is written, unless the format has no way to write the value.
-/
def tree? (dialect : Dialect) : Data → Option Json
  | .none =>
      if dialect = .json then some .null else Option.none
  | .bool value =>
      some (.bool value)
  | .number value =>
      some (.number (decimal value))
  | .text value =>
      some (.string value)
  | .seq items =>
      (trees? dialect items).map .array
  | .record members =>
      (members? dialect members).map .object
  | .numbered entries =>
      if dialect = .json ∨ entries = [] then
        some (.object
          (entries.map fun entry => (decimal entry.1, .string entry.2)))
      else
        Option.none

/-- The trees of a sequence. -/
def trees? (dialect : Dialect) : List Data → Option (List Json)
  | [] =>
      some []
  | item :: rest => do
      let tree ← item.tree? dialect
      let trees ← trees? dialect rest
      return tree :: trees

/-- The members of an object; TOML leaves out a member that is `None`. -/
def members? (dialect : Dialect) :
    List (String × Data) → Option (List (String × Json))
  | [] =>
      some []
  | (name, data) :: rest =>
      if dialect = .toml ∧ data.isNone = true then
        members? dialect rest
      else do
        let tree ← data.tree? dialect
        let members ← members? dialect rest
        return (name, tree) :: members

end

mutual

/-- Every number is one of the signed 64-bit numbers, as TOML wants it. -/
def fits : Data → Bool
  | .number value =>
      decide (value < 2 ^ 63)
  | .seq items =>
      allFit items
  | .record members =>
      membersFit members
  | .none | .bool _ | .text _ | .numbered _ =>
      true

/-- Every number of a sequence. -/
def allFit : List Data → Bool
  | [] =>
      true
  | item :: rest =>
      item.fits && allFit rest

/-- Every number of a record. -/
def membersFit : List (String × Data) → Bool
  | [] =>
      true
  | (_, data) :: rest =>
      data.fits && membersFit rest

end

/-- What a member is written as; `some none` where it is left out. -/
def shown? (dialect : Dialect) (data : Data) : Option (Option Json) :=
  if dialect = .toml ∧ data.isNone = true then
    some Option.none
  else
    (data.tree? dialect).map some

end Data

/-- `toml::to_string_pretty` and `toml::from_str`, up to the tree. -/
structure Toml (Text : Type) where
  save : Data → Option Text
  parse : Text → Option Json

/--
What is documented of TOML: a value that it can represent is read back without
the members that are `None`; another one is not written.
-/
structure Toml.Documented {Text : Type} (toml : Toml Text) : Prop where
  represented :
    ∀ data tree,
      data.fits = true →
      data.tree? .toml = some tree →
      ∃ text, toml.save data = some text ∧ toml.parse text = some tree
  refused :
    ∀ data,
      data.fits = false ∨ data.tree? .toml = none →
      toml.save data = none

/-! ## Codecs -/

/-- A writer and a reader of the values of a type. -/
structure Codec (α : Type) where
  write : α → Data
  read? : Json → Option α
  /-- Only an option is written as `None`. -/
  present : ∀ value, (write value).isNone = false

/-- The value is read back from what is written. -/
def Codec.Reads
    {α : Type}
    (dialect : Dialect)
    (codec : Codec α)
    (value : α) :
    Prop :=
  ((codec.write value).tree? dialect).bind codec.read? = some value

/-- How a field of a record is written, and read where it may be missing. -/
structure Field (α : Type) where
  write : α → Data
  read? : Option Json → Option α

/-- The value of a field is read back. -/
def Field.Reads
    {α : Type}
    (dialect : Dialect)
    (field : Field α)
    (value : α) :
    Prop :=
  ((field.write value).shown? dialect).bind field.read? = some value

namespace Codec

variable {α : Type}

/-- A field that has to be there. -/
def required (codec : Codec α) : Field α where
  write := codec.write
  read? tree := tree.bind codec.read?

/-- A field with a default. -/
def default (codec : Codec α) (missing : α) : Field α where
  write := codec.write
  read? tree := tree.elim (some missing) codec.read?

/-- An option; `null` is read as `None`. -/
def optional (codec : Codec α) (missing : Option α) : Field (Option α) where
  write value := value.elim .none codec.write
  read?
    | none =>
        some missing
    | some .null =>
        some none
    | some tree =>
        (codec.read? tree).map some

/-- `bool`. -/
def bool : Codec Bool where
  write := .bool
  read?
    | .bool value =>
        some value
    | _ =>
        none
  present _ := rfl

/-- `String`, and `PathBuf` for paths that are UTF-8. -/
def text : Codec String where
  write := .text
  read?
    | .string value =>
        some value
    | _ =>
        none
  present _ := rfl

/-- The value of a JSON number that is written with digits only. -/
def natOfText? (text : String) : Option Nat :=
  if text.toList ≠ [] ∧
      text.toList.all (fun digit => (digitValue? 10 digit).isSome) then
    some (foldDigits 10 0 text.toList)
  else
    none

/-- An unsigned number of `width` bits. -/
def unsigned (width : Nat) : Codec (BitVec width) where
  write value := .number value.toNat
  read?
    | .number text =>
        (natOfText? text).bind fun value =>
          if value < 2 ^ width then
            some (BitVec.ofNat width value)
          else
            none
    | _ =>
        none
  present _ := rfl

/-- `Vec`. -/
def list (codec : Codec α) : Codec (List α) where
  write values := .seq (values.map codec.write)
  read?
    | .array items =>
        items.mapM codec.read?
    | _ =>
        none
  present _ := rfl

/-- An enumeration, with the texts of its variants. -/
def variants (name : α → String) (all : List α) : Codec α where
  write value := .text (name value)
  read?
    | .string text =>
        all.find? fun value => name value == text
    | _ =>
        none
  present _ := rfl

end Codec

/-! ## Records -/

/--
The fields of a record `σ` in the order of a constructor; `β` is what is left of
the constructor's type.
-/
inductive Record (σ : Type) : Type → Type 1 where
  | of {β : Type} (build : β) : Record σ β
  | field
      {α β : Type}
      (before : Record σ (α → β))
      (name : String)
      (get : σ → α)
      (part : Field α) :
      Record σ β

namespace Record

variable {σ : Type}

/-- The names of the fields. -/
def names : {β : Type} → Record σ β → List String
  | _, .of _ =>
      []
  | _, .field before name _ _ =>
      before.names ++ [name]

/-- The members that are written. -/
def write (value : σ) : {β : Type} → Record σ β → List (String × Data)
  | _, .of _ =>
      []
  | _, .field before name get part =>
      before.write value ++ [(name, part.write (get value))]

/-- The types of the fields. -/
def Values : {β : Type} → Record σ β → Type
  | _, .of _ =>
      Unit
  | _, @Record.field _ α _ before _ _ _ =>
      before.Values × α

/-- The values of the fields. -/
def values (value : σ) : {β : Type} → (record : Record σ β) → record.Values
  | _, .of _ =>
      ()
  | _, .field before _ get _ =>
      (before.values value, get value)

/-- The constructor, applied to values of the fields. -/
def build : {β : Type} → (record : Record σ β) → record.Values → β
  | _, .of build, _ =>
      build
  | _, .field before _ _ _, values =>
      before.build values.1 values.2

/-- The values of the fields in a tree; other members are passed by. -/
def read? (members : List (String × Json)) :
    {β : Type} → (record : Record σ β) → Option record.Values
  | _, .of _ =>
      some ()
  | _, .field before name _ part =>
      (before.read? members).bind fun earlier =>
        (part.read? (Json.field? name members)).map fun value =>
          (earlier, value)

/-- The value of every field is read back. -/
def Reads (dialect : Dialect) (value : σ) : {β : Type} → Record σ β → Prop
  | _, .of _ =>
      True
  | _, .field before _ get part =>
      before.Reads dialect value ∧ part.Reads dialect (get value)

/--
Each field of what the constructor builds is the value that it was given.
`rest` says of a value and a property that whatever the constructor is still
given, what it builds has the property.
-/
def GetsBack :
    {β : Type} → Record σ β → (rest : β → (σ → Prop) → Prop) → Prop
  | _, .of build, rest =>
      rest build fun _ => True
  | _, .field before _ get _, rest =>
      before.GetsBack fun build property =>
        ∀ given, rest (build given) fun value =>
          property value ∧ get value = given

/--
The fields have different names, and they are all that a value consists of.
-/
structure Faithful (record : Record σ σ) : Prop where
  build_values : ∀ value, record.build (record.values value) = value
  getsBack : record.GetsBack fun value property => property value
  distinct : record.names.Nodup

end Record

/-- What is derived for a structure. -/
structure Derived (σ : Type) where
  record : Record σ σ
  faithful : record.Faithful := by
    exact
      ⟨by rintro ⟨⟩; rfl, by simp [Record.GetsBack], by decide⟩

/-- The codec of a structure. -/
def Derived.codec {σ : Type} (derived : Derived σ) : Codec σ where
  write value := .record (derived.record.write value)
  read?
    | .object members =>
        (derived.record.read? members).map derived.record.build
    | _ =>
        none
  present _ := rfl

/-! ## Values that are read back -/

section Reads

variable
  {α : Type}
  {dialect : Dialect}

theorem shown?_of_present
    {data : Data}
    (present : data.isNone = false) :
    data.shown? dialect = (data.tree? dialect).map some := by
  rw [Data.shown?, if_neg]
  rintro ⟨_, isNone⟩
  rw [present] at isNone
  cases isNone

/-- Only `None` is written as `null`. -/
theorem tree?_ne_null
    {data : Data}
    (present : data.isNone = false) :
    data.tree? dialect ≠ some .null := by
  cases data with
  | none =>
      cases present
  | bool value =>
      simp [Data.tree?]
  | number value =>
      simp [Data.tree?]
  | text value =>
      simp [Data.tree?]
  | seq items =>
      simp [Data.tree?]
  | record members =>
      simp [Data.tree?]
  | numbered entries =>
      rw [Data.tree?]
      split <;> simp

@[simp] theorem reads_bool (value : Bool) :
    Codec.bool.Reads dialect value :=
  rfl

@[simp] theorem reads_text (value : String) :
    Codec.text.Reads dialect value :=
  rfl

theorem natOfText?_decimal (value : Nat) :
    Codec.natOfText? (decimal value) = some value := by
  have isDigits : (decimal value).toList = Nat.toDigits 10 value :=
    String.toList_ofList
  have allDigits :
      (Nat.toDigits 10 value).all
          (fun digit => (digitValue? 10 digit).isSome) = true :=
    List.all_eq_true.mpr
      (isSome_digitValue?_toDigits (by decide) (by decide) value)
  rw [Codec.natOfText?, isDigits,
    if_pos ⟨Nat.toDigits_ne_nil, allDigits⟩,
    foldDigits_toDigits (by decide) (by decide)]

@[simp] theorem reads_unsigned (width : Nat) (value : BitVec width) :
    (Codec.unsigned width).Reads dialect value := by
  rw [Codec.Reads, Codec.unsigned]
  simp [Data.tree?, natOfText?_decimal, value.isLt]

/-- The law of the texts of an enumeration. -/
theorem reads_variants
    {name : α → String}
    {all : List α}
    (distinct :
      ∀ value, all.find? (fun other => name other == name value) = some value)
    (value : α) :
    (Codec.variants name all).Reads dialect value :=
  distinct value

@[simp] theorem reads_required_iff (codec : Codec α) (value : α) :
    codec.required.Reads dialect value ↔ codec.Reads dialect value := by
  rw [Field.Reads, Codec.required, shown?_of_present (codec.present value),
    Codec.Reads]
  cases (codec.write value).tree? dialect <;> simp

@[simp] theorem reads_default_iff
    (codec : Codec α)
    (missing value : α) :
    (codec.default missing).Reads dialect value ↔
      codec.Reads dialect value := by
  rw [Field.Reads, Codec.default, shown?_of_present (codec.present value),
    Codec.Reads]
  cases (codec.write value).tree? dialect <;> simp

/--
A value is read back; a `None` that TOML leaves out is read as the default.
-/
@[simp] theorem reads_optional_iff
    (codec : Codec α)
    (missing value : Option α) :
    (codec.optional missing).Reads dialect value ↔
      (∀ inner ∈ value, codec.Reads dialect inner) ∧
        (dialect = .toml → value = none → missing = none) := by
  cases value with
  | none =>
      cases dialect <;>
        simp [Field.Reads, Codec.optional, Data.shown?, Data.isNone,
          Data.tree?]
  | some inner =>
      have notNull :=
        @tree?_ne_null dialect (codec.write inner) (codec.present inner)
      simp only [Field.Reads, Codec.optional, Option.elim_some,
        shown?_of_present (codec.present inner), Codec.Reads]
      cases isTree : (codec.write inner).tree? dialect with
      | none =>
          simp [isTree]
      | some tree =>
          rw [isTree] at notNull
          cases tree <;> simp_all

theorem bind_trees?_iff (codec : Codec α) (values : List α) :
    ((Data.trees? dialect (values.map codec.write)).bind fun items =>
        items.mapM codec.read?) =
        some values ↔
      ∀ value ∈ values, codec.Reads dialect value := by
  induction values with
  | nil =>
      simp [Data.trees?]
  | cons value rest inductionHypothesis =>
      have bothRead :
          (∀ other ∈ value :: rest, codec.Reads dialect other) ↔
            codec.Reads dialect value ∧
              ∀ other ∈ rest, codec.Reads dialect other :=
        List.forall_mem_cons
      rw [bothRead, ← inductionHypothesis, Codec.Reads, List.map_cons,
        Data.trees?]
      cases (codec.write value).tree? dialect with
      | none =>
          simp
      | some tree =>
          cases Data.trees? dialect (rest.map codec.write) with
          | none =>
              simp
          | some trees =>
              simp [List.mapM_cons, Option.bind_eq_some_iff]

theorem trees?_append (first second : List Data) :
    Data.trees? dialect (first ++ second) =
      (Data.trees? dialect first).bind fun trees =>
        (Data.trees? dialect second).map fun others => trees ++ others := by
  induction first with
  | nil =>
      simp [Data.trees?]
  | cons data rest inductionHypothesis =>
      rw [List.cons_append, Data.trees?, Data.trees?, inductionHypothesis]
      cases data.tree? dialect <;>
        cases Data.trees? dialect rest <;>
          cases Data.trees? dialect second <;> simp

theorem length_of_trees?
    {items : List Data}
    {trees : List Json}
    (isTrees : Data.trees? dialect items = some trees) :
    trees.length = items.length := by
  induction items generalizing trees with
  | nil =>
      cases isTrees
      rfl
  | cons data rest inductionHypothesis =>
      simp only [Data.trees?, Option.bind_eq_bind,
        Option.bind_eq_some_iff] at isTrees
      obtain ⟨tree, _, others, isOthers, same⟩ := isTrees
      cases same
      rw [List.length_cons, List.length_cons, inductionHypothesis isOthers]

/-- A sequence is read back if and only if each of its values is. -/
@[simp] theorem reads_list_iff (codec : Codec α) (values : List α) :
    codec.list.Reads dialect values ↔
      ∀ value ∈ values, codec.Reads dialect value := by
  rw [← bind_trees?_iff, Codec.Reads, Codec.list]
  dsimp only
  rw [Data.tree?, Option.bind_map]
  rfl

/-! ### Records -/

theorem field?_cons_self
    (name : String)
    (tree : Json)
    (members : List (String × Json)) :
    Json.field? name ((name, tree) :: members) = some tree := by
  simp [Json.field?]

theorem field?_cons_ne
    {name other : String}
    (differ : other ≠ name)
    (tree : Json)
    (members : List (String × Json)) :
    Json.field? name ((other, tree) :: members) =
      Json.field? name members := by
  simp [Json.field?, differ]

theorem members?_cons
    (name : String)
    (data : Data)
    (rest : List (String × Data)) :
    Data.members? dialect ((name, data) :: rest) =
      (data.shown? dialect).bind fun shown =>
        (Data.members? dialect rest).map fun members =>
          shown.elim members fun tree => (name, tree) :: members := by
  rw [Data.members?, Data.shown?]
  split
  case isTrue =>
    simp
  case isFalse =>
    cases data.tree? dialect <;>
      cases Data.members? dialect rest <;> simp

/-- The members of an object are among those that are written. -/
theorem mem_names_of_members?
    {entries : List (String × Data)}
    {members : List (String × Json)}
    (isMembers : Data.members? dialect entries = some members)
    {member : String × Json}
    (isMember : member ∈ members) :
    member.1 ∈ entries.map Prod.fst := by
  induction entries generalizing members with
  | nil =>
      cases isMembers
      cases isMember
  | cons entry rest inductionHypothesis =>
      rw [members?_cons, Option.bind_eq_some_iff] at isMembers
      obtain ⟨shown, _, isMap⟩ := isMembers
      obtain ⟨others, isOthers, rfl⟩ := Option.map_eq_some_iff.mp isMap
      rw [List.map_cons, List.mem_cons]
      cases shown with
      | none =>
          exact .inr (inductionHypothesis isOthers isMember)
      | some tree =>
          rcases List.mem_cons.mp isMember with rfl | inOthers
          · exact .inl rfl
          · exact .inr (inductionHypothesis isOthers inOthers)

theorem field?_eq_none
    {name : String}
    {members : List (String × Json)}
    (absent : ∀ member ∈ members, member.1 ≠ name) :
    Json.field? name members = none := by
  rw [Json.field?, Option.map_eq_none_iff, List.find?_eq_none]
  intro member isMember
  simpa using absent member isMember

/-- Under distinct names, each member is found as it is written. -/
theorem shown?_of_members?
    {entries : List (String × Data)}
    {members : List (String × Json)}
    (isMembers : Data.members? dialect entries = some members)
    (distinct : (entries.map Prod.fst).Nodup) :
    ∀ entry ∈ entries,
      entry.2.shown? dialect = some (Json.field? entry.1 members) := by
  induction entries generalizing members with
  | nil =>
      simp
  | cons entry rest inductionHypothesis =>
      obtain ⟨name, data⟩ := entry
      rw [List.map_cons, List.nodup_cons] at distinct
      rw [members?_cons, Option.bind_eq_some_iff] at isMembers
      obtain ⟨shown, isShown, isMap⟩ := isMembers
      obtain ⟨others, isOthers, rfl⟩ := Option.map_eq_some_iff.mp isMap
      have later := inductionHypothesis isOthers distinct.2
      rw [List.forall_mem_cons]
      constructor
      · rw [isShown]
        congr 1
        cases shown with
        | none =>
            refine (field?_eq_none ?_).symm
            rintro member isMember rfl
            exact distinct.1 (mem_names_of_members? isOthers isMember)
        | some tree =>
            exact (field?_cons_self name tree others).symm
      · intro other isOther
        rw [later other isOther]
        cases shown with
        | none =>
            rfl
        | some tree =>
            have differ : name ≠ other.1 := by
              intro same
              exact distinct.1 (List.mem_map.mpr ⟨other, isOther, same.symm⟩)
            rw [Option.elim_some, field?_cons_ne differ]

theorem exists_shown?_eq_none
    {entries : List (String × Data)}
    (isNone : Data.members? dialect entries = none) :
    ∃ entry ∈ entries, entry.2.shown? dialect = none := by
  induction entries with
  | nil =>
      cases isNone
  | cons entry rest inductionHypothesis =>
      obtain ⟨name, data⟩ := entry
      rw [members?_cons] at isNone
      cases isShown : data.shown? dialect with
      | none =>
          exact ⟨(name, data), List.mem_cons_self, isShown⟩
      | some shown =>
          rw [isShown, Option.bind_some, Option.map_eq_none_iff] at isNone
          obtain ⟨other, isOther, isLost⟩ := inductionHypothesis isNone
          exact ⟨other, List.mem_cons_of_mem _ isOther, isLost⟩

section Records

variable
  {σ β : Type}
  {record : Record σ β}
  {value : σ}

theorem values_build_of_getsBack
    {rest : β → (σ → Prop) → Prop}
    (weaken :
      ∀ built property other,
        (∀ value, property value → other value) →
        rest built property →
        rest built other)
    (getsBack : record.GetsBack rest)
    (values : record.Values) :
    rest (record.build values) fun value => record.values value = values := by
  induction record with
  | of build =>
      exact weaken _ _ _ (fun _ _ => rfl) getsBack
  | field before name get part inductionHypothesis =>
      obtain ⟨earlier, last⟩ := values
      have isEarlier :=
        inductionHypothesis
          (fun built property other implied given last =>
            weaken _ _ _
              (fun value both => ⟨implied value both.1, both.2⟩)
              (given last))
          getsBack earlier
      refine weaken _ _ _ ?_ (isEarlier last)
      rintro value ⟨rfl, rfl⟩
      rfl

/-- The values that were built from are the values of what was built. -/
theorem Record.Faithful.values_build
    {record : Record σ σ}
    (faithful : record.Faithful)
    (values : record.Values) :
    record.values (record.build values) = values :=
  values_build_of_getsBack
    (fun built _ _ implied holds => implied built holds)
    faithful.getsBack values

theorem map_fst_write (record : Record σ β) (value : σ) :
    (record.write value).map Prod.fst = record.names := by
  induction record with
  | of build =>
      rfl
  | field before name get part inductionHypothesis =>
      rw [Record.write, Record.names, List.map_append, inductionHypothesis]
      rfl

theorem isSome_shown?_of_reads
    (reads : record.Reads dialect value) :
    ∀ entry ∈ record.write value,
      (entry.2.shown? dialect).isSome = true := by
  induction record with
  | of build =>
      simp [Record.write]
  | field before name get part inductionHypothesis =>
      rw [Record.write, List.forall_mem_append, List.forall_mem_singleton]
      refine ⟨inductionHypothesis reads.1, ?_⟩
      obtain ⟨shown, isShown, _⟩ := Option.bind_eq_some_iff.mp reads.2
      exact Option.isSome_of_eq_some isShown

theorem read?_iff_of_shown?
    {members : List (String × Json)}
    (isShown :
      ∀ entry ∈ record.write value,
        entry.2.shown? dialect = some (Json.field? entry.1 members)) :
    record.read? members = some (record.values value) ↔
      record.Reads dialect value := by
  induction record with
  | of build =>
      simp [Record.read?, Record.Reads, Record.values]
  | field before name get part inductionHypothesis =>
      rw [Record.write, List.forall_mem_append,
        List.forall_mem_singleton] at isShown
      rw [Record.Reads, ← inductionHypothesis isShown.1, Field.Reads,
        isShown.2, Option.bind_some, Record.read?]
      constructor
      · intro isRead
        obtain ⟨earlier, isEarlier, isMap⟩ :=
          Option.bind_eq_some_iff.mp isRead
        obtain ⟨last, isLast, same⟩ := Option.map_eq_some_iff.mp isMap
        obtain ⟨rfl, rfl⟩ := Prod.mk.inj same
        exact ⟨isEarlier, isLast⟩
      · rintro ⟨isEarlier, isLast⟩
        refine Option.bind_eq_some_iff.mpr ⟨_, isEarlier, ?_⟩
        exact Option.map_eq_some_iff.mpr ⟨_, isLast, rfl⟩

theorem exists_members?
    (reads : record.Reads dialect value) :
    ∃ members, Data.members? dialect (record.write value) = some members := by
  cases isMembers : Data.members? dialect (record.write value) with
  | some members =>
      exact ⟨members, rfl⟩
  | none =>
      obtain ⟨entry, isEntry, isLost⟩ := exists_shown?_eq_none isMembers
      have isShown := isSome_shown?_of_reads reads entry isEntry
      rw [isLost] at isShown
      cases isShown

/-- A record is read back if and only if each of its fields is. -/
theorem Derived.reads_iff (derived : Derived σ) (value : σ) :
    derived.codec.Reads dialect value ↔
      derived.record.Reads dialect value := by
  rw [Codec.Reads, Derived.codec]
  dsimp only
  rw [Data.tree?, Option.bind_map]
  cases isMembers :
      Data.members? dialect (derived.record.write value) with
  | none =>
      simp only [Option.bind_none, reduceCtorEq, false_iff]
      intro reads
      obtain ⟨members, isSome⟩ := exists_members? reads
      rw [isMembers] at isSome
      cases isSome
  | some members =>
      have isShown :=
        shown?_of_members? isMembers
          (by rw [map_fst_write]; exact derived.faithful.distinct)
      rw [← read?_iff_of_shown? isShown, Option.bind_some]
      simp only [Function.comp_apply, Option.map_eq_some_iff]
      constructor
      · rintro ⟨values, isRead, rfl⟩
        rw [isRead, derived.faithful.values_build]
      · intro isRead
        exact
          ⟨derived.record.values value, isRead,
            derived.faithful.build_values value⟩

end Records

/-! ### Tagged records -/

/-- A record is read back behind a tag. -/
theorem Derived.reads_tagged
    {σ : Type}
    {value : σ}
    (derived : Derived σ)
    (reads : derived.record.Reads dialect value)
    {tagName : String}
    (fresh : tagName ∉ derived.record.names)
    (tag : String) :
    ∃ members,
      Data.members? dialect
          ((tagName, .text tag) :: derived.record.write value) =
          some members ∧
        Json.field? tagName members = some (.string tag) ∧
        (derived.record.read? members).map derived.record.build =
          some value := by
  obtain ⟨others, isOthers⟩ := exists_members? reads
  have isMembers :
      Data.members? dialect
          ((tagName, .text tag) :: derived.record.write value) =
        some ((tagName, .string tag) :: others) := by
    rw [members?_cons, isOthers]
    simp [Data.shown?, Data.isNone, Data.tree?]
  have distinct :
      (((tagName, Data.text tag) :: derived.record.write value).map
        Prod.fst).Nodup := by
    rw [List.map_cons, map_fst_write, List.nodup_cons]
    exact ⟨fresh, derived.faithful.distinct⟩
  have isShown := shown?_of_members? isMembers distinct
  rw [List.forall_mem_cons] at isShown
  refine ⟨_, isMembers, field?_cons_self tagName _ others, ?_⟩
  rw [(read?_iff_of_shown? isShown.2).mpr reads, Option.map_some,
    derived.faithful.build_values]

/-! ### Saved files -/

/--
A saved value is reloaded if and only if TOML can write it and it is read back.
-/
theorem Toml.Documented.reloads_iff
    {Text : Type}
    {toml : Toml Text}
    (documented : toml.Documented)
    (codec : Codec α)
    (value : α) :
    ((toml.save (codec.write value)).bind toml.parse).bind codec.read? =
        some value ↔
      (codec.write value).fits = true ∧ codec.Reads .toml value := by
  cases isFits : (codec.write value).fits with
  | false =>
      simp [documented.refused _ (.inl isFits)]
  | true =>
      rw [Codec.Reads]
      cases isTree : (codec.write value).tree? .toml with
      | none =>
          simp [documented.refused _ (.inr isTree)]
      | some tree =>
          obtain ⟨text, isSaved, isParsed⟩ :=
            documented.represented _ tree isFits isTree
          simp [isSaved, isParsed]

end Reads

end Sweety.SerdeDerive
