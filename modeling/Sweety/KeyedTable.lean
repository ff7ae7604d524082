import Mathlib.Algebra.GroupWithZero.Nat
import Mathlib.Data.List.AList
import Mathlib.Tactic.Common

/-!
# Tables with one value for each key

Association lists without repeated keys, with the operations on whole tables
that Mathlib's `AList` does not have: keeping the entries whose value passes a
test, changing every value, and writing or erasing several keys.  Every
operation is described by what it does to the lookup of a key.  A series of
changes is described by what it does to one entry.  This module names no
particular table.
-/

namespace KeyedTable

/-- A table with keys in `Key` and values in `Value`. -/
abbrev Table (Key Value : Type) :=
  AList fun _ : Key => Value

namespace Table

variable
  {Key Value : Type}
  [DecidableEq Key]
  {table : Table Key Value}

/-- The value of a key. -/
def get? (key : Key) (table : Table Key Value) : Option Value :=
  AList.lookup key table

/-- Write one value at several keys. -/
def insertAll
    (keys : List Key)
    (value : Value)
    (table : Table Key Value) :
    Table Key Value :=
  keys.foldl (fun table key => AList.insert key value table) table

/-- Erase several keys. -/
def eraseAll
    (keys : List Key)
    (table : Table Key Value) :
    Table Key Value :=
  keys.foldl (fun table key => AList.erase key table) table

/-- Keep the entries whose value passes the test. -/
def retain
    (keep : Value → Bool)
    (table : Table Key Value) :
    Table Key Value where
  entries := table.entries.filter fun entry => keep entry.2
  nodupKeys := table.nodupKeys.sublist List.filter_sublist

/-- Keep the entries that pass the test. -/
def retainEntries
    (keep : Key → Value → Bool)
    (table : Table Key Value) :
    Table Key Value where
  entries := table.entries.filter fun entry => keep entry.1 entry.2
  nodupKeys := table.nodupKeys.sublist List.filter_sublist

/-- Change every value. -/
def mapValues
    (change : Value → Value)
    (table : Table Key Value) :
    Table Key Value where
  entries := table.entries.map fun entry => ⟨entry.1, change entry.2⟩
  nodupKeys := List.NodupKeys.map₂ (fun _ => change) _ table.nodupKeys

/-- The values of a table. -/
def values (table : Table Key Value) : List Value :=
  table.entries.map fun entry => entry.2

theorem get?_eq_some_iff
    {key : Key}
    {value : Value} :
    table.get? key = some value ↔
      (⟨key, value⟩ : Sigma fun _ : Key => Value) ∈ table.entries :=
  AList.mem_lookup_iff

@[simp]
theorem get?_empty (key : Key) :
    get? key (∅ : Table Key Value) = none :=
  AList.lookup_empty key

/-- The lookup after writing one key. -/
theorem get?_insert
    (key other : Key)
    (value : Value)
    (table : Table Key Value) :
    get? other (AList.insert key value table) =
      if other = key then some value else table.get? other := by
  by_cases same : other = key
  · subst same
    rw [if_pos rfl]
    exact AList.lookup_insert table
  · rw [if_neg same]
    exact AList.lookup_insert_ne same

/-- The lookup after erasing one key. -/
theorem get?_erase
    (key other : Key)
    (table : Table Key Value) :
    get? other (AList.erase key table) =
      if other = key then none else table.get? other := by
  by_cases same : other = key
  · subst same
    rw [if_pos rfl]
    exact AList.lookup_erase other table
  · rw [if_neg same]
    exact AList.lookup_erase_ne same

/-- The lookup after several keys are changed alike. -/
theorem get?_foldl
    {change : Table Key Value → Key → Table Key Value}
    {value : Option Value}
    (changes :
      ∀ table first key,
        (change table first).get? key =
          if key = first then value else table.get? key)
    (keys : List Key)
    (table : Table Key Value)
    (key : Key) :
    (keys.foldl change table).get? key =
      if key ∈ keys then value else table.get? key := by
  induction keys generalizing table with
  | nil =>
      simp
  | cons first rest inductionHypothesis =>
      rw [List.foldl_cons, inductionHypothesis, changes]
      by_cases later : key ∈ rest
      · rw [if_pos later, if_pos (List.mem_cons_of_mem first later)]
      · by_cases same : key = first
        · subst same
          rw [if_neg later, if_pos rfl, if_pos List.mem_cons_self]
        · rw [if_neg later, if_neg same,
            if_neg (by simp [same, later])]

/-- The lookup after writing several keys. -/
@[simp]
theorem get?_insertAll
    (keys : List Key)
    (value : Value)
    (table : Table Key Value)
    (key : Key) :
    (table.insertAll keys value).get? key =
      if key ∈ keys then some value else table.get? key :=
  get?_foldl (fun table first key => get?_insert first key value table)
    keys table key

/-- The lookup after erasing several keys. -/
@[simp]
theorem get?_eraseAll
    (keys : List Key)
    (table : Table Key Value)
    (key : Key) :
    (table.eraseAll keys).get? key =
      if key ∈ keys then none else table.get? key :=
  get?_foldl (fun table first key => get?_erase first key table) keys table key

/-- The lookup after keeping some entries. -/
@[simp]
theorem get?_retain
    (keep : Value → Bool)
    (table : Table Key Value)
    (key : Key) :
    (table.retain keep).get? key = (table.get? key).filter keep := by
  apply Option.ext
  intro value
  rw [Option.filter_eq_some_iff, get?_eq_some_iff, get?_eq_some_iff,
    retain, List.mem_filter]

/-- The same with a test that sees the key. -/
@[simp]
theorem get?_retainEntries
    (keep : Key → Value → Bool)
    (table : Table Key Value)
    (key : Key) :
    (table.retainEntries keep).get? key =
      (table.get? key).filter (keep key) := by
  apply Option.ext
  intro value
  rw [Option.filter_eq_some_iff, get?_eq_some_iff, get?_eq_some_iff,
    retainEntries, List.mem_filter]

/-- The lookup after changing every value. -/
@[simp]
theorem get?_mapValues
    (change : Value → Value)
    (table : Table Key Value)
    (key : Key) :
    (table.mapValues change).get? key =
      (table.get? key).map change := by
  apply Option.ext
  intro value
  rw [Option.map_eq_some_iff, get?_eq_some_iff, mapValues, List.mem_map]
  constructor
  · rintro ⟨entry, member, same⟩
    cases same
    exact ⟨entry.2, get?_eq_some_iff.mpr member, rfl⟩
  · rintro ⟨before, isBefore, rfl⟩
    exact ⟨⟨key, before⟩, get?_eq_some_iff.mp isBefore, rfl⟩

/-- The values of a table are those that a lookup finds. -/
theorem mem_values_iff {value : Value} :
    value ∈ table.values ↔ ∃ key, table.get? key = some value := by
  simp only [values, List.mem_map, get?_eq_some_iff]
  constructor
  · rintro ⟨entry, member, rfl⟩
    exact ⟨entry.1, member⟩
  · rintro ⟨key, member⟩
    exact ⟨⟨key, value⟩, member, rfl⟩

/-- The entries of a table are all in another one. -/
def Within (table whole : Table Key Value) : Prop :=
  ∀ key value, table.get? key = some value → whole.get? key = some value

theorem within_erase (key : Key) (table : Table Key Value) :
    Within (table.erase key) table := by
  intro other value isRead
  rw [get?_erase] at isRead
  split at isRead
  · cases isRead
  · exact isRead

theorem within_eraseAll (keys : List Key) (table : Table Key Value) :
    Within (table.eraseAll keys) table := by
  intro other value isRead
  rw [get?_eraseAll] at isRead
  split at isRead
  · cases isRead
  · exact isRead

/-! ### Entries and what they amount to -/

section Amounts

variable
  {key : Key}
  {value : Value}

omit [DecidableEq Key] in
theorem length_keys (table : Table Key Value) :
    table.keys.length = table.entries.length :=
  List.length_map _

theorem mem_keys_of_get? (isRead : table.get? key = some value) :
    key ∈ table.keys := by
  apply AList.lookup_isSome.mp
  rw [show AList.lookup key table = some value from isRead]
  rfl

theorem length_erase_of_get? (isRead : table.get? key = some value) :
    (table.erase key).entries.length + 1 = table.entries.length := by
  rw [← length_keys, ← length_keys, AList.keys_erase]
  exact List.length_erase_add_one (mem_keys_of_get? isRead)

theorem length_erase_of_none (isRead : table.get? key = none) :
    (table.erase key).entries.length = table.entries.length := by
  have notKey : key ∉ table.keys := AList.lookup_eq_none.mp isRead
  rw [← length_keys, ← length_keys, AList.keys_erase,
    List.erase_of_not_mem notKey]

theorem length_erase_le (key : Key) (table : Table Key Value) :
    (table.erase key).entries.length ≤ table.entries.length := by
  rw [← length_keys, ← length_keys, AList.keys_erase]
  exact List.length_erase_le

theorem length_insert (key : Key) (value : Value) (table : Table Key Value) :
    (AList.insert key value table).entries.length =
      (table.erase key).entries.length + 1 := by
  rw [← length_keys, ← length_keys, AList.keys_insert, AList.keys_erase]
  rfl

theorem erase_erase (key : Key) (table : Table Key Value) :
    ((table.erase key).erase key).entries.length =
      (table.erase key).entries.length := by
  apply length_erase_of_none
  rw [get?_erase, if_pos rfl]

theorem entries_erase (key : Key) (table : Table Key Value) :
    (table.erase key).entries =
      table.entries.filter fun entry => !decide (entry.1 = key) := by
  obtain ⟨entries, nodupKeys⟩ := table
  change List.kerase key entries = _
  induction entries with
  | nil =>
      rfl
  | cons entry others inductionHypothesis =>
      obtain ⟨absent, nodupOthers⟩ := List.nodupKeys_cons.mp nodupKeys
      by_cases same : key = entry.1
      · have others_kept :
            ∀ other ∈ others, (!decide (other.1 = key)) = true := by
          intro other member
          rw [Bool.not_eq_true', decide_eq_false_iff_not, same]
          intro isKey
          exact absent (isKey ▸ List.mem_keys_of_mem member)
        rw [List.kerase_cons_eq same, List.filter_cons_of_neg (by simp [same]),
          List.filter_eq_self.mpr others_kept]
      · rw [List.kerase_cons_ne same,
          List.filter_cons_of_pos (by simp [Ne.symm same]),
          inductionHypothesis nodupOthers]

theorem entries_eraseAll (keys : List Key) (table : Table Key Value) :
    (table.eraseAll keys).entries =
      table.entries.filter fun entry => !decide (entry.1 ∈ keys) := by
  induction keys generalizing table with
  | nil =>
      simp [eraseAll]
  | cons first rest inductionHypothesis =>
      have later := inductionHypothesis (table.erase first)
      rw [eraseAll] at later
      rw [eraseAll, List.foldl_cons, later, entries_erase, List.filter_filter]
      apply List.filter_congr
      intro entry _
      by_cases isFirst : entry.1 = first
      · simp [isFirst]
      · simp [isFirst]

/-- Different keys that are there take as many entries with them. -/
theorem length_eraseAll
    {keys : List Key}
    {table : Table Key Value}
    (nodup : keys.Nodup)
    (present : ∀ key ∈ keys, key ∈ table.keys) :
    (table.eraseAll keys).entries.length + keys.length =
      table.entries.length := by
  induction keys generalizing table with
  | nil =>
      rfl
  | cons first rest inductionHypothesis =>
      obtain ⟨absent, nodupRest⟩ := List.nodup_cons.mp nodup
      obtain ⟨value, isRead⟩ := Option.isSome_iff_exists.mp
        (AList.lookup_isSome.mpr (present first List.mem_cons_self))
      have one := length_erase_of_get? isRead
      have later := @inductionHypothesis (table.erase first) nodupRest
        (by
          intro key member
          have differs : key ≠ first := by
            rintro rfl
            exact absent member
          rw [AList.keys_erase]
          exact (List.mem_erase_of_ne differs).mpr
            (present key (List.mem_cons_of_mem first member)))
      rw [eraseAll] at later
      rw [eraseAll, List.foldl_cons, List.length_cons]
      omega

/-- What the entries of some keys amount to. -/
def amountOf
    (weight : Value → Nat)
    (keys : List Key)
    (table : Table Key Value) :
    Nat :=
  ((table.entries.filter fun entry => decide (entry.1 ∈ keys)).map
    fun entry => weight entry.2).sum

/-- What all entries amount to. -/
def amount (weight : Value → Nat) (table : Table Key Value) : Nat :=
  (table.values.map weight).sum

omit [DecidableEq Key] in
theorem amount_eq (weight : Value → Nat) (table : Table Key Value) :
    amount weight table =
      (table.entries.map fun entry => weight entry.2).sum := by
  rw [amount, values, List.map_map]
  rfl

theorem amount_insert
    (weight : Value → Nat)
    (key : Key)
    (value : Value)
    (table : Table Key Value) :
    amount weight (AList.insert key value table) =
      amount weight (table.erase key) + weight value := by
  rw [amount_eq, amount_eq, AList.entries_insert, List.map_cons,
    List.sum_cons, Nat.add_comm]
  rfl

/-- What is erased and what remains amount to the whole. -/
theorem amount_eraseAll
    (weight : Value → Nat)
    (keys : List Key)
    (table : Table Key Value) :
    amount weight (table.eraseAll keys) + amountOf weight keys table =
      amount weight table := by
  rw [amount_eq, amount_eq, amountOf, entries_eraseAll]
  generalize table.entries = entries
  induction entries with
  | nil =>
      rfl
  | cons entry others inductionHypothesis =>
      by_cases isKey : entry.1 ∈ keys
      · simp only [List.filter_cons, isKey, decide_true, Bool.not_true,
          Bool.false_eq_true, if_false, if_true, List.map_cons, List.sum_cons]
        omega
      · simp only [List.filter_cons, isKey, decide_false, Bool.not_false,
          Bool.false_eq_true, if_false, if_true, List.map_cons, List.sum_cons]
        omega

end Amounts

end Table

/-! ## One entry through a series of changes -/

/-- What a change does to one entry: it may erase it and then write it. -/
structure Touch (Value : Type) where
  erases : Bool
  writes : Option Value

namespace Touch

variable
  {Value : Type}
  {touches : List (Touch Value)}
  {entry : Option Value}

def apply (entry : Option Value) (touch : Touch Value) : Option Value :=
  touch.writes.or (if touch.erases then none else entry)

/-- A change that leaves the entry alone. -/
def Idle (touch : Touch Value) : Prop :=
  touch.erases = false ∧ touch.writes = none

theorem apply_of_idle {touch : Touch Value} (idle : touch.Idle) :
    touch.apply entry = entry := by
  obtain ⟨keeps, writesNothing⟩ := idle
  simp [apply, keeps, writesNothing]

theorem foldl_of_idle (idle : ∀ touch ∈ touches, touch.Idle) :
    touches.foldl apply entry = entry := by
  induction touches generalizing entry with
  | nil =>
      rfl
  | cons touch rest inductionHypothesis =>
      rw [List.foldl_cons, apply_of_idle (idle touch List.mem_cons_self)]
      exact inductionHypothesis fun other member =>
        idle other (List.mem_cons_of_mem touch member)

/-- If all that touch the entry write one value, the entry has it. -/
theorem foldl_of_written
    {value : Value}
    (written : ∃ touch ∈ touches, touch.writes = some value)
    (only :
      ∀ touch ∈ touches, touch.Idle ∨ touch.writes = some value) :
    touches.foldl apply entry = some value := by
  induction touches generalizing entry with
  | nil =>
      simp at written
  | cons touch rest inductionHypothesis =>
      have restOnly :
          ∀ other ∈ rest, other.Idle ∨ other.writes = some value :=
        fun other member => only other (List.mem_cons_of_mem touch member)
      by_cases later : ∃ other ∈ rest, other.writes = some value
      · exact inductionHypothesis later restOnly
      · have here : touch.writes = some value := by
          obtain ⟨other, member, writes⟩ := written
          rcases List.mem_cons.mp member with rfl | inRest
          · exact writes
          · exact absurd ⟨other, inRest, writes⟩ later
        have restIdle : ∀ other ∈ rest, other.Idle := by
          intro other member
          refine (restOnly other member).resolve_right ?_
          exact fun writes => later ⟨other, member, writes⟩
        rw [List.foldl_cons, foldl_of_idle restIdle, apply, here,
          Option.some_or]

/-- If nothing is written, an entry that is erased stays away. -/
theorem foldl_of_erased
    (nothing : ∀ touch ∈ touches, touch.writes = none)
    (erased : entry = none ∨ ∃ touch ∈ touches, touch.erases = true) :
    touches.foldl apply entry = none := by
  induction touches generalizing entry with
  | nil =>
      rcases erased with isNone | ⟨touch, member, _⟩
      · exact isNone
      · cases member
  | cons touch rest inductionHypothesis =>
      rw [List.foldl_cons, apply, nothing touch List.mem_cons_self,
        Option.none_or]
      apply inductionHypothesis fun other member =>
        nothing other (List.mem_cons_of_mem touch member)
      by_cases erases : touch.erases = true
      · exact .inl (if_pos erases)
      · rcases erased with isNone | ⟨other, member, otherErases⟩
        · exact .inl (by rw [if_neg erases, isNone])
        · rcases List.mem_cons.mp member with rfl | inRest
          · exact absurd otherErases erases
          · exact .inr ⟨other, inRest, otherErases⟩

/--
Two series of erasures and then of writes do the same if they have the same
members and the writes agree.
-/
theorem foldl_congr
    {erasers otherErasers writers otherWriters : List (Touch Value)}
    (sameErasers : ∀ touch, touch ∈ erasers ↔ touch ∈ otherErasers)
    (sameWriters : ∀ touch, touch ∈ writers ↔ touch ∈ otherWriters)
    (eraseOnly : ∀ touch ∈ erasers, touch.writes = none)
    (agree :
      ∀ touch ∈ writers, ∀ value,
        touch.writes = some value →
          ∀ other ∈ writers, other.Idle ∨ other.writes = some value)
    (entry : Option Value) :
    writers.foldl apply (erasers.foldl apply entry) =
      otherWriters.foldl apply (otherErasers.foldl apply entry) := by
  by_cases written :
      ∃ touch ∈ writers, ∃ value, touch.writes = some value
  · obtain ⟨touch, member, value, writes⟩ := written
    have only := agree touch member value writes
    rw [foldl_of_written ⟨touch, member, writes⟩ only,
      foldl_of_written ⟨touch, (sameWriters touch).mp member, writes⟩
        fun other isOther => only other ((sameWriters other).mpr isOther)]
  · have nothing : ∀ touch ∈ erasers ++ writers, touch.writes = none := by
      intro touch member
      rcases List.mem_append.mp member with isEraser | isWriter
      · exact eraseOnly touch isEraser
      · by_contra writes
        obtain ⟨value, isValue⟩ := Option.ne_none_iff_exists'.mp writes
        exact written ⟨touch, isWriter, value, isValue⟩
    have sameMembers :
        ∀ touch,
          touch ∈ erasers ++ writers ↔
            touch ∈ otherErasers ++ otherWriters := by
      intro touch
      rw [List.mem_append, List.mem_append, sameErasers, sameWriters]
    have otherNothing :
        ∀ touch ∈ otherErasers ++ otherWriters, touch.writes = none :=
      fun touch member => nothing touch ((sameMembers touch).mpr member)
    rw [← List.foldl_append, ← List.foldl_append]
    by_cases erased :
        ∃ touch ∈ erasers ++ writers, touch.erases = true
    · obtain ⟨touch, member, erases⟩ := erased
      rw [foldl_of_erased nothing (.inr ⟨touch, member, erases⟩),
        foldl_of_erased otherNothing
          (.inr ⟨touch, (sameMembers touch).mp member, erases⟩)]
    · have idle : ∀ touch ∈ erasers ++ writers, touch.Idle := by
        intro touch member
        refine ⟨?_, nothing touch member⟩
        by_contra erases
        exact erased ⟨touch, member, by simpa using erases⟩
      rw [foldl_of_idle idle, foldl_of_idle fun touch member =>
        idle touch ((sameMembers touch).mpr member)]

end Touch

end KeyedTable
