import Sweety.KeyedTable
import Sweety.StaticCache
import Sweety.StepRun

namespace Sweety.CacheBudget

open HttpText KeyedTable KeyedTable.Table StaticCache StepRun

/-!
# The budget of the memory cache

Model of `cache_insert` and `init_cache_limits` (`static_file/cache.rs`).  An
insertion counts the bytes of all entries in all their forms, but of the new
entry only the data.  Where this is too much, or where the cache is full, it
removes a quarter of the number that is allowed, whichever entries the
iteration finds first, and inserts the new one whatever room there is.
-/

/-! ## Limits and entries -/

/-- `CacheLimits`; every way to set them keeps to the least values. -/
structure CacheLimits where
  fileCacheTotalBytes : Nat
  fileCacheMaxEntries : Nat
  fdCacheMaxEntries : Nat
  leastBytes : 16 * 1024 * 1024 ≤ fileCacheTotalBytes
  leastEntries : 256 ≤ fileCacheMaxEntries

/-- `CacheLimits::default`. -/
def CacheLimits.default : CacheLimits where
  fileCacheTotalBytes := 512 * 1024 * 1024
  fileCacheMaxEntries := 200000
  fdCacheMaxEntries := 25000
  leastBytes := by decide
  leastEntries := by decide

/-- `init_cache_limits`. -/
def initCacheLimits (maxEntries totalMb : Nat) : CacheLimits where
  fileCacheTotalBytes := max totalMb 16 * 1024 * 1024
  fileCacheMaxEntries := max maxEntries 256
  fdCacheMaxEntries := max (maxEntries / 8) 256
  leastBytes := by
    have least := Nat.le_max_right totalMb 16
    omega
  leastEntries := Nat.le_max_right maxEntries 256

/-- The bytes of an entry in all its forms. -/
def size (entry : FileCacheEntry) : Nat :=
  entry.data.length + entry.gz.elim 0 List.length +
    entry.br.elim 0 List.length + entry.zst.elim 0 List.length

/-- `FILE_CACHE`, with its entries. -/
abbrev FileTable :=
  Table (List Char) FileCacheEntry

/-- `total`. -/
def total (cache : FileTable) : Nat :=
  amount size cache

/-- A call of `cache_insert` for a file that is small enough to be kept. -/
structure Insertion where
  key : List Char
  entry : FileCacheEntry
  /-- The order in which the keys are iterated. -/
  order : List (List Char)
  small : entry.data.length ≤ fileCacheMaxBytes

namespace Insertion

variable (limits : CacheLimits) (insertion : Insertion)

/-- The data does not fit any more, or the cache is full. -/
def Overfull (cache : FileTable) : Prop :=
  limits.fileCacheTotalBytes < total cache + insertion.entry.data.length ∨
    limits.fileCacheMaxEntries ≤ cache.entries.length

instance (cache : FileTable) : Decidable (insertion.Overfull limits cache) :=
  inferInstanceAs (Decidable (_ ∨ _))

/-- `to_remove`. -/
def toRemove : List (List Char) :=
  insertion.order.take (limits.fileCacheMaxEntries / 4)

/-- `cache_insert`. -/
def cacheInsert (cache : FileTable) : FileTable :=
  let kept :=
    if insertion.Overfull limits cache then
      cache.eraseAll (insertion.toRemove limits)
    else
      cache
  kept.insert insertion.key insertion.entry

/-- A step: the iteration goes through the entries that are there. -/
def step (cache : FileTable) (insertion : Insertion) : Option FileTable :=
  if insertion.order.Perm cache.keys then
    some (insertion.cacheInsert limits cache)
  else
    none

/-- The cache keeps to both limits. -/
structure WithinBudget (cache : FileTable) : Prop where
  entries : cache.entries.length ≤ limits.fileCacheMaxEntries
  bytes : total cache ≤ limits.fileCacheTotalBytes

/-- There is room for the new entry with its compressed forms. -/
structure HasRoom (cache : FileTable) : Prop where
  /-- Nothing is removed but what the entry replaces. -/
  untouched :
    ¬insertion.Overfull limits cache →
      total cache + size insertion.entry ≤
        limits.fileCacheTotalBytes + amountOf size [insertion.key] cache
  /-- The entries that happen to be removed are large enough. -/
  evicted :
    insertion.Overfull limits cache →
      total cache + size insertion.entry ≤
        limits.fileCacheTotalBytes +
          amountOf size (insertion.key :: insertion.toRemove limits) cache

/-! ## One insertion -/

/-- What the insertion removes, besides the entry that it replaces. -/
def removed (cache : FileTable) : List (List Char) :=
  if insertion.Overfull limits cache then
    insertion.toRemove limits
  else
    []

variable
  {limits insertion}
  {cache : FileTable}

theorem cacheInsert_eq :
    insertion.cacheInsert limits cache =
      (cache.eraseAll (insertion.removed limits cache)).insert
        insertion.key insertion.entry := by
  unfold cacheInsert removed
  split
  · rfl
  · rfl

/-- What is found afterwards, as the lookups of the handler see the cache. -/
theorem get?_cacheInsert :
    (fun key => (insertion.cacheInsert limits cache).get? key) =
      Function.update
        (without (insertion.removed limits cache) fun key => cache.get? key)
        insertion.key (some insertion.entry) := by
  funext key
  rw [cacheInsert_eq, get?_insert, get?_eraseAll, Function.update_apply]
  by_cases isNew : key = insertion.key
  · rw [if_pos isNew, if_pos isNew]
  · rw [if_neg isNew, if_neg isNew, without]
    by_cases isRemoved : key ∈ insertion.removed limits cache
    · rw [if_pos isRemoved, if_pos isRemoved]
    · rw [if_neg isRemoved, if_neg isRemoved]

/-- What is there before and comes in, and what goes out and is there after. -/
theorem total_cacheInsert :
    total (insertion.cacheInsert limits cache) +
        amountOf size (insertion.key :: insertion.removed limits cache) cache =
      total cache + size insertion.entry := by
  have isErased :
      (cache.eraseAll (insertion.removed limits cache)).erase insertion.key =
        cache.eraseAll (insertion.key :: insertion.removed limits cache) := by
    apply AList.ext
    rw [entries_erase, entries_eraseAll, entries_eraseAll, List.filter_filter]
    apply List.filter_congr
    intro entry _
    by_cases isKey : entry.1 = insertion.key
    · simp [isKey]
    · simp [isKey]
  have balance := amount_eraseAll size
    (insertion.key :: insertion.removed limits cache) cache
  rw [cacheInsert_eq, total, amount_insert, isErased, total]
  omega

/-- The bytes keep to their limit exactly when there is room. -/
theorem bytes_iff_hasRoom :
    total (insertion.cacheInsert limits cache) ≤ limits.fileCacheTotalBytes ↔
      insertion.HasRoom limits cache := by
  have balance := @total_cacheInsert limits insertion cache
  by_cases overfull : insertion.Overfull limits cache
  · rw [removed, if_pos overfull] at balance
    constructor
    · intro within
      exact ⟨fun notFull => absurd overfull notFull, fun _ => by omega⟩
    · intro room
      have enough := room.evicted overfull
      omega
  · rw [removed, if_neg overfull] at balance
    constructor
    · intro within
      exact ⟨fun _ => by omega, fun full => absurd full overfull⟩
    · intro room
      have enough := room.untouched overfull
      omega

/-- A full cache loses at least one entry, so the number is kept. -/
theorem entries_cacheInsert
    (isOrder : insertion.order.Perm cache.keys)
    (within : cache.entries.length ≤ limits.fileCacheMaxEntries) :
    (insertion.cacheInsert limits cache).entries.length ≤
      limits.fileCacheMaxEntries := by
  have atLeast := limits.leastEntries
  have replaced := length_erase_le insertion.key
    (cache.eraseAll (insertion.removed limits cache))
  rw [cacheInsert_eq, length_insert]
  by_cases overfull : insertion.Overfull limits cache
  · have isRemoved :
        (cache.eraseAll (insertion.toRemove limits)).entries.length +
            (insertion.toRemove limits).length =
          cache.entries.length := by
      apply length_eraseAll
      · exact (isOrder.nodup_iff.mpr cache.keys_nodup).sublist
          (List.take_sublist _ _)
      · intro key member
        exact AList.mem_keys.mpr
          (isOrder.mem_iff.mp (List.mem_of_mem_take member))
    have isLength := isOrder.length_eq
    rw [length_keys] at isLength
    have isTaken :
        (insertion.toRemove limits).length =
          min (limits.fileCacheMaxEntries / 4) cache.entries.length := by
      rw [toRemove, List.length_take, isLength]
    rw [removed, if_pos overfull] at replaced ⊢
    omega
  · have notFull :
        ¬limits.fileCacheMaxEntries ≤ cache.entries.length :=
      fun isFull => overfull (.inr isFull)
    rw [removed, if_neg overfull] at replaced ⊢
    have same : (cache.eraseAll []).entries.length = cache.entries.length :=
      rfl
    omega

theorem step_eq_some_iff {after : FileTable} :
    step limits cache insertion = some after ↔
      insertion.order.Perm cache.keys ∧
        insertion.cacheInsert limits cache = after := by
  rw [step, Option.ite_none_right_eq_some, Option.some.injEq]

theorem entries_step
    {after : FileTable}
    (within : cache.entries.length ≤ limits.fileCacheMaxEntries)
    (taken : step limits cache insertion = some after) :
    after.entries.length ≤ limits.fileCacheMaxEntries := by
  obtain ⟨isOrder, rfl⟩ := step_eq_some_iff.mp taken
  exact entries_cacheInsert isOrder within

end Insertion

open Insertion

/--
After every insertion of a run the cache keeps to both limits, exactly when
every insertion finds room for all forms of its entry.
-/
theorem budget_respected_iff
    (limits : CacheLimits)
    (insertions : List Insertion) :
    Along (step limits) (fun _ _ after => WithinBudget limits after) ∅
        insertions ↔
      Along (step limits)
        (fun before insertion _ => insertion.HasRoom limits before) ∅
        insertions := by
  have empty :
      (∅ : FileTable).entries.length ≤ limits.fileCacheMaxEntries :=
    Nat.zero_le _
  constructor
  · intro within
    refine along_of_guarded_step (fun fits taken _ => entries_step fits taken)
      ?_ empty within
    intro before insertion after fits taken isWithin
    obtain ⟨-, rfl⟩ := step_eq_some_iff.mp taken
    exact bytes_iff_hasRoom.mp isWithin.bytes
  · intro roomy
    refine along_of_guarded_step (fun fits taken _ => entries_step fits taken)
      ?_ empty roomy
    intro before insertion after fits taken hasRoom
    have entries := entries_step fits taken
    obtain ⟨-, rfl⟩ := step_eq_some_iff.mp taken
    exact ⟨entries, bytes_iff_hasRoom.mpr hasRoom⟩

/-! ## Files that compression makes no smaller -/

/-- A file of so many bytes, with compressed forms of so many. -/
def fileOf (bytes compressed : Nat) : FileCacheEntry where
  data := List.replicate bytes 0
  gz := some (List.replicate compressed 0)
  br := some (List.replicate compressed 0)
  zst := some (List.replicate compressed 0)
  modifiedSecs := 1700000000
  hvContentType := "text/plain; charset=utf-8".toList
  hvContentLength := toDecimal bytes
  hvEtag := generateEtag bytes 1700000000
  hvLastModified := "Tue, 14 Nov 2023 22:13:20 GMT".toList
  hvCacheControl := "public, max-age=3600".toList

theorem size_fileOf (bytes compressed : Nat) :
    size (fileOf bytes compressed) = bytes + 3 * compressed := by
  simp only [size, fileOf, Option.elim_some, List.length_replicate]
  omega

/-- 64 KiB, with compressed forms that are ten bytes longer. -/
def incompressible : FileCacheEntry :=
  fileOf 65536 65546

theorem size_incompressible : size incompressible = 262174 :=
  size_fileOf 65536 65546

/-- The names of different files. -/
def fileKey (index : Nat) : List Char :=
  '/' :: List.replicate index 'a'

theorem fileKey_injective : Function.Injective fileKey := by
  intro first second same
  have lengths := congrArg List.length same
  simpa [fileKey] using lengths

/-- The cache with so many of these files. -/
def filled : Nat → FileTable
  | 0 =>
      ∅
  | index + 1 =>
      (filled index).insert (fileKey index) incompressible

/-- The insertion of the next one. -/
def nextFile (index : Nat) : Insertion where
  key := fileKey index
  entry := incompressible
  order := (filled index).keys
  small := Nat.le_of_eq List.length_replicate

theorem get?_filled
    {index place : Nat}
    (beyond : index ≤ place) :
    (filled index).get? (fileKey place) = none := by
  induction index with
  | zero =>
      exact get?_empty _
  | succ index inductionHypothesis =>
      have differs : fileKey place ≠ fileKey index :=
        fileKey_injective.ne (by omega)
      rw [filled, get?_insert, if_neg differs]
      exact inductionHypothesis (by omega)

theorem erase_filled (index : Nat) :
    (filled index).erase (fileKey index) = filled index := by
  apply AList.ext
  apply List.kerase_of_notMem_keys
  exact AList.lookup_eq_none.mp (get?_filled (Nat.le_refl index))

theorem total_filled (index : Nat) :
    total (filled index) = index * 262174 := by
  induction index with
  | zero =>
      rfl
  | succ index inductionHypothesis =>
      rw [total] at inductionHypothesis ⊢
      rw [filled, amount_insert, erase_filled, inductionHypothesis,
        size_incompressible]
      omega

theorem length_filled (index : Nat) :
    (filled index).entries.length = index := by
  induction index with
  | zero =>
      rfl
  | succ index inductionHypothesis =>
      rw [filled, length_insert, erase_filled, inductionHypothesis]

theorem step_filled
    {index : Nat}
    (few : index < 64) :
    step (initCacheLimits 0 0) (filled index) (nextFile index) =
      some (filled (index + 1)) := by
  have notFull :
      ¬(nextFile index).Overfull (initCacheLimits 0 0) (filled index) := by
    have isLength : (nextFile index).entry.data.length = 65536 :=
      List.length_replicate
    rintro (tooLarge | tooMany)
    · rw [total_filled, isLength] at tooLarge
      have isLimit :
          (initCacheLimits 0 0).fileCacheTotalBytes = 16777216 := rfl
      omega
    · rw [length_filled] at tooMany
      have isLimit : (initCacheLimits 0 0).fileCacheMaxEntries = 256 := rfl
      omega
  refine step_eq_some_iff.mpr ⟨List.Perm.refl _, ?_⟩
  rw [cacheInsert, if_neg notFull]
  rfl

theorem run_filled
    {index count : Nat}
    (few : index + count ≤ 64) :
    run? (step (initCacheLimits 0 0)) (filled index)
        ((List.range' index count).map nextFile) =
      some (filled (index + count)) := by
  induction count generalizing index with
  | zero =>
      rfl
  | succ count inductionHypothesis =>
      rw [List.range'_succ, List.map_cons, run?, step_filled (by omega)]
      dsimp only
      rw [inductionHypothesis (by omega)]
      congr 2
      omega

/-- Sixty-four such files fill more than the sixteen megabytes allowed. -/
theorem compressed_forms_exceed_budget :
    ∃ cache,
      run? (step (initCacheLimits 0 0)) ∅
          ((List.range' 0 64).map nextFile) = some cache ∧
        ¬WithinBudget (initCacheLimits 0 0) cache := by
  have isRun := @run_filled 0 64 (by omega)
  rw [Nat.zero_add] at isRun
  refine ⟨filled 64, isRun, fun within => ?_⟩
  have bytes := within.bytes
  rw [total_filled] at bytes
  have isLimit : (initCacheLimits 0 0).fileCacheTotalBytes = 16777216 := rfl
  omega

end Sweety.CacheBudget
