import Sweety.ProxyCache
import Sweety.StepRun

namespace Sweety.CacheBound

open KeyedTable KeyedTable.Table StepRun

/-!
# How many responses are kept in memory

`set` of `middleware/proxy_cache.rs` makes room before it writes an entry;
`get`, which writes into memory what it finds on disk, does not.  `evict` goes
through all entries, in any order.
-/

/-- The operations, and what others do to the directory of the cache. -/
inductive Operation where
  | get (key : CacheKey) (now : Nat)
  | set (key : CacheKey) (response : CachedResponse) (now : Nat)
      (order : EvictOrder)
  | purgeAll
  | land (index : Nat)
  | restart
  | disk (files : Table FilePath DiskRecord)

/-- `evict_count`. -/
def evictCount (cache : ProxyCache) : Nat :=
  max (cache.maxEntries / 10) 1

/-- The loops of `evict` go through all entries that are there. -/
def Fits
    (cache : ProxyCache)
    (now : Nat)
    (order : EvictOrder)
    (mem : Table CacheKey CacheEntry) :
    Prop :=
  order.first.Perm mem.keys ∧
    order.second.Perm
      (retainLoop (evictCount cache) (CacheEntry.isExpired now) order.first 0
        mem).2.keys

instance
    (cache : ProxyCache)
    (now : Nat)
    (order : EvictOrder)
    (mem : Table CacheKey CacheEntry) :
    Decidable (Fits cache now order mem) :=
  inferInstanceAs (Decidable (_ ∧ _))

variable (fileName : CacheKey → String) (cache : ProxyCache)

def step (storage : Storage) : Operation → Option Storage
  | .get key now =>
      some (cache.get fileName key now storage).2
  | .set key response now order =>
      if cache.maxEntries ≤ storage.mem.entries.length →
          Fits cache now order storage.mem then
        some (cache.set fileName key response now order storage)
      else
        none
  | .purgeAll =>
      some (cache.purgeAll storage)
  | .land index =>
      storage.land? index
  | .restart =>
      some storage.restart
  | .disk files =>
      some { storage with files := files }

/-- The number of entries is at most `max_entries`, or one. -/
def Bounded (storage : Storage) : Prop :=
  storage.mem.entries.length ≤ max 1 cache.maxEntries

/-- A `get` that finds nothing alive in memory, and a file. -/
def Refills (key : CacheKey) (now : Nat) (storage : Storage) : Prop :=
  ¬ storage.InMemory key now ∧
    ∃ path record,
      cache.filePath? fileName key = some path ∧
        storage.files.get? path = some record

/-- When a `get` writes what a file keeps into memory, there is room for it. -/
def HasRoom
    (before : Storage)
    (operation : Operation)
    (_ : Storage) :
    Prop :=
  ∀ key now,
    operation = .get key now →
    Refills fileName cache key now before →
    (before.mem.erase key).entries.length < max 1 cache.maxEntries

/-! ## What `evict` removes -/

section Evict

variable
  {cache : ProxyCache}
  {now count : Nat}
  {gone : CacheEntry → Bool}

/-- Every entry that is removed is counted. -/
theorem length_retainLoop
    (order : List CacheKey)
    (removed : Nat)
    (mem : Table CacheKey CacheEntry) :
    (retainLoop count gone order removed mem).2.entries.length +
        (retainLoop count gone order removed mem).1 =
      mem.entries.length + removed := by
  induction order generalizing removed mem with
  | nil =>
      rfl
  | cons key rest inductionHypothesis =>
      rw [retainLoop]
      split
      · rfl
      · split
        · rename_i isGone
          obtain ⟨entry, isEntry, -⟩ := (Option.any_eq_true _ _).mp isGone
          have shorter := length_erase_of_get? isEntry
          rw [inductionHypothesis, ← shorter, Nat.add_right_comm,
            Nat.add_assoc]
        · exact inductionHypothesis removed mem

theorem removed_le_retainLoop
    (order : List CacheKey)
    (removed : Nat)
    (mem : Table CacheKey CacheEntry) :
    removed ≤ (retainLoop count gone order removed mem).1 := by
  induction order generalizing removed mem with
  | nil =>
      exact Nat.le_refl removed
  | cons key rest inductionHypothesis =>
      rw [retainLoop]
      split
      · exact Nat.le_refl removed
      · split
        · have later := inductionHypothesis (removed + 1) (mem.erase key)
          exact Nat.le_of_succ_le later
        · exact inductionHypothesis removed mem

/-- A loop that takes anything takes the first entry. -/
theorem retainLoop_pos
    {order : List CacheKey}
    {mem : Table CacheKey CacheEntry}
    (positive : 0 < count)
    (isOrder : order.Perm mem.keys)
    (nonempty : 0 < mem.entries.length) :
    0 < (retainLoop count (fun _ => true) order 0 mem).1 := by
  cases order with
  | nil =>
      have noKeys := isOrder.length_eq
      rw [length_keys] at noKeys
      rw [← noKeys] at nonempty
      exact absurd nonempty (Nat.lt_irrefl 0)
  | cons key rest =>
      have isKey : key ∈ mem.keys :=
        isOrder.mem_iff.mp List.mem_cons_self
      have isThere : (mem.get? key).any (fun _ => true) = true := by
        have isSome : (AList.lookup key mem).isSome = true :=
          AList.lookup_isSome.mpr isKey
        obtain ⟨entry, isEntry⟩ := Option.isSome_iff_exists.mp isSome
        have isRead : mem.get? key = some entry := isEntry
        rw [isRead]
        rfl
      rw [retainLoop, if_neg (Nat.not_le.mpr positive), if_pos isThere]
      exact removed_le_retainLoop rest 1 (mem.erase key)

/-- The first loop of `evict`. -/
def firstLoop
    (cache : ProxyCache)
    (now : Nat)
    (order : EvictOrder)
    (mem : Table CacheKey CacheEntry) :
    Nat × Table CacheKey CacheEntry :=
  retainLoop (evictCount cache) (CacheEntry.isExpired now) order.first 0 mem

theorem evict_eq
    (order : EvictOrder)
    (mem : Table CacheKey CacheEntry) :
    cache.evict now order mem =
      if (firstLoop cache now order mem).1 < evictCount cache then
        (retainLoop (evictCount cache - (firstLoop cache now order mem).1)
          (fun _ => true) order.second 0 (firstLoop cache now order mem).2).2
      else
        (firstLoop cache now order mem).2 :=
  rfl

theorem length_evict_le
    (order : EvictOrder)
    (mem : Table CacheKey CacheEntry) :
    (cache.evict now order mem).entries.length ≤ mem.entries.length := by
  have isFirst :
      (firstLoop cache now order mem).2.entries.length +
          (firstLoop cache now order mem).1 =
        mem.entries.length :=
    length_retainLoop order.first 0 mem
  rw [evict_eq]
  split
  · have isSecond :=
      @length_retainLoop
        (evictCount cache - (firstLoop cache now order mem).1)
        (fun _ => true) order.second 0 (firstLoop cache now order mem).2
    omega
  · omega

/-- `evict` removes an entry if there is one. -/
theorem length_evict_lt
    {order : EvictOrder}
    {mem : Table CacheKey CacheEntry}
    (fits : Fits cache now order mem)
    (nonempty : 0 < mem.entries.length) :
    (cache.evict now order mem).entries.length < mem.entries.length := by
  have isFirst :
      (firstLoop cache now order mem).2.entries.length +
          (firstLoop cache now order mem).1 =
        mem.entries.length :=
    length_retainLoop order.first 0 mem
  have positive : 0 < evictCount cache :=
    Nat.lt_of_lt_of_le Nat.one_pos (Nat.le_max_right _ _)
  rw [evict_eq]
  split
  · rename_i tooFew
    have isSecond :=
      @length_retainLoop
        (evictCount cache - (firstLoop cache now order mem).1)
        (fun _ => true) order.second 0 (firstLoop cache now order mem).2
    rcases Nat.eq_zero_or_pos (firstLoop cache now order mem).1 with
        noneGone | someGone
    · -- No entry has expired, so the second loop takes one that has not.
      have leftNonempty :
          0 < (firstLoop cache now order mem).2.entries.length := by
        omega
      have someTaken :=
        retainLoop_pos (Nat.sub_pos_of_lt tooFew) fits.2 leftNonempty
      change
        0 < (retainLoop
          (evictCount cache - (firstLoop cache now order mem).1)
          (fun _ => true) order.second 0
          (firstLoop cache now order mem).2).1 at someTaken
      omega
    · omega
  · omega

end Evict

/-! ## Which steps keep the bound -/

section Steps

variable
  {fileName : CacheKey → String}
  {cache : ProxyCache}
  {storage after : Storage}

/-- What a file keeps is never expired when it is read. -/
theorem isExpired_deserializeEntry (now : Nat) (record : DiskRecord) :
    (deserializeEntry now record).isExpired now = false := by
  apply decide_eq_false
  rw [deserializeEntry, Nat.sub_self]
  exact Nat.not_lt_zero _

/-- The search on disk, if there is a file. -/
theorem length_getDisk_of_file
    {key : CacheKey}
    {path : FilePath}
    {record : DiskRecord}
    (storage : Storage)
    (isPath : cache.filePath? fileName key = some path)
    (isRecord : storage.files.get? path = some record)
    (now : Nat) :
    (cache.getDisk fileName key now storage).2.mem.entries.length =
      (storage.mem.erase key).entries.length + 1 := by
  rw [ProxyCache.getDisk, isPath]
  dsimp only
  rw [isRecord]
  dsimp only
  rw [isExpired_deserializeEntry]
  exact length_insert key _ storage.mem

/-- The search on disk, if there is none. -/
theorem mem_getDisk_of_noFile
    {key : CacheKey}
    (storage : Storage)
    (noFile :
      ¬ ∃ path record,
        cache.filePath? fileName key = some path ∧
          storage.files.get? path = some record)
    (now : Nat) :
    (cache.getDisk fileName key now storage).2.mem = storage.mem := by
  cases isPath : cache.filePath? fileName key with
  | none =>
      rw [ProxyCache.getDisk, isPath]
  | some path =>
      cases isRecord : storage.files.get? path with
      | none =>
          rw [ProxyCache.getDisk, isPath]
          dsimp only
          rw [isRecord]
      | some record =>
          exact absurd ⟨path, record, isPath, isRecord⟩ noFile

/-- A `get` that refills memory adds an entry. -/
theorem length_get_of_refills
    {key : CacheKey}
    {now : Nat}
    (refills : Refills fileName cache key now storage) :
    (cache.get fileName key now storage).2.mem.entries.length =
      (storage.mem.erase key).entries.length + 1 := by
  obtain ⟨notInMemory, path, record, isPath, isRecord⟩ := refills
  cases isEntry : storage.mem.get? key with
  | none =>
      rw [ProxyCache.get, isEntry]
      exact length_getDisk_of_file storage isPath isRecord now
  | some entry =>
      have isExpired : entry.isExpired now = true := by
        cases isAlive : entry.isExpired now with
        | false =>
            exact absurd ⟨entry, isEntry, isAlive⟩ notInMemory
        | true =>
            rfl
      rw [ProxyCache.get, isEntry]
      dsimp only
      rw [if_pos isExpired]
      let erased := { storage with mem := storage.mem.erase key }
      have isFound :
          (cache.getDisk fileName key now erased).2.mem.entries.length =
            ((storage.mem.erase key).erase key).entries.length + 1 :=
        length_getDisk_of_file erased
          isPath isRecord now
      rw [isFound, erase_erase]

/-- A `get` that does not refill memory adds none. -/
theorem length_get_of_not_refills
    {key : CacheKey}
    {now : Nat}
    (notRefills : ¬ Refills fileName cache key now storage) :
    (cache.get fileName key now storage).2.mem.entries.length ≤
      storage.mem.entries.length := by
  cases isEntry : storage.mem.get? key with
  | none =>
      have noFile :
          ¬ ∃ path record,
            cache.filePath? fileName key = some path ∧
              storage.files.get? path = some record := by
        intro hasFile
        refine notRefills ⟨?_, hasFile⟩
        rintro ⟨entry, isThere, -⟩
        rw [isEntry] at isThere
        cases isThere
      rw [ProxyCache.get, isEntry]
      dsimp only
      rw [mem_getDisk_of_noFile storage noFile]
  | some entry =>
      rw [ProxyCache.get, isEntry]
      dsimp only
      cases isExpired : entry.isExpired now with
      | false =>
          exact Nat.le_refl _
      | true =>
          have noFile :
              ¬ ∃ path record,
                cache.filePath? fileName key = some path ∧
                  storage.files.get? path = some record := by
            intro hasFile
            refine notRefills ⟨?_, hasFile⟩
            rintro ⟨other, isThere, isAlive⟩
            cases isEntry.symm.trans isThere
            rw [isExpired] at isAlive
            cases isAlive
          have isKept :
              (cache.getDisk fileName key now
                  { storage with mem := storage.mem.erase key }).2.mem =
                storage.mem.erase key :=
            mem_getDisk_of_noFile { storage with mem := storage.mem.erase key }
              noFile now
          rw [if_pos rfl, isKept]
          exact length_erase_le key storage.mem

/-- After `set` there is room for the next one. -/
theorem bounded_set
    (bounded : Bounded cache storage)
    {now : Nat}
    {order : EvictOrder}
    (fits :
      cache.maxEntries ≤ storage.mem.entries.length →
      Fits cache now order storage.mem)
    (key : CacheKey)
    (response : CachedResponse) :
    Bounded cache (cache.set fileName key response now order storage) := by
  unfold Bounded at bounded ⊢
  simp only [ProxyCache.set]
  rw [length_insert]
  by_cases isFull : cache.maxEntries ≤ storage.mem.entries.length
  · rw [if_pos isFull]
    have shorter :=
      length_erase_le key (cache.evict now order storage.mem)
    rcases Nat.eq_zero_or_pos storage.mem.entries.length with
        isEmpty | nonempty
    · have noMore :
          (cache.evict now order storage.mem).entries.length ≤
            storage.mem.entries.length :=
        length_evict_le order storage.mem
      omega
    · have fewer := length_evict_lt (fits isFull) nonempty
      omega
  · rw [if_neg isFull]
    have shorter := length_erase_le key storage.mem
    omega

/-- A step keeps the bound exactly if there is room for what it refills. -/
theorem bounded_iff_hasRoom
    (bounded : Bounded cache storage)
    {operation : Operation}
    (taken : step fileName cache storage operation = some after) :
    Bounded cache after ↔ HasRoom fileName cache storage operation after := by
  have always :
      (∀ key now, operation ≠ .get key now) →
      Bounded cache after →
      (Bounded cache after ↔
        HasRoom fileName cache storage operation after) := by
    intro notGet isBounded
    constructor
    · intro _ key now isGet
      exact absurd isGet (notGet key now)
    · intro _
      exact isBounded
  cases operation with
  | get key now =>
      cases taken
      by_cases refills : Refills fileName cache key now storage
      · rw [Bounded, length_get_of_refills refills]
        constructor
        · intro isBounded other later isGet _
          cases isGet
          exact isBounded
        · intro hasRoom
          exact hasRoom key now rfl refills
      · constructor
        · intro _ other later isGet isRefilled
          cases isGet
          exact absurd isRefilled refills
        · intro _
          exact Nat.le_trans (length_get_of_not_refills refills) bounded
  | set key response now order =>
      by_cases fits :
          cache.maxEntries ≤ storage.mem.entries.length →
            Fits cache now order storage.mem
      · rw [step, if_pos fits] at taken
        cases taken
        exact
          always (fun _ _ => Operation.noConfusion)
            (bounded_set bounded fits key response)
      · rw [step, if_neg fits] at taken
        cases taken
  | purgeAll =>
      cases taken
      exact always (fun _ _ => Operation.noConfusion) (Nat.zero_le _)
  | land index =>
      obtain ⟨write, -, rfl⟩ := Option.map_eq_some_iff.mp taken
      exact always (fun _ _ => Operation.noConfusion) bounded
  | restart =>
      cases taken
      exact always (fun _ _ => Operation.noConfusion) (Nat.zero_le _)
  | disk files =>
      cases taken
      exact always (fun _ _ => Operation.noConfusion) bounded

end Steps

/-- A cache that starts, with some files. -/
def start (files : Table FilePath DiskRecord) : Storage where
  mem := ∅
  files := files
  pending := []

/--
In every run the number of entries keeps its bound exactly if there is room
whenever a `get` writes into memory what it finds on disk.
-/
theorem bounded_along_iff
    (fileName : CacheKey → String)
    (cache : ProxyCache)
    (files : Table FilePath DiskRecord)
    (operations : List Operation) :
    Along (step fileName cache) (fun _ _ after => Bounded cache after)
        (start files) operations ↔
      Along (step fileName cache) (HasRoom fileName cache) (start files)
        operations :=
  along_congr_of_guarded
    (fun bounded taken hasRoom =>
      (bounded_iff_hasRoom bounded taken).mpr hasRoom)
    (fun bounded taken => bounded_iff_hasRoom bounded taken)
    (Nat.zero_le _)

section Sample

/-- A cache for one entry, with files. -/
def singleCache : ProxyCache where
  maxEntries := 1
  ttl := 60
  cacheableStatuses := [200]
  cacheableMethods := ["GET"]
  bypassHeaders := []
  diskPath := some "/cache"
  ignoreCacheControl := false
  ignoreSetCookie := false

def firstKey : CacheKey :=
  ⟨"GET", "a", "/1"⟩

def secondKey : CacheKey :=
  ⟨"GET", "a", "/2"⟩

/-- The entry that was evicted for another one is read from its file. -/
theorem not_bounded_refilled :
    ¬ Along (step CacheKey.path singleCache)
      (fun _ _ after => Bounded singleCache after) (start ∅)
      [.set firstKey ⟨200, [], []⟩ 0 ⟨[], []⟩, .land 0,
        .set secondKey ⟨200, [], []⟩ 0 ⟨[firstKey], [firstKey]⟩,
        .get firstKey 0] := by
  intro along
  obtain ⟨-, along⟩ := along _ rfl
  obtain ⟨-, along⟩ := along _ rfl
  obtain ⟨-, along⟩ := along _ rfl
  obtain ⟨bounded, -⟩ := along _ rfl
  unfold Bounded at bounded
  exact absurd bounded (by decide)

end Sample

end Sweety.CacheBound
