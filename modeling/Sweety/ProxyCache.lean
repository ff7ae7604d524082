import Sweety.Base64
import Sweety.VHost

namespace Sweety

open HttpText KeyedTable

/-!
# The cache of responses

Model of `middleware/proxy_cache.rs`: a table in memory and, if a directory is
given, one file for each key.  A clock reading is a number of nanoseconds; an
operation reads the clock once.  `to_uppercase`, `to_lowercase` and the hash
that names the file of a key are parameters.  A file is written by a task of its
own, so what `set` wants written stands in `pending` until it is.

Of the JSON text of a file its fields are kept; a file that is only half written
is not part of this model.
-/

/-- One second of the clock. -/
def second : Nat := 10 ^ 9

/-- `str::to_ascii_uppercase`. -/
def toAsciiUppercase (text : List Char) : List Char :=
  text.map Char.toUpper

theorem toLower_toUpper (char : Char) :
    char.toUpper.toLower = char.toLower := by
  by_cases isLower : 'a'.val ≤ char.val ∧ char.val ≤ 'z'.val
  · have range : 97 ≤ char.toNat ∧ char.toNat ≤ 122 := by
      simpa [UInt32.le_iff_toNat_le] using isLower
    have notUpper : ¬ ('A'.val ≤ char.val ∧ char.val ≤ 'Z'.val) := by
      simp [UInt32.le_iff_toNat_le]
      omega
    have isUpper :
        'A'.val ≤ char.val + ('A'.val - 'a'.val) ∧
          char.val + ('A'.val - 'a'.val) ≤ 'Z'.val := by
      simp [UInt32.le_iff_toNat_le]
      omega
    have back :
        char.val + ('A'.val - 'a'.val) + ('a'.val - 'A'.val) =
          char.val := by
      simp [UInt32.add_assoc]
    unfold Char.toUpper Char.toLower
    simp only [dif_pos isLower, dif_pos isUpper, dif_neg notUpper, back]
  · unfold Char.toUpper
    rw [dif_neg isLower]

theorem toLower_toLower (char : Char) :
    char.toLower.toLower = char.toLower := by
  by_cases isUpper : 'A'.val ≤ char.val ∧ char.val ≤ 'Z'.val
  · have range : 65 ≤ char.toNat ∧ char.toNat ≤ 90 := by
      simpa [UInt32.le_iff_toNat_le] using isUpper
    have notUpper :
        ¬ ('A'.val ≤ char.val + ('a'.val - 'A'.val) ∧
          char.val + ('a'.val - 'A'.val) ≤ 'Z'.val) := by
      simp [UInt32.le_iff_toNat_le]
      omega
    unfold Char.toLower
    simp only [dif_pos isUpper, dif_neg notUpper]
  · unfold Char.toLower
    rw [dif_neg isUpper, dif_neg isUpper]

/-- A text in lower case stays as it is. -/
theorem toAsciiLowercase_toAsciiLowercase (text : List Char) :
    toAsciiLowercase (toAsciiLowercase text) = toAsciiLowercase text := by
  rw [toAsciiLowercase, toAsciiLowercase, List.map_map]
  exact List.map_congr_left fun char _ => toLower_toLower char

@[simp] theorem toAsciiLowercase_toAsciiUppercase (text : List Char) :
    toAsciiLowercase (toAsciiUppercase text) = toAsciiLowercase text := by
  simp only [toAsciiLowercase, toAsciiUppercase, List.map_map]
  apply List.map_congr_left
  intro char _
  exact toLower_toUpper char

/-- `struct CacheKey`. -/
structure CacheKey where
  method : String
  host : String
  path : String
  deriving Repr, DecidableEq

/-- `CacheKey::new`. -/
def CacheKey.new (method host path : String) : CacheKey where
  method := String.ofList (toAsciiUppercase method.toList)
  host := String.ofList (toAsciiLowercase host.toList)
  path := path

/-- What is cached of a response. -/
structure CachedResponse where
  status : Nat
  headers : List (List Char × List Char)
  body : List UInt8
  deriving Repr, DecidableEq

/-- `struct CacheEntry`. -/
structure CacheEntry extends CachedResponse where
  createdAt : Nat
  /-- A `Duration`. -/
  ttl : Nat
  deriving Repr, DecidableEq

/-- `is_expired`. -/
def CacheEntry.isExpired (now : Nat) (entry : CacheEntry) : Bool :=
  entry.ttl < now - entry.createdAt

/-- The settings of `struct ProxyCache`. -/
structure ProxyCache where
  maxEntries : Nat
  ttl : Nat
  cacheableStatuses : List Nat
  cacheableMethods : List String
  bypassHeaders : List String
  diskPath : Option String
  ignoreCacheControl : Bool
  ignoreSetCookie : Bool
  deriving Repr, DecidableEq

/-- A `HeaderMap`: names in lower case, with their values. -/
abbrev HeaderMap :=
  List (String × List UInt8)

namespace HeaderMap

/-- `get`: the first value of a name. -/
def get? (name : String) (headers : HeaderMap) : Option (List UInt8) :=
  (headers.find? fun header => header.1 == name).map fun header =>
    header.2

end HeaderMap

namespace ProxyCache

/-- `from_config`. -/
def fromConfig
    (upper lower : String → String)
    (config : ProxyCacheConfig) :
    ProxyCache where
  maxEntries := config.maxEntries
  ttl := config.ttl
  cacheableStatuses := config.cacheableStatuses
  cacheableMethods := config.cacheableMethods.map upper
  bypassHeaders := config.bypassHeaders.map lower
  diskPath := config.path
  ignoreCacheControl :=
    config.ignoreHeaders.any fun header =>
      eqIgnoreAsciiCase header.toList "Cache-Control".toList
  ignoreSetCookie :=
    config.ignoreHeaders.any fun header =>
      eqIgnoreAsciiCase header.toList "Set-Cookie".toList

/-- The method can be cached. -/
def cachesMethod (cache : ProxyCache) (method : String) : Bool :=
  cache.cacheableMethods.any fun cacheable =>
    eqIgnoreAsciiCase cacheable.toList method.toList

/-- Some bypass header is there and not empty. -/
def bypassed (cache : ProxyCache) (headers : HeaderMap) : Bool :=
  cache.bypassHeaders.any fun bypass =>
    match HeaderMap.get? bypass headers with
    | some value =>
        !value.isEmpty
    | none =>
        false

/-- `should_lookup`. -/
def shouldLookup
    (cache : ProxyCache)
    (method : String)
    (headers : HeaderMap) :
    Bool :=
  cache.cachesMethod method && !cache.bypassed headers

/-- A response header that forbids caching. -/
def forbids
    (cache : ProxyCache)
    (header : List Char × List Char) :
    Bool :=
  (!cache.ignoreCacheControl &&
      eqIgnoreAsciiCase header.1 "cache-control".toList &&
      (contains (toAsciiLowercase header.2) "no-store".toList ||
        contains (toAsciiLowercase header.2) "private".toList)) ||
    (!cache.ignoreSetCookie &&
      eqIgnoreAsciiCase header.1 "set-cookie".toList)

/-- `is_cacheable`. -/
def isCacheable
    (cache : ProxyCache)
    (status : Nat)
    (headers : List (List Char × List Char)) :
    Bool :=
  cache.cacheableStatuses.contains status && !headers.any cache.forbids

end ProxyCache

/-! ## Files -/

/-- The JSON object of a file. -/
structure DiskRecord where
  status : Nat
  headers : List (List Char × List Char)
  body : List UInt8
  ttlSecs : Nat
  deriving Repr, DecidableEq

/-- The directory and the name of a file. -/
abbrev FilePath :=
  String × String

/-- `serialize_entry`; the lifetime that is left is kept. -/
def serializeEntry (now : Nat) (entry : CacheEntry) : DiskRecord where
  status := entry.status
  headers := entry.headers
  body := base64Encode entry.body
  ttlSecs := entry.ttl / second - (now - entry.createdAt) / second

/-- `deserialize_entry`; the lifetime that is left starts now. -/
def deserializeEntry (now : Nat) (record : DiskRecord) : CacheEntry where
  status := record.status
  headers := record.headers
  body := base64Decode record.body
  createdAt := now
  ttl := record.ttlSecs * second

/-- A file keeps the response. -/
theorem response_deserializeEntry
    (written read : Nat)
    (entry : CacheEntry) :
    (deserializeEntry read (serializeEntry written entry)).toCachedResponse =
      entry.toCachedResponse := by
  simp only [deserializeEntry, serializeEntry, base64Decode_base64Encode]

/-- What is kept for a cache. -/
structure Storage where
  mem : Table CacheKey CacheEntry
  files : Table FilePath DiskRecord
  pending : List (FilePath × DiskRecord)

/-! ## Operations -/

/-- The body of a `retain` that removes up to `count` entries. -/
def retainLoop
    (count : Nat)
    (gone : CacheEntry → Bool) :
    List CacheKey → Nat → Table CacheKey CacheEntry →
      Nat × Table CacheKey CacheEntry
  | [], removed, mem =>
      (removed, mem)
  | key :: rest, removed, mem =>
      if count ≤ removed then
        (removed, mem)
      else if (mem.get? key).any gone then
        retainLoop count gone rest (removed + 1) (mem.erase key)
      else
        retainLoop count gone rest removed mem

/-- The orders in which `evict` goes through the entries. -/
structure EvictOrder where
  first : List CacheKey
  second : List CacheKey
  deriving Repr, DecidableEq

namespace ProxyCache

variable (fileName : CacheKey → String) (cache : ProxyCache)

/-- `evict`. -/
def evict
    (now : Nat)
    (order : EvictOrder)
    (mem : Table CacheKey CacheEntry) :
    Table CacheKey CacheEntry :=
  let evictCount := max (cache.maxEntries / 10) 1
  let (removed, left) :=
    retainLoop evictCount (CacheEntry.isExpired now) order.first 0 mem
  if removed < evictCount then
    (retainLoop (evictCount - removed) (fun _ => true) order.second 0
      left).2
  else
    left

/-- The file of a key. -/
def filePath? (key : CacheKey) : Option FilePath :=
  cache.diskPath.map fun disk => (disk, fileName key)

/-- The search on disk of `get`. -/
def getDisk
    (key : CacheKey)
    (now : Nat)
    (storage : Storage) :
    Option CacheEntry × Storage :=
  match cache.filePath? fileName key with
  | none =>
      (none, storage)
  | some path =>
      match storage.files.get? path with
      | none =>
          (none, storage)
      | some record =>
          let entry := deserializeEntry now record
          if entry.isExpired now then
            (none, { storage with files := storage.files.erase path })
          else
            (some entry, { storage with mem := storage.mem.insert key entry })

/-- `get`. -/
def get
    (key : CacheKey)
    (now : Nat)
    (storage : Storage) :
    Option CacheEntry × Storage :=
  match storage.mem.get? key with
  | some entry =>
      if entry.isExpired now then
        cache.getDisk fileName key now
          { storage with mem := storage.mem.erase key }
      else
        (some entry, storage)
  | none =>
      cache.getDisk fileName key now storage

/-- `set`. -/
def set
    (key : CacheKey)
    (response : CachedResponse)
    (now : Nat)
    (order : EvictOrder)
    (storage : Storage) :
    Storage :=
  let mem :=
    if cache.maxEntries ≤ storage.mem.entries.length then
      cache.evict now order storage.mem
    else
      storage.mem
  let entry : CacheEntry :=
    { response with createdAt := now, ttl := cache.ttl * second }
  { storage with
    mem := mem.insert key entry
    pending :=
      storage.pending ++
        ((cache.filePath? fileName key).map fun path =>
          (path, serializeEntry now entry)).toList }

/-- `purge_all`. -/
def purgeAll (storage : Storage) : Storage :=
  { storage with
    mem := ∅
    files :=
      match cache.diskPath with
      | none =>
          storage.files
      | some disk =>
          storage.files.eraseAll
            (storage.files.keys.filter fun path => path.1 == disk) }

end ProxyCache

namespace Storage

/-- The task that writes a file. -/
def land? (index : Nat) (storage : Storage) : Option Storage :=
  storage.pending[index]?.map fun write =>
    { storage with
      files := storage.files.insert write.1 write.2
      pending := storage.pending.eraseIdx index }

/-- The process starts again; what was not written yet is lost. -/
def restart (storage : Storage) : Storage :=
  { storage with mem := ∅, pending := [] }

end Storage

/-! ## What the operations leave -/

section Entries

variable
  {fileName : CacheKey → String}
  {cache : ProxyCache}
  {key other : CacheKey}
  {now : Nat}
  {entry : CacheEntry}

theorem within_retainLoop
    (count : Nat)
    (gone : CacheEntry → Bool)
    (order : List CacheKey)
    (removed : Nat)
    (mem : Table CacheKey CacheEntry) :
    Table.Within (retainLoop count gone order removed mem).2 mem := by
  induction order generalizing removed mem with
  | nil =>
      exact fun _ _ isRead => isRead
  | cons first rest inductionHypothesis =>
      intro key value isRead
      rw [retainLoop] at isRead
      split at isRead
      · exact isRead
      · split at isRead
        · exact Table.within_erase first mem key value
            (inductionHypothesis _ _ key value isRead)
        · exact inductionHypothesis _ _ key value isRead

theorem within_evict
    (order : EvictOrder)
    (mem : Table CacheKey CacheEntry) :
    Table.Within (cache.evict now order mem) mem := by
  intro key value isRead
  simp only [ProxyCache.evict] at isRead
  split at isRead
  · exact within_retainLoop _ _ _ _ mem key value
      (within_retainLoop _ _ _ _ _ key value isRead)
  · exact within_retainLoop _ _ _ _ mem key value isRead

/-- The entry that `set` makes of a response. -/
def ProxyCache.newEntry
    (cache : ProxyCache)
    (response : CachedResponse)
    (now : Nat) :
    CacheEntry :=
  { response with createdAt := now, ttl := cache.ttl * second }

@[simp] theorem get?_mem_set_self
    (response : CachedResponse)
    (order : EvictOrder)
    (storage : Storage) :
    (cache.set fileName key response now order storage).mem.get? key =
      some (cache.newEntry response now) := by
  simp only [ProxyCache.set, Table.get?_insert, if_true]
  rfl

/-- A file that `set` wants written. -/
theorem mem_pending_set
    {response : CachedResponse}
    {order : EvictOrder}
    {storage : Storage}
    {file : FilePath × DiskRecord}
    (isPending :
      file ∈ (cache.set fileName key response now order storage).pending) :
    file ∈ storage.pending ∨
      cache.diskPath ≠ none ∧
        file.2 = serializeEntry now (cache.newEntry response now) := by
  simp only [ProxyCache.set, ProxyCache.filePath?, List.mem_append,
    Option.mem_toList, Option.map_eq_some_iff] at isPending
  rcases isPending with wasPending | ⟨path, ⟨disk, isDisk, _⟩, rfl⟩
  · exact .inl wasPending
  · exact .inr ⟨by simp [isDisk], rfl⟩

/-- The entries in memory after `set`. -/
theorem get?_mem_set
    {response : CachedResponse}
    {order : EvictOrder}
    {storage : Storage}
    (isRead :
      (cache.set fileName key response now order storage).mem.get? other =
        some entry) :
    other = key ∧ entry = cache.newEntry response now ∨
      storage.mem.get? other = some entry := by
  simp only [ProxyCache.set, Table.get?_insert] at isRead
  split at isRead
  · next same =>
      exact .inl ⟨same, (Option.some.inj isRead).symm⟩
  · right
    split at isRead
    · exact within_evict order storage.mem other entry isRead
    · exact isRead

/-- A search on disk finds nothing or what the file of the key keeps. -/
theorem getDisk_cases
    {storage after : Storage}
    {result : Option CacheEntry}
    (isGet : cache.getDisk fileName key now storage = (result, after)) :
    (result = none ∧
      after.mem = storage.mem ∧
      Table.Within after.files storage.files ∧
      after.pending = storage.pending) ∨
    ∃ path record,
      cache.filePath? fileName key = some path ∧
        storage.files.get? path = some record ∧
        result = some (deserializeEntry now record) ∧
        after =
          { storage with
            mem := storage.mem.insert key (deserializeEntry now record) } := by
  unfold ProxyCache.getDisk at isGet
  split at isGet
  · cases isGet
    exact .inl ⟨rfl, rfl, fun _ _ isRead => isRead, rfl⟩
  · next path isPath =>
      split at isGet
      · cases isGet
        exact .inl ⟨rfl, rfl, fun _ _ isRead => isRead, rfl⟩
      · next record isRecord =>
          simp only at isGet
          split at isGet
          · cases isGet
            exact .inl ⟨rfl, rfl, Table.within_erase path storage.files, rfl⟩
          · cases isGet
            exact .inr ⟨path, record, isPath, isRecord, rfl, rfl⟩

/-- Memory has an entry for the key that is not expired. -/
def Storage.InMemory (key : CacheKey) (now : Nat) (storage : Storage) :
    Prop :=
  ∃ entry,
    storage.mem.get? key = some entry ∧ entry.isExpired now = false

/--
`get` finds a live entry in memory, or nothing, or what the file of the key
keeps, with a new lifetime.
-/
theorem get_cases
    {storage after : Storage}
    {result : Option CacheEntry}
    (isGet : cache.get fileName key now storage = (result, after)) :
    (∃ entry,
      storage.mem.get? key = some entry ∧
        entry.isExpired now = false ∧
        result = some entry ∧
        after = storage) ∨
    (result = none ∧
      Table.Within after.mem storage.mem ∧
      Table.Within after.files storage.files ∧
      after.pending = storage.pending) ∨
    ∃ path record,
      ¬ storage.InMemory key now ∧
        cache.filePath? fileName key = some path ∧
        storage.files.get? path = some record ∧
        result = some (deserializeEntry now record) ∧
        (∀ other entry,
          after.mem.get? other = some entry →
            other = key ∧ entry = deserializeEntry now record ∨
              other ≠ key ∧ storage.mem.get? other = some entry) ∧
        after.files = storage.files ∧
        after.pending = storage.pending := by
  unfold ProxyCache.get at isGet
  split at isGet
  · next entry isEntry =>
      split at isGet
      · next expired =>
          have notInMemory : ¬ storage.InMemory key now := by
            rintro ⟨live, isLive, notExpired⟩
            rw [isEntry] at isLive
            obtain rfl := Option.some.inj isLive
            rw [expired] at notExpired
            cases notExpired
          rcases getDisk_cases isGet with
            ⟨isNone, sameMem, fewerFiles, samePending⟩ |
            ⟨path, record, isPath, isRecord, isResult, rfl⟩
          · refine .inr (.inl ⟨isNone, ?_, fewerFiles, samePending⟩)
            rw [sameMem]
            exact Table.within_erase key storage.mem
          · refine .inr (.inr ⟨path, record, notInMemory, isPath, isRecord,
              isResult, ?_, rfl, rfl⟩)
            intro other value isRead
            rw [Table.get?_insert] at isRead
            split at isRead
            · next same =>
                exact .inl ⟨same, (Option.some.inj isRead).symm⟩
            · next different =>
                exact .inr ⟨different,
                  Table.within_erase key storage.mem other value isRead⟩
      · next alive =>
          cases isGet
          exact .inl ⟨entry, isEntry, by simpa using alive, rfl, rfl⟩
  · next isNone =>
      have notInMemory : ¬ storage.InMemory key now := by
        rintro ⟨live, isLive, _⟩
        rw [isNone] at isLive
        cases isLive
      rcases getDisk_cases isGet with
        ⟨isResult, sameMem, fewerFiles, samePending⟩ |
        ⟨path, record, isPath, isRecord, isResult, rfl⟩
      · refine .inr (.inl ⟨isResult, ?_, fewerFiles, samePending⟩)
        rw [sameMem]
        exact fun _ _ isRead => isRead
      · refine .inr (.inr ⟨path, record, notInMemory, isPath, isRecord,
          isResult, ?_, rfl, rfl⟩)
        intro other value isRead
        rw [Table.get?_insert] at isRead
        split at isRead
        · next same =>
            exact .inl ⟨same, (Option.some.inj isRead).symm⟩
        · next different =>
            exact .inr ⟨different, isRead⟩

end Entries

end Sweety
