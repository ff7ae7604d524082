import Sweety.CacheFreshness

namespace Sweety.CacheIsolation

open KeyedTable StepRun CacheFreshness

/-!
# Which key a cached response was stored under

In memory an entry stands under its key.  The file of a key is named by a hash
of the joined texts of the key, `to_filename` in `middleware/proxy_cache.rs`,
and the key is not written into the file; the hash is a parameter.
-/

/-- What is hashed of a key. -/
def raw (key : CacheKey) : String :=
  key.method ++ ":" ++ key.host ++ ":" ++ key.path

/-- `to_filename`. -/
def toFilename (hash : String → BitVec 64) (key : CacheKey) : String :=
  toString (hash (raw key)).toNat

/-- The key of an operation. -/
def key? : Operation → Option CacheKey
  | .get key _ | .set key _ _ _ =>
      some key
  | .evict _ _ | .purgeAll | .land _ | .restart =>
      none

/-- The operation is about no key but some. -/
def UsesOnly (keys : CacheKey → Prop) (operation : Operation) : Prop :=
  ∀ key, key? operation = some key → keys key

/-- What is returned for a key was stored under this key. -/
def Isolated
    (fileName : CacheKey → String)
    (cache : ProxyCache)
    (before : State)
    (operation : Operation)
    (_ : State) :
    Prop :=
  ∀ key now entry,
    operation = .get key now →
    (cache.get fileName key now before.storage).1 = some entry →
    ∃ stored ∈ before.stores,
      stored.key = key ∧ stored.response = entry.toCachedResponse

/-- The response that a file keeps. -/
def response (record : DiskRecord) : CachedResponse where
  status := record.status
  headers := record.headers
  body := base64Decode record.body

/-! ## Where the responses come from -/

section Runs

variable
  {fileName : CacheKey → String}
  {cache : ProxyCache}
  {keys : CacheKey → Prop}
  {state after : State}
  {operation : Operation}

/-- No two of the keys share a file. -/
def OwnFiles
    (fileName : CacheKey → String)
    (cache : ProxyCache)
    (keys : CacheKey → Prop) :
    Prop :=
  cache.diskPath = none ∨
    ∀ first other,
      keys first →
      keys other →
      fileName first = fileName other →
      first = other

/-- The file was written for a key that has its name. -/
def Written
    (fileName : CacheKey → String)
    (cache : ProxyCache)
    (stores : List Stored)
    (path : FilePath)
    (record : DiskRecord) :
    Prop :=
  ∃ stored ∈ stores,
    cache.filePath? fileName stored.key = some path ∧
      stored.response = response record

/-- Everything kept is the response of a call of `set`. -/
structure Kept
    (fileName : CacheKey → String)
    (cache : ProxyCache)
    (keys : CacheKey → Prop)
    (state : State) :
    Prop where
  mem :
    ∀ key entry,
      state.storage.mem.get? key = some entry →
      ∃ stored ∈ state.stores,
        stored.key = key ∧ stored.response = entry.toCachedResponse
  files :
    ∀ path record,
      state.storage.files.get? path = some record →
      Written fileName cache state.stores path record
  pending :
    ∀ path record,
      (path, record) ∈ state.storage.pending →
      Written fileName cache state.stores path record
  keys : ∀ stored ∈ state.stores, keys stored.key

theorem kept_initial : Kept fileName cache keys State.initial := by
  constructor
  · intro key entry isRead
    rw [State.initial, Table.get?_empty] at isRead
    cases isRead
  · intro path record isRead
    rw [State.initial, Table.get?_empty] at isRead
    cases isRead
  · intro path record isPending
    cases isPending
  · intro stored member
    cases member

theorem Written.append
    {stores : List Stored}
    {path : FilePath}
    {record : DiskRecord}
    (written : Written fileName cache stores path record)
    (later : List Stored) :
    Written fileName cache (stores ++ later) path record := by
  obtain ⟨stored, member, isPath, isResponse⟩ := written
  exact ⟨stored, List.mem_append_left later member, isPath, isResponse⟩

/-- The same, with fewer entries and fewer files. -/
theorem Kept.of_within
    (kept : Kept fileName cache keys state)
    (fewer : Table.Within after.storage.mem state.storage.mem)
    (fewerFiles : Table.Within after.storage.files state.storage.files)
    (fewerPending :
      ∀ write ∈ after.storage.pending, write ∈ state.storage.pending)
    (sameStores : after.stores = state.stores) :
    Kept fileName cache keys after := by
  constructor
  · intro key entry isRead
    rw [sameStores]
    exact kept.mem key entry (fewer key entry isRead)
  · intro path record isRead
    rw [sameStores]
    exact kept.files path record (fewerFiles path record isRead)
  · intro path record isPending
    rw [sameStores]
    exact kept.pending path record (fewerPending _ isPending)
  · rw [sameStores]
    exact kept.keys

/-- What the file of a key keeps was stored under this key. -/
theorem Kept.file
    (kept : Kept fileName cache keys state)
    (distinct : OwnFiles fileName cache keys)
    {key : CacheKey}
    (isKey : keys key)
    {path : FilePath}
    {record : DiskRecord}
    (isPath : cache.filePath? fileName key = some path)
    (isRecord : state.storage.files.get? path = some record) :
    ∃ stored ∈ state.stores,
      stored.key = key ∧ stored.response = response record := by
  obtain ⟨stored, member, isWritten, isResponse⟩ :=
    kept.files path record isRecord
  refine ⟨stored, member, ?_, isResponse⟩
  obtain ⟨disk, isDisk, rfl⟩ := Option.map_eq_some_iff.mp isPath
  rw [ProxyCache.filePath?, isDisk] at isWritten
  have samePath := Option.some.inj isWritten
  rcases distinct with noDisk | distinct
  · rw [noDisk] at isDisk
    cases isDisk
  · have sameName : fileName stored.key = fileName key :=
      congrArg Prod.snd samePath
    exact distinct stored.key key (kept.keys stored member) isKey sameName

/-- What a `get` returns was stored under its key. -/
theorem Kept.isolated
    (kept : Kept fileName cache keys state)
    (distinct : OwnFiles fileName cache keys)
    (usesOnly : UsesOnly keys operation) :
    Isolated fileName cache state operation after := by
  rintro key now entry rfl isResult
  rcases get_cases (Prod.eta _).symm with
    ⟨found, isFound, -, isEntry, -⟩ | ⟨isNone, -⟩ |
    ⟨path, record, -, isPath, isRecord, isEntry, -⟩
  · rw [isEntry] at isResult
    obtain rfl := Option.some.inj isResult
    exact kept.mem key _ isFound
  · rw [isNone] at isResult
    cases isResult
  · rw [isEntry] at isResult
    cases isResult
    exact kept.file distinct (usesOnly key rfl) isPath isRecord

theorem Kept.get
    (kept : Kept fileName cache keys state)
    (distinct : OwnFiles fileName cache keys)
    {key : CacheKey}
    (isKey : keys key)
    (now : Nat) :
    Kept fileName cache keys
      { state with
        storage := (cache.get fileName key now state.storage).2
        now := now } := by
  rcases get_cases (Prod.eta (cache.get fileName key now state.storage)).symm
    with
    ⟨found, -, -, -, isAfter⟩ | ⟨-, fewer, fewerFiles, samePending⟩ |
    ⟨path, record, -, isPath, isRecord, -, isMem, sameFiles, samePending⟩
  · rw [isAfter]
    exact ⟨kept.mem, kept.files, kept.pending, kept.keys⟩
  · refine kept.of_within fewer fewerFiles ?_ rfl
    intro write isPending
    rw [samePending] at isPending
    exact isPending
  · constructor
    · intro other entry isRead
      rcases isMem other entry isRead with
        ⟨rfl, rfl⟩ | ⟨-, wasThere⟩
      · exact kept.file distinct isKey isPath isRecord
      · exact kept.mem other entry wasThere
    · intro other kept' isRead
      dsimp only at isRead
      rw [sameFiles] at isRead
      exact kept.files other kept' isRead
    · intro other kept' isPending
      dsimp only at isPending
      rw [samePending] at isPending
      exact kept.pending other kept' isPending
    · exact kept.keys

theorem Kept.set
    (kept : Kept fileName cache keys state)
    {key : CacheKey}
    (isKey : keys key)
    (stored : CachedResponse)
    (now : Nat)
    (order : EvictOrder) :
    Kept fileName cache keys
      { storage := cache.set fileName key stored now order state.storage
        now := now
        stores := state.stores ++ [⟨key, stored, now⟩] } := by
  constructor
  · intro other entry isRead
    rcases get?_mem_set isRead with ⟨rfl, rfl⟩ | wasThere
    · exact ⟨_, List.mem_append_right _ (List.mem_singleton_self _), rfl, rfl⟩
    · obtain ⟨before, member, isOther, isResponse⟩ :=
        kept.mem other entry wasThere
      exact
        ⟨before, List.mem_append_left _ member, isOther, isResponse⟩
  · intro path record isRead
    exact (kept.files path record isRead).append _
  · intro path record isPending
    simp only [ProxyCache.set, List.mem_append] at isPending
    rcases isPending with wasPending | isNew
    · exact (kept.pending path record wasPending).append _
    · obtain ⟨isPath, isWrite⟩ :=
        Option.map_eq_some_iff.mp (Option.mem_toList.mp isNew)
      obtain ⟨isFile, isPair⟩ := isWrite
      cases isPair
      refine ⟨_, List.mem_append_right _ (List.mem_singleton_self _),
        isFile, ?_⟩
      exact
        (response_deserializeEntry now now
          (cache.newEntry stored now)).symm
  · intro before member
    rcases List.mem_append.mp member with wasStored | isNew
    · exact kept.keys before wasStored
    · rw [List.mem_singleton.mp isNew]
      exact isKey

theorem within_files_purgeAll (storage : Storage) :
    Table.Within (cache.purgeAll storage).files storage.files := by
  intro path record isRead
  unfold ProxyCache.purgeAll at isRead
  dsimp only at isRead
  split at isRead
  · exact isRead
  · exact Table.within_eraseAll _ _ path record isRead

theorem Kept.land
    (kept : Kept fileName cache keys state)
    {index : Nat}
    {storage : Storage}
    (landed : state.storage.land? index = some storage) :
    Kept fileName cache keys { state with storage := storage } := by
  obtain ⟨write, isWrite, rfl⟩ := Option.map_eq_some_iff.mp landed
  have wasPending := List.mem_of_getElem? isWrite
  constructor
  · exact kept.mem
  · intro path record isRead
    dsimp only at isRead
    rw [Table.get?_insert] at isRead
    split at isRead
    · rename_i isPath
      cases isRead
      subst isPath
      exact kept.pending write.1 write.2 wasPending
    · exact kept.files path record isRead
  · intro path record isPending
    exact kept.pending path record (List.mem_of_mem_eraseIdx isPending)
  · exact kept.keys

theorem Kept.step
    (kept : Kept fileName cache keys state)
    (distinct : OwnFiles fileName cache keys)
    (usesOnly : UsesOnly keys operation)
    (taken : step? fileName cache state operation = some after) :
    Kept fileName cache keys after := by
  cases operation with
  | get key now =>
      simp only [step?, Option.ite_none_right_eq_some,
        Option.some.injEq] at taken
      obtain ⟨-, rfl⟩ := taken
      exact kept.get distinct (usesOnly key rfl) now
  | set key stored now order =>
      simp only [step?, Option.ite_none_right_eq_some,
        Option.some.injEq] at taken
      obtain ⟨-, rfl⟩ := taken
      exact kept.set (usesOnly key rfl) stored now order
  | evict now order =>
      simp only [step?, Option.ite_none_right_eq_some,
        Option.some.injEq] at taken
      obtain ⟨-, rfl⟩ := taken
      exact
        kept.of_within (within_evict order state.storage.mem)
          (fun _ _ isRead => isRead) (fun _ isPending => isPending) rfl
  | purgeAll =>
      cases taken
      refine
        kept.of_within ?_ (within_files_purgeAll state.storage)
          (fun _ isPending => isPending) rfl
      intro key entry isRead
      rw [ProxyCache.purgeAll, Table.get?_empty] at isRead
      cases isRead
  | land index =>
      obtain ⟨storage, landed, rfl⟩ := Option.map_eq_some_iff.mp taken
      exact kept.land landed
  | restart =>
      cases taken
      refine kept.of_within ?_ (fun _ _ isRead => isRead) ?_ rfl
      · intro key entry isRead
        rw [Storage.restart, Table.get?_empty] at isRead
        cases isRead
      · intro write isPending
        cases isPending

/-! ## Keys with one name -/

/-- A response is stored and written, and the process starts again. -/
def storedAndRestarted (key : CacheKey) (stored : CachedResponse) :
    List Operation :=
  [.set key stored 0 ⟨[], []⟩, .land 0, .restart]

variable (fileName) in
/-- What is there then. -/
theorem run_storedAndRestarted
    {disk : String}
    (isDisk : cache.diskPath = some disk)
    (key : CacheKey)
    (stored : CachedResponse) :
    ∃ state,
      run? (step? fileName cache) State.initial
          (storedAndRestarted key stored) = some state ∧
        state.stores = [⟨key, stored, 0⟩] ∧
        state.now = 0 ∧
        state.storage.mem = ∅ ∧
        state.storage.files.get? (disk, fileName key) =
          some (serializeEntry 0 (cache.newEntry stored 0)) := by
  have isPath : cache.filePath? fileName key = some (disk, fileName key) := by
    rw [ProxyCache.filePath?, isDisk]
    rfl
  have isPending :
      (cache.set fileName key stored 0 ⟨[], []⟩
          State.initial.storage).pending =
        [((disk, fileName key),
          serializeEntry 0 (cache.newEntry stored 0))] := by
    simp only [ProxyCache.set, isPath]
    rfl
  have isLanded :
      (cache.set fileName key stored 0 ⟨[], []⟩
          State.initial.storage).land? 0 =
        some
          { cache.set fileName key stored 0 ⟨[], []⟩
              State.initial.storage with
            files :=
              (cache.set fileName key stored 0 ⟨[], []⟩
                State.initial.storage).files.insert (disk, fileName key)
                (serializeEntry 0 (cache.newEntry stored 0))
            pending := [] } := by
    rw [Storage.land?, isPending]
    rfl
  refine
    ⟨{ storage :=
        { mem := ∅
          files :=
            (cache.set fileName key stored 0 ⟨[], []⟩
              State.initial.storage).files.insert (disk, fileName key)
              (serializeEntry 0 (cache.newEntry stored 0))
          pending := [] }
       now := 0
       stores := [⟨key, stored, 0⟩] }, ?_, rfl, rfl, rfl, ?_⟩
  · simp only [storedAndRestarted, run?, step?]
    rw [if_pos (show State.initial.now ≤ 0 from Nat.le_refl 0)]
    dsimp only
    rw [isLanded]
    rfl
  · dsimp only
    rw [Table.get?_insert, if_pos rfl]

/-- A key with the name of another one gets what that one has stored. -/
theorem not_isolated_of_sameName
    {disk : String}
    (isDisk : cache.diskPath = some disk)
    {first other : CacheKey}
    (sameName : fileName first = fileName other)
    (different : first ≠ other)
    (stored : CachedResponse) :
    ¬ Along (step? fileName cache) (Isolated fileName cache) State.initial
      (storedAndRestarted first stored ++ [.get other 0]) := by
  intro along
  obtain ⟨state, accepted, isStores, isNow, isMem, isFile⟩ :=
    run_storedAndRestarted fileName isDisk first stored
  have isPath :
      cache.filePath? fileName other = some (disk, fileName other) := by
    rw [ProxyCache.filePath?, isDisk]
    rfl
  have noEntry : state.storage.mem.get? other = none := by
    rw [isMem]
    exact Table.get?_empty other
  rw [sameName] at isFile
  have isResult :
      (cache.get fileName other 0 state.storage).1 =
        some
          (deserializeEntry 0
            (serializeEntry 0 (cache.newEntry stored 0))) := by
    rw [ProxyCache.get, noEntry]
    dsimp only
    rw [ProxyCache.getDisk, isPath]
    dsimp only
    rw [isFile]
    dsimp only
    rw [if_neg]
    intro isExpired
    have tooOld := of_decide_eq_true isExpired
    exact Nat.not_lt_zero _ tooOld
  have isTaken :
      step? fileName cache state (.get other 0) =
        some
          { state with
            storage := (cache.get fileName other 0 state.storage).2
            now := 0 } :=
    if_pos (Nat.le_of_eq isNow)
  obtain ⟨isolated, -⟩ := along_of_append along accepted _ isTaken
  obtain ⟨found, member, isOther, -⟩ := isolated other 0 _ rfl isResult
  rw [isStores] at member
  rw [List.mem_singleton.mp member] at isOther
  exact different isOther

end Runs

/--
All runs about some keys are isolated exactly if the cache has no files or the
keys have different file names.
-/
theorem isolated_iff
    (hash : String → BitVec 64)
    (cache : ProxyCache)
    (keys : CacheKey → Prop) :
    (∀ operations,
      (∀ operation ∈ operations, UsesOnly keys operation) →
      Along (step? (toFilename hash) cache)
        (Isolated (toFilename hash) cache) State.initial operations) ↔
      (cache.diskPath = none ∨
        ∀ first other,
          keys first →
          keys other →
          toFilename hash first = toFilename hash other →
          first = other) := by
  constructor
  · intro allIsolated
    cases isDisk : cache.diskPath with
    | none =>
        exact .inl rfl
    | some disk =>
        right
        intro first other isFirst isOther sameName
        by_contra different
        apply
          not_isolated_of_sameName isDisk sameName different ⟨200, [], []⟩
        apply allIsolated
        intro operation member key isKey
        simp only [storedAndRestarted, List.cons_append, List.nil_append,
          List.mem_cons, List.not_mem_nil, or_false] at member
        rcases member with rfl | rfl | rfl | rfl
        · cases isKey
          exact isFirst
        · cases isKey
        · cases isKey
        · cases isKey
          exact isOther
  · intro distinct operations usesOnly
    exact
      along_of_allowed
        (fun kept taken allowed => Kept.step kept distinct allowed taken)
        (fun kept _ allowed => Kept.isolated kept distinct allowed)
        kept_initial usesOnly

/-- The texts of two keys are joined to one, whatever the hash. -/
theorem toFilename_joined (hash : String → BitVec 64) :
    toFilename hash ⟨"GET", "a", "/x:/y"⟩ =
      toFilename hash ⟨"GET", "a:/x", "/y"⟩ :=
  rfl

/-- A hash, as an example. -/
def sampleHash (text : String) : BitVec 64 :=
  BitVec.ofNat 64 text.length

/-- What is stored for the path of one host is returned for that of another. -/
theorem not_isolated_joined :
    ¬ Along (step? (toFilename sampleHash) minuteCache)
      (Isolated (toFilename sampleHash) minuteCache) State.initial
      [.set ⟨"GET", "a", "/x:/y"⟩ shortResponse 0 ⟨[], []⟩, .land 0,
        .restart, .get ⟨"GET", "a:/x", "/y"⟩ 0] :=
  not_isolated_of_sameName rfl (toFilename_joined sampleHash) (by decide)
    shortResponse

end Sweety.CacheIsolation
