import Sweety.ProxyCache
import Sweety.StepRun

namespace Sweety.CacheFreshness

open KeyedTable StepRun

/-!
# How old a cached response can be

An entry in memory is as old as its creation says.  A file keeps how long its
entry had to live when it was written, which is the whole lifetime, and reading
the file starts this lifetime anew.
-/

/-- A call of `set`. -/
structure Stored where
  key : CacheKey
  response : CachedResponse
  storedAt : Nat
  deriving Repr, DecidableEq

/-- A cache, its clock and the calls of `set` so far. -/
structure State where
  storage : Storage
  now : Nat
  stores : List Stored

/-- The operations; a clock reading comes with those that read the clock. -/
inductive Operation where
  | get (key : CacheKey) (now : Nat)
  | set (key : CacheKey) (response : CachedResponse) (now : Nat)
      (order : EvictOrder)
  | evict (now : Nat) (order : EvictOrder)
  | purgeAll
  | land (index : Nat)
  | restart
  deriving Repr, DecidableEq

/-- Before the first operation, on an empty disk. -/
def State.initial : State where
  storage := ⟨∅, ∅, []⟩
  now := 0
  stores := []

variable (fileName : CacheKey → String) (cache : ProxyCache)

/-- One operation; the clock does not go back. -/
def step? (state : State) : Operation → Option State
  | .get key now =>
      if state.now ≤ now then
        some
          { state with
            storage := (cache.get fileName key now state.storage).2
            now := now }
      else
        none
  | .set key response now order =>
      if state.now ≤ now then
        some
          { storage :=
              cache.set fileName key response now order state.storage
            now := now
            stores := state.stores ++ [⟨key, response, now⟩] }
      else
        none
  | .evict now order =>
      if state.now ≤ now then
        some
          { state with
            storage :=
              { state.storage with
                mem := cache.evict now order state.storage.mem }
            now := now }
      else
        none
  | .purgeAll =>
      some { state with storage := cache.purgeAll state.storage }
  | .land index =>
      (state.storage.land? index).map fun storage =>
        { state with storage := storage }
  | .restart =>
      some { state with storage := state.storage.restart }

/--
A response that is returned was stored for the same key at most `ttl` seconds
before, up to one second.
-/
def Fresh (state : State) : Operation → Prop
  | .get key now =>
      ∀ entry,
        (cache.get fileName key now state.storage).1 = some entry →
          ∃ stored ∈ state.stores,
            stored.key = key ∧
              stored.response = entry.toCachedResponse ∧
              now ≤ stored.storedAt + (cache.ttl + 1) * second
  | _ =>
      True

/--
What a step must meet: a `get` finds a live entry in memory, or the cache has no
file for the key.
-/
def LeavesFiles (state : State) : Operation → Prop
  | .get key now =>
      state.storage.InMemory key now ∨
        ∀ path ∈ cache.filePath? fileName key,
          state.storage.files.get? path = none
  | _ =>
      True

/-- Every entry in memory is that of a call of `set` at its creation. -/
def Recorded (state : State) : Prop :=
  ∀ key entry,
    state.storage.mem.get? key = some entry →
      entry.ttl = cache.ttl * second ∧
        ⟨key, entry.toCachedResponse, entry.createdAt⟩ ∈ state.stores

variable {fileName} {cache}

theorem recorded_initial : Recorded cache State.initial := by
  intro key entry isRead
  rw [State.initial, Table.get?_empty] at isRead
  cases isRead

theorem Recorded.of_within
    {state after : State}
    (recorded : Recorded cache state)
    (fewer : Table.Within after.storage.mem state.storage.mem)
    (sameStores : after.stores = state.stores) :
    Recorded cache after := by
  intro key entry isRead
  rw [sameStores]
  exact recorded key entry (fewer key entry isRead)

/-- A `get` that leaves the files alone returns an entry of memory. -/
theorem inMemory_of_leavesFiles
    {state : State}
    {key : CacheKey}
    {now : Nat}
    (leavesFiles : LeavesFiles fileName cache state (.get key now)) :
    ((cache.get fileName key now state.storage).1 = none ∧
      Table.Within (cache.get fileName key now state.storage).2.mem
        state.storage.mem) ∨
    ∃ entry,
      state.storage.mem.get? key = some entry ∧
        entry.isExpired now = false ∧
        (cache.get fileName key now state.storage) =
          (some entry, state.storage) := by
  rcases get_cases (Prod.eta _).symm with
    ⟨entry, isEntry, alive, isResult, isAfter⟩ |
    ⟨isNone, fewer, _⟩ |
    ⟨path, record, notInMemory, isPath, isRecord, _⟩
  · exact .inr ⟨entry, isEntry, alive, Prod.ext isResult isAfter⟩
  · exact .inl ⟨isNone, fewer⟩
  · rcases leavesFiles with inMemory | noFile
    · exact absurd inMemory notInMemory
    · rw [noFile path isPath] at isRecord
      cases isRecord

theorem Recorded.step
    {state after : State}
    {operation : Operation}
    (recorded : Recorded cache state)
    (taken : step? fileName cache state operation = some after)
    (leavesFiles : LeavesFiles fileName cache state operation) :
    Recorded cache after := by
  cases operation with
  | get key now =>
      simp only [step?, Option.ite_none_right_eq_some,
        Option.some.injEq] at taken
      obtain ⟨_, rfl⟩ := taken
      rcases inMemory_of_leavesFiles leavesFiles with
        ⟨_, fewer⟩ | ⟨entry, _, _, isGet⟩
      · exact recorded.of_within fewer rfl
      · rw [isGet]
        exact recorded
  | set key response now order =>
      simp only [step?, Option.ite_none_right_eq_some,
        Option.some.injEq] at taken
      obtain ⟨_, rfl⟩ := taken
      intro other entry isRead
      rcases get?_mem_set isRead with ⟨rfl, rfl⟩ | wasThere
      · exact ⟨rfl, by simp [ProxyCache.newEntry]⟩
      · obtain ⟨sameTtl, inStores⟩ := recorded other entry wasThere
        exact ⟨sameTtl, List.mem_append_left _ inStores⟩
  | evict now order =>
      simp only [step?, Option.ite_none_right_eq_some,
        Option.some.injEq] at taken
      obtain ⟨_, rfl⟩ := taken
      exact recorded.of_within (within_evict order state.storage.mem) rfl
  | purgeAll =>
      obtain rfl := Option.some.inj taken
      intro key entry isRead
      rw [ProxyCache.purgeAll, Table.get?_empty] at isRead
      cases isRead
  | land index =>
      obtain ⟨storage, isStorage, rfl⟩ := Option.map_eq_some_iff.mp taken
      obtain ⟨write, _, rfl⟩ := Option.map_eq_some_iff.mp isStorage
      exact recorded
  | restart =>
      obtain rfl := Option.some.inj taken
      intro key entry isRead
      rw [Storage.restart, Table.get?_empty] at isRead
      cases isRead

/-- An entry of memory that is not expired is fresh. -/
theorem Recorded.fresh
    {state : State}
    {operation : Operation}
    (recorded : Recorded cache state)
    (leavesFiles : LeavesFiles fileName cache state operation) :
    Fresh fileName cache state operation := by
  cases operation with
  | get key now =>
      intro entry isResult
      rcases inMemory_of_leavesFiles leavesFiles with
        ⟨isNone, _⟩ | ⟨found, isFound, alive, isGet⟩
      · rw [isNone] at isResult
        cases isResult
      · rw [isGet] at isResult
        obtain rfl := Option.some.inj isResult
        obtain ⟨sameTtl, inStores⟩ := recorded key found isFound
        refine ⟨_, inStores, rfl, rfl, ?_⟩
        have young : now - found.createdAt ≤ found.ttl := by
          simpa [CacheEntry.isExpired] using alive
        rw [sameTtl] at young
        have longer : cache.ttl * second ≤ (cache.ttl + 1) * second :=
          Nat.mul_le_mul_right second (Nat.le_succ cache.ttl)
        show now ≤ found.createdAt + (cache.ttl + 1) * second
        omega
  | set | evict | purgeAll | land | restart =>
      trivial

/--
Along every run of a cache in which no `get` is answered from a file, whatever
is returned is fresh.
-/
theorem fresh_along_run
    (fileName : CacheKey → String)
    (cache : ProxyCache)
    (operations : List Operation)
    (leavesFiles :
      Along (step? fileName cache)
        (fun state operation _ =>
          LeavesFiles fileName cache state operation)
        State.initial operations) :
    Along (step? fileName cache)
      (fun state operation _ => Fresh fileName cache state operation)
      State.initial operations := by
  apply along_of_guarded_step _ _ (@recorded_initial cache) leavesFiles
  · intro state operation after recorded taken leaves
    exact recorded.step taken leaves
  · intro state operation after recorded _ leaves
    exact recorded.fresh leaves

/-- A cache for one minute, with files. -/
def minuteCache : ProxyCache where
  maxEntries := 10
  ttl := 60
  cacheableStatuses := [200]
  cacheableMethods := ["GET"]
  bypassHeaders := ["authorization"]
  diskPath := some "/cache"
  ignoreCacheControl := false
  ignoreSetCookie := false

def rootKey : CacheKey := ⟨"GET", "a.example", "/"⟩

def shortResponse : CachedResponse := ⟨200, [], [104, 105]⟩

/-- After half a minute the response is found in memory. -/
theorem fresh_after_half_minute :
    ∃ after,
      run? (step? CacheKey.path minuteCache) State.initial
          [.set rootKey shortResponse 0 ⟨[], []⟩, .land 0] = some after ∧
        Fresh CacheKey.path minuteCache after
          (.get rootKey (30 * second)) := by
  have along :=
    fresh_along_run CacheKey.path minuteCache
      [.set rootKey shortResponse 0 ⟨[], []⟩, .land 0,
        .get rootKey (30 * second)] ?_
  · obtain ⟨_, afterSet⟩ := along _ rfl
    obtain ⟨_, afterLand⟩ := afterSet _ rfl
    exact ⟨_, rfl, (afterLand _ rfl).1⟩
  · intro stored isStored
    obtain rfl := Option.some.inj isStored
    refine ⟨trivial, ?_⟩
    intro written isWritten
    obtain rfl := Option.some.inj isWritten
    refine ⟨trivial, ?_⟩
    intro answered _
    exact ⟨.inl ⟨minuteCache.newEntry shortResponse 0, by decide,
      by decide⟩, trivial⟩

/-- After a minute the file is read, and its lifetime starts anew. -/
theorem not_fresh_from_file :
    ∃ after,
      run? (step? CacheKey.path minuteCache) State.initial
          [.set rootKey shortResponse 0 ⟨[], []⟩, .land 0] = some after ∧
        ¬ Fresh CacheKey.path minuteCache after
          (.get rootKey (62 * second)) := by
  refine ⟨_, rfl, ?_⟩
  intro fresh
  obtain ⟨stored, inStores, _, _, young⟩ :=
    fresh
      { shortResponse with
        createdAt := 62 * second, ttl := 60 * second }
      (by decide)
  obtain rfl := List.mem_singleton.mp inStores
  revert young
  decide

end Sweety.CacheFreshness
