import Sweety.ProxyCache
import Sweety.StepRun

namespace Sweety.CachePrivacy

open HttpText KeyedTable StepRun

/-!
# Whose responses are cached

The two handlers that share `ProxyCache`, `reverse_proxy` and `fastcgi`, ask
`should_lookup` before they search the cache.  Before they store a response they
ask `is_cacheable` only, which sees the response and not the request.

A cache is a number, and `caches` has the settings of every cache that is ever
made.  A request comes with the cache its site has when the handler starts, so a
site that is reloaded is one whose requests come with another cache.  Caches
with the same directory share its files.
-/

/-- Who answers a request. -/
inductive Handler where
  | reverseProxy
  | fastCgi
  deriving Repr, DecidableEq

/-- What the handlers read of a request for the sake of the cache. -/
structure Request where
  handler : Handler
  cache : Option Nat
  method : String
  host : String
  path : String
  headers : HeaderMap
  deriving Repr, DecidableEq

/-- `cache_key`. -/
def Request.key (request : Request) : CacheKey :=
  CacheKey.new request.method request.host request.path

/-- A response that is stored, and the request it answers. -/
structure Stored where
  cache : Nat
  request : Request
  response : CachedResponse
  deriving Repr, DecidableEq

/--
The caches of a process and the requests it works on.  `spawned` has the calls
of `set` that the reverse proxy leaves to a task.  `memFrom` and `fileFrom`
remember where an entry comes from; no operation reads them.
-/
structure State where
  mem : Nat → Table CacheKey CacheEntry
  files : Table FilePath DiskRecord
  pending : List ((FilePath × DiskRecord) × Stored)
  spawned : List Stored
  inFlight : List Request
  memFrom : Nat × CacheKey → Option Stored
  fileFrom : FilePath → Option Stored

/-- Before the first request, on an empty disk. -/
def State.initial : State where
  mem := fun _ => ∅
  files := ∅
  pending := []
  spawned := []
  inFlight := []
  memFrom := fun _ => none
  fileFrom := fun _ => none

/-- What one cache works on. -/
def State.storage (cache : Nat) (state : State) : Storage :=
  ⟨state.mem cache, state.files, []⟩

/-- What can happen. -/
inductive Event where
  /-- A request comes and the cache is searched. -/
  | arrive (request : Request) (now : Nat)
  /-- A response to a request in flight has been read; retries read several. -/
  | respond (index : Nat) (response : CachedResponse) (now : Nat)
      (order : EvictOrder)
  | finish (index : Nat)
  /-- A task calls `set`. -/
  | runTask (index : Nat) (now : Nat) (order : EvictOrder)
  /-- A file is written. -/
  | land (index : Nat)
  | purgeAll (cache : Nat)
  | restart
  deriving Repr, DecidableEq

section Machine

variable (fileName : CacheKey → String) (caches : Nat → ProxyCache)

/-- Where the entry that a search finds comes from. -/
def foundFrom
    (cache : Nat)
    (key : CacheKey)
    (now : Nat)
    (state : State) :
    Option Stored :=
  if ((state.mem cache).get? key).any fun entry => !entry.isExpired now then
    state.memFrom (cache, key)
  else
    ((caches cache).filePath? fileName key).bind state.fileFrom

/-- The search of both handlers. -/
def lookup
    (request : Request)
    (now : Nat)
    (state : State) :
    Option CacheEntry × State :=
  match request.cache with
  | none =>
      (none, state)
  | some cache =>
      if (caches cache).shouldLookup request.method request.headers then
        let found :=
          (caches cache).get fileName request.key now (state.storage cache)
        (found.1,
          { state with
            mem := Function.update state.mem cache found.2.mem
            files := found.2.files
            memFrom :=
              if found.1.isSome then
                Function.update state.memFrom (cache, request.key)
                  (foundFrom fileName caches cache request.key now state)
              else
                state.memFrom })
      else
        (none, state)

/-- A call of `set`. -/
def write
    (stored : Stored)
    (now : Nat)
    (order : EvictOrder)
    (state : State) :
    State :=
  let key := stored.request.key
  let written :=
    (caches stored.cache).set fileName key stored.response now order
      (state.storage stored.cache)
  { state with
    mem := Function.update state.mem stored.cache written.mem
    pending :=
      state.pending ++ written.pending.map fun file => (file, stored)
    memFrom :=
      Function.update state.memFrom (stored.cache, key) (some stored) }

/--
The end of `send_recv_pooled`, which spawns a task, and `write_fcgi_cache`,
which does not.
-/
def respond
    (request : Request)
    (response : CachedResponse)
    (now : Nat)
    (order : EvictOrder)
    (state : State) :
    State :=
  match request.cache with
  | none =>
      state
  | some cache =>
      if (caches cache).isCacheable response.status response.headers then
        match request.handler with
        | .reverseProxy =>
            { state with
              spawned := state.spawned ++ [⟨cache, request, response⟩] }
        | .fastCgi =>
            write fileName caches ⟨cache, request, response⟩ now order state
      else
        state

/-- A request that finds no entry is forwarded. -/
def arrive (request : Request) (now : Nat) (state : State) : State :=
  match lookup fileName caches request now state with
  | (some _, after) =>
      after
  | (none, after) =>
      { after with inFlight := after.inFlight ++ [request] }

def step? (state : State) : Event → Option State
  | .arrive request now =>
      some (arrive fileName caches request now state)
  | .respond index response now order =>
      state.inFlight[index]?.map fun request =>
        respond fileName caches request response now order state
  | .finish index =>
      some { state with inFlight := state.inFlight.eraseIdx index }
  | .runTask index now order =>
      state.spawned[index]?.map fun stored =>
        write fileName caches stored now order
          { state with spawned := state.spawned.eraseIdx index }
  | .land index =>
      state.pending[index]?.map fun file =>
        { state with
          files := state.files.insert file.1.1 file.1.2
          pending := state.pending.eraseIdx index
          fileFrom :=
            Function.update state.fileFrom file.1.1 (some file.2) }
  | .purgeAll cache =>
      let purged := (caches cache).purgeAll (state.storage cache)
      some
        { state with
          mem := Function.update state.mem cache purged.mem
          files := purged.files }
  | .restart =>
      some
        { state with
          mem := fun _ => ∅
          pending := []
          spawned := []
          inFlight := [] }

/-- `should_lookup` of the request that a response was stored for. -/
def Stored.Public (stored : Stored) : Prop :=
  (caches stored.cache).shouldLookup stored.request.method
    stored.request.headers = true

/--
An entry that answers a request was stored from the response to a request for
which `should_lookup` was true.
-/
def ServesPublic (state : State) : Event → Prop
  | .arrive request now =>
      ∀ cache entry,
        request.cache = some cache →
        (lookup fileName caches request now state).1 = some entry →
          ∃ stored,
            foundFrom fileName caches cache request.key now state =
                some stored ∧
              stored.response = entry.toCachedResponse ∧
              stored.Public caches
  | _ =>
      True

/--
What a step must meet: a response that `is_cacheable` accepts answers a request
for which `should_lookup` is true, or one whose method is not cached, in a cache
without files.
-/
def StoresPublic (state : State) : Event → Prop
  | .respond index response _ _ =>
      ∀ request cache,
        state.inFlight[index]? = some request →
        request.cache = some cache →
          (caches cache).shouldLookup request.method request.headers = true ∨
            (caches cache).isCacheable response.status response.headers =
              false ∨
            ((caches cache).cachesMethod request.method = false ∧
              (caches cache).diskPath = none)
  | _ =>
      True

end Machine

/-! ## What memory and the files hold -/

/-- A key has the method of its request, as far as caching it goes. -/
theorem cachesMethod_key
    (cache : ProxyCache)
    (request : Request) :
    cache.cachesMethod request.key.method =
      cache.cachesMethod request.method := by
  simp only [ProxyCache.cachesMethod, Request.key, CacheKey.new,
    eqIgnoreAsciiCase, String.toList_ofList,
    toAsciiLowercase_toAsciiUppercase]

/-- The response a file keeps. -/
def response (record : DiskRecord) : CachedResponse :=
  (deserializeEntry 0 record).toCachedResponse

section Invariant

variable {fileName : CacheKey → String} {caches : Nat → ProxyCache}

/-- A response that may be handed to `set`. -/
def Stored.Allowed (caches : Nat → ProxyCache) (stored : Stored) : Prop :=
  stored.Public caches ∨
    ((caches stored.cache).cachesMethod stored.request.method = false ∧
      (caches stored.cache).diskPath = none)

/-- Every entry that a search can find comes from a public request. -/
structure Kept (caches : Nat → ProxyCache) (state : State) : Prop where
  mem :
    ∀ cache key entry,
      (state.mem cache).get? key = some entry →
        ∃ stored,
          state.memFrom (cache, key) = some stored ∧
            stored.response = entry.toCachedResponse ∧
            ((caches cache).cachesMethod key.method = true →
              stored.Public caches)
  files :
    ∀ path record,
      state.files.get? path = some record →
        ∃ stored,
          state.fileFrom path = some stored ∧
            stored.response = response record ∧
            stored.Public caches
  pending :
    ∀ file ∈ state.pending,
      file.2.response = response file.1.2 ∧ file.2.Public caches
  spawned :
    ∀ stored ∈ state.spawned, stored.Allowed caches

theorem kept_initial : Kept caches State.initial := by
  refine ⟨?_, ?_, ?_, ?_⟩
  · intro cache key entry isRead
    rw [State.initial, Table.get?_empty] at isRead
    cases isRead
  · intro path record isRead
    rw [State.initial, Table.get?_empty] at isRead
    cases isRead
  · intro file isIn
    cases isIn
  · intro stored isIn
    cases isIn

theorem foundFrom_of_inMemory
    {cache : Nat}
    {key : CacheKey}
    {now : Nat}
    {state : State}
    {entry : CacheEntry}
    (isEntry : (state.mem cache).get? key = some entry)
    (alive : entry.isExpired now = false) :
    foundFrom fileName caches cache key now state =
      state.memFrom (cache, key) := by
  simp [foundFrom, isEntry, alive]

theorem foundFrom_of_file
    {cache : Nat}
    {key : CacheKey}
    {now : Nat}
    {state : State}
    {path : FilePath}
    (notInMemory : ¬ (state.storage cache).InMemory key now)
    (isPath : (caches cache).filePath? fileName key = some path) :
    foundFrom fileName caches cache key now state =
      state.fileFrom path := by
  have notLive :
      ((state.mem cache).get? key).any (fun entry => !entry.isExpired now) =
        false := by
    rw [Option.any_eq_false]
    intro entry isEntry
    cases alive : entry.isExpired now with
    | true =>
        rfl
    | false =>
        exact absurd ⟨entry, isEntry, alive⟩ notInMemory
  simp [foundFrom, notLive, isPath]

/-- What a search finds comes from a public request. -/
theorem Kept.found
    {state : State}
    {cache : Nat}
    {key : CacheKey}
    {now : Nat}
    {entry : CacheEntry}
    (kept : Kept caches state)
    (isFound :
      ((caches cache).get fileName key now (state.storage cache)).1 =
        some entry) :
    ∃ stored,
      foundFrom fileName caches cache key now state = some stored ∧
        stored.response = entry.toCachedResponse ∧
        ((caches cache).cachesMethod key.method = true →
          stored.Public caches) := by
  rcases get_cases (Prod.eta _).symm with
    ⟨live, isLive, alive, isResult, _⟩ |
    ⟨isNone, _⟩ |
    ⟨path, record, notInMemory, isPath, isRecord, isResult, _⟩
  · rw [isFound] at isResult
    obtain rfl := Option.some.inj isResult
    rw [foundFrom_of_inMemory isLive alive]
    exact kept.mem cache key entry isLive
  · rw [isFound] at isNone
    cases isNone
  · rw [isFound] at isResult
    obtain rfl := Option.some.inj isResult
    obtain ⟨stored, isStored, sameResponse, isPublic⟩ :=
      kept.files path record isRecord
    rw [foundFrom_of_file notInMemory isPath]
    exact ⟨stored, isStored, sameResponse, fun _ => isPublic⟩

/-- After a search an entry is one of before or the one that was found. -/
theorem get?_mem_get
    {storage : Storage}
    {cache : ProxyCache}
    {key other : CacheKey}
    {now : Nat}
    {entry : CacheEntry}
    (isRead :
      (cache.get fileName key now storage).2.mem.get? other = some entry) :
    other = key ∧ (cache.get fileName key now storage).1 = some entry ∨
      (other ≠ key ∨ (cache.get fileName key now storage).1 = none) ∧
        storage.mem.get? other = some entry := by
  rcases get_cases (Prod.eta (cache.get fileName key now storage)).symm with
    ⟨live, isLive, _, isResult, isAfter⟩ |
    ⟨isNone, fewer, _⟩ |
    ⟨path, record, _, _, _, isResult, entries, _⟩
  · rw [isAfter] at isRead
    by_cases same : other = key
    · subst same
      rw [isLive] at isRead
      exact .inl ⟨rfl, isResult.trans isRead⟩
    · exact .inr ⟨.inl same, isRead⟩
  · exact .inr ⟨.inr isNone, fewer other entry isRead⟩
  · rcases entries other entry isRead with ⟨same, rfl⟩ | ⟨different, wasThere⟩
    · exact .inl ⟨same, isResult⟩
    · exact .inr ⟨.inl different, wasThere⟩

theorem within_files_get
    (storage : Storage)
    (cache : ProxyCache)
    (key : CacheKey)
    (now : Nat) :
    Table.Within (cache.get fileName key now storage).2.files
      storage.files := by
  rcases get_cases (Prod.eta (cache.get fileName key now storage)).symm with
    ⟨_, _, _, _, isAfter⟩ |
    ⟨_, _, fewer, _⟩ |
    ⟨_, _, _, _, _, _, _, sameFiles, _⟩
  · rw [isAfter]
    exact fun _ _ isRead => isRead
  · exact fewer
  · rw [sameFiles]
    exact fun _ _ isRead => isRead

theorem within_files_purgeAll
    (cache : ProxyCache)
    (storage : Storage) :
    Table.Within (cache.purgeAll storage).files storage.files := by
  simp only [ProxyCache.purgeAll]
  split
  · exact fun _ _ isRead => isRead
  · exact Table.within_eraseAll _ storage.files

theorem Kept.lookup
    {state : State}
    {request : Request}
    {now : Nat}
    (kept : Kept caches state) :
    Kept caches (lookup fileName caches request now state).2 := by
  unfold CachePrivacy.lookup
  split
  · exact kept
  · next cache isCache =>
      split
      · refine ⟨?_, ?_, kept.pending, kept.spawned⟩
        · intro other key entry isRead
          simp only at isRead ⊢
          by_cases sameCache : other = cache
          · subst sameCache
            rw [Function.update_self] at isRead
            rcases get?_mem_get isRead with
              ⟨rfl, isFound⟩ | ⟨notFound, wasThere⟩
            · simp only [isFound, Option.isSome_some, if_true,
                Function.update_self]
              exact kept.found isFound
            · obtain ⟨stored, isStored, isKept⟩ :=
                kept.mem other key entry wasThere
              refine ⟨stored, ?_, isKept⟩
              rcases notFound with differentKey | isNone
              · have different : (other, key) ≠ (other, request.key) := by
                  simp [differentKey]
                rw [ite_apply, Function.update_of_ne different, ite_self]
                exact isStored
              · simp [isNone, isStored]
          · rw [Function.update_of_ne sameCache] at isRead
            obtain ⟨stored, isStored, isKept⟩ :=
              kept.mem other key entry isRead
            refine ⟨stored, ?_, isKept⟩
            have different : (other, key) ≠ (cache, request.key) := by
              simp [sameCache]
            rw [ite_apply, Function.update_of_ne different, ite_self]
            exact isStored
        · intro path record isRead
          exact kept.files path record
            (within_files_get _ _ _ _ path record isRead)
      · exact kept

theorem Kept.write
    {state : State}
    {stored : Stored}
    {now : Nat}
    {order : EvictOrder}
    (kept : Kept caches state)
    (allowed : stored.Allowed caches) :
    Kept caches (write fileName caches stored now order state) := by
  refine ⟨?_, kept.files, ?_, kept.spawned⟩
  · intro cache key entry isRead
    simp only [CachePrivacy.write] at isRead ⊢
    by_cases sameCache : cache = stored.cache
    · subst sameCache
      rw [Function.update_self] at isRead
      by_cases sameKey : key = stored.request.key
      · subst sameKey
        rw [Function.update_self]
        rw [get?_mem_set_self] at isRead
        obtain rfl := Option.some.inj isRead
        refine ⟨stored, rfl, rfl, ?_⟩
        · intro caching
          rw [cachesMethod_key] at caching
          rcases allowed with isPublic | ⟨notCached, _⟩
          · exact isPublic
          · rw [notCached] at caching
            cases caching
      · rcases get?_mem_set isRead with ⟨same, _⟩ | wasThere
        · exact absurd same sameKey
        · rw [Function.update_of_ne (by simp [sameKey])]
          exact kept.mem _ key entry wasThere
    · rw [Function.update_of_ne sameCache] at isRead
      rw [Function.update_of_ne (by simp [sameCache])]
      exact kept.mem cache key entry isRead
  · intro file isIn
    simp only [CachePrivacy.write, List.mem_append, List.mem_map] at isIn
    rcases isIn with wasPending | ⟨written, isWritten, rfl⟩
    · exact kept.pending file wasPending
    · rcases mem_pending_set isWritten with isOld | ⟨hasDisk, isRecord⟩
      · cases isOld
      · refine ⟨?_, ?_⟩
        · rw [response, isRecord, response_deserializeEntry]
          rfl
        · rcases allowed with isPublic | ⟨_, noDisk⟩
          · exact isPublic
          · exact absurd noDisk hasDisk

/-- One step keeps the entries apart from what is not public. -/
theorem Kept.step
    {state after : State}
    {event : Event}
    (kept : Kept caches state)
    (taken : step? fileName caches state event = some after)
    (storesPublic : StoresPublic caches state event) :
    Kept caches after := by
  cases event with
  | arrive request now =>
      obtain rfl := Option.some.inj taken
      have searched :
          Kept caches
            (CachePrivacy.lookup fileName caches request now state).2 :=
        kept.lookup
      unfold arrive
      split
      · next isFound =>
          rw [isFound] at searched
          exact searched
      · next isFound =>
          rw [isFound] at searched
          exact ⟨searched.mem, searched.files, searched.pending,
            searched.spawned⟩
  | respond index response now order =>
      obtain ⟨request, isRequest, rfl⟩ := Option.map_eq_some_iff.mp taken
      unfold respond
      split
      · exact kept
      · next cache isCache =>
          split
          · next cacheable =>
              have allowed :
                  Stored.Allowed caches ⟨cache, request, response⟩ := by
                rcases storesPublic request cache isRequest isCache with
                  isPublic | notCacheable | unread
                · exact .inl isPublic
                · rw [notCacheable] at cacheable
                  cases cacheable
                · exact .inr unread
              split
              · refine ⟨kept.mem, kept.files, kept.pending, ?_⟩
                intro stored isSpawned
                rcases List.mem_append.mp isSpawned with wasSpawned | isNew
                · exact kept.spawned stored wasSpawned
                · obtain rfl := List.mem_singleton.mp isNew
                  exact allowed
              · exact kept.write allowed
          · exact kept
  | finish index =>
      obtain rfl := Option.some.inj taken
      exact ⟨kept.mem, kept.files, kept.pending, kept.spawned⟩
  | runTask index now order =>
      obtain ⟨stored, isSpawned, rfl⟩ := Option.map_eq_some_iff.mp taken
      refine Kept.write ?_
        (kept.spawned stored (List.mem_of_getElem? isSpawned))
      refine ⟨kept.mem, kept.files, kept.pending, ?_⟩
      intro other isLeft
      exact kept.spawned other (List.mem_of_mem_eraseIdx isLeft)
  | land index =>
      obtain ⟨file, isPending, rfl⟩ := Option.map_eq_some_iff.mp taken
      have isPublic := kept.pending file (List.mem_of_getElem? isPending)
      refine ⟨kept.mem, ?_, ?_, kept.spawned⟩
      · intro path record isRead
        simp only [Table.get?_insert] at isRead
        split at isRead
        · next same =>
            subst same
            obtain rfl := Option.some.inj isRead
            exact ⟨file.2, Function.update_self _ _ _, isPublic⟩
        · next different =>
            simp only [Function.update_of_ne different]
            exact kept.files path record isRead
      · intro other isLeft
        exact kept.pending other (List.mem_of_mem_eraseIdx isLeft)
  | purgeAll cache =>
      obtain rfl := Option.some.inj taken
      refine ⟨?_, ?_, kept.pending, kept.spawned⟩
      · intro other key entry isRead
        by_cases sameCache : other = cache
        · subst sameCache
          simp only [Function.update_self, ProxyCache.purgeAll,
            Table.get?_empty, reduceCtorEq] at isRead
        · simp only [Function.update_of_ne sameCache] at isRead
          exact kept.mem other key entry isRead
      · intro path record isRead
        exact kept.files path record
          (within_files_purgeAll _ _ path record isRead)
  | restart =>
      obtain rfl := Option.some.inj taken
      refine ⟨?_, kept.files, ?_, ?_⟩
      · intro cache key entry isRead
        rw [Table.get?_empty] at isRead
        cases isRead
      · intro file isIn
        cases isIn
      · intro stored isIn
        cases isIn

/-- A search by `should_lookup` finds what comes from a public request. -/
theorem Kept.servesPublic
    {state : State}
    {event : Event}
    (kept : Kept caches state) :
    ServesPublic fileName caches state event := by
  cases event with
  | arrive request now =>
      intro cache entry isCache isFound
      simp only [CachePrivacy.lookup, isCache] at isFound
      split at isFound
      · next searched =>
          obtain ⟨stored, isStored, sameResponse, isPublic⟩ :=
            kept.found isFound
          refine ⟨stored, isStored, sameResponse, isPublic ?_⟩
          rw [cachesMethod_key]
          simp only [ProxyCache.shouldLookup, Bool.and_eq_true] at searched
          exact searched.1
      · cases isFound
  | respond | finish | runTask | land | purgeAll | restart =>
      trivial

end Invariant

/--
Along every run in which whatever is stored answers a request that may be looked
up, every entry that is served comes from such a request.
-/
theorem servesPublic_along_run
    (fileName : CacheKey → String)
    (caches : Nat → ProxyCache)
    (events : List Event)
    (storesPublic :
      Along (step? fileName caches)
        (fun state event _ => StoresPublic caches state event)
        State.initial events) :
    Along (step? fileName caches)
      (fun state event _ => ServesPublic fileName caches state event)
      State.initial events := by
  apply along_of_guarded_step _ _ (@kept_initial caches) storesPublic
  · intro state event after kept taken stores
    exact kept.step taken stores
  · intro state event after kept _ _
    exact kept.servesPublic

/-- A cache for one minute that a request with credentials passes by. -/
def credentialCache : ProxyCache where
  maxEntries := 10
  ttl := 60
  cacheableStatuses := [200]
  cacheableMethods := ["GET"]
  bypassHeaders := ["authorization"]
  diskPath := none
  ignoreCacheControl := false
  ignoreSetCookie := false

/-- A request for the account page. -/
def accountRequest (headers : HeaderMap) : Request where
  handler := .reverseProxy
  cache := some 0
  method := "GET"
  host := "a.example"
  path := "/account"
  headers := headers

/-- What the upstream answers. -/
def accountResponse : CachedResponse := ⟨200, [], [97]⟩

/-- One request is answered and its response is stored. -/
def answered (headers : HeaderMap) : List Event :=
  [.arrive (accountRequest headers) 0, .respond 0 accountResponse 0 ⟨[], []⟩,
    .runTask 0 0 ⟨[], []⟩]

/-- The answer to a request without credentials is served to another one. -/
theorem servesPublic_account :
    ∃ after,
      run? (step? CacheKey.path fun _ => credentialCache) State.initial
          (answered []) = some after ∧
        ServesPublic CacheKey.path (fun _ => credentialCache) after
          (.arrive (accountRequest []) second) := by
  have along :=
    servesPublic_along_run CacheKey.path (fun _ => credentialCache)
      (answered [] ++ [.arrive (accountRequest []) second]) ?_
  · obtain ⟨_, afterArrive⟩ := along _ rfl
    obtain ⟨_, afterRespond⟩ := afterArrive _ rfl
    obtain ⟨_, afterTask⟩ := afterRespond _ rfl
    exact ⟨_, rfl, (afterTask _ rfl).1⟩
  · intro arrived isArrived
    obtain rfl := Option.some.inj isArrived
    refine ⟨trivial, ?_⟩
    intro responded _
    refine ⟨?_, fun _ _ => ⟨trivial, fun _ _ => ⟨trivial, trivial⟩⟩⟩
    intro request cache isRequest isCache
    obtain rfl := Option.some.inj isRequest
    have isPublic : credentialCache.shouldLookup "GET" [] = true := by
      decide
    exact .inl isPublic

/-- The answer to a request with credentials is served to one without. -/
theorem not_servesPublic_account :
    ∃ after,
      run? (step? CacheKey.path fun _ => credentialCache) State.initial
          (answered [("authorization", [97])]) = some after ∧
        ¬ ServesPublic CacheKey.path (fun _ => credentialCache) after
          (.arrive (accountRequest []) second) := by
  refine ⟨_, rfl, ?_⟩
  intro servesPublic
  obtain ⟨stored, isStored, _, isPublic⟩ :=
    servesPublic 0 (credentialCache.newEntry accountResponse 0) rfl
      (by decide)
  have fromCredentials :
      stored =
        ⟨0, accountRequest [("authorization", [97])], accountResponse⟩ :=
    (Option.some.inj isStored).symm
  subst fromCredentials
  revert isPublic
  unfold Stored.Public
  decide

end Sweety.CachePrivacy
