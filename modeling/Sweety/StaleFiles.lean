import Sweety.StaticCache
import Sweety.StepRun

namespace Sweety.StaleFiles

open HttpText Router StaticCache

/-!
# Files that change while they are cached

Requests, changes of files and the events of the watcher in any order.  A
request asks for the size and the time of its file, then reads it and stores it
under one key and under another, or else uses a descriptor from the second
cache; other things happen between any two of these steps.
`start_file_cache_watcher` removes the entries whose keys an event names, and
nothing ever leaves the cache of descriptors for a change.

For each canonical path the state counts how often what stands there has
changed, and keeps the count at the last event that named it.  What a request
reads is marked with the canonical path of its file and with the count at that
time.
-/

/-! ## The state -/

/-- Where the content of an entry was read, and when. -/
structure Origin where
  filePath : List Char
  version : Nat
  deriving DecidableEq

/-- `FdCacheEntry`. -/
structure FdCacheEntry where
  fileSize : Nat
  modifiedSecs : Nat
  fd : Nat
  deriving DecidableEq

/-- How far a request has come that found no entry. -/
inductive Flight where
  | asked
    (request : StaticRequest)
    (fastKey filePath : List Char)
    (fileSize modifiedSecs : Nat)
  | loaded
    (fastKey filePath : List Char)
    (stored : Stored Origin)
  | storing
    (fastKey : List Char)
    (stored : Stored Origin)
  | opened
    (filePath : List Char)
    (entry : FdCacheEntry)

/--
The files, the caches, the requests under way and what the watcher has seen.
-/
structure State where
  files : FileSystem
  fileCache : FileCache Origin
  accessCounter : AccessCounter
  fdCache : List Char → Option FdCacheEntry
  flights : Nat → Option Flight
  versions : List Char → Nat
  processed : List Char → Nat

/-- The kinds of events of the watcher. -/
inductive EventKind where
  | create
  | modify
  | remove
  | other
  deriving Repr, DecidableEq

/-- What the callback looks at. -/
def EventKind.isWatched : EventKind → Bool
  | .create | .modify | .remove =>
      true
  | .other =>
      false

/-- Whether such an event says that a file was changed. -/
def EventKind.isChange : EventKind → Bool
  | .modify | .remove =>
      true
  | .create | .other =>
      false

/-- What happens. -/
inductive Label where
  | arrive (id : Nat) (request : StaticRequest)
  | proceed (id : Nat)
  | change (files : FileSystem)
  | event (kind : EventKind) (paths : List (List Char))
  | evict (keys : List (List Char))
  | evictFds (keys : List (List Char))
  | forget (keys : List (List Char))

/-! ## Steps -/

section Steps

variable (tools : StaticTools) (global : StaticGlobal)

/-- Put a request under way, or end it. -/
def State.setFlight
    (state : State)
    (id : Nat)
    (flight : Option Flight) :
    State :=
  { state with flights := Function.update state.flights id flight }

/-- `handle_sweety` up to the size and the time of the file. -/
def arrive (state : State) (id : Nat) (request : StaticRequest) : State :=
  match lookupKey request with
  | .refused _ =>
      state
  | .key key =>
      match state.fileCache key with
      | some _ =>
          state
      | none =>
          match locateFile state.files request with
          | .refused _ =>
              state
          | .file filePath object =>
              if clientHas tools request.headers
                  (generateEtag object.data.length object.modifiedSecs)
                  object.modifiedSecs then
                state
              else
                state.setFlight id
                  (some
                    (.asked request key filePath object.data.length
                      object.modifiedSecs))

/-- Where the file of a path stands. -/
def canonicalPath (files : FileSystem) (filePath : List Char) : List Char :=
  (files.disk.canonicalize filePath).getD filePath

/-- The next step of a request. -/
def proceed (state : State) (id : Nat) : Flight → State
  | .asked request fastKey filePath fileSize modifiedSecs =>
      if fileCacheMaxBytes < fileSize then
        match state.fdCache filePath with
        | some _ =>
            state.setFlight id none
        | none =>
            match state.files.inode filePath with
            | some fd =>
                state.setFlight id
                  (some (.opened filePath ⟨fileSize, modifiedSecs, fd⟩))
            | none =>
                state.setFlight id none
      else
        match state.files.stat filePath with
        | some object =>
            let path := canonicalPath state.files filePath
            let entry :=
              makeEntry tools (request.settings global) filePath fileSize
                modifiedSecs object.data
            state.setFlight id
              (some
                (.loaded fastKey filePath
                  ⟨entry, ⟨path, state.versions path⟩⟩))
        | none =>
            state.setFlight id none
  | .loaded fastKey filePath stored =>
      let counted := accessCountCheck state.accessCounter filePath
      let after := { state with accessCounter := counted.2 }
      if counted.1 then
        { after with
          fileCache :=
            Function.update state.fileCache filePath (some stored) }.setFlight
          id
            (if fastKey = filePath then
              none
            else
              some (.storing fastKey stored))
      else
        after.setFlight id none
  | .storing fastKey stored =>
      { state with
        fileCache :=
          Function.update state.fileCache fastKey (some stored) }.setFlight
        id none
  | .opened filePath entry =>
      { state with
        fdCache :=
          Function.update state.fdCache filePath (some entry) }.setFlight
        id none

/-- The callback of `start_file_cache_watcher`. -/
def watch (state : State) (kind : EventKind) (paths : List (List Char)) :
    State :=
  { state with
    fileCache :=
      if kind.isWatched then without paths state.fileCache
      else state.fileCache
    processed := fun path =>
      if kind.isChange && paths.contains path then state.versions path
      else state.processed path }

/-- Files change. -/
def changeFiles (state : State) (files : FileSystem) : State :=
  { state with
    files
    versions := fun path =>
      if files.stat path = state.files.stat path then state.versions path
      else state.versions path + 1 }

def step (state : State) : Label → Option State
  | .arrive id request =>
      match state.flights id with
      | some _ =>
          none
      | none =>
          some (arrive tools state id request)
  | .proceed id =>
      (state.flights id).map (proceed tools global state id)
  | .change files =>
      some (changeFiles state files)
  | .event kind paths =>
      some (watch state kind paths)
  | .evict keys =>
      some { state with fileCache := without keys state.fileCache }
  | .evictFds keys =>
      some { state with fdCache := without keys state.fdCache }
  | .forget keys =>
      some
        { state with
          accessCounter := fun key =>
            if keys.contains key then 0 else state.accessCounter key }

end Steps

/-- Nothing is cached, counted or under way. -/
def State.start (files : FileSystem) : State where
  files
  fileCache _ := none
  accessCounter _ := 0
  fdCache _ := none
  flights _ := none
  versions _ := 0
  processed _ := 0

/-! ## What is wanted -/

/--
No request is answered from an entry that was read before a change that the
watcher has been told of, or with a descriptor of a file of another size or time
than was just asked.
-/
def Fresh (before : State) (label : Label) (_ : State) : Prop :=
  match label with
  | .arrive _ request =>
      ∀ stored,
        found? before.fileCache request = some stored →
        before.processed stored.origin.filePath ≤ stored.origin.version
  | .proceed id =>
      ∀ request fastKey filePath fileSize modifiedSecs entry,
        before.flights id =
          some (.asked request fastKey filePath fileSize modifiedSecs) →
        fileCacheMaxBytes < fileSize →
        before.fdCache filePath = some entry →
        (before.files.object entry.fd).data.length = fileSize ∧
          (before.files.object entry.fd).modifiedSecs = modifiedSecs
  | .change _ | .event _ _ | .evict _ | .evictFds _ | .forget _ =>
      True

/-- What a request may do next. -/
def FlightMeets (state : State) : Flight → Prop
  | .asked _ _ filePath fileSize modifiedSecs =>
      fileCacheMaxBytes < fileSize →
      state.fdCache filePath ≠ none →
      ∃ object,
        state.files.stat filePath = some object ∧
          object.data.length = fileSize ∧
          object.modifiedSecs = modifiedSecs
  | .loaded _ filePath stored =>
      (accessCountCheck state.accessCounter filePath).1 = true →
      state.processed stored.origin.filePath ≤ stored.origin.version
  | .storing _ stored =>
      state.processed stored.origin.filePath ≤ stored.origin.version
  | .opened filePath entry =>
      state.files.inode filePath = none ∨
        state.files.inode filePath = some entry.fd

/--
An event finds every older content of its files under keys that it names, no
event for a file is processed between reading and storing it, a path whose
descriptor is kept gets no other file, and a file is as it was asked when a kept
descriptor is used.
-/
def Meets (before : State) (label : Label) (_ : State) : Prop :=
  match label with
  | .proceed id =>
      ∀ flight, before.flights id = some flight → FlightMeets before flight
  | .change files =>
      ∀ path entry,
        before.fdCache path = some entry →
        files.inode path = none ∨ files.inode path = some entry.fd
  | .event kind paths =>
      kind.isChange = true →
      ∀ key stored,
        before.fileCache key = some stored →
        stored.origin.filePath ∈ paths →
        stored.origin.version < before.versions stored.origin.filePath →
        key ∈ paths
  | .arrive _ _ | .evict _ | .evictFds _ | .forget _ =>
      True

/-! ## What holds all along -/

/--
Entries are not older than the last event, descriptors belong to their paths.
-/
structure Current (state : State) : Prop where
  entries :
    ∀ key stored,
      state.fileCache key = some stored →
      state.processed stored.origin.filePath ≤ stored.origin.version
  descriptors :
    ∀ path entry,
      state.fdCache path = some entry →
      state.files.inode path = none ∨
        state.files.inode path = some entry.fd

theorem current_start (files : FileSystem) : Current (State.start files) := by
  constructor
  · intro key stored isStored
    cases isStored
  · intro path entry isKept
    cases isKept

section Preservation

variable
  {tools : StaticTools}
  {global : StaticGlobal}
  {state : State}

theorem without_eq_some
    {Value : Type}
    {keys : List (List Char)}
    {table : List Char → Option Value}
    {key : List Char}
    {value : Value}
    (isLeft : without keys table key = some value) :
    key ∉ keys ∧ table key = some value := by
  unfold without at isLeft
  split at isLeft
  · cases isLeft
  · rename_i notNamed
    exact ⟨notNamed, isLeft⟩

theorem update_eq_some
    {Value : Type}
    {table : List Char → Option Value}
    {key other : List Char}
    {added value : Value}
    (isValue : Function.update table key (some added) other = some value) :
    value = added ∨ table other = some value := by
  by_cases same : other = key
  · rw [same, Function.update_self] at isValue
    exact Or.inl (Option.some.inj isValue).symm
  · rw [Function.update_of_ne same] at isValue
    exact Or.inr isValue

theorem Current.setFlight
    (current : Current state)
    (id : Nat)
    (flight : Option Flight) :
    Current (state.setFlight id flight) :=
  ⟨current.entries, current.descriptors⟩

theorem Current.arrive
    (current : Current state)
    (id : Nat)
    (request : StaticRequest) :
    Current (arrive tools state id request) := by
  unfold StaleFiles.arrive
  split
  · exact current
  · split
    · exact current
    · split
      · exact current
      · split
        · exact current
        · exact current.setFlight id _

/-- An entry that is not older than the last event may be stored. -/
theorem Current.store
    (current : Current state)
    {stored : Stored Origin}
    (notOlder :
      state.processed stored.origin.filePath ≤ stored.origin.version)
    (key : List Char) :
    Current
      { state with
        fileCache := Function.update state.fileCache key (some stored) } := by
  constructor
  · intro other found isFound
    rcases update_eq_some isFound with same | isOld
    · rw [same]
      exact notOlder
    · exact current.entries other found isOld
  · exact current.descriptors

theorem Current.proceed
    (current : Current state)
    (id : Nat)
    {flight : Flight}
    (meets : FlightMeets state flight) :
    Current (proceed tools global state id flight) := by
  cases flight with
  | asked request fastKey filePath fileSize modifiedSecs =>
      unfold StaleFiles.proceed
      dsimp only
      split
      · split
        · exact current.setFlight id _
        · split
          · exact current.setFlight id _
          · exact current.setFlight id _
      · split
        · exact current.setFlight id _
        · exact current.setFlight id _
  | loaded fastKey filePath stored =>
      have counted :
          Current
            { state with
              accessCounter :=
                (accessCountCheck state.accessCounter filePath).2 } :=
        ⟨current.entries, current.descriptors⟩
      unfold StaleFiles.proceed
      dsimp only
      split
      · rename_i isAllowed
        exact (counted.store (meets isAllowed) filePath).setFlight id _
      · exact counted.setFlight id _
  | storing fastKey stored =>
      exact (current.store meets fastKey).setFlight id _
  | opened filePath entry =>
      apply Current.setFlight
      constructor
      · exact current.entries
      · intro path found isFound
        by_cases same : path = filePath
        · have isNew := isFound
          rw [same] at isNew
          dsimp only at isNew
          rw [Function.update_self] at isNew
          cases isNew
          rw [same]
          exact meets
        · dsimp only at isFound
          rw [Function.update_of_ne same] at isFound
          exact current.descriptors path found isFound

theorem Current.watch
    (current : Current state)
    {kind : EventKind}
    {paths : List (List Char)}
    (meets :
      kind.isChange = true →
      ∀ key stored,
        state.fileCache key = some stored →
        stored.origin.filePath ∈ paths →
        stored.origin.version < state.versions stored.origin.filePath →
        key ∈ paths) :
    Current (watch state kind paths) := by
  constructor
  · intro key stored isStored
    have wasStored :
        state.fileCache key = some stored ∧
          (kind.isChange = true → key ∉ paths) := by
      dsimp only [StaleFiles.watch] at isStored
      split at isStored
      · obtain ⟨notNamed, isOld⟩ := without_eq_some isStored
        exact ⟨isOld, fun _ => notNamed⟩
      · rename_i notWatched
        refine ⟨isStored, fun isChange => ?_⟩
        cases kind <;> simp_all [EventKind.isWatched, EventKind.isChange]
    dsimp only [StaleFiles.watch]
    split
    · rename_i isNamed
      have named :
          kind.isChange = true ∧ stored.origin.filePath ∈ paths := by
        rwa [Bool.and_eq_true, List.contains_iff_mem] at isNamed
      apply Nat.le_of_not_lt
      intro isOlder
      have isNamed :=
        meets named.1 key stored wasStored.1 named.2 isOlder
      exact wasStored.2 named.1 isNamed
    · exact current.entries key stored wasStored.1
  · exact current.descriptors

theorem current_step
    {label : Label}
    {after : State}
    (current : Current state)
    (taken : step tools global state label = some after)
    (meets : Meets state label after) :
    Current after := by
  cases label with
  | arrive id request =>
      unfold step at taken
      dsimp only at taken
      split at taken
      · cases taken
      · cases taken
        exact current.arrive id request
  | proceed id =>
      obtain ⟨flight, isFlight, rfl⟩ := Option.map_eq_some_iff.mp taken
      exact current.proceed id (meets flight isFlight)
  | change files =>
      cases taken
      exact ⟨current.entries, meets⟩
  | event kind paths =>
      cases taken
      exact current.watch meets
  | evict keys =>
      cases taken
      constructor
      · intro key stored isStored
        exact current.entries key stored (without_eq_some isStored).2
      · exact current.descriptors
  | evictFds keys =>
      cases taken
      constructor
      · exact current.entries
      · intro path entry isKept
        exact current.descriptors path entry (without_eq_some isKept).2
  | forget keys =>
      cases taken
      exact ⟨current.entries, current.descriptors⟩

theorem fresh_step
    {label : Label}
    {after : State}
    (current : Current state)
    (meets : Meets state label after) :
    Fresh state label after := by
  cases label with
  | arrive id request =>
      intro stored isFound
      unfold found? at isFound
      split at isFound
      · cases isFound
      · exact current.entries _ stored isFound
  | proceed id =>
      intro request fastKey filePath fileSize modifiedSecs entry isAsked
        isLarge isKept
      have isSome : state.fdCache filePath ≠ none := by
        rw [isKept]
        exact Option.some_ne_none entry
      obtain ⟨object, isObject, isSize, isTime⟩ :=
        meets _ isAsked isLarge isSome
      obtain ⟨fd, isFd, isFile⟩ := Option.map_eq_some_iff.mp isObject
      have same : fd = entry.fd := by
        rcases current.descriptors filePath entry isKept with isNone | isEntry
        · rw [isNone] at isFd
          cases isFd
        · rw [isEntry] at isFd
          exact (Option.some.inj isFd).symm
      rw [← same, isFile]
      exact ⟨isSize, isTime⟩
  | change files =>
      trivial
  | event kind paths =>
      trivial
  | evict keys =>
      trivial
  | evictFds keys =>
      trivial
  | forget keys =>
      trivial

end Preservation

/-- In every run whose steps all meet the condition, no answer is stale. -/
theorem fresh_of_meets
    (tools : StaticTools)
    (global : StaticGlobal)
    (files : FileSystem)
    (labels : List Label)
    (meets :
      StepRun.Along (step tools global) Meets (State.start files) labels) :
    StepRun.Along (step tools global) Fresh (State.start files) labels := by
  exact
    StepRun.along_of_guarded_step current_step
      (fun current _ met => fresh_step current met)
      (current_start files) meets

/-! ## An index that is found under the path of its directory -/

section Sample

def idleTools : StaticTools where
  pickBestEncodingSized _ _ _ _ _ := none
  compress _ _ _ := none
  parseHttpDate _ := none
  fmtHttpDate _ := []
  errorPage _ := []

def idleGlobal : StaticGlobal where
  gzip := false
  compress :=
    { gzip := false
      gzipLevel := 6
      brotli := false
      brotliLevel := 4
      zstd := false
      zstdLevel := 3
      minLength := 1 }

/-- The directory `/w` with the file `i` in it. -/
def indexFiles (data : List UInt8) : FileSystem where
  disk :=
    { canonicalize := fun path =>
        if path = "/w/".toList then some "/w".toList else some path
      present := fun path => path == "/w".toList || path == "/w/i".toList
      isFile := fun path => path == "/w/i".toList
      isDir := fun path => path == "/w".toList }
  inode path := if path = "/w/i".toList then some 1 else none
  object _ := ⟨data, 0, true⟩

def indexRequest (path : String) : StaticRequest where
  site :=
    { info :=
        { rewrites := []
          root := some "/w".toList
          settings :=
            { locations := []
              index := ["i".toList]
              canonicalRoot := some "/w".toList } }
      gzip := none
      gzipCompLevel := none
      compress := ⟨none, none, none, none, none, none, none⟩ }
  location :=
    { info :=
        { path := "/".toList
          kind := .prefixed
          handler := .static
          root := none
          tryFiles := [] }
      cacheControl := none }
  path := path.toList
  headers := []

/-- A file is asked for twice, changed and asked for again. -/
def changedRun (path : String) (steps : List Label) : List Label :=
  [.arrive 1 (indexRequest path), .proceed 1, .proceed 1,
    .arrive 2 (indexRequest path), .proceed 2, .proceed 2] ++ steps ++
    [.change (indexFiles [2]), .event .modify ["/w/i".toList],
      .arrive 3 (indexRequest path)]

/-- Under its own path the file is read again. -/
theorem fresh_canonical :
    StepRun.Along (step idleTools idleGlobal) Fresh
      (State.start (indexFiles [1])) (changedRun "/i" []) := by
  apply fresh_of_meets
  have isSmall :
      ∀ (state : State) (request : StaticRequest)
        (fastKey filePath : List Char),
        FlightMeets state (.asked request fastKey filePath 1 0) :=
    fun state request fastKey filePath isLarge =>
      absurd isLarge (by decide)
  have notProcessed :
      ∀ (state : State) (fastKey filePath : List Char)
        (stored : Stored Origin),
        state.processed = (fun _ => 0) →
          FlightMeets state (.loaded fastKey filePath stored) := by
    intro state fastKey filePath stored noEvent _
    rw [noEvent]
    exact Nat.zero_le _
  have atOnce :
      ∀ (state : State) (id : Nat) (flight : Flight) (after : State),
        state.flights id = some flight →
        FlightMeets state flight →
          Meets state (.proceed id) after := by
    intro state id flight after isFlight flightMeets other isOther
    cases isFlight.symm.trans isOther
    exact flightMeets
  intro arrived1 isStep
  cases isStep
  refine ⟨trivial, ?_⟩
  intro loaded1 isStep
  cases isStep
  refine ⟨atOnce _ _ _ _ rfl (isSmall _ _ _ _), ?_⟩
  intro counted1 isStep
  cases isStep
  refine ⟨atOnce _ _ _ _ rfl (notProcessed _ _ _ _ rfl), ?_⟩
  intro arrived2 isStep
  cases isStep
  refine ⟨trivial, ?_⟩
  intro loaded2 isStep
  cases isStep
  refine ⟨atOnce _ _ _ _ rfl (isSmall _ _ _ _), ?_⟩
  intro stored2 isStep
  cases isStep
  refine ⟨atOnce _ _ _ _ rfl (notProcessed _ _ _ _ rfl), ?_⟩
  intro changed isStep
  cases isStep
  refine ⟨?_, ?_⟩
  · intro path entry isKept
    cases isKept
  intro watched isStep
  cases isStep
  refine ⟨?_, ?_⟩
  · intro _ key stored isStored _ _
    by_contra notNamed
    have notKey : key ≠ "/w/i".toList := fun same =>
      notNamed (same ▸ List.mem_singleton_self _)
    have isOld := (Function.update_of_ne notKey _ _).symm.trans isStored
    cases isOld
  intro arrived3 isStep
  cases isStep
  exact ⟨trivial, trivial⟩

/-- Under the path of its directory the old content is still found. -/
theorem not_fresh_index :
    ¬ StepRun.Along (step idleTools idleGlobal) Fresh
      (State.start (indexFiles [1])) (changedRun "/" [.proceed 2]) := by
  intro along
  obtain ⟨-, along⟩ := along _ rfl
  obtain ⟨-, along⟩ := along _ rfl
  obtain ⟨-, along⟩ := along _ rfl
  obtain ⟨-, along⟩ := along _ rfl
  obtain ⟨-, along⟩ := along _ rfl
  obtain ⟨-, along⟩ := along _ rfl
  obtain ⟨-, along⟩ := along _ rfl
  obtain ⟨-, along⟩ := along _ rfl
  obtain ⟨-, along⟩ := along _ rfl
  obtain ⟨fresh, -⟩ := along _ rfl
  exact absurd (fresh _ rfl) (by decide)

end Sample

end Sweety.StaleFiles
