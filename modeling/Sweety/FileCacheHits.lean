import Sweety.StaticCache
import Sweety.StepRun

namespace Sweety.FileCacheHits

open HttpText Router StaticCache

/-!
# A hit in the memory cache of files

While neither the files nor the configuration change, an answer from the memory
cache should be the one that an empty cache gives.  The runs of this module are
sequences of GET requests, with entries pushed out and counts forgotten at any
time.

An entry is found by the text of a root and of a path, whatever site and
location the request belongs to, and it carries the policy and the encodings of
the request that made it.  A range is cut out of an entry, but never out of a
small file that is read from the disk.
-/

/-! ## The server -/

/-- What stays as it is: the files and the configuration. -/
structure Server where
  tools : StaticTools
  global : StaticGlobal
  files : FileSystem

/-- The request that made an entry, as far as the entry depends on it. -/
structure Origin where
  filePath : List Char
  settings : EntrySettings
  deriving DecidableEq

/-- The two tables that requests change. -/
structure State where
  fileCache : FileCache Origin
  accessCounter : AccessCounter

/-- Nothing is cached or counted. -/
def State.empty : State where
  fileCache _ := none
  accessCounter _ := 0

/-- The entry that is made of a file. -/
def fileEntry
    (tools : StaticTools)
    (origin : Origin)
    (object : FileObject) :
    FileCacheEntry :=
  makeEntry tools origin.settings origin.filePath object.data.length
    object.modifiedSecs object.data

/--
The insertions under the path of the file and under the key of the request.
-/
def insertBoth
    (cache : FileCache Origin)
    (canonicalKey fastKey : List Char)
    (stored : Stored Origin) :
    FileCache Origin :=
  let canonical := Function.update cache canonicalKey (some stored)
  if fastKey = canonicalKey then
    canonical
  else
    Function.update canonical fastKey (some stored)

/-- The branch of `handle_sweety` for a request without an entry. -/
def serveMiss
    (server : Server)
    (state : State)
    (request : StaticRequest)
    (fastKey : List Char) :
    Answer × State :=
  match locateFile server.files request with
  | .refused status =>
      (.response (makeError server.tools status), state)
  | .file filePath object =>
      if clientHas server.tools request.headers
          (generateEtag object.data.length object.modifiedSecs)
          object.modifiedSecs then
        (.response notModified, state)
      else if fileCacheMaxBytes < object.data.length then
        (.large filePath, state)
      else if object.readable then
        let origin := ⟨filePath, request.settings server.global⟩
        let entry := fileEntry server.tools origin object
        let counted := accessCountCheck state.accessCounter filePath
        (.response (madeResponse server.tools request.headers entry),
          { fileCache :=
              if counted.1 then
                insertBoth state.fileCache filePath fastKey ⟨entry, origin⟩
              else
                state.fileCache
            accessCounter := counted.2 })
      else
        (.response (makeError server.tools 500), state)

/-- `handle_sweety` for a GET request. -/
def serve
    (server : Server)
    (state : State)
    (request : StaticRequest) :
    Answer × State :=
  match lookupKey request with
  | .refused status =>
      (.response (makeError server.tools status), state)
  | .key key =>
      match state.fileCache key with
      | some stored =>
          (.response
            (StaticCache.hitResponse server.tools request.headers
              stored.entry),
            state)
      | none =>
          serveMiss server state request key

/-! ## Runs -/

/-- What happens to the caches. -/
inductive Label where
  | get (request : StaticRequest)
  | evict (keys : List (List Char))
  | forget (keys : List (List Char))

def step (server : Server) (state : State) : Label → Option State
  | .get request =>
      some (serve server state request).2
  | .evict keys =>
      some { state with fileCache := without keys state.fileCache }
  | .forget keys =>
      some
        { state with
          accessCounter := fun key =>
            if keys.contains key then 0 else state.accessCounter key }

/-- A request is answered as with an empty cache. -/
def Transparent (server : Server) (before : State) (label : Label)
    (_ : State) : Prop :=
  match label with
  | .get request =>
      (serve server before request).1 =
        (serve server State.empty request).1
  | .evict _ | .forget _ =>
      True

/-- An entry is one that the request itself would have made, whole. -/
structure FitsEntry
    (server : Server)
    (request : StaticRequest)
    (stored : Stored Origin) :
    Prop where
  sameFile :
    staticFile server.files.disk request.site.info request.location.info
        request.path =
      .file stored.origin.filePath
  sameSettings :
    request.settings server.global = stored.origin.settings
  whole :
    clientHas server.tools request.headers
          ((toText? stored.entry.hvEtag).getD [])
          stored.entry.modifiedSecs =
        true ∨
      range? request.headers stored.entry.data.length = none

/-- The entries that requests find fit them. -/
def Fits (server : Server) (before : State) (label : Label)
    (_ : State) : Prop :=
  match label with
  | .get request =>
      ∀ stored,
        found? before.fileCache request = some stored →
        FitsEntry server request stored
  | .evict _ | .forget _ =>
      True

/-! ## What the entries are -/

/-- An entry is made of a small file as it stands on the disk. -/
def FromFile (server : Server) (stored : Stored Origin) : Prop :=
  ∃ object,
    server.files.stat stored.origin.filePath = some object ∧
      object.readable = true ∧
      object.data.length ≤ fileCacheMaxBytes ∧
      stored.entry = fileEntry server.tools stored.origin object

/-- Every entry is. -/
def Faithful (server : Server) (state : State) : Prop :=
  ∀ key stored,
    state.fileCache key = some stored → FromFile server stored

section Steps

variable
  {server : Server}
  {state : State}
  {request : StaticRequest}

theorem fromFile_update
    {cache : FileCache Origin}
    {key : List Char}
    {added : Stored Origin}
    (kept :
      ∀ other stored, cache other = some stored → FromFile server stored)
    (isNew : FromFile server added)
    (other : List Char)
    (stored : Stored Origin)
    (isStored : Function.update cache key (some added) other = some stored) :
    FromFile server stored := by
  by_cases same : other = key
  · rw [same, Function.update_self] at isStored
    cases isStored
    exact isNew
  · rw [Function.update_of_ne same] at isStored
    exact kept other stored isStored

theorem fromFile_insertBoth
    {cache : FileCache Origin}
    {canonicalKey fastKey : List Char}
    {added : Stored Origin}
    (kept :
      ∀ other stored, cache other = some stored → FromFile server stored)
    (isNew : FromFile server added)
    (other : List Char)
    (stored : Stored Origin)
    (isStored :
      insertBoth cache canonicalKey fastKey added other = some stored) :
    FromFile server stored := by
  unfold insertBoth at isStored
  split at isStored
  · exact fromFile_update kept isNew other stored isStored
  · exact
      fromFile_update (fromFile_update kept isNew) isNew other stored
        isStored

/-- A file that was located is the one that stands at its path. -/
theorem stat_of_locateFile
    {filePath : List Char}
    {object : FileObject}
    (isLocated : locateFile server.files request = .file filePath object) :
    staticFile server.files.disk request.site.info request.location.info
          request.path =
        .file filePath ∧
      server.files.stat filePath = some object := by
  unfold locateFile at isLocated
  split at isLocated
  · cases isLocated
  · cases isLocated
  · cases isLocated
  · cases isLocated
  · rename_i found isFile
    split at isLocated
    · rename_i isObject
      cases isLocated
      exact ⟨isFile, isObject⟩
    · cases isLocated

theorem locateFile_of_stat
    {filePath : List Char}
    {object : FileObject}
    (isFile :
      staticFile server.files.disk request.site.info request.location.info
          request.path =
        .file filePath)
    (isObject : server.files.stat filePath = some object) :
    locateFile server.files request = .file filePath object := by
  rw [locateFile, isFile]
  dsimp only
  rw [isObject]

/-- A miss adds only what it read. -/
theorem faithful_serveMiss
    (faithful : Faithful server state)
    (fastKey : List Char) :
    Faithful server (serveMiss server state request fastKey).2 := by
  unfold serveMiss
  cases isLocated : locateFile server.files request with
  | refused status =>
      exact faithful
  | file filePath object =>
      dsimp only
      split
      · exact faithful
      · split
        · exact faithful
        · rename_i notLarge
          split
          · rename_i isReadable
            have isNew :
                FromFile server
                  ⟨fileEntry server.tools
                      ⟨filePath, request.settings server.global⟩ object,
                    ⟨filePath, request.settings server.global⟩⟩ :=
              ⟨object, (stat_of_locateFile isLocated).2, isReadable,
                Nat.le_of_not_lt notLarge, rfl⟩
            intro key stored isStored
            dsimp only at isStored
            split at isStored
            · exact fromFile_insertBoth faithful isNew key stored isStored
            · exact faithful key stored isStored
          · exact faithful

theorem faithful_serve
    (faithful : Faithful server state) :
    Faithful server (serve server state request).2 := by
  unfold serve
  split
  · exact faithful
  · split
    · exact faithful
    · exact faithful_serveMiss faithful _

theorem faithful_step
    {label : Label}
    {after : State}
    (faithful : Faithful server state)
    (taken : step server state label = some after) :
    Faithful server after := by
  cases label with
  | get request =>
      cases taken
      exact faithful_serve faithful
  | evict keys =>
      cases taken
      intro key stored isStored
      dsimp only [without] at isStored
      split at isStored
      · cases isStored
      · exact faithful key stored isStored
  | forget keys =>
      cases taken
      exact faithful

theorem faithful_empty : Faithful server State.empty := by
  intro key stored isStored
  cases isStored

/-! ## Hits and misses -/

/-- The answer of a miss does not depend on what is cached. -/
theorem serveMiss_answer
    (state other : State)
    (fastKey : List Char) :
    (serveMiss server state request fastKey).1 =
      (serveMiss server other request fastKey).1 := by
  unfold serveMiss
  cases locateFile server.files request with
  | refused status =>
      rfl
  | file filePath object =>
      dsimp only
      split
      · rfl
      · split
        · rfl
        · split <;> rfl

/-- An entry that fits a request is answered as its file is. -/
theorem hitResponse_eq_serveMiss
    {stored : Stored Origin}
    (fromFile : FromFile server stored)
    (fits : FitsEntry server request stored)
    (fastKey : List Char) :
    Answer.response
        (StaticCache.hitResponse server.tools request.headers
          stored.entry) =
      (serveMiss server state request fastKey).1 := by
  obtain ⟨object, isObject, isReadable, isSmall, isEntry⟩ := fromFile
  have isLocated := locateFile_of_stat fits.sameFile isObject
  have isTag :
      (toText? stored.entry.hvEtag).getD [] =
        generateEtag object.data.length object.modifiedSecs := by
    rw [isEntry]
    exact hvEtag_makeEntry server.tools _ _ _ _ _
  have isTime : stored.entry.modifiedSecs = object.modifiedSecs := by
    rw [isEntry]
    rfl
  have whole := fits.whole
  rw [isTag, isTime] at whole
  unfold StaticCache.hitResponse serveMiss
  rw [isLocated, isTag, isTime]
  dsimp only
  by_cases has :
      clientHas server.tools request.headers
          (generateEtag object.data.length object.modifiedSecs)
          object.modifiedSecs =
        true
  · rw [if_pos has, if_pos has]
  · have noRange := whole.resolve_left has
    rw [if_neg has, if_neg has, noRange, if_neg (Nat.not_lt_of_le isSmall),
      if_pos isReadable]
    dsimp only
    rw [foundResponse_eq_madeResponse, fits.sameSettings, isEntry]

theorem transparent_get
    (faithful : Faithful server state)
    (fits :
      ∀ stored,
        found? state.fileCache request = some stored →
        FitsEntry server request stored) :
    (serve server state request).1 =
      (serve server State.empty request).1 := by
  unfold serve
  cases isKey : lookupKey request with
  | refused status =>
      rfl
  | key key =>
      have isFound :
          found? state.fileCache request = state.fileCache key := by
        rw [found?, isKey]
      have isEmpty : State.empty.fileCache key = none := rfl
      dsimp only
      rw [isEmpty]
      cases isStored : state.fileCache key with
      | none =>
          exact serveMiss_answer state State.empty key
      | some stored =>
          exact
            hitResponse_eq_serveMiss (faithful key stored isStored)
              (fits stored (isFound.trans isStored)) key

end Steps

/--
In every run in which each request that finds an entry fits it, every request is
answered as with an empty cache.
-/
theorem transparent_of_fits
    (server : Server)
    (labels : List Label)
    (fits : StepRun.Along (step server) (Fits server) State.empty labels) :
    StepRun.Along (step server) (Transparent server) State.empty labels := by
  have answers :
      ∀ {before label after},
        Faithful server before →
        step server before label = some after →
        Fits server before label after →
        Transparent server before label after := by
    intro before label after faithful _ meets
    cases label with
    | get request =>
        exact transparent_get faithful meets
    | evict keys =>
        trivial
    | forget keys =>
        trivial
  exact
    StepRun.along_of_guarded_step
      (fun faithful taken _ => faithful_step faithful taken)
      answers faithful_empty fits

/-! ## A file with a range -/

section Sample

def plainTools : StaticTools where
  pickBestEncodingSized _ _ _ _ _ := none
  compress _ _ _ := none
  parseHttpDate _ := none
  fmtHttpDate _ := []
  errorPage _ := []

def plainGlobal : StaticGlobal where
  gzip := false
  compress :=
    { gzip := false
      gzipLevel := 6
      brotli := false
      brotliLevel := 4
      zstd := false
      zstdLevel := 3
      minLength := 1 }

/-- A directory with one file of two bytes. -/
def oneFile : FileSystem where
  disk :=
    { canonicalize := some
      present := fun path => path == "/w/f".toList
      isFile := fun path => path == "/w/f".toList
      isDir := fun _ => false }
  inode path := if path = "/w/f".toList then some 1 else none
  object _ := ⟨[104, 105], 0, true⟩

def plainServer : Server where
  tools := plainTools
  global := plainGlobal
  files := oneFile

def plainRequest (headers : HeaderMap) : StaticRequest where
  site :=
    { info :=
        { rewrites := []
          root := some "/w".toList
          settings :=
            { locations := []
              index := []
              canonicalRoot := some "/w".toList } }
      gzip := none
      gzipCompLevel := none
      compress := ⟨none, none, none, none, none, none, none⟩ }
  location :=
    { info :=
        { path := "/".toList
          kind := .prefixed
          handler := .static
          root := none
          tryFiles := [] }
      cacheControl := none }
  path := "/f".toList
  headers := headers

def firstByte : HeaderMap :=
  [("range", [98, 121, 116, 101, 115, 61, 48, 45, 48])]

/-- A file that is asked for four times fits its entry. -/
theorem transparent_plain :
    StepRun.Along (step plainServer) (Transparent plainServer) State.empty
      [.get (plainRequest []), .get (plainRequest []),
        .get (plainRequest []), .get (plainRequest [])] := by
  apply transparent_of_fits
  have fitsStored :
      ∀ stored : Stored Origin,
        stored.origin =
            ⟨"/w/f".toList, (plainRequest []).settings plainGlobal⟩ →
          FitsEntry plainServer (plainRequest []) stored := by
    intro stored isOrigin
    refine ⟨?_, ?_, Or.inr rfl⟩
    · rw [isOrigin]
      rfl
    · rw [isOrigin]
      rfl
  have noEntry :
      ∀ state : State,
        state.fileCache "/w/f".toList = none →
          Fits plainServer state (.get (plainRequest [])) state := by
    intro state isNone stored isFound
    have isKey : lookupKey (plainRequest []) = .key "/w/f".toList := rfl
    rw [found?, isKey] at isFound
    cases isNone.symm.trans isFound
  have oneEntry :
      ∀ (state : State) (stored : Stored Origin),
        state.fileCache "/w/f".toList = some stored →
        stored.origin =
            ⟨"/w/f".toList, (plainRequest []).settings plainGlobal⟩ →
          Fits plainServer state (.get (plainRequest [])) state := by
    intro state stored isStored isOrigin other isFound
    have isKey : lookupKey (plainRequest []) = .key "/w/f".toList := rfl
    rw [found?, isKey] at isFound
    cases isStored.symm.trans isFound
    exact fitsStored stored isOrigin
  intro first isFirst
  cases isFirst
  refine ⟨noEntry _ rfl, ?_⟩
  intro second isSecond
  cases isSecond
  refine ⟨noEntry _ rfl, ?_⟩
  intro third isThird
  cases isThird
  refine ⟨oneEntry _ _ rfl rfl, ?_⟩
  intro fourth isFourth
  cases isFourth
  exact ⟨oneEntry _ _ rfl rfl, trivial⟩

/-- The third time a range of it is answered as a range. -/
theorem not_transparent_range :
    ¬ StepRun.Along (step plainServer) (Transparent plainServer) State.empty
      [.get (plainRequest []), .get (plainRequest []),
        .get (plainRequest firstByte)] := by
  intro along
  obtain ⟨-, afterFirst⟩ := along _ rfl
  obtain ⟨-, afterSecond⟩ := afterFirst _ rfl
  obtain ⟨same, -⟩ := afterSecond _ rfl
  have sameStatus := congrArg Answer.status? same
  exact absurd sameStatus (by decide)

end Sample

end Sweety.FileCacheHits
