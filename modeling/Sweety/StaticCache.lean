import Mathlib.Logic.Function.Basic
import Sweety.ConfigModel
import Sweety.RealIp
import Sweety.Router

namespace Sweety.StaticCache

open HttpText Rewrite Router RealIp

/-!
# Static files from the disk and from memory

Model of what `static_file::handle_sweety` does with a request other than HEAD:
the lookup in the memory cache of small files, the answer from an entry, the
answer from the disk and the entry that is made of a file.
`static_file/cache.rs` gives the keys, the count of uses and the insertions;
`static_file/range.rs` and `middleware/cache.rs` give ranges, tags, types and
default policies.

What stands in the cache also says where it came from, which the program does
not keep.  An answer from a large file is not worked out here.
-/

/-! ## Files -/

/-- A file with its content and the time of its last change. -/
structure FileObject where
  data : List UInt8
  modifiedSecs : Nat
  readable : Bool
  deriving Repr, DecidableEq

/-- The file system: which file a path opens, and what the files are. -/
structure FileSystem where
  disk : Disk
  inode : List Char → Option Nat
  object : Nat → FileObject

/-- `metadata`. -/
def FileSystem.stat (files : FileSystem) (path : List Char) :
    Option FileObject :=
  (files.inode path).map files.object

/-! ## Requests -/

/-- What the handler reads of a site. -/
structure StaticSite where
  info : Router.SiteInfo
  gzip : Option Bool
  gzipCompLevel : Option ConfigModel.U32
  compress : ConfigModel.SiteCompressConfig

/-- What the handler reads of a location. -/
structure StaticLocation where
  info : CompiledLocation
  cacheControl : Option (List Char)

/-- A request as the handler gets it. -/
structure StaticRequest where
  site : StaticSite
  location : StaticLocation
  path : List Char
  headers : HeaderMap

/-- What the handler reads of the global configuration. -/
structure StaticGlobal where
  gzip : Bool
  compress : ConfigModel.CompressConfig

/-- What is not decided by this program, and the pages for errors. -/
structure StaticTools where
  pickBestEncodingSized :
    HeaderMap → Bool → Bool → Bool → Option Nat → Option Encoding
  compress : Encoding → Nat → List UInt8 → Option (List UInt8)
  /-- `parse_http_date`, in seconds since the epoch. -/
  parseHttpDate : List Char → Option Nat
  /-- `fmt_http_date`. -/
  fmtHttpDate : Nat → List Char
  /-- `get_error_bytes`. -/
  errorPage : Nat → List UInt8

/-! ## Header values -/

/-- `HeaderValue::from_str`. -/
def fromStr? (text : List Char) : Option (List Char) :=
  if text.all fun char =>
      (32 ≤ char.toNat && char.toNat != 127) || char == '\t' then
    some text
  else
    none

/-- `HeaderValue::to_str`. -/
def toText? (value : List Char) : Option (List Char) :=
  if value.all fun char =>
      (32 ≤ char.toNat && char.toNat < 127) || char == '\t' then
    some value
  else
    none

/-- A value that is made of a text, or else a fixed one. -/
def headerOr (text fallback : List Char) : List Char :=
  (fromStr? text).getD fallback

/-- Insert a header if its value is valid. -/
def insertText
    (name : String)
    (text : List Char)
    (headers : ResponseHeaders) :
    ResponseHeaders :=
  match fromStr? text with
  | some value =>
      MultiMap.insert name.toList value headers
  | none =>
      headers

/-- Insert a header. -/
def insertValue
    (name : String)
    (value : List Char)
    (headers : ResponseHeaders) :
    ResponseHeaders :=
  MultiMap.insert name.toList value headers

/-- Headers of different names are inserted in any order. -/
theorem insertValue_comm
    {name other : String}
    (different : name.toList ≠ other.toList)
    (value otherValue : List Char)
    (headers : ResponseHeaders) :
    insertValue name value (insertValue other otherValue headers) =
      insertValue other otherValue (insertValue name value headers) := by
  funext field
  show (if field = name.toList then [value]
      else if field = other.toList then [otherValue] else headers field) =
    (if field = other.toList then [otherValue]
      else if field = name.toList then [value] else headers field)
  by_cases isName : field = name.toList
  · have notOther : field ≠ other.toList := isName ▸ different
    rw [if_pos isName, if_neg notOther, if_pos isName]
  · rw [if_neg isName, if_neg isName]

theorem insertText_of_fromStr?
    {text : List Char}
    (isValid : fromStr? text = some text)
    (name : String)
    (headers : ResponseHeaders) :
    insertText name text headers = insertValue name text headers := by
  rw [insertText, isValid]
  rfl

/-! ## Types, tags and policies -/

/-- `MIME_MAP`. -/
def mimeMap : List (String × String) :=
  [("html", "text/html; charset=utf-8"),
    ("htm", "text/html; charset=utf-8"),
    ("css", "text/css; charset=utf-8"),
    ("js", "application/javascript; charset=utf-8"),
    ("mjs", "application/javascript; charset=utf-8"),
    ("json", "application/json; charset=utf-8"),
    ("xml", "application/xml; charset=utf-8"),
    ("txt", "text/plain; charset=utf-8"),
    ("png", "image/png"),
    ("jpg", "image/jpeg"),
    ("jpeg", "image/jpeg"),
    ("gif", "image/gif"),
    ("webp", "image/webp"),
    ("svg", "image/svg+xml"),
    ("ico", "image/x-icon"),
    ("woff", "font/woff"),
    ("woff2", "font/woff2"),
    ("ttf", "font/ttf"),
    ("otf", "font/otf"),
    ("mp4", "video/mp4"),
    ("webm", "video/webm"),
    ("pdf", "application/pdf"),
    ("zip", "application/zip"),
    ("wasm", "application/wasm"),
    ("avif", "image/avif"),
    ("mp3", "audio/mpeg"),
    ("ogg", "audio/ogg"),
    ("flac", "audio/flac"),
    ("ts", "application/typescript; charset=utf-8")]

/-- `LONG_CACHE`. -/
def longCache : List String :=
  ["js", "mjs", "css", "woff", "woff2", "ttf", "otf",
    "png", "jpg", "jpeg", "gif", "webp", "svg", "ico",
    "wasm", "avif", "mp3", "ogg", "flac", "mp4", "webm"]

/-- `NO_CACHE`. -/
def noCache : List String :=
  ["html", "htm"]

/-- `mime_type_for`. -/
def mimeTypeFor (extension : List Char) : List Char :=
  let found :=
    if byteLength extension ≤ 8 then
      mimeMap.find? fun pair =>
        pair.1.toList == toAsciiLowercase extension
    else
      none
  match found with
  | some pair =>
      pair.2.toList
  | none =>
      "application/octet-stream".toList

/-- `default_cache_control`. -/
def defaultCacheControl (extension : List Char) : List Char :=
  let isIn (names : List String) : Bool :=
    decide (byteLength extension ≤ 8) &&
      names.any fun name => name.toList == toAsciiLowercase extension
  if isIn longCache then
    "public, max-age=604800, immutable".toList
  else if isIn noCache then
    "no-cache, must-revalidate".toList
  else
    "public, max-age=3600".toList

/-- `generate_etag`. -/
def generateEtag (size modifiedSecs : Nat) : List Char :=
  "W/\"".toList ++ toHex size ++ '-' :: toHex modifiedSecs ++ ['"']

/-- A digit is a visible character. -/
theorem visible_of_digitValue?
    {radix : Nat}
    {char : Char}
    (isDigit : (digitValue? radix char).isSome = true) :
    32 ≤ char.toNat ∧ char.toNat < 127 := by
  have bounds := range_of_digitValue? isDigit
  omega

theorem visible_of_mem_generateEtag
    {size modifiedSecs : Nat}
    {char : Char}
    (member : char ∈ generateEtag size modifiedSecs) :
    32 ≤ char.toNat ∧ char.toNat < 127 := by
  have ofHex :
      ∀ number, char ∈ toHex number → 32 ≤ char.toNat ∧ char.toNat < 127 :=
    fun number inHex =>
      visible_of_digitValue?
        (isSome_digitValue?_toDigits (by decide) (by decide) number char inHex)
  have ofStart : char ∈ "W/\"".toList → 32 ≤ char.toNat ∧ char.toNat < 127 := by
    intro inStart
    have isOne : char = 'W' ∨ char = '/' ∨ char = '"' := by
      simpa using inStart
    rcases isOne with rfl | rfl | rfl <;> decide
  rw [generateEtag, List.mem_append, List.mem_append, List.mem_cons,
    List.mem_singleton] at member
  rcases member with (inBoth | isDash | inTime) | isQuote
  · rcases List.mem_append.mp inBoth with inStart | inSize
    · exact ofStart inStart
    · exact ofHex size inSize
  · rw [isDash]
    decide
  · exact ofHex modifiedSecs inTime
  · rw [isQuote]
    decide

/-- A tag is written into a header and read from it as it is. -/
theorem fromStr?_generateEtag (size modifiedSecs : Nat) :
    fromStr? (generateEtag size modifiedSecs) =
      some (generateEtag size modifiedSecs) := by
  rw [fromStr?, if_pos]
  rw [List.all_eq_true]
  intro char member
  have visible := visible_of_mem_generateEtag member
  simp only [Bool.or_eq_true, Bool.and_eq_true, decide_eq_true_eq,
    bne_iff_ne, ne_eq]
  exact Or.inl ⟨visible.1, fun isDelete => by omega⟩

theorem toText?_generateEtag (size modifiedSecs : Nat) :
    toText? (generateEtag size modifiedSecs) =
      some (generateEtag size modifiedSecs) := by
  rw [toText?, if_pos]
  rw [List.all_eq_true]
  intro char member
  have visible := visible_of_mem_generateEtag member
  simp only [Bool.or_eq_true, Bool.and_eq_true, decide_eq_true_eq]
  exact Or.inl visible

/-- `is_cache_valid`. -/
def isCacheValid
    (ifNoneMatch : Option (List Char))
    (ifModifiedSince : Option Nat)
    (etag : List Char)
    (modifiedSecs : Nat) :
    Bool :=
  match ifNoneMatch, ifModifiedSince with
  | some given, _ =>
      given == etag || given == ['*']
  | none, some since =>
      decide (modifiedSecs ≤ since)
  | none, none =>
      false

/-- `parse_range`: the first and the last byte. -/
def parseRange (rangeHeader : List Char) (fileSize : Nat) :
    Option (Nat × Nat) :=
  (rangeHeader.dropPrefix? "bytes=".toList).bind fun text =>
    (splitOnce? '-' text).bind fun parts =>
      let startText := trim parts.1
      let endText := trim parts.2
      let start? :=
        if startText.isEmpty then
          (parseUsize? endText).map fun suffix => fileSize - suffix
        else
          parseUsize? startText
      start?.bind fun start =>
        let last? :=
          if endText.isEmpty then
            some (fileSize - 1)
          else
            parseUsize? endText
        last?.bind fun last =>
          if last < start ∨ fileSize ≤ last then
            none
          else
            some (start, last)

/-! ## What a request asks for -/

section Asked

variable (tools : StaticTools) (headers : HeaderMap)

/-- The readable text of a header. -/
def headerText? (name : String) : Option (List Char) :=
  (headers.get? name).bind toStr?

/-- Whether the client has the file with this tag and time already. -/
def clientHas (etag : List Char) (modifiedSecs : Nat) : Bool :=
  isCacheValid (headerText? headers "if-none-match")
    ((headerText? headers "if-modified-since").bind tools.parseHttpDate)
    etag modifiedSecs

/-- The bytes that are asked for. -/
def range? (fileSize : Nat) : Option (Nat × Nat) :=
  (headerText? headers "range").bind fun text => parseRange text fileSize

end Asked

/-! ## Compression -/

/-- `SiteCompressConfig::resolve`. -/
def resolveCompress
    (site : ConfigModel.SiteCompressConfig)
    (global : ConfigModel.CompressConfig) :
    ConfigModel.CompressConfig where
  gzip := site.gzip.getD global.gzip
  gzipLevel := site.gzipLevel.getD global.gzipLevel
  brotli := site.brotli.getD global.brotli
  brotliLevel := site.brotliLevel.getD global.brotliLevel
  zstd := site.zstd.getD global.zstd
  zstdLevel := site.zstdLevel.getD global.zstdLevel
  minLength := site.minLength.getD global.minLength

/-- The settings that a file is compressed with. -/
structure CompressSettings where
  gzEnabled : Bool
  gzLevel : Nat
  brEnabled : Bool
  brLevel : Nat
  zstEnabled : Bool
  zstLevel : Nat
  minBytes : Nat
  deriving Repr, DecidableEq

/-- The settings of a site. -/
def compressSettings (global : StaticGlobal) (site : StaticSite) :
    CompressSettings :=
  let eff := resolveCompress site.compress global.compress
  { gzEnabled := eff.gzip || site.gzip.getD global.gzip
    gzLevel :=
      if site.compress.gzipLevel.isSome then
        eff.gzipLevel.toNat
      else
        (site.gzipCompLevel.getD eff.gzipLevel).toNat
    brEnabled := eff.brotli
    brLevel := eff.brotliLevel.toNat
    zstEnabled := eff.zstd
    zstLevel := eff.zstdLevel.toNat
    minBytes := eff.minLength.toNat * 1024 }

/-- The extensions of files that are compressed already. -/
def compressedExtensions : List String :=
  ["gz", "br", "zst", "zip", "png", "jpg", "jpeg",
    "gif", "webp", "avif", "mp4", "webm", "woff", "woff2",
    "bin", "dat", "raw", "iso", "exe", "dll", "so"]

/-- The types besides texts that are compressed. -/
def compressibleTypes : List String :=
  ["application/json", "application/javascript",
    "application/x-javascript", "application/xml",
    "application/xhtml+xml", "application/rss+xml",
    "application/atom+xml", "image/svg+xml"]

/-- `GZIP_MAX_INLINE`. -/
def gzipMaxInline : Nat := 1024 * 1024

/-- `FILE_CACHE_MAX_BYTES`. -/
def fileCacheMaxBytes : Nat := 64 * 1024

/-- `can_compress`. -/
def canCompress
    (settings : CompressSettings)
    (extension : List Char)
    (fileSize : Nat) :
    Bool :=
  let mime := mimeTypeFor extension
  let alreadyCompressed :=
    compressedExtensions.any fun name => name.toList == extension
  let compressibleMime :=
    "text/".toList.isPrefixOf mime ||
      compressibleTypes.any fun name => name.toList == mime
  !alreadyCompressed && compressibleMime &&
    decide (settings.minBytes ≤ fileSize) &&
    decide (fileSize ≤ gzipMaxInline)

/-! ## Entries -/

/-- `FileCacheEntry`. -/
structure FileCacheEntry where
  data : List UInt8
  gz : Option (List UInt8)
  br : Option (List UInt8)
  zst : Option (List UInt8)
  modifiedSecs : Nat
  hvContentType : List Char
  hvContentLength : List Char
  hvEtag : List Char
  hvLastModified : List Char
  hvCacheControl : List Char
  deriving Repr, DecidableEq

/-- What an entry is made with, besides the file. -/
structure EntrySettings where
  compress : CompressSettings
  cacheControl : Option (List Char)
  deriving Repr, DecidableEq

def StaticRequest.settings
    (global : StaticGlobal)
    (request : StaticRequest) :
    EntrySettings where
  compress := compressSettings global request.site
  cacheControl := request.location.cacheControl

/--
The entry of a file: its path, the size and the time that were asked first, and
the data that was read then.
-/
def makeEntry
    (tools : StaticTools)
    (settings : EntrySettings)
    (filePath : List Char)
    (fileSize modifiedSecs : Nat)
    (data : List UInt8) :
    FileCacheEntry :=
  let extension := (extension? filePath).getD []
  let compressed := canCompress settings.compress extension fileSize
  let cacheControl :=
    settings.cacheControl.getD (defaultCacheControl extension)
  { data
    gz :=
      if settings.compress.gzEnabled && compressed then
        tools.compress .gzip settings.compress.gzLevel data
      else
        none
    br :=
      if settings.compress.brEnabled && compressed then
        tools.compress .br settings.compress.brLevel data
      else
        none
    zst :=
      if settings.compress.zstEnabled && compressed then
        tools.compress .zstd settings.compress.zstLevel data
      else
        none
    modifiedSecs
    hvContentType :=
      headerOr (mimeTypeFor extension) "application/octet-stream".toList
    hvContentLength := headerOr (toDecimal fileSize) "0".toList
    hvEtag := headerOr (generateEtag fileSize modifiedSecs) "\"\"".toList
    hvLastModified :=
      headerOr (tools.fmtHttpDate modifiedSecs)
        "Thu, 01 Jan 1970 00:00:00 GMT".toList
    hvCacheControl := headerOr cacheControl "public, max-age=3600".toList }

/-- `pick_encoding`. -/
def pickEncoding
    (tools : StaticTools)
    (headers : HeaderMap)
    (entry : FileCacheEntry) :
    List UInt8 × Option Encoding :=
  let kept : Encoding → Option (List UInt8)
    | .br =>
        entry.br
    | .zstd =>
        entry.zst
    | .gzip =>
        entry.gz
  let picked :=
    (tools.pickBestEncodingSized headers entry.gz.isSome entry.br.isSome
      entry.zst.isSome (some entry.data.length)).bind fun encoding =>
        (kept encoding).map fun bytes => (bytes, some encoding)
  picked.getD (entry.data, none)

/-! ## Answers -/

/-- An answer; that from a large file is not worked out. -/
inductive Answer where
  | response (response : WebResponse)
  | large (filePath : List Char)

/-- The status of an answer, if it was worked out. -/
def Answer.status? : Answer → Option Nat
  | .response answer =>
      some answer.status
  | .large _ =>
      none

section Answers

variable (tools : StaticTools)

/-- `make_error`. -/
def makeError (status : Nat) : WebResponse where
  status := status
  headers := insertValue "content-type" "text/html; charset=utf-8".toList ∅
  body := tools.errorPage status

/-- The answer without a body to a client that has the file. -/
def notModified : WebResponse where
  status := 304
  headers := ∅
  body := []

/-- The answer with a part of an entry. -/
def partialResponse (entry : FileCacheEntry) (start last : Nat) :
    WebResponse where
  status := 206
  headers :=
    insertText "content-range"
      ("bytes ".toList ++ toDecimal start ++ '-' :: toDecimal last ++
        '/' :: toDecimal entry.data.length)
      (insertText "content-length" (toDecimal (last - start + 1))
        (insertValue "accept-ranges" "bytes".toList
          (insertValue "cache-control" entry.hvCacheControl
            (insertValue "last-modified" entry.hvLastModified
              (insertValue "etag" entry.hvEtag
                (insertValue "content-type" entry.hvContentType ∅))))))
  body := (entry.data.drop start).take (last - start + 1)

/-- The answer with a whole entry that was found in the cache. -/
def foundResponse (headers : HeaderMap) (entry : FileCacheEntry) :
    WebResponse :=
  let picked := pickEncoding tools headers entry
  let typed :=
    insertValue "accept-ranges" "bytes".toList
      (insertValue "content-type" entry.hvContentType ∅)
  let sized :=
    if picked.2.isSome then
      insertValue "vary" "Accept-Encoding".toList
        (insertText "content-length" (toDecimal picked.1.length) typed)
    else
      insertValue "content-length" entry.hvContentLength typed
  let dated :=
    insertValue "cache-control" entry.hvCacheControl
      (insertValue "last-modified" entry.hvLastModified
        (insertValue "etag" entry.hvEtag sized))
  { status := 200
    headers :=
      match picked.2 with
      | some encoding =>
          insertText "content-encoding" encoding.name dated
      | none =>
          dated
    body := picked.1 }

/-- The answer with a whole entry that was just made. -/
def madeResponse (headers : HeaderMap) (entry : FileCacheEntry) :
    WebResponse :=
  let picked := pickEncoding tools headers entry
  let typed :=
    insertValue "accept-ranges" "bytes".toList
      (insertValue "content-type" entry.hvContentType ∅)
  let sized :=
    if picked.2.isSome then
      insertText "content-length" (toDecimal picked.1.length) typed
    else
      insertValue "content-length" entry.hvContentLength typed
  let dated :=
    insertValue "cache-control" entry.hvCacheControl
      (insertValue "last-modified" entry.hvLastModified
        (insertValue "etag" entry.hvEtag sized))
  { status := 200
    headers :=
      match picked.2 with
      | some encoding =>
          insertValue "vary" "Accept-Encoding".toList
            (insertValue "content-encoding" encoding.name dated)
      | none =>
          dated
    body := picked.1 }

/-- The answer where `cache_get_fast` finds an entry. -/
def hitResponse (headers : HeaderMap) (entry : FileCacheEntry) :
    WebResponse :=
  if clientHas tools headers ((toText? entry.hvEtag).getD [])
      entry.modifiedSecs then
    notModified
  else
    match range? headers entry.data.length with
    | some (start, last) =>
        partialResponse entry start last
    | none =>
        foundResponse tools headers entry

theorem fromStr?_name (encoding : Encoding) :
    fromStr? encoding.name = some encoding.name := by
  cases encoding with
  | br =>
      rfl
  | zstd =>
      rfl
  | gzip =>
      rfl

/-- A whole entry is answered alike where it was found and where it was made. -/
theorem foundResponse_eq_madeResponse
    (headers : HeaderMap)
    (entry : FileCacheEntry) :
    foundResponse tools headers entry = madeResponse tools headers entry := by
  unfold foundResponse madeResponse
  obtain ⟨body, picked⟩ := pickEncoding tools headers entry
  cases picked with
  | none =>
      rfl
  | some encoding =>
      dsimp only [Option.isSome_some]
      rw [if_pos rfl, if_pos rfl]
      congr 1
      rw [insertText_of_fromStr? (fromStr?_name encoding),
        insertValue_comm (by decide : "etag".toList ≠ "vary".toList),
        insertValue_comm (by decide : "last-modified".toList ≠ "vary".toList),
        insertValue_comm (by decide : "cache-control".toList ≠ "vary".toList),
        insertValue_comm
          (by decide : "content-encoding".toList ≠ "vary".toList)]

/-- The tag of an entry is that of the file that it was made of. -/
theorem hvEtag_makeEntry
    (settings : EntrySettings)
    (filePath : List Char)
    (fileSize modifiedSecs : Nat)
    (data : List UInt8) :
    (toText?
        (makeEntry tools settings filePath fileSize modifiedSecs
          data).hvEtag).getD [] =
      generateEtag fileSize modifiedSecs := by
  have isTag :
      (makeEntry tools settings filePath fileSize modifiedSecs data).hvEtag =
        generateEtag fileSize modifiedSecs := by
    show headerOr (generateEtag fileSize modifiedSecs) "\"\"".toList = _
    rw [headerOr, fromStr?_generateEtag]
    rfl
  rw [isTag, toText?_generateEtag]
  rfl

end Answers

/-! ## The memory cache -/

/-- `make_cache_key`. -/
def makeCacheKey (root relative : List Char) : List Char :=
  root ++ '/' :: relative

/-- An entry, and where it came from. -/
structure Stored (Origin : Type) where
  entry : FileCacheEntry
  origin : Origin

/-- `FILE_CACHE`. -/
abbrev FileCache (Origin : Type) :=
  List Char → Option (Stored Origin)

/-- `ACCESS_COUNTER`. -/
abbrev AccessCounter :=
  List Char → Nat

/-- `MIN_USES_THRESHOLD`. -/
def minUsesThreshold : Nat := 2

/--
`access_count_check`: whether the file may be stored, and the counts after.
-/
def accessCountCheck (counter : AccessCounter) (key : List Char) :
    Bool × AccessCounter :=
  let count := counter key
  if minUsesThreshold ≤ count then
    (true, counter)
  else
    (decide (minUsesThreshold ≤ count + 1),
      Function.update counter key (count + 1))

/-- `remove`, of some keys. -/
def without {Value : Type}
    (keys : List (List Char))
    (table : List Char → Option Value) :
    List Char → Option Value :=
  fun key => if key ∈ keys then none else table key

/-- How a request goes on once it is checked and has a key. -/
inductive Lookup where
  | refused (status : Nat)
  | key (key : List Char)
  deriving Repr, DecidableEq

/-- The checks before the cache is asked, and the key that it is asked for. -/
def lookupKey (request : StaticRequest) : Lookup :=
  match request.location.info.root.or request.site.info.root with
  | none =>
      .refused 500
  | some root =>
      let pathOnly := pathOnly request.path
      if (pathOnly.splitOn '/').any (· == ['.', '.']) then
        .refused 403
      else
        .key (makeCacheKey root (pathOnly.dropWhile (· == '/')))

/-- `cache_get_fast`. -/
def found? {Origin : Type}
    (cache : FileCache Origin)
    (request : StaticRequest) :
    Option (Stored Origin) :=
  match lookupKey request with
  | .refused _ =>
      none
  | .key key =>
      cache key

/-- What a request without an entry comes to. -/
inductive Located where
  | refused (status : Nat)
  | file (filePath : List Char) (object : FileObject)

/-- The file of a request, as `resolve_safe_path_fast` and the index give it. -/
def locateFile (files : FileSystem) (request : StaticRequest) : Located :=
  match staticFile files.disk request.site.info request.location.info
      request.path with
  | .noRoot =>
      .refused 500
  | .forbidden =>
      .refused 403
  | .notFound =>
      .refused 404
  | .noListing =>
      .refused 403
  | .file filePath =>
      match files.stat filePath with
      | some object =>
          .file filePath object
      | none =>
          .refused 500

end Sweety.StaticCache
