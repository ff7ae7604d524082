import Mathlib.Data.List.Basic
import Sweety.MultiMap
import Sweety.ProxyCache
import Sweety.UpstreamResponse

namespace Sweety

open HttpText UpstreamResponse

/-!
# The response of the reverse proxy

What `send_recv_pooled` makes of a response that it has read whole, what
`handle_sweety` does to it before it is sent, and what `handle_sweety` makes of
an entry of the cache.

Which texts are header names and header values is decided outside of this
program, as are regular expressions and the encoders; so these are parameters.
The choice of an encoding, which compares floating point weights, is one too.
-/

/-! ## Texts -/

namespace HttpText

/-- `replace` for a pattern that is not empty; `skip` characters are passed. -/
def replaceLoop (pattern replacement : List Char) :
    Nat → List Char → List Char
  | _, [] =>
      []
  | skip + 1, _ :: rest =>
      replaceLoop pattern replacement skip rest
  | 0, char :: rest =>
      if pattern.isPrefixOf (char :: rest) then
        replacement ++
          replaceLoop pattern replacement (pattern.length - 1) rest
      else
        char :: replaceLoop pattern replacement 0 rest

/-- `str::replace`; the empty pattern stands around every character. -/
def replace (pattern replacement text : List Char) : List Char :=
  if pattern.isEmpty then
    replacement ++ text.flatMap fun char => char :: replacement
  else
    replaceLoop pattern replacement 0 text

/-- `str::replacen` with a count of one. -/
def replaceFirst (pattern replacement : List Char) :
    List Char → List Char
  | [] =>
      if pattern.isEmpty then
        replacement
      else
        []
  | char :: rest =>
      if pattern.isPrefixOf (char :: rest) then
        replacement ++ (char :: rest).drop pattern.length
      else
        char :: replaceFirst pattern replacement rest

/-- The text before a byte offset, if the offset is between two characters. -/
def cutAt : Nat → List Char → Option (List Char)
  | 0, _ =>
      some []
  | _ + 1, [] =>
      none
  | bytes + 1, char :: rest =>
      if char.utf8Size ≤ bytes + 1 then
        (cutAt (bytes + 1 - char.utf8Size) rest).map (char :: ·)
      else
        none

/-- The decimal digits of a number. -/
def toDecimal (number : Nat) : List Char :=
  Nat.toDigits 10 number

end HttpText

/-! ## Headers -/

/-- Headers of a response: values by name, in lower case. -/
abbrev ResponseHeaders :=
  MultiMap (List Char) (List Char)

/-- A response to the client. -/
structure WebResponse where
  status : Nat
  headers : ResponseHeaders
  body : List UInt8

/-- The encodings of `compress_response`. -/
inductive Encoding where
  | br
  | zstd
  | gzip
  deriving Repr, DecidableEq

def Encoding.name : Encoding → List Char
  | .br =>
      "br".toList
  | .zstd =>
      "zstd".toList
  | .gzip =>
      "gzip".toList

/-- What is not decided by this program. -/
structure ResponseTools where
  /-- `HeaderName::from_bytes` accepts. -/
  validName : List Char → Bool
  /-- `HeaderValue::from_str` accepts. -/
  validValue : List Char → Bool
  /-- `HeaderValue::to_str` accepts. -/
  readable : List Char → Bool
  /-- `sub_filter_regex`: replacement and text to text. -/
  subFilterRegex : List Char → Option (List Char → List Char → List Char)
  /-- `cache_rule_regex`: path to match. -/
  cacheRuleRegex : List Char → Option (List Char → Bool)
  /-- `pick_best_encoding_sized`. -/
  pickBestEncodingSized :
    HeaderMap → Bool → Bool → Bool → Option Nat → Option Encoding
  encode : Encoding → Nat → List UInt8 → List UInt8

namespace ResponseTools

variable (tools : ResponseTools)

/-- `HeaderName::from_bytes`, which keeps a name in lower case. -/
def name? (text : List Char) : Option (List Char) :=
  if tools.validName text then
    some (toAsciiLowercase text)
  else
    none

/-- `HeaderValue::from_str`. -/
def value? (text : List Char) : Option (List Char) :=
  if tools.validValue text then
    some text
  else
    none

/-- Insert a header if its name and value are valid. -/
def insert (name value : List Char) (headers : ResponseHeaders) :
    ResponseHeaders :=
  match tools.name? name, tools.value? value with
  | some name, some value =>
      MultiMap.insert name value headers
  | _, _ =>
      headers

/-- Append a header if its name and value are valid. -/
def append (name value : List Char) (headers : ResponseHeaders) :
    ResponseHeaders :=
  match tools.name? name, tools.value? value with
  | some name, some value =>
      MultiMap.append name value headers
  | _, _ =>
      headers

end ResponseTools

/-- `HOP_BY_HOP_SET`. -/
def hopByHopSet : List (List Char) :=
  ["connection", "keep-alive", "proxy-authenticate", "proxy-authorization",
    "te", "trailer", "transfer-encoding", "upgrade", "content-length", "host",
    "proxy-connection"].map String.toList

/-- `is_hop_by_hop`. -/
def isHopByHop (name : List Char) : Bool :=
  decide (byteLength name ≤ 32) &&
    hopByHopSet.contains (toAsciiLowercase name)

/-! ## Configuration -/

/-- `struct HeaderOverride`. -/
structure HeaderOverride where
  name : List Char
  value : List Char
  deriving Repr, DecidableEq

/-- `struct CacheRule`. -/
structure CacheRule where
  pattern : List Char
  cacheControl : List Char
  deriving Repr, DecidableEq

/-- `struct SubFilter`. -/
structure SubFilter where
  pattern : List Char
  replacement : List Char
  deriving Repr, DecidableEq

/-- What a location configures about responses. -/
structure ResponseLocation where
  stripCookieSecure : Bool
  proxyCookieDomain : Option (List Char)
  proxyRedirectFrom : Option (List Char)
  proxyRedirectTo : Option (List Char)
  subFilter : List SubFilter
  proxyHideHeaders : List (List Char)
  addHeaders : List HeaderOverride
  cacheRules : List CacheRule
  deriving Repr, DecidableEq

/-- `effective_compress`. -/
structure EffectiveCompress where
  gzip : Bool
  gzipLevel : Nat
  brotli : Bool
  brotliLevel : Nat
  zstd : Bool
  zstdLevel : Nat
  deriving Repr, DecidableEq

/-- What is read of the request when its response is made. -/
structure ResponseContext where
  location : ResponseLocation
  compress : EffectiveCompress
  cache : Option ProxyCache
  path : List Char
  remoteAddr : List Char
  scheme : List Char
  headers : HeaderMap
  nodeTls : Bool
  clientTls : Bool
  deriving Repr, DecidableEq

/-- `strip_cookie_secure`. -/
def ResponseContext.stripCookieSecure (context : ResponseContext) : Bool :=
  context.location.stripCookieSecure ||
    (context.nodeTls && !context.clientTls)

/-- A response as `send_recv_pooled` has read it. -/
structure UpstreamReply where
  statusCode : Nat
  headers : List (List Char × List Char)
  body : List UInt8
  trailers : List (List Char × List Char)
  deriving Repr, DecidableEq

/-! ## The body -/

/-- The `Content-Type` is one of text. -/
def isText (headers : List (List Char × List Char)) : Bool :=
  headers.any fun header =>
    eqIgnoreAsciiCase header.1 "content-type".toList &&
      (contains header.2 "html".toList || contains header.2 "json".toList ||
        contains header.2 "javascript".toList ||
        contains header.2 "text".toList)

/-- `rewrite_body_urls`. -/
def rewriteBodyUrls
    (bytes : List UInt8)
    (headers : List (List Char × List Char))
    (redirectFrom redirectTo : Option (List Char)) :
    List UInt8 :=
  match redirectFrom, redirectTo with
  | some pattern, some replacement =>
      if isText headers then
        match decodeUtf8 bytes with
        | some text =>
            if contains text pattern then
              encodeUtf8 (replace pattern replacement text)
            else
              bytes
        | none =>
            bytes
      else
        bytes
  | _, _ =>
      bytes

/-- One filter of `apply_sub_filter`. -/
def subFilterText
    (tools : ResponseTools)
    (text : List Char)
    (filter : SubFilter) :
    List Char :=
  match filter.pattern with
  | '~' :: pattern =>
      match tools.subFilterRegex (trim pattern) with
      | some replaceAll =>
          replaceAll filter.replacement text
      | none =>
          text
  | pattern =>
      replace pattern filter.replacement text

/-- `apply_sub_filter`. -/
def applySubFilter
    (tools : ResponseTools)
    (body : List UInt8)
    (headers : List (List Char × List Char))
    (filters : List SubFilter) :
    List UInt8 :=
  if filters.isEmpty then
    body
  else if isText headers then
    match decodeUtf8 body with
    | some text =>
        encodeUtf8 (filters.foldl (subFilterText tools) text)
    | none =>
        body
  else
    body

/-- `final_body`. -/
def finalBody
    (tools : ResponseTools)
    (location : ResponseLocation)
    (reply : UpstreamReply) :
    List UInt8 :=
  applySubFilter tools
    (rewriteBodyUrls reply.body reply.headers location.proxyRedirectFrom
      location.proxyRedirectTo)
    reply.headers location.subFilter

/-! ## The headers that are passed on -/

/-- One part of a cookie; the outer `none` is a slice inside a character. -/
def setCookiePart
    (stripSecure : Bool)
    (newDomain : Option (List Char))
    (part : List Char) :
    Option (Option (List Char)) :=
  let trimmed := trim part
  if stripSecure && eqIgnoreAsciiCase trimmed "secure".toList then
    some none
  else
    match newDomain with
    | none =>
        some (some trimmed)
    | some domain =>
        if 7 < byteLength trimmed then
          (cutAt 7 trimmed).map fun start =>
            if eqIgnoreAsciiCase start "domain=".toList then
              some ("Domain=".toList ++ domain)
            else
              some trimmed
        else
          some (some trimmed)

/-- `rewrite_set_cookie`; `none` when it panics. -/
def rewriteSetCookie
    (stripSecure : Bool)
    (newDomain : Option (List Char))
    (cookie : List Char) :
    Option (List Char) :=
  ((cookie.splitOn ';').mapM (setCookiePart stripSecure newDomain)).map
    fun parts => List.intercalate "; ".toList parts.reduceOption

/-- The value of a `Set-Cookie` that is passed on. -/
def cookieValue? (context : ResponseContext) (cookie : List Char) :
    Option (List Char) :=
  if context.stripCookieSecure ||
      context.location.proxyCookieDomain.isSome then
    rewriteSetCookie context.stripCookieSecure
      context.location.proxyCookieDomain cookie
  else
    some cookie

/-- What `proxy_redirect` makes of a `Location`. -/
def redirected? (location : ResponseLocation) (value : List Char) :
    Option (List Char) :=
  match location.proxyRedirectFrom, location.proxyRedirectTo with
  | some pattern, some replacement =>
      some (replaceFirst pattern replacement value)
  | _, _ =>
      none

section Passing

variable (tools : ResponseTools) (context : ResponseContext)

/-- The end of the loop body: `Set-Cookie` is appended, the rest inserted. -/
def passHeader
    (headers : ResponseHeaders)
    (header : List Char × List Char) :
    Option ResponseHeaders :=
  if eqIgnoreAsciiCase header.1 "set-cookie".toList then
    (cookieValue? context header.2).map fun value =>
      tools.append header.1 value headers
  else
    some (tools.insert header.1 header.2 headers)

/-- The loop body of `apply_response_headers`. -/
def applyResponseHeader
    (headers : ResponseHeaders)
    (header : List Char × List Char) :
    Option ResponseHeaders :=
  if isHopByHop header.1 then
    some headers
  else if eqIgnoreAsciiCase header.1 "location".toList then
    match redirected? context.location header.2 with
    | some rewritten =>
        some (tools.insert header.1 rewritten headers)
    | none =>
        passHeader tools context headers header
  else
    passHeader tools context headers header

/-- `apply_response_headers`; `none` when it panics. -/
def applyResponseHeaders (headers : List (List Char × List Char)) :
    Option ResponseHeaders :=
  headers.foldlM (applyResponseHeader tools context) ∅

/-- The loop body of `append_trailer_headers`. -/
def appendTrailerHeader
    (headers : ResponseHeaders)
    (trailer : List Char × List Char) :
    ResponseHeaders :=
  if isHopByHop trailer.1 then
    headers
  else
    tools.append trailer.1 trailer.2 headers

/-- `append_trailer_headers`. -/
def appendTrailerHeaders
    (headers : ResponseHeaders)
    (trailers : List (List Char × List Char)) :
    ResponseHeaders :=
  trailers.foldl (appendTrailerHeader tools) headers

/-- Set `Content-Length` to the length of a body. -/
def setContentLength (body : List UInt8) (headers : ResponseHeaders) :
    ResponseHeaders :=
  match tools.value? (toDecimal body.length) with
  | some value =>
      MultiMap.insert "content-length".toList value headers
  | none =>
      headers

/--
The response of `send_recv_pooled`.  A status without body returns before the
body is read.
-/
def sendRecvResponse (reply : UpstreamReply) : Option WebResponse :=
  let status := statusFromU16 reply.statusCode
  (applyResponseHeaders tools context reply.headers).map fun headers =>
    if noBodyStatus status then
      ⟨status, headers, []⟩
    else
      let body := finalBody tools context.location reply
      ⟨status,
        setContentLength tools body
          (appendTrailerHeaders tools headers reply.trailers),
        body⟩

/-- What `send_recv_pooled` has stored. -/
def sendRecvStored? (reply : UpstreamReply) : Option CachedResponse :=
  match context.cache with
  | none =>
      none
  | some cache =>
      if noBodyStatus (statusFromU16 reply.statusCode) then
        none
      else if cache.isCacheable reply.statusCode reply.headers then
        some
          ⟨reply.statusCode, reply.headers,
            finalBody tools context.location reply⟩
      else
        none

/-! ## After the response was read -/

/-- `proxy_hide_headers`. -/
def hideHeaders (headers : ResponseHeaders) : ResponseHeaders :=
  context.location.proxyHideHeaders.foldl
    (fun headers name =>
      (tools.name? name).elim headers fun name =>
        MultiMap.remove name headers)
    headers

/-- The `Cache-Control` of the first rule that matches, if it is valid. -/
def ruleValue? (status : Nat) : Option (List Char) :=
  if 200 ≤ status ∧ status < 300 then
    (context.location.cacheRules.find? fun rule =>
      (tools.cacheRuleRegex rule.pattern).any fun isMatch =>
        isMatch context.path).bind fun rule =>
          tools.value? rule.cacheControl
  else
    none

/-- The value of an added header. -/
def addedValue (header : HeaderOverride) : List Char :=
  replace "$scheme".toList context.scheme
    (replace "$remote_addr".toList context.remoteAddr header.value)

/-- `apply_extra_headers`. -/
def applyExtraHeaders (status : Nat) (headers : ResponseHeaders) :
    ResponseHeaders :=
  let ruled :=
    (ruleValue? tools context status).elim headers fun value =>
      MultiMap.insert "cache-control".toList value headers
  context.location.addHeaders.foldl
    (fun headers header =>
      tools.insert header.name (addedValue context header) headers)
    ruled

/-- A `Content-Type` that is worth compressing. -/
def compressible (contentType : List Char) : Bool :=
  "text/".toList.isPrefixOf contentType ||
    contains contentType "javascript".toList ||
    contains contentType "json".toList ||
    contains contentType "xml".toList ||
    contains contentType "svg".toList

/-- The encoding that `compress_response` uses for such headers, if any. -/
def encodingFor?
    (contentEncoding contentType contentLength : Option (List Char)) :
    Option Encoding :=
  let compress := context.compress
  if !compress.gzip && !compress.brotli && !compress.zstd then
    none
  else if contentEncoding.isSome then
    none
  else if compressible ((contentType.filter tools.readable).getD []) then
    tools.pickBestEncodingSized context.headers compress.gzip
      compress.brotli compress.zstd
      ((contentLength.filter tools.readable).bind parseUsize?)
  else
    none

/-- The encoding that `compress_response` uses, if any. -/
def encoding? (headers : ResponseHeaders) : Option Encoding :=
  encodingFor? tools context (headers.get? "content-encoding".toList)
    (headers.get? "content-type".toList)
    (headers.get? "content-length".toList)

/-- The level of an encoding. -/
def EffectiveCompress.level (compress : EffectiveCompress) :
    Encoding → Nat
  | .br =>
      min compress.brotliLevel 11
  | .zstd =>
      min (max compress.zstdLevel 1) 22
  | .gzip =>
      min compress.gzipLevel 9

/-- `compress_response`. -/
def compressResponse (response : WebResponse) : WebResponse :=
  match encoding? tools context response.headers with
  | none =>
      response
  | some encoding =>
      let headers :=
        MultiMap.remove "content-length".toList response.headers
      let headers :=
        (tools.value? encoding.name).elim headers fun value =>
          MultiMap.insert "content-encoding".toList value headers
      { response with
        headers :=
          MultiMap.insert "vary".toList "Accept-Encoding".toList headers
        body :=
          tools.encode encoding (context.compress.level encoding)
            response.body }

/-- The headers of a miss before the response is compressed. -/
def missHeaders (status : Nat) (headers : ResponseHeaders) :
    ResponseHeaders :=
  let marked :=
    if context.cache.isSome then
      MultiMap.insert "x-cache".toList "MISS".toList headers
    else
      headers
  applyExtraHeaders tools context status (hideHeaders tools context marked)

/-- The end of `handle_sweety`. -/
def postProcess (response : WebResponse) : WebResponse :=
  compressResponse tools context
    { response with
      headers := missHeaders tools context response.status response.headers }

/-- What the client is sent when the cache has no entry. -/
def missResponse (reply : UpstreamReply) : Option WebResponse :=
  (sendRecvResponse tools context reply).map (postProcess tools context)

/-- What the client is sent when the cache has an entry. -/
def hitResponse (entry : CachedResponse) : WebResponse where
  status := statusFromU16 entry.status
  headers :=
    MultiMap.insert "x-cache-status".toList "HIT".toList
      (MultiMap.insert "x-cache".toList "HIT".toList
        (entry.headers.foldl
          (fun headers header => tools.insert header.1 header.2 headers) ∅))
  body := entry.body

end Passing

end Sweety
