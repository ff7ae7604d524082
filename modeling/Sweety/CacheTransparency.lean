import Sweety.ProxyResponse

namespace Sweety.CacheTransparency

open HttpText UpstreamResponse

/-!
# What a cached response looks like

The entry of the cache keeps the headers of the upstream and the body after it
was rewritten.  A hit sends these headers as they are, one value for each name.
On the miss they went through `apply_response_headers`, the trailers, the length
of the rewritten body, `proxy_hide_headers`, the cache rules, `add_headers` and
compression.  This module says for which upstream responses and configurations
the two agree.
-/

/-- A response served from the cache against the one sent on the miss. -/
structure Transparent (sent served : WebResponse) : Prop where
  status : served.status = sent.status
  body : served.body = sent.body
  headers :
    ∀ name,
      name ≠ "x-cache".toList →
      name ≠ "x-cache-status".toList →
        served.headers.getAll name = sent.headers.getAll name
  length :
    served.headers.getAll "content-length".toList =
      [toDecimal served.body.length]
  noHopByHop :
    ∀ name ∈ hopByHopSet,
      name ≠ "content-length".toList →
        served.headers.getAll name = []

section Values

variable (tools : ResponseTools) (context : ResponseContext)

/-- The valid values of a name that come with the upstream response. -/
def received
    (name : List Char)
    (headers : List (List Char × List Char)) :
    List (List Char) :=
  headers.filterMap fun header =>
    if tools.name? header.1 = some name then
      tools.value? header.2
    else
      none

/-- The cookies that are passed on. -/
def cookies (headers : List (List Char × List Char)) : List (List Char) :=
  headers.filterMap fun header =>
    if tools.name? header.1 = some "set-cookie".toList then
      (cookieValue? context header.2).bind tools.value?
    else
      none

/-- The locations that are passed on. -/
def locations (headers : List (List Char × List Char)) :
    List (List Char) :=
  headers.filterMap fun header =>
    if tools.name? header.1 = some "location".toList then
      tools.value?
        ((redirected? context.location header.2).getD header.2)
    else
      none

/-- The valid values that `add_headers` has for a name. -/
def added (name : List Char) : List (List Char) :=
  context.location.addHeaders.filterMap fun header =>
    if tools.name? header.name = some name then
      tools.value? (addedValue context header)
    else
      none

/-- A name in `proxy_hide_headers`. -/
def hidden (name : List Char) : Bool :=
  context.location.proxyHideHeaders.any fun hide =>
    tools.name? hide == some name

/-- Neither `add_headers` nor a cache rule sets the name. -/
def Unset (status : Nat) (name : List Char) : Prop :=
  added tools context name = [] ∧
    (name = "cache-control".toList →
      ruleValue? tools context status = none)

/--
What the headers of the upstream and the configuration must meet.  The last
length that the upstream gives is that of the rewritten body; there is no other
hop-by-hop header; what is added was there already, what is hidden was not; no
trailer is added; cookies and the location are passed on unchanged, and there is
one cookie at most.
-/
structure KeepsHeaders (reply : UpstreamReply) : Prop where
  length :
    (received tools "content-length".toList reply.headers).getLast? =
      some (toDecimal (finalBody tools context.location reply).length)
  noHopByHop :
    ∀ name ∈ hopByHopSet,
      name ≠ "content-length".toList →
        received tools name reply.headers = []
  added :
    ∀ name value,
      name ≠ "x-cache".toList →
      name ≠ "x-cache-status".toList →
      (added tools context name).getLast? = some value →
        (received tools name reply.headers).getLast? = some value
  ruled :
    ∀ value,
      CacheTransparency.added tools context "cache-control".toList = [] →
      ruleValue? tools context (statusFromU16 reply.statusCode) =
        some value →
        (received tools "cache-control".toList reply.headers).getLast? =
          some value
  hidden :
    ∀ name,
      name ≠ "x-cache".toList →
      name ≠ "x-cache-status".toList →
      Unset tools context (statusFromU16 reply.statusCode) name →
      hidden tools context name = true →
        received tools name reply.headers = []
  trailers :
    ∀ name,
      name ≠ "x-cache".toList →
      name ≠ "x-cache-status".toList →
      Unset tools context (statusFromU16 reply.statusCode) name →
      CacheTransparency.hidden tools context name = false →
      name ∉ hopByHopSet →
      name ≠ "set-cookie".toList →
      name ≠ "location".toList →
        received tools name reply.trailers = []
  cookies :
    Unset tools context (statusFromU16 reply.statusCode)
        "set-cookie".toList →
    CacheTransparency.hidden tools context "set-cookie".toList = false →
      cookies tools context reply.headers ++
          received tools "set-cookie".toList reply.trailers =
        (received tools "set-cookie".toList reply.headers).getLast?.toList
  location :
    Unset tools context (statusFromU16 reply.statusCode)
        "location".toList →
    CacheTransparency.hidden tools context "location".toList = false →
      (locations tools context reply.headers).getLast?.toList ++
          received tools "location".toList reply.trailers =
        (received tools "location".toList reply.headers).getLast?.toList

/-- What must be met for a hit to look like the miss: nothing is compressed. -/
structure Replays (reply : UpstreamReply) : Prop extends
    KeepsHeaders tools context reply where
  notCompressed :
    encodingFor? tools context
        (received tools "content-encoding".toList
          reply.headers).getLast?
        (received tools "content-type".toList reply.headers).getLast?
        (some
          (toDecimal (finalBody tools context.location reply).length)) =
      none

end Values

/-! ## One name at a time -/

section OneName

variable {tools : ResponseTools} {context : ResponseContext}

theorem getAll_insert
    (name header value : List Char)
    (headers : ResponseHeaders) :
    (tools.insert header value headers).getAll name =
      (if tools.name? header = some name then
        tools.value? value
      else
        none).elim (headers.getAll name) fun value => [value] := by
  unfold ResponseTools.insert
  cases isName : tools.name? header with
  | none =>
      rfl
  | some other =>
      cases tools.value? value with
      | none =>
          simp
      | some valid =>
          by_cases same : name = other
          · simp [same]
          · simp [same, Ne.symm same]

theorem getAll_append
    (name header value : List Char)
    (headers : ResponseHeaders) :
    (tools.append header value headers).getAll name =
      headers.getAll name ++
        (if tools.name? header = some name then
          tools.value? value
        else
          none).toList := by
  unfold ResponseTools.append
  cases isName : tools.name? header with
  | none =>
      simp
  | some other =>
      cases tools.value? value with
      | none =>
          simp
      | some valid =>
          by_cases same : name = other
          · simp [same]
          · simp [same, Ne.symm same]

theorem name_eq
    {header name : List Char}
    (isName : tools.name? header = some name) :
    name = toAsciiLowercase header := by
  simp only [ResponseTools.name?, Option.ite_none_right_eq_some,
    Option.some.injEq] at isName
  exact isName.2.symm

/-- A header with a valid name is hop-by-hop as its name says. -/
theorem isHopByHop_iff
    {header name : List Char}
    (isName : tools.name? header = some name) :
    isHopByHop header = true ↔ name ∈ hopByHopSet := by
  have short : ∀ known ∈ hopByHopSet, byteLength known ≤ 32 := by
    decide
  rw [isHopByHop, ← name_eq isName, Bool.and_eq_true, decide_eq_true_iff,
    List.contains_iff_mem, and_iff_right_iff_imp]
  intro isKnown
  have shortName := short name isKnown
  rwa [name_eq isName, byteLength_toAsciiLowercase] at shortName

theorem eqIgnoreAsciiCase_iff
    {header name text : List Char}
    (isName : tools.name? header = some name)
    (isLower : toAsciiLowercase text = text) :
    eqIgnoreAsciiCase header text = true ↔ name = text := by
  rw [eqIgnoreAsciiCase, isLower, ← name_eq isName, beq_iff_eq]

theorem elim_nil {Value : Type} (value? : Option Value) :
    (value?.elim [] fun value => [value]) = value?.toList := by
  cases value? <;> rfl

/-- The headers of a hit. -/
theorem getAll_hitResponse
    {name : List Char}
    (entry : CachedResponse)
    (notCache : name ≠ "x-cache".toList)
    (notCacheStatus : name ≠ "x-cache-status".toList) :
    (hitResponse tools entry).headers.getAll name =
      (received tools name entry.headers).getLast?.toList := by
  simp only [hitResponse, MultiMap.getAll_insert, if_neg notCache,
    if_neg notCacheStatus]
  rw [MultiMap.getAll_foldl_replace
    fun table header => getAll_insert name header.1 header.2 table]
  exact elim_nil _

theorem passHeader_cases
    {header : List Char × List Char}
    {table next : ResponseHeaders}
    (isNext : passHeader tools context table header = some next) :
    (eqIgnoreAsciiCase header.1 "set-cookie".toList = true ∧
      ∃ value,
        cookieValue? context header.2 = some value ∧
          next = tools.append header.1 value table) ∨
    (eqIgnoreAsciiCase header.1 "set-cookie".toList = false ∧
      next = tools.insert header.1 header.2 table) := by
  unfold passHeader at isNext
  split at isNext
  · next isCookie =>
      obtain ⟨value, isValue, rfl⟩ := Option.map_eq_some_iff.mp isNext
      exact .inl ⟨isCookie, value, isValue, rfl⟩
  · next notCookie =>
      exact .inr
        ⟨Bool.eq_false_iff.mpr notCookie, (Option.some.inj isNext).symm⟩

/-- The value of a header that is inserted. -/
def insertedValue
    (context : ResponseContext)
    (header : List Char × List Char) :
    List Char :=
  if eqIgnoreAsciiCase header.1 "location".toList then
    (redirected? context.location header.2).getD header.2
  else
    header.2

/-- What the loop of `apply_response_headers` does with a header. -/
theorem applyResponseHeader_cases
    {header : List Char × List Char}
    {table next : ResponseHeaders}
    (isNext : applyResponseHeader tools context table header = some next) :
    (isHopByHop header.1 = true ∧ next = table) ∨
    (isHopByHop header.1 = false ∧
      eqIgnoreAsciiCase header.1 "set-cookie".toList = true ∧
      ∃ value,
        cookieValue? context header.2 = some value ∧
          next = tools.append header.1 value table) ∨
    (isHopByHop header.1 = false ∧
      eqIgnoreAsciiCase header.1 "set-cookie".toList = false ∧
      next = tools.insert header.1 (insertedValue context header) table) := by
  unfold applyResponseHeader at isNext
  unfold insertedValue
  split at isNext
  · next isHop =>
      exact .inl ⟨isHop, (Option.some.inj isNext).symm⟩
  · next notHop =>
      refine .inr ?_
      have notHopFalse := Bool.eq_false_iff.mpr notHop
      split at isNext
      · next isLocation =>
          rw [if_pos isLocation]
          split at isNext
          · next rewritten isRewritten =>
              have notCookie :
                  eqIgnoreAsciiCase header.1 "set-cookie".toList =
                    false := by
                rw [eqIgnoreAsciiCase, beq_iff_eq] at isLocation
                rw [eqIgnoreAsciiCase, isLocation]
                decide
              rw [isRewritten]
              exact .inr
                ⟨notHopFalse, notCookie, (Option.some.inj isNext).symm⟩
          · next noRewrite =>
              rw [noRewrite]
              rcases passHeader_cases isNext with isCookie | isInserted
              · exact .inl ⟨notHopFalse, isCookie⟩
              · exact .inr ⟨notHopFalse, isInserted⟩
      · next notLocation =>
          rw [if_neg notLocation]
          rcases passHeader_cases isNext with isCookie | isInserted
          · exact .inl ⟨notHopFalse, isCookie⟩
          · exact .inr ⟨notHopFalse, isInserted⟩

/-- A hop-by-hop header is not passed on. -/
theorem getAll_applyResponseHeaders_of_hopByHop
    {name : List Char}
    {headers : List (List Char × List Char)}
    {after : ResponseHeaders}
    (isHop : name ∈ hopByHopSet)
    (isAfter : applyResponseHeaders tools context headers = some after) :
    after.getAll name = [] := by
  have nothing :
      after.getAll name =
        (∅ : ResponseHeaders).getAll name ++
          headers.filterMap fun _ => none := by
    refine MultiMap.getAll_foldlM_add ?_ isAfter
    intro table header next isNext
    have otherName
        (notHop : isHopByHop header.1 = false) :
        tools.name? header.1 ≠ some name := by
      intro isName
      rw [(isHopByHop_iff isName).mpr isHop] at notHop
      cases notHop
    rcases applyResponseHeader_cases isNext with
      ⟨_, rfl⟩ | ⟨notHop, _, value, _, rfl⟩ | ⟨notHop, _, rfl⟩
    · simp
    · rw [getAll_append, if_neg (otherName notHop)]
    · rw [getAll_insert, if_neg (otherName notHop)]
      simp
  simpa using nothing

/-- The cookies are all passed on. -/
theorem getAll_applyResponseHeaders_cookies
    {headers : List (List Char × List Char)}
    {after : ResponseHeaders}
    (isAfter : applyResponseHeaders tools context headers = some after) :
    after.getAll "set-cookie".toList = cookies tools context headers := by
  have notHop : "set-cookie".toList ∉ hopByHopSet := by
    decide
  refine MultiMap.getAll_foldlM_add ?_ isAfter
  intro table header next isNext
  rcases applyResponseHeader_cases isNext with
    ⟨isHop, rfl⟩ | ⟨_, _, value, isValue, rfl⟩ | ⟨_, notCookie, rfl⟩
  · have otherName : tools.name? header.1 ≠ some "set-cookie".toList := by
      intro isName
      exact notHop ((isHopByHop_iff isName).mp isHop)
    rw [if_neg otherName, Option.toList_none, List.append_nil]
  · rw [getAll_append, isValue, Option.bind_some]
  · have otherName : tools.name? header.1 ≠ some "set-cookie".toList := by
      intro isName
      rw [(eqIgnoreAsciiCase_iff isName (by decide)).mpr rfl]
        at notCookie
      cases notCookie
    rw [getAll_insert, if_neg otherName, if_neg otherName,
      Option.toList_none, List.append_nil]
    rfl

/-- The values of a name other than `Set-Cookie`. -/
theorem getAll_applyResponseHeaders
    {name : List Char}
    {headers : List (List Char × List Char)}
    {after : ResponseHeaders}
    (notHop : name ∉ hopByHopSet)
    (notCookie : name ≠ "set-cookie".toList)
    (isAfter : applyResponseHeaders tools context headers = some after) :
    after.getAll name =
      (headers.filterMap fun header =>
        if tools.name? header.1 = some name then
          tools.value? (insertedValue context header)
        else
          none).getLast?.toList := by
  rw [← elim_nil]
  refine MultiMap.getAll_foldlM_replace ?_ isAfter
  intro table header next isNext
  rcases applyResponseHeader_cases isNext with
    ⟨isHop, rfl⟩ | ⟨_, isCookie, value, _, rfl⟩ | ⟨_, _, rfl⟩
  · have otherName : tools.name? header.1 ≠ some name := by
      intro isName
      exact notHop ((isHopByHop_iff isName).mp isHop)
    rw [if_neg otherName]
    rfl
  · have otherName : tools.name? header.1 ≠ some name := by
      intro isName
      exact notCookie
        ((eqIgnoreAsciiCase_iff isName (by decide)).mp isCookie)
    rw [getAll_append, if_neg otherName, if_neg otherName]
    simp
  · rw [getAll_insert]

theorem getAll_applyResponseHeaders_location
    {headers : List (List Char × List Char)}
    {after : ResponseHeaders}
    (isAfter : applyResponseHeaders tools context headers = some after) :
    after.getAll "location".toList =
      (locations tools context headers).getLast?.toList := by
  rw [getAll_applyResponseHeaders (by decide) (by decide)
    isAfter]
  apply congrArg fun values => (List.getLast? values).toList
  apply List.filterMap_congr
  intro header _
  split
  · next isName =>
      rw [insertedValue,
        if_pos ((eqIgnoreAsciiCase_iff isName (by decide)).mpr rfl)]
  · rfl

theorem getAll_applyResponseHeaders_other
    {name : List Char}
    {headers : List (List Char × List Char)}
    {after : ResponseHeaders}
    (notHop : name ∉ hopByHopSet)
    (notCookie : name ≠ "set-cookie".toList)
    (notLocation : name ≠ "location".toList)
    (isAfter : applyResponseHeaders tools context headers = some after) :
    after.getAll name = (received tools name headers).getLast?.toList := by
  rw [getAll_applyResponseHeaders notHop notCookie isAfter]
  apply congrArg fun values => (List.getLast? values).toList
  apply List.filterMap_congr
  intro header _
  split
  · next isName =>
      have otherHeader :
          ¬ eqIgnoreAsciiCase header.1 "location".toList = true := by
        intro isLocation
        exact notLocation
          ((eqIgnoreAsciiCase_iff isName (by decide)).mp isLocation)
      rw [insertedValue, if_neg otherHeader]
  · rfl

theorem getAll_appendTrailerHeaders
    {name : List Char}
    (notHop : name ∉ hopByHopSet)
    (headers : ResponseHeaders)
    (trailers : List (List Char × List Char)) :
    (appendTrailerHeaders tools headers trailers).getAll name =
      headers.getAll name ++ received tools name trailers := by
  refine MultiMap.getAll_foldl_add ?_ trailers headers
  intro table trailer
  unfold appendTrailerHeader
  split
  · next isHop =>
      have otherName : tools.name? trailer.1 ≠ some name := by
        intro isName
        exact notHop ((isHopByHop_iff isName).mp isHop)
      rw [if_neg otherName, Option.toList_none, List.append_nil]
  · rw [getAll_append]

theorem getAll_appendTrailerHeaders_of_hopByHop
    {name : List Char}
    (isHop : name ∈ hopByHopSet)
    (headers : ResponseHeaders)
    (trailers : List (List Char × List Char)) :
    (appendTrailerHeaders tools headers trailers).getAll name =
      headers.getAll name := by
  have nothing :
      (appendTrailerHeaders tools headers trailers).getAll name =
        headers.getAll name ++ trailers.filterMap fun _ => none := by
    refine MultiMap.getAll_foldl_add ?_ trailers headers
    intro table trailer
    unfold appendTrailerHeader
    split
    · simp
    · next notHop =>
        have otherName : tools.name? trailer.1 ≠ some name := by
          intro isName
          exact notHop ((isHopByHop_iff isName).mpr isHop)
        rw [getAll_append, if_neg otherName]
  simpa using nothing

theorem getAll_setContentLength
    {name : List Char}
    (notLength : name ≠ "content-length".toList)
    (body : List UInt8)
    (headers : ResponseHeaders) :
    (setContentLength tools body headers).getAll name =
      headers.getAll name := by
  unfold setContentLength
  split
  · rw [MultiMap.getAll_insert, if_neg notLength]
  · rfl

theorem getAll_hideHeaders (name : List Char) (headers : ResponseHeaders) :
    (hideHeaders tools context headers).getAll name =
      if hidden tools context name then [] else headers.getAll name := by
  refine MultiMap.getAll_foldl_forget ?_ _ headers
  intro table hide
  cases isName : tools.name? hide with
  | none =>
      rfl
  | some other =>
      by_cases same : name = other
      · simp [same]
      · simp [same, Ne.symm same]

/-- The headers of a miss, from what was read to what is added. -/
theorem getAll_missHeaders
    {name : List Char}
    (notCache : name ≠ "x-cache".toList)
    (status : Nat)
    (headers : ResponseHeaders) :
    (missHeaders tools context status headers).getAll name =
      (added tools context name).getLast?.elim
        ((if name = "cache-control".toList then
          ruleValue? tools context status
        else
          none).elim
          (if hidden tools context name then [] else headers.getAll name)
          fun value => [value])
        fun value => [value] := by
  have marked :
      (if context.cache.isSome then
        MultiMap.insert "x-cache".toList "MISS".toList headers
      else
        headers).getAll name = headers.getAll name := by
    split
    · rw [MultiMap.getAll_insert, if_neg notCache]
    · rfl
  unfold missHeaders applyExtraHeaders
  rw [MultiMap.getAll_foldl_replace fun table header =>
    getAll_insert name header.name (addedValue context header) table]
  apply congrArg fun values =>
    (added tools context name).getLast?.elim values fun value => [value]
  rw [← marked, ← getAll_hideHeaders]
  cases ruleValue? tools context status with
  | none =>
      rw [ite_self]
      rfl
  | some value =>
      rw [Option.elim_some, MultiMap.getAll_insert]
      split <;> rfl

/-- What `send_recv_pooled` leaves in the headers, before and after the body. -/
def beforeMiss
    (tools : ResponseTools)
    (context : ResponseContext)
    (reply : UpstreamReply)
    (applied : ResponseHeaders) :
    ResponseHeaders :=
  setContentLength tools (finalBody tools context.location reply)
    (appendTrailerHeaders tools applied reply.trailers)

theorem toList_eq_singleton
    {Value : Type}
    {value? : Option Value}
    {value : Value} :
    value?.toList = [value] ↔ value? = some value := by
  cases value? <;> simp

theorem received_eq_nil_iff
    {name : List Char}
    {headers : List (List Char × List Char)} :
    (received tools name headers).getLast?.toList = [] ↔
      received tools name headers = [] := by
  rw [Option.toList_eq_nil_iff, List.getLast?_eq_none_iff]

/-- A value that was received is valid. -/
theorem value?_of_received
    {name value : List Char}
    {headers : List (List Char × List Char)}
    (isLast : (received tools name headers).getLast? = some value) :
    tools.value? value = some value := by
  obtain ⟨header, _, isValue⟩ :=
    List.mem_filterMap.mp (List.mem_of_getLast? isLast)
  split at isValue
  · simp only [ResponseTools.value?, Option.ite_none_right_eq_some,
      Option.some.injEq] at isValue
    obtain ⟨isValid, rfl⟩ := isValue
    rw [ResponseTools.value?, if_pos isValid]
  · cases isValue

section Sent

variable
  {reply : UpstreamReply}
  {applied : ResponseHeaders}
  {name : List Char}

theorem getAll_missHeaders_added
    {value : List Char}
    {status : Nat}
    {headers : ResponseHeaders}
    (notCache : name ≠ "x-cache".toList)
    (isAdded : (added tools context name).getLast? = some value) :
    (missHeaders tools context status headers).getAll name = [value] := by
  rw [getAll_missHeaders notCache, isAdded]
  rfl

theorem getAll_missHeaders_ruled
    {value : List Char}
    {status : Nat}
    {headers : ResponseHeaders}
    (notAdded : added tools context "cache-control".toList = [])
    (isRule : ruleValue? tools context status = some value) :
    (missHeaders tools context status headers).getAll
      "cache-control".toList = [value] := by
  rw [getAll_missHeaders (by decide), notAdded, if_pos rfl, isRule]
  rfl

/-- A header that is neither added nor ruled is hidden or passed on. -/
theorem getAll_missHeaders_unset
    {status : Nat}
    {headers : ResponseHeaders}
    (notCache : name ≠ "x-cache".toList)
    (unset : Unset tools context status name) :
    (missHeaders tools context status headers).getAll name =
      if hidden tools context name then [] else headers.getAll name := by
  have noRule :
      (if name = "cache-control".toList then
        ruleValue? tools context status
      else
        none) = none := by
    split
    · next isControl =>
        exact unset.2 isControl
    · rfl
  rw [getAll_missHeaders notCache, unset.1, noRule]
  rfl

/-- What is passed on of a name, hop-by-hop names apart. -/
theorem getAll_beforeMiss
    (notHop : name ∉ hopByHopSet) :
    (beforeMiss tools context reply applied).getAll name =
      applied.getAll name ++ received tools name reply.trailers := by
  have notLength : name ≠ "content-length".toList := by
    rintro rfl
    exact notHop (by decide)
  rw [beforeMiss, getAll_setContentLength notLength,
    getAll_appendTrailerHeaders notHop]

/-- The last value that the upstream sent, for every name but the marks. -/
def Agrees
    (tools : ResponseTools)
    (reply : UpstreamReply)
    (headers : ResponseHeaders) :
    Prop :=
  ∀ name,
    name ≠ "x-cache".toList →
    name ≠ "x-cache-status".toList →
      (received tools name reply.headers).getLast?.toList =
        headers.getAll name

/-- The headers of a miss that agree with the upstream's. -/
theorem keepsHeaders_of_agrees
    (isApplied :
      applyResponseHeaders tools context reply.headers = some applied)
    (length :
      (received tools "content-length".toList reply.headers).getLast? =
        some (toDecimal (finalBody tools context.location reply).length))
    (noHopByHop :
      ∀ name ∈ hopByHopSet,
        name ≠ "content-length".toList →
          received tools name reply.headers = [])
    (agrees :
      Agrees tools reply
        (missHeaders tools context (statusFromU16 reply.statusCode)
          (beforeMiss tools context reply applied))) :
    KeepsHeaders tools context reply where
  length := length
  noHopByHop := noHopByHop
  added := by
    intro name value notCache notStatus isAdded
    have same := agrees name notCache notStatus
    rw [getAll_missHeaders_added notCache isAdded] at same
    exact toList_eq_singleton.mp same
  ruled := by
    intro value notAdded isRule
    have same := agrees "cache-control".toList (by decide)
      (by decide)
    rw [getAll_missHeaders_ruled notAdded isRule] at same
    exact toList_eq_singleton.mp same
  hidden := by
    intro name notCache notStatus unset isHidden
    have same := agrees name notCache notStatus
    rw [getAll_missHeaders_unset notCache unset, if_pos isHidden] at same
    exact received_eq_nil_iff.mp same
  trailers := by
    intro name notCache notStatus unset notHidden notHop notCookie
      notLocation
    have same := agrees name notCache notStatus
    rw [getAll_missHeaders_unset notCache unset, notHidden,
      if_neg Bool.false_ne_true, getAll_beforeMiss notHop,
      getAll_applyResponseHeaders_other notHop notCookie notLocation
        isApplied] at same
    exact List.self_eq_append_right.mp same
  cookies := by
    intro unset notHidden
    have same := agrees "set-cookie".toList (by decide)
      (by decide)
    rw [getAll_missHeaders_unset (by decide) unset, notHidden,
      if_neg Bool.false_ne_true, getAll_beforeMiss (by decide),
      getAll_applyResponseHeaders_cookies isApplied] at same
    exact same.symm
  location := by
    intro unset notHidden
    have same := agrees "location".toList (by decide)
      (by decide)
    rw [getAll_missHeaders_unset (by decide) unset, notHidden,
      if_neg Bool.false_ne_true, getAll_beforeMiss (by decide),
      getAll_applyResponseHeaders_location isApplied] at same
    exact same.symm

/-- A hop-by-hop header that is not set by the configuration. -/
theorem KeepsHeaders.agrees_of_hopByHop
    (keeps : KeepsHeaders tools context reply)
    (isApplied :
      applyResponseHeaders tools context reply.headers = some applied)
    (isHop : name ∈ hopByHopSet) :
    (received tools name reply.headers).getLast?.toList =
      (beforeMiss tools context reply applied).getAll name := by
  by_cases isLength : name = "content-length".toList
  · subst isLength
    rw [keeps.length, beforeMiss, setContentLength,
      value?_of_received keeps.length, MultiMap.getAll_insert, if_pos rfl]
    rfl
  · rw [keeps.noHopByHop name isHop isLength, beforeMiss,
      getAll_setContentLength isLength,
      getAll_appendTrailerHeaders_of_hopByHop isHop,
      getAll_applyResponseHeaders_of_hopByHop isHop isApplied]
    rfl

/-- A header that the configuration neither sets nor hides. -/
theorem KeepsHeaders.agrees_of_kept
    (keeps : KeepsHeaders tools context reply)
    (isApplied :
      applyResponseHeaders tools context reply.headers = some applied)
    (notCache : name ≠ "x-cache".toList)
    (notStatus : name ≠ "x-cache-status".toList)
    (unset : Unset tools context (statusFromU16 reply.statusCode) name)
    (notHidden : CacheTransparency.hidden tools context name = false) :
    (received tools name reply.headers).getLast?.toList =
      (beforeMiss tools context reply applied).getAll name := by
  by_cases isHop : name ∈ hopByHopSet
  · exact keeps.agrees_of_hopByHop isApplied isHop
  · rw [getAll_beforeMiss isHop]
    by_cases isCookie : name = "set-cookie".toList
    · subst isCookie
      rw [getAll_applyResponseHeaders_cookies isApplied,
        keeps.cookies unset notHidden]
    · by_cases isLocation : name = "location".toList
      · subst isLocation
        rw [getAll_applyResponseHeaders_location isApplied,
          keeps.location unset notHidden]
      · rw [getAll_applyResponseHeaders_other isHop isCookie isLocation
            isApplied,
          keeps.trailers name notCache notStatus unset notHidden isHop
            isCookie isLocation, List.append_nil]

/-- Headers that are kept agree on the miss with those of the upstream. -/
theorem KeepsHeaders.agrees
    (keeps : KeepsHeaders tools context reply)
    (isApplied :
      applyResponseHeaders tools context reply.headers = some applied) :
    Agrees tools reply
      (missHeaders tools context (statusFromU16 reply.statusCode)
        (beforeMiss tools context reply applied)) := by
  intro name notCache notStatus
  cases isAdded : (CacheTransparency.added tools context name).getLast? with
  | some value =>
      rw [getAll_missHeaders_added notCache isAdded,
        keeps.added name value notCache notStatus isAdded]
      rfl
  | none =>
      have notAdded := List.getLast?_eq_none_iff.mp isAdded
      by_cases isRuled :
          name = "cache-control".toList ∧
            ruleValue? tools context (statusFromU16 reply.statusCode) ≠ none
      · obtain ⟨rfl, hasRule⟩ := isRuled
        obtain ⟨value, isRule⟩ := Option.ne_none_iff_exists'.mp hasRule
        rw [getAll_missHeaders_ruled notAdded isRule,
          keeps.ruled value notAdded isRule]
        rfl
      · have unset :
            Unset tools context (statusFromU16 reply.statusCode) name := by
          refine ⟨notAdded, ?_⟩
          intro isControl
          by_contra hasRule
          exact isRuled ⟨isControl, hasRule⟩
        rw [getAll_missHeaders_unset notCache unset]
        cases isHidden : CacheTransparency.hidden tools context name with
        | true =>
            rw [keeps.hidden name notCache notStatus unset isHidden]
            rfl
        | false =>
            rw [if_neg Bool.false_ne_true]
            exact keeps.agrees_of_kept isApplied notCache notStatus unset
              isHidden

/-- The headers of a hit agree with the upstream's. -/
theorem hit_agrees
    {stored : CachedResponse}
    (sameHeaders : stored.headers = reply.headers) :
    Agrees tools reply (hitResponse tools stored).headers := by
  intro name notCache notStatus
  rw [getAll_hitResponse stored notCache notStatus, sameHeaders]

/-- Headers that agree are compressed as the upstream's would be. -/
theorem Agrees.encoding?_eq
    {headers : ResponseHeaders}
    (agrees : Agrees tools reply headers)
    {length : List Char}
    (isLength :
      (received tools "content-length".toList reply.headers).getLast? =
        some length) :
    encoding? tools context headers =
      encodingFor? tools context
        (received tools "content-encoding".toList reply.headers).getLast?
        (received tools "content-type".toList reply.headers).getLast?
        (some length) := by
  have first (name : List Char)
      (notCache : name ≠ "x-cache".toList)
      (notStatus : name ≠ "x-cache-status".toList) :
      headers.get? name = (received tools name reply.headers).getLast? := by
    rw [MultiMap.get?, ← agrees name notCache notStatus]
    cases (received tools name reply.headers).getLast? <;> rfl
  rw [encoding?, first _ (by decide) (by decide),
    first _ (by decide) (by decide),
    first _ (by decide) (by decide), isLength]

/-- A compressed response has no length. -/
theorem getAll_compressResponse_length
    {response : WebResponse}
    {encoding : Encoding}
    (isEncoded :
      encoding? tools context response.headers = some encoding) :
    (compressResponse tools context response).headers.getAll
      "content-length".toList = [] := by
  have notLength :
      "content-length".toList ≠ "content-encoding".toList ∧
        "content-length".toList ≠ "vary".toList := by
    decide
  simp only [compressResponse, isEncoded, MultiMap.getAll_insert,
    if_neg notLength.2]
  cases tools.value? encoding.name with
  | none =>
      rw [Option.elim_none, MultiMap.getAll_remove, if_pos rfl]
  | some value =>
      rw [Option.elim_some, MultiMap.getAll_insert, if_neg notLength.1,
        MultiMap.getAll_remove, if_pos rfl]

theorem compressResponse_eq_self
    {response : WebResponse}
    (notEncoded : encoding? tools context response.headers = none) :
    compressResponse tools context response = response := by
  rw [compressResponse, notEncoded]

/-- What is stored, if anything is. -/
theorem stored_eq
    {stored : CachedResponse}
    (isStored : sendRecvStored? tools context reply = some stored) :
    noBodyStatus (statusFromU16 reply.statusCode) = false ∧
      stored =
        ⟨reply.statusCode, reply.headers,
          finalBody tools context.location reply⟩ := by
  unfold sendRecvStored? at isStored
  split at isStored
  · cases isStored
  · split at isStored
    · cases isStored
    · next hasBody =>
        split at isStored
        · exact ⟨Bool.eq_false_iff.mpr hasBody,
            (Option.some.inj isStored).symm⟩
        · cases isStored

/-- What is sent, before it is compressed. -/
def uncompressed
    (tools : ResponseTools)
    (context : ResponseContext)
    (reply : UpstreamReply)
    (applied : ResponseHeaders) :
    WebResponse where
  status := statusFromU16 reply.statusCode
  headers :=
    missHeaders tools context (statusFromU16 reply.statusCode)
      (beforeMiss tools context reply applied)
  body := finalBody tools context.location reply

theorem sent_eq
    {sent : WebResponse}
    (hasBody : noBodyStatus (statusFromU16 reply.statusCode) = false)
    (isSent : missResponse tools context reply = some sent) :
    ∃ applied,
      applyResponseHeaders tools context reply.headers = some applied ∧
        sent =
          compressResponse tools context
            (uncompressed tools context reply applied) := by
  obtain ⟨response, isResponse, rfl⟩ := Option.map_eq_some_iff.mp isSent
  obtain ⟨applied, isApplied, rfl⟩ := Option.map_eq_some_iff.mp isResponse
  refine ⟨applied, isApplied, ?_⟩
  rw [hasBody]
  rfl

end Sent

end OneName

/-- The marks of the cache are no hop-by-hop headers. -/
theorem ne_mark_of_hopByHop :
    ∀ name ∈ hopByHopSet,
      name ≠ "x-cache".toList ∧ name ≠ "x-cache-status".toList := by
  decide

section Hit

variable
  {tools : ResponseTools}
  {context : ResponseContext}
  {reply : UpstreamReply}
  {applied : ResponseHeaders}

/-- What `send_recv_pooled` stores of a response. -/
def storedReply
    (tools : ResponseTools)
    (context : ResponseContext)
    (reply : UpstreamReply) :
    CachedResponse :=
  ⟨reply.statusCode, reply.headers, finalBody tools context.location reply⟩

theorem replays_of_transparent
    (isApplied :
      applyResponseHeaders tools context reply.headers = some applied)
    (transparent :
      Transparent
        (compressResponse tools context
          (uncompressed tools context reply applied))
        (hitResponse tools (storedReply tools context reply))) :
    Replays tools context reply := by
  have served :
      Agrees tools reply
        (hitResponse tools (storedReply tools context reply)).headers :=
    hit_agrees rfl
  have length :
      (received tools "content-length".toList reply.headers).getLast? =
        some
          (toDecimal (finalBody tools context.location reply).length) := by
    apply toList_eq_singleton.mp
    rw [served _ (by decide) (by decide)]
    exact transparent.length
  have noHopByHop :
      ∀ name ∈ hopByHopSet,
        name ≠ "content-length".toList →
          received tools name reply.headers = [] := by
    intro name isHop notLength
    obtain ⟨notCache, notStatus⟩ := ne_mark_of_hopByHop name isHop
    apply received_eq_nil_iff.mp
    rw [served name notCache notStatus]
    exact transparent.noHopByHop name isHop notLength
  cases isEncoded :
      encoding? tools context
        (uncompressed tools context reply applied).headers with
  | some encoding =>
      -- A compressed response has lost the length that the hit has.
      have sameLength :=
        transparent.headers "content-length".toList (by decide)
          (by decide)
      rw [getAll_compressResponse_length isEncoded, transparent.length]
        at sameLength
      cases sameLength
  | none =>
      rw [compressResponse_eq_self isEncoded] at transparent
      have agrees :
          Agrees tools reply
            (uncompressed tools context reply applied).headers := by
        intro name notCache notStatus
        rw [served name notCache notStatus]
        exact transparent.headers name notCache notStatus
      refine ⟨keepsHeaders_of_agrees isApplied length noHopByHop agrees, ?_⟩
      rw [← agrees.encoding?_eq length]
      exact isEncoded

theorem Replays.transparent
    (replays : Replays tools context reply)
    (isApplied :
      applyResponseHeaders tools context reply.headers = some applied) :
    Transparent
      (compressResponse tools context
        (uncompressed tools context reply applied))
      (hitResponse tools (storedReply tools context reply)) := by
  have served :
      Agrees tools reply
        (hitResponse tools (storedReply tools context reply)).headers :=
    hit_agrees rfl
  have agrees :
      Agrees tools reply
        (uncompressed tools context reply applied).headers :=
    replays.toKeepsHeaders.agrees isApplied
  have notEncoded :
      encoding? tools context
        (uncompressed tools context reply applied).headers = none := by
    rw [agrees.encoding?_eq replays.length]
    exact replays.notCompressed
  rw [compressResponse_eq_self notEncoded]
  refine ⟨rfl, rfl, ?_, ?_, ?_⟩
  · intro name notCache notStatus
    rw [← served name notCache notStatus]
    exact agrees name notCache notStatus
  · rw [← served _ (by decide) (by decide), replays.length]
    rfl
  · intro name isHop notLength
    obtain ⟨notCache, notStatus⟩ := ne_mark_of_hopByHop name isHop
    rw [← served name notCache notStatus,
      replays.noHopByHop name isHop notLength]
    rfl

end Hit

/-- Names and values of ASCII, without regular expressions and encoders. -/
def asciiTools : ResponseTools where
  validName text :=
    !text.isEmpty &&
      text.all fun char =>
        char.isAlphanum || "!#$%&'*+-.^_\x60|~".toList.contains char
  validValue text :=
    text.all fun char =>
      decide (32 ≤ char.toNat ∧ char.toNat < 127) || char == '\t'
  readable text :=
    text.all fun char =>
      decide (32 ≤ char.toNat ∧ char.toNat < 127) || char == '\t'
  subFilterRegex _ := none
  cacheRuleRegex _ := none
  pickBestEncodingSized _ _ _ _ _ := none
  encode _ _ body := body

/-- A location with a cache and nothing else. -/
def plainContext : ResponseContext where
  location := ⟨false, none, none, none, [], [], [], []⟩
  compress := ⟨false, 6, false, 4, false, 3⟩
  cache :=
    some ⟨10, 60, [200], ["GET"], ["authorization"], none, false, false⟩
  path := ['/']
  remoteAddr := "192.0.2.1".toList
  scheme := "http".toList
  headers := []
  nodeTls := false
  clientTls := false

/-- An upstream that answers `hi`, with more headers. -/
def hiReply (more : List (List Char × List Char)) : UpstreamReply where
  statusCode := 200
  headers := ("Content-Length".toList, ['2']) :: more
  body := [104, 105]
  trailers := []

end Sweety.CacheTransparency
