import Sweety.CookieRewriting
import Sweety.WholeBodies

namespace Sweety.HeaderLoss

open HttpText CacheTransparency WholeBodies CookieRewriting

/-!
# Which headers of the upstream reach the client

`apply_response_headers` should pass on every field that is not hop-by-hop, and
`compress_response` should add to `Vary`.  Both insert, so that of several
fields of one name the last one stays, and `Vary` is replaced.  This module says
which responses lose nothing.
-/

/-- A header as it comes from the upstream. -/
abbrev Header :=
  List Char × List Char

/-- A field that is passed on and has no rule of its own. -/
structure IsKept (name : List Char) : Prop where
  notHop : name ∉ hopByHopSet
  notLocation : name ≠ "location".toList
  notCookie : name ≠ "set-cookie".toList

/-- The values of a name that come from the upstream. -/
def upstreamValues (name : List Char) (headers : List Header) :
    List (List Char) :=
  headers.filterMap fun header =>
    if toAsciiLowercase header.1 = name then
      some header.2
    else
      none

/-- One of the values lists `Accept-Encoding`. -/
def ListsAcceptEncoding (values : List (List Char)) : Prop :=
  ∃ value ∈ values,
    ∃ token ∈ value.splitOn ',',
      eqIgnoreAsciiCase (trim token) "accept-encoding".toList = true

/-- Every field is sent on, and `Vary` says so when the body was compressed. -/
structure KeepsAll
    (headers : List Header)
    (response sent : WebResponse) :
    Prop where
  values :
    ∀ name,
      IsKept name →
        (upstreamValues name headers).Sublist (sent.headers.getAll name)
  vary :
    sent ≠ response →
      ListsAcceptEncoding (sent.headers.getAll "vary".toList)

section Passing

variable (tools : ResponseTools) (context : ResponseContext)

/-- No field of the upstream is lost on the way to the client. -/
def NoHeaderLost
    (headers : List Header)
    (status : Nat)
    (body : List UInt8) :
    Prop :=
  ∃ applied,
    applyResponseHeaders tools context headers = some applied ∧
      KeepsAll headers ⟨status, applied, body⟩
        (compressResponse tools context ⟨status, applied, body⟩)

/-- The fields of the upstream that decide about compression. -/
def contentHeaders (headers : List Header) : ResponseHeaders :=
  fun name =>
    if hopByHopSet.contains name then
      []
    else
      upstreamValues name headers

/-- The cookie is rewritten without a panic. -/
def CookieRewritable (cookie : List Char) : Prop :=
  ∀ piece ∈ piecesOf cookie,
    kept context.stripCookieSecure piece = true →
      Cuts context.location.proxyCookieDomain piece

/-- No field is lost: names are valid and stand alone, and `Vary` stays. -/
structure Passes (headers : List Header) : Prop where
  cookies :
    ∀ header ∈ headers,
      eqIgnoreAsciiCase header.1 "set-cookie".toList = true →
        CookieRewritable context header.2
  named :
    ∀ header ∈ headers,
      IsKept (toAsciiLowercase header.1) → tools.validName header.1 = true
  alone :
    ∀ name, IsKept name → (upstreamValues name headers).length ≤ 1
  vary :
    ¬Excused tools context (contentHeaders headers) →
      ∀ value ∈ upstreamValues "vary".toList headers,
        value = "Accept-Encoding".toList

/-- A name stands alone, and its field is valid. -/
def ComesOnce (headers : List Header) (name : List Char) : Prop :=
  (upstreamValues name headers).length ≤ 1 ∧
    received tools name headers = upstreamValues name headers

variable {tools context} {headers : List Header}

theorem getAll_contentHeaders (name : List Char) (headers : List Header) :
    (contentHeaders headers).getAll name =
      if name ∈ hopByHopSet then [] else upstreamValues name headers := by
  change (if hopByHopSet.contains name then _ else _) = _
  simp only [List.contains_iff_mem]

/-! ## The loop over the headers -/

/-- Without a domain and without stripping a cookie is not looked at. -/
theorem cookieValue?_isSome_iff (cookie : List Char) :
    (cookieValue? context cookie).isSome = true ↔
      CookieRewritable context cookie := by
  rw [cookieValue?]
  by_cases isRewritten :
      (context.stripCookieSecure ||
        context.location.proxyCookieDomain.isSome) = true
  · rw [if_pos isRewritten]
    exact rewriteSetCookie_isSome_iff _ _ cookie
  · rw [if_neg isRewritten]
    rw [Bool.or_eq_true, not_or] at isRewritten
    constructor
    · intro _ piece _ _ isSome
      exact absurd isSome isRewritten.2
    · intro _
      rfl

theorem set_cookie_not_hop
    {name : List Char}
    (isCookie : eqIgnoreAsciiCase name "set-cookie".toList = true) :
    isHopByHop name = false ∧
      eqIgnoreAsciiCase name "location".toList = false := by
  have isLower : toAsciiLowercase name = "set-cookie".toList :=
    beq_iff_eq.mp isCookie
  rw [isHopByHop, eqIgnoreAsciiCase, isLower]
  exact ⟨Bool.and_eq_false_iff.mpr (Or.inr (by decide)), by decide⟩

/-- One header is passed on unless it is a cookie that cannot be cut. -/
theorem applyResponseHeader_isSome_iff
    (table : ResponseHeaders)
    (header : Header) :
    (applyResponseHeader tools context table header).isSome = true ↔
      (eqIgnoreAsciiCase header.1 "set-cookie".toList = true →
        CookieRewritable context header.2) := by
  cases isCookie : eqIgnoreAsciiCase header.1 "set-cookie".toList with
  | true =>
      obtain ⟨notHop, notLocation⟩ := set_cookie_not_hop isCookie
      rw [applyResponseHeader, notHop, notLocation,
        if_neg Bool.false_ne_true, if_neg Bool.false_ne_true, passHeader,
        isCookie, if_pos rfl, Option.isSome_map, cookieValue?_isSome_iff]
      exact ⟨fun rewritable _ => rewritable, fun rewritable => rewritable rfl⟩
  | false =>
      constructor
      · intro _ isTrue
        cases isTrue
      · intro _
        have passed :
            (passHeader tools context table header).isSome = true := by
          rw [passHeader, isCookie]
          rfl
        unfold applyResponseHeader
        split
        · rfl
        · split
          · split
            · rfl
            · exact passed
          · exact passed

/-- The loop ends without a panic when every cookie can be rewritten. -/
theorem applyResponseHeaders_isSome_iff :
    (applyResponseHeaders tools context headers).isSome = true ↔
      ∀ header ∈ headers,
        eqIgnoreAsciiCase header.1 "set-cookie".toList = true →
          CookieRewritable context header.2 := by
  rw [applyResponseHeaders]
  generalize (∅ : ResponseHeaders) = table
  induction headers generalizing table with
  | nil =>
      constructor
      · intro _ header member
        cases member
      · intro _
        rfl
  | cons first later ih =>
      have firstIff :=
        @applyResponseHeader_isSome_iff tools context table first
      rw [List.foldlM_cons]
      cases isNext : applyResponseHeader tools context table first with
      | none =>
          rw [isNext] at firstIff
          constructor
          · intro isSome
            cases isSome
          · intro each
            cases firstIff.mpr (each first List.mem_cons_self)
      | some next =>
          rw [isNext] at firstIff
          rw [Option.bind_eq_bind, Option.bind_some, ih]
          constructor
          · intro each header member
            rcases List.mem_cons.mp member with rfl | inLater
            · exact firstIff.mp rfl
            · exact each header inLater
          · intro each header member
            exact each header (List.mem_cons_of_mem _ member)

/-! ## Fields of one name -/

/-- A list fits into its last item when it has one item at most. -/
theorem sublist_getLast?_iff
    {values received : List (List Char)}
    (isFiltered : received.Sublist values) :
    values.Sublist received.getLast?.toList ↔
      values.length ≤ 1 ∧ received = values := by
  constructor
  · intro isSublist
    have atMost : values.length ≤ 1 :=
      isSublist.length_le.trans (by cases received.getLast? <;> simp)
    refine ⟨atMost, ?_⟩
    have shorter := isFiltered.length_le
    apply isFiltered.eq_of_length_le
    cases received with
    | nil =>
        exact isSublist.length_le
    | cons first later =>
        exact atMost.trans (by simp)
  · rintro ⟨atMost, rfl⟩
    cases received with
    | nil =>
        exact List.Sublist.refl _
    | cons first later =>
        have isNil : later = [] := by
          rw [List.length_cons] at atMost
          exact List.eq_nil_of_length_eq_zero (by omega)
        rw [isNil]
        exact List.Sublist.refl _

theorem filterMap_sublist
    {items : List Item}
    {first second : Item → Option Value}
    (agrees : ∀ item, ∀ value ∈ first item, second item = some value) :
    (items.filterMap first).Sublist (items.filterMap second) := by
  induction items with
  | nil =>
      exact List.Sublist.refl _
  | cons item later ih =>
      rw [List.filterMap_cons, List.filterMap_cons]
      cases isFirst : first item with
      | none =>
          cases second item with
          | none =>
              exact ih
          | some value =>
              exact ih.cons value
      | some value =>
          rw [agrees item value isFirst]
          exact ih.cons_cons value

/-- The valid values of a name are among those that come. -/
theorem received_sublist (name : List Char) (headers : List Header) :
    (received tools name headers).Sublist (upstreamValues name headers) := by
  apply filterMap_sublist
  intro header value isValue
  by_cases isName : tools.name? header.1 = some name
  · rw [if_pos isName, ResponseTools.value?] at isValue
    rw [if_pos (name_eq isName).symm]
    split at isValue
    · exact isValue
    · cases isValue
  · rw [if_neg isName] at isValue
    cases isValue

/-- Values are all valid when the names that they come with are. -/
theorem received_eq_iff
    (legal : ∀ header ∈ headers, tools.validValue header.2 = true)
    (name : List Char) :
    received tools name headers = upstreamValues name headers ↔
      ∀ header ∈ headers,
        toAsciiLowercase header.1 = name →
          tools.validName header.1 = true := by
  induction headers with
  | nil =>
      constructor
      · intro _ header member
        cases member
      · intro _
        rfl
  | cons first later ih =>
      have legalLater : ∀ header ∈ later, tools.validValue header.2 = true :=
        fun header member => legal header (List.mem_cons_of_mem _ member)
      have laterIff := ih legalLater
      rw [List.forall_mem_cons, received, upstreamValues, List.filterMap_cons,
        List.filterMap_cons, ← received, ← upstreamValues]
      by_cases isName : toAsciiLowercase first.1 = name
      · rw [if_pos isName, ResponseTools.name?, ResponseTools.value?,
          if_pos (legal first List.mem_cons_self)]
        by_cases isValid : tools.validName first.1 = true
        · rw [if_pos isValid, isName, if_pos rfl]
          constructor
          · intro same
            exact ⟨fun _ => isValid, laterIff.mp (List.cons.inj same).2⟩
          · rintro ⟨-, each⟩
            exact congrArg (first.2 :: ·) (laterIff.mpr each)
        · rw [if_neg isValid, if_neg (Option.some_ne_none name).symm]
          constructor
          · intro same
            have length :=
              (@received_sublist tools name later).length_le
            have sameLength :
                (received tools name later).length =
                  (upstreamValues name later).length + 1 :=
              congrArg List.length same
            omega
          · rintro ⟨ofFirst, -⟩
            exact absurd (ofFirst isName) isValid
      · have notName : tools.name? first.1 ≠ some name :=
          fun same => isName (name_eq same).symm
        rw [if_neg isName, if_neg notName]
        constructor
        · intro same
          exact ⟨fun same => absurd same isName, laterIff.mp same⟩
        · rintro ⟨-, each⟩
          exact laterIff.mpr each

section Applied

variable {applied : ResponseHeaders}

/-- The loop keeps a name that is valid and stands alone. -/
theorem keeps_name_iff
    {name : List Char}
    (isApplied : applyResponseHeaders tools context headers = some applied)
    (isKept : IsKept name) :
    (upstreamValues name headers).Sublist (applied.getAll name) ↔
      ComesOnce tools headers name := by
  rw [getAll_applyResponseHeaders_other isKept.notHop isKept.notCookie
    isKept.notLocation isApplied]
  exact sublist_getLast?_iff (received_sublist name headers)

/-- A name that is kept has the values that come from the upstream. -/
theorem getAll_applied
    {name : List Char}
    (isApplied : applyResponseHeaders tools context headers = some applied)
    (isKept : IsKept name)
    (comesOnce : ComesOnce tools headers name) :
    applied.getAll name = upstreamValues name headers := by
  obtain ⟨alone, isReceived⟩ := comesOnce
  rw [getAll_applyResponseHeaders_other isKept.notHop isKept.notCookie
    isKept.notLocation isApplied, isReceived]
  cases isValues : upstreamValues name headers with
  | nil =>
      rfl
  | cons first later =>
      rw [isValues, List.length_cons] at alone
      have noOthers : later.length = 0 :=
        Nat.le_zero.mp (Nat.le_of_succ_le_succ alone)
      rw [List.eq_nil_of_length_eq_zero noOthers]
      rfl

theorem IsKept.notLength
    {name : List Char}
    (isKept : IsKept name) :
    name ≠ "content-length".toList := by
  rintro rfl
  exact isKept.notHop (by decide)

theorem isKept_encoding : IsKept "content-encoding".toList :=
  ⟨by decide, by decide, by decide⟩

theorem isKept_type : IsKept "content-type".toList :=
  ⟨by decide, by decide, by decide⟩

theorem isKept_vary : IsKept "vary".toList :=
  ⟨by decide, by decide, by decide⟩

/-- Compression sees the fields that come from the upstream. -/
theorem encoding?_applied
    (isApplied : applyResponseHeaders tools context headers = some applied)
    (keeps : ∀ name, IsKept name → ComesOnce tools headers name) :
    encoding? tools context applied =
      encoding? tools context (contentHeaders headers) := by
  have same (name : List Char) (isKept : IsKept name) :
      applied.get? name = (contentHeaders headers).get? name := by
    have isAll := getAll_applied isApplied isKept (keeps name isKept)
    rw [MultiMap.get?, MultiMap.get?, isAll, getAll_contentHeaders,
      if_neg isKept.notHop]
  have sameLength :
      applied.get? "content-length".toList =
        (contentHeaders headers).get? "content-length".toList := by
    have isHop : "content-length".toList ∈ hopByHopSet := by
      decide
    rw [MultiMap.get?, MultiMap.get?,
      getAll_applyResponseHeaders_of_hopByHop isHop isApplied,
      getAll_contentHeaders, if_pos isHop]
  rw [encoding?, encoding?, same _ isKept_encoding, same _ isKept_type,
    sameLength]

end Applied

/-! ## The compression -/

section Compressed

variable {response : WebResponse} {encoding : Encoding}

/-- Compression leaves the fields that it does not set. -/
theorem getAll_compressResponse_other
    {name : List Char}
    (notVary : name ≠ "vary".toList)
    (notEncoding : name ≠ "content-encoding".toList)
    (notLength : name ≠ "content-length".toList) :
    (compressResponse tools context response).headers.getAll name =
      response.headers.getAll name := by
  cases isEncoding : encoding? tools context response.headers with
  | none =>
      rw [compressResponse_eq_self isEncoding]
  | some encoding =>
      simp only [compressResponse, isEncoding]
      rw [MultiMap.getAll_insert, if_neg notVary]
      cases tools.value? encoding.name with
      | none =>
          rw [Option.elim_none, MultiMap.getAll_remove, if_neg notLength]
      | some value =>
          rw [Option.elim_some, MultiMap.getAll_insert, if_neg notEncoding,
            MultiMap.getAll_remove, if_neg notLength]

theorem getAll_compressResponse_vary
    (isEncoded : encoding? tools context response.headers = some encoding) :
    (compressResponse tools context response).headers.getAll
        "vary".toList =
      ["Accept-Encoding".toList] := by
  simp only [compressResponse, isEncoded]
  rw [MultiMap.getAll_insert, if_pos rfl]

/-- What is encoded has no `Content-Encoding` before. -/
theorem getAll_encoding_of_encoding?
    {table : ResponseHeaders}
    (isEncoded : encoding? tools context table = some encoding) :
    table.getAll "content-encoding".toList = [] := by
  by_contra isEncodedBefore
  have isNone : encoding? tools context table = none :=
    encoding?_eq_none_iff.mpr (.encodedBefore isEncodedBefore)
  rw [isEncoded] at isNone
  cases isNone

end Compressed

/-! ## Which responses lose nothing -/

/-- The names that compression sets are valid in any case. -/
def StandardNames (tools : ResponseTools) : Prop :=
  ∀ name : List Char,
    toAsciiLowercase name ∈ ["vary".toList, "content-encoding".toList] →
      tools.validName name = true

theorem getLast?_toList_eq_nil
    {values : List (List Char)}
    (isNil : values.getLast?.toList = []) :
    values = [] := by
  cases values with
  | nil =>
      rfl
  | cons first later =>
      rw [List.getLast?_cons] at isNil
      cases isNil

/-- `Content-Encoding` does not come with a response that is encoded. -/
theorem upstreamValues_encoding
    {applied : ResponseHeaders}
    {encoding : Encoding}
    (standard : StandardNames tools)
    (legal : ∀ header ∈ headers, tools.validValue header.2 = true)
    (isApplied : applyResponseHeaders tools context headers = some applied)
    (isEncoded : encoding? tools context applied = some encoding) :
    upstreamValues "content-encoding".toList headers = [] := by
  have isReceived :=
    (received_eq_iff legal "content-encoding".toList).mpr
      fun header _ isName => standard header.1 (by rw [isName]; decide)
  have isNil := getAll_encoding_of_encoding? isEncoded
  rw [getAll_applyResponseHeaders_other isKept_encoding.notHop
    isKept_encoding.notCookie isKept_encoding.notLocation isApplied] at isNil
  rw [← isReceived, getLast?_toList_eq_nil isNil]

/-- Every name that is kept stands alone and is valid. -/
theorem keeps_of_sublist
    {applied : ResponseHeaders}
    {status : Nat}
    {body : List UInt8}
    (standard : StandardNames tools)
    (legal : ∀ header ∈ headers, tools.validValue header.2 = true)
    (isApplied : applyResponseHeaders tools context headers = some applied)
    (keeps :
      ∀ name,
        IsKept name →
          (upstreamValues name headers).Sublist
            ((compressResponse tools context
              ⟨status, applied, body⟩).headers.getAll name)) :
    ∀ name, IsKept name → ComesOnce tools headers name := by
  intro name isKept
  have isSublist := keeps name isKept
  have ofStandard
      (isStandard : name ∈ ["vary".toList, "content-encoding".toList]) :
      received tools name headers = upstreamValues name headers :=
    (received_eq_iff legal name).mpr fun header _ isName =>
      standard header.1 (isName.symm ▸ isStandard)
  cases isEncoding : encoding? tools context applied with
  | none =>
      rw [compressResponse_eq_self isEncoding] at isSublist
      exact (keeps_name_iff isApplied isKept).mp isSublist
  | some encoding =>
      by_cases isVary : name = "vary".toList
      · subst isVary
        rw [getAll_compressResponse_vary isEncoding] at isSublist
        exact ⟨isSublist.length_le, ofStandard (by decide)⟩
      · by_cases isContent : name = "content-encoding".toList
        · subst isContent
          have isNil :=
            upstreamValues_encoding standard legal isApplied isEncoding
          refine ⟨?_, ofStandard (by decide)⟩
          rw [isNil]
          exact Nat.zero_le 1
        · rw [getAll_compressResponse_other isVary isContent isKept.notLength]
            at isSublist
          exact (keeps_name_iff isApplied isKept).mp isSublist

/-- Where nothing is in the way every name that is kept comes once. -/
theorem Passes.comesOnce
    (passes : Passes tools context headers)
    (legal : ∀ header ∈ headers, tools.validValue header.2 = true) :
    ∀ name, IsKept name → ComesOnce tools headers name := by
  intro name isKept
  refine ⟨passes.alone name isKept, (received_eq_iff legal name).mpr ?_⟩
  intro header member isName
  exact passes.named header member (isName.symm ▸ isKept)

/-- A compressed response came without `Vary` or with the one it gets. -/
theorem vary_kept
    {applied : ResponseHeaders}
    {encoding : Encoding}
    (passes : Passes tools context headers)
    (isApplied : applyResponseHeaders tools context headers = some applied)
    (keeps : ∀ name, IsKept name → ComesOnce tools headers name)
    (isEncoded : encoding? tools context applied = some encoding) :
    (upstreamValues "vary".toList headers).Sublist
      ["Accept-Encoding".toList] := by
  have notExcused : ¬Excused tools context (contentHeaders headers) := by
    rw [← encoding?_eq_none_iff, ← encoding?_applied isApplied keeps,
      isEncoded]
    exact Option.some_ne_none encoding
  have isSame := passes.vary notExcused
  have atMost := passes.alone _ isKept_vary
  cases isValues : upstreamValues "vary".toList headers with
  | nil =>
      exact List.nil_sublist _
  | cons first later =>
      rw [isValues] at isSame atMost
      have noOthers : later.length = 0 :=
        Nat.le_zero.mp (Nat.le_of_succ_le_succ atMost)
      rw [List.eq_nil_of_length_eq_zero noOthers,
        isSame first List.mem_cons_self]

/-- Compression loses no field of a name that is kept. -/
theorem kept_of_passes
    {applied : ResponseHeaders}
    {status : Nat}
    {body : List UInt8}
    {name : List Char}
    (standard : StandardNames tools)
    (legal : ∀ header ∈ headers, tools.validValue header.2 = true)
    (passes : Passes tools context headers)
    (isApplied : applyResponseHeaders tools context headers = some applied)
    (keeps : ∀ name, IsKept name → ComesOnce tools headers name)
    (isKept : IsKept name) :
    (upstreamValues name headers).Sublist
      ((compressResponse tools context
        ⟨status, applied, body⟩).headers.getAll name) := by
  have inApplied := (keeps_name_iff isApplied isKept).mpr (keeps name isKept)
  cases isEncoding : encoding? tools context applied with
  | none =>
      rw [compressResponse_eq_self isEncoding]
      exact inApplied
  | some encoding =>
      by_cases isVary : name = "vary".toList
      · subst isVary
        rw [getAll_compressResponse_vary isEncoding]
        exact vary_kept passes isApplied keeps isEncoding
      · by_cases isContent : name = "content-encoding".toList
        · subst isContent
          rw [upstreamValues_encoding standard legal isApplied isEncoding]
          exact List.nil_sublist _
        · rw [getAll_compressResponse_other isVary isContent
            isKept.notLength]
          exact inApplied

/--
Nothing is lost exactly when cookies can be rewritten, the names of the fields
are valid and stand alone, and a compressed response came without `Vary` or
with the one that it gets.
-/
theorem no_header_lost_iff
    (standard : StandardNames tools)
    (legal : ∀ header ∈ headers, tools.validValue header.2 = true)
    (status : Nat)
    (body : List UInt8) :
    NoHeaderLost tools context headers status body ↔
      Passes tools context headers := by
  constructor
  · rintro ⟨applied, isApplied, keepsAll⟩
    have keeps :=
      keeps_of_sublist standard legal isApplied keepsAll.values
    refine ⟨?_, ?_, ?_, ?_⟩
    · exact applyResponseHeaders_isSome_iff.mp
        (Option.isSome_of_eq_some isApplied)
    · intro header member isKept
      exact (received_eq_iff legal _).mp (keeps _ isKept).2 header member rfl
    · intro name isKept
      exact (keeps name isKept).1
    · intro notExcused value member
      have isSublist := keepsAll.values _ isKept_vary
      cases isEncoding : encoding? tools context applied with
      | none =>
          rw [encoding?_applied isApplied keeps] at isEncoding
          exact absurd (encoding?_eq_none_iff.mp isEncoding) notExcused
      | some encoding =>
          rw [getAll_compressResponse_vary isEncoding] at isSublist
          exact List.mem_singleton.mp (isSublist.mem member)
  · intro passes
    have keeps := passes.comesOnce legal
    obtain ⟨applied, isApplied⟩ :=
      Option.isSome_iff_exists.mp
        (applyResponseHeaders_isSome_iff.mpr passes.cookies)
    refine ⟨applied, isApplied, ?_, ?_⟩
    · intro name isKept
      exact kept_of_passes standard legal passes isApplied keeps isKept
    · intro isChanged
      cases isEncoding : encoding? tools context applied with
      | none =>
          exact absurd (compressResponse_eq_self isEncoding) isChanged
      | some encoding =>
          rw [getAll_compressResponse_vary isEncoding]
          refine ⟨"Accept-Encoding".toList, List.mem_singleton_self _,
            "Accept-Encoding".toList, ?_, ?_⟩
          · decide
          · decide

end Passing

/-- Tools with the names of HTTP. -/
def tokenTools : ResponseTools :=
  { CacheTransparency.asciiTools with
    validName := fun text =>
      CacheTransparency.asciiTools.validName (toAsciiLowercase text) }

theorem standardNames_tokenTools : StandardNames tokenTools := by
  intro name isStandard
  change CacheTransparency.asciiTools.validName (toAsciiLowercase name) = true
  have isOne :
      toAsciiLowercase name = "vary".toList ∨
        toAsciiLowercase name = "content-encoding".toList := by
    simpa using isStandard
  rcases isOne with isVary | isEncoding
  · rw [isVary]
    decide
  · rw [isEncoding]
    decide

/-- A response with one field. -/
def linkHeader (value : String) : Header :=
  ("Link".toList, value.toList)

/-- One field is passed on. -/
theorem no_header_lost_link :
    NoHeaderLost tokenTools CacheTransparency.plainContext
      [linkHeader "</a>"] 200 [] := by
  have legal :
      ∀ header ∈ [linkHeader "</a>"],
        tokenTools.validValue header.2 = true := by
    intro header member
    rw [List.mem_singleton.mp member]
    decide
  refine (no_header_lost_iff standardNames_tokenTools legal 200 []).mpr
    ⟨?_, ?_, ?_, ?_⟩
  · intro header member isCookie
    rw [List.mem_singleton.mp member] at isCookie
    exact absurd isCookie (by decide)
  · intro header member _
    rw [List.mem_singleton.mp member]
    decide
  · intro name _
    exact List.length_filterMap_le _ _
  · intro notExcused
    exact absurd (Excused.disabled rfl rfl rfl) notExcused

/-- Of two fields of one name the last one stays. -/
theorem second_link_replaces_first :
    ¬ ∀ (tools : ResponseTools) (context : ResponseContext)
        (headers : List Header) (status : Nat) (body : List UInt8),
      StandardNames tools →
        (∀ header ∈ headers, tools.validValue header.2 = true) →
          NoHeaderLost tools context headers status body := by
  intro claimed
  have legal :
      ∀ header ∈ [linkHeader "</a>", linkHeader "</b>"],
        tokenTools.validValue header.2 = true := by
    intro header member
    rcases List.mem_cons.mp member with rfl | inLater
    · decide
    · rw [List.mem_singleton.mp inLater]
      decide
  obtain ⟨applied, isApplied, keepsAll⟩ :=
    claimed tokenTools CacheTransparency.plainContext
      [linkHeader "</a>", linkHeader "</b>"] 200 []
      standardNames_tokenTools legal
  have isLink : IsKept "link".toList :=
    ⟨by decide, by decide, by decide⟩
  have keeps :=
    keeps_of_sublist standardNames_tokenTools legal isApplied keepsAll.values
      "link".toList isLink
  exact absurd keeps.1 (by decide)

end Sweety.HeaderLoss
