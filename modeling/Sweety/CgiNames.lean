import Mathlib.Data.List.Nodup
import Sweety.BackendHeaders
import Sweety.ForwardedLines

namespace Sweety.BackendHeaders

open HttpText ProxyProtocol RealIp

/-!
# The names of CGI parameters

The FastCGI handler writes a parameter for every line of every header but four,
and takes `-` and `_` in a name for the same.  So a parameter can come twice,
from a header that is repeated or from two headers.
-/

/-- The names of the parameters that do not come from a header of any name. -/
def ownNames : List (List Char) :=
  ["GATEWAY_INTERFACE".toList, "SERVER_SOFTWARE".toList,
    "SERVER_PROTOCOL".toList, "SERVER_NAME".toList, "SERVER_PORT".toList,
    "REQUEST_METHOD".toList, "REQUEST_URI".toList, "DOCUMENT_URI".toList,
    "QUERY_STRING".toList, "DOCUMENT_ROOT".toList, "SCRIPT_FILENAME".toList,
    "SCRIPT_NAME".toList, "PATH_INFO".toList, "PATH_TRANSLATED".toList,
    "REMOTE_ADDR".toList, "REMOTE_HOST".toList, "REMOTE_PORT".toList,
    "CONTENT_TYPE".toList, "CONTENT_LENGTH".toList]

/-- `HeaderName` is in lower case. -/
def LowerNames (headers : HeaderMap) : Prop :=
  ∀ header ∈ headers,
    toAsciiLowercase header.1.toList = header.1.toList

namespace Exchange

variable (exchange : Exchange)

/-- The headers that have no parameters of their own. -/
def otherHeaders : HeaderMap :=
  exchange.headers.filter fun header => !hasOwnParam header.1.toList

/--
The lines of a header, combined; what the request says of its host is the
authority, if it has one.
-/
def combined (name : String) : List Char :=
  if name = "host" then
    match exchange.authority with
    | some authority =>
        authority.toList
    | none =>
        List.intercalate ", ".toList
          ((linesOf name exchange.headers).map fun line =>
            (toStr? line).getD [])
  else
    List.intercalate (if name = "cookie" then "; ".toList else ", ".toList)
      ((linesOf name exchange.headers).map fromUtf8Lossy)

/--
Each parameter comes once, and one for a header has what the lines of this
header say, which is the only one that has a parameter of this name.
-/
structure Unambiguous (params : List (List Char × List Char)) : Prop where
  once : (params.map (·.1)).Nodup
  own :
    ∀ param ∈ params,
      "HTTP_".toList <+: param.1 →
      ∃ name : String,
        toAsciiLowercase name.toList = name.toList ∧
          paramName name = param.1 ∧
          param.2 = exchange.combined name ∧
          ∀ header ∈ exchange.otherHeaders,
            paramName header.1 = param.1 → header.1 = name

/--
No two lines of other headers have the same name for CGI, and `Host` comes once
if it is what the request says of its host.
-/
structure DistinctNames : Prop where
  others : (exchange.otherHeaders.map fun header => paramName header.1).Nodup
  host :
    exchange.authority = none →
    exchange.clientHost ≠ "" →
    (linesOf "host" exchange.headers).length ≤ 1

section Names

variable {name : String}

theorem httpPrefix_paramName (name : String) :
    "HTTP_".toList <+: paramName name :=
  List.prefix_append _ _

theorem httpPrefix_host : "HTTP_".toList <+: "HTTP_HOST".toList := by
  decide

theorem paramName_host : paramName "host" = "HTTP_HOST".toList := by
  decide

theorem paramName_cookie : paramName "cookie" = "HTTP_COOKIE".toList := by
  decide

/-- A parameter name without a further `_` is that of one name in lower case. -/
theorem eq_of_paramName_eq
    {upper : List Char}
    (lower : toAsciiLowercase name.toList = name.toList)
    (noUnderscore : '_' ∉ upper)
    (same : paramName name = "HTTP_".toList ++ upper) :
    name.toList = toAsciiLowercase upper := by
  have isUpper := List.append_cancel_left same
  have noHyphen : '-' ∉ name.toList := by
    intro member
    apply noUnderscore
    rw [← isUpper]
    exact List.mem_map.mpr ⟨'-', member, rfl⟩
  rw [← isUpper, toAsciiLowercase, List.map_map]
  refine lower.symm.trans (List.map_congr_left fun char member => ?_)
  have notHyphen : char ≠ '-' :=
    fun isHyphen => noHyphen (isHyphen ▸ member)
  rw [Function.comp_apply, if_neg notHyphen, toLower_toUpper]

theorem eq_host_of_paramName
    (lower : toAsciiLowercase name.toList = name.toList)
    (same : paramName name = "HTTP_HOST".toList) :
    name = "host" := by
  have isHost :=
    @eq_of_paramName_eq name "HOST".toList lower (by decide) same
  exact String.toList_inj.mp isHost

theorem eq_cookie_of_paramName
    (lower : toAsciiLowercase name.toList = name.toList)
    (same : paramName name = "HTTP_COOKIE".toList) :
    name = "cookie" := by
  have isCookie :=
    @eq_of_paramName_eq name "COOKIE".toList lower (by decide) same
  exact String.toList_inj.mp isCookie

end Names

/-! ## The names of all parameters -/

section Lists

variable {exchange : Exchange}

/-- The names of the parameters that do not come from `otherHeaders`. -/
def leadingNames (exchange : Exchange) : List (List Char) :=
  ownNames ++
    (if exchange.isTls then ["HTTPS".toList] else []) ++
    (if exchange.clientHost = "" then [] else ["HTTP_HOST".toList]) ++
    (if exchange.httpCookie = [] then [] else ["HTTP_COOKIE".toList])

theorem map_fst_params (remoteAddr : List Char) :
    (exchange.params remoteAddr).map (·.1) =
      leadingNames exchange ++
        exchange.otherHeaders.map fun header => paramName header.1 := by
  rw [params, leadingNames, headerParams, List.map_append, List.map_append,
    List.map_append, List.map_append, List.map_map]
  congr 1
  congr 1
  · congr 1
    · congr 1
      split <;> rfl
    · split <;> rfl
  · split <;> rfl

theorem leadingNames_sublist :
    (leadingNames exchange).Sublist
      (ownNames ++ ["HTTPS".toList] ++ ["HTTP_HOST".toList] ++
        ["HTTP_COOKIE".toList]) := by
  refine
    List.Sublist.append (List.Sublist.append (List.Sublist.append
      (List.Sublist.refl _) ?_) ?_) ?_
  all_goals
    split
    · simp
    · simp

theorem nodup_leadingNames : (leadingNames exchange).Nodup := by
  refine List.Nodup.sublist leadingNames_sublist ?_
  decide

/-- Of the leading names only two are those of headers. -/
theorem header_of_mem_leadingNames
    {param : List Char}
    (member : param ∈ leadingNames exchange)
    (ofHeader : "HTTP_".toList <+: param) :
    param = "HTTP_HOST".toList ∨ param = "HTTP_COOKIE".toList := by
  have two :
      ∀ param ∈
        ownNames ++ ["HTTPS".toList] ++ ["HTTP_HOST".toList] ++
          ["HTTP_COOKIE".toList],
        "HTTP_".toList.isPrefixOf param = true →
        param = "HTTP_HOST".toList ∨ param = "HTTP_COOKIE".toList := by
    decide
  exact
    two param (leadingNames_sublist.subset member)
      (List.isPrefixOf_iff_prefix.mpr ofHeader)

/-- The other headers are not those with leading names. -/
theorem paramName_not_mem_leadingNames
    {header : String × List UInt8}
    (lower : LowerNames exchange.headers)
    (member : header ∈ exchange.otherHeaders) :
    paramName header.1 ∉ leadingNames exchange := by
  obtain ⟨inHeaders, notOwn⟩ := List.mem_filter.mp member
  have isLower := lower header inHeaders
  intro isLeading
  rcases header_of_mem_leadingNames isLeading (httpPrefix_paramName _) with
      isHost | isCookie
  · rw [eq_host_of_paramName isLower isHost] at notOwn
    exact absurd notOwn (by decide)
  · rw [eq_cookie_of_paramName isLower isCookie] at notOwn
    exact absurd notOwn (by decide)

/-- The names are all different if those of the other headers are. -/
theorem nodup_params_iff
    (lower : LowerNames exchange.headers)
    (remoteAddr : List Char) :
    ((exchange.params remoteAddr).map (·.1)).Nodup ↔
      (exchange.otherHeaders.map fun header => paramName header.1).Nodup := by
  rw [map_fst_params, List.nodup_append]
  constructor
  · exact fun all => all.2.1
  · intro others
    refine ⟨nodup_leadingNames, others, ?_⟩
    rintro param isLeading other isOther rfl
    obtain ⟨header, member, rfl⟩ := List.mem_map.mp isOther
    exact paramName_not_mem_leadingNames lower member isLeading

/-! ## What the parameters of headers say -/

/-- The parameters of headers. -/
theorem mem_params_cases
    {remoteAddr : List Char}
    {param : List Char × List Char}
    (member : param ∈ exchange.params remoteAddr)
    (ofHeader : "HTTP_".toList <+: param.1) :
    (exchange.clientHost ≠ "" ∧
        param = ("HTTP_HOST".toList, exchange.clientHost.toList)) ∨
      param = ("HTTP_COOKIE".toList, exchange.httpCookie) ∨
      ∃ header ∈ exchange.otherHeaders,
        param = (paramName header.1, fromUtf8Lossy header.2) := by
  have notOwn :
      ∀ name ∈ ownNames ++ ["HTTPS".toList],
        "HTTP_".toList.isPrefixOf name = false := by
    decide
  have notAmong
      (among : param.1 ∈ ownNames ++ ["HTTPS".toList]) :
      False := by
    rw [← List.isPrefixOf_iff_prefix, notOwn param.1 among] at ofHeader
    cases ofHeader
  rw [params] at member
  rcases List.mem_append.mp member with inFront | inHeaders
  · rcases List.mem_append.mp inFront with inFront | inCookie
    · rcases List.mem_append.mp inFront with inFront | inHost
      · exfalso
        rcases List.mem_append.mp inFront with inOwn | inHttps
        · apply notAmong
          exact List.mem_append_left _ (List.mem_map_of_mem (f := (·.1)) inOwn)
        · split at inHttps
          · apply notAmong
            rw [List.mem_singleton.mp inHttps]
            exact List.mem_append_right _ (List.mem_singleton_self _)
          · cases inHttps
      · split at inHost
        · cases inHost
        · rename_i notEmpty
          exact .inl ⟨notEmpty, List.mem_singleton.mp inHost⟩
    · split at inCookie
      · cases inCookie
      · exact .inr (.inl (List.mem_singleton.mp inCookie))
  · obtain ⟨header, isOther, rfl⟩ := List.mem_map.mp inHeaders
    exact .inr (.inr ⟨header, isOther, rfl⟩)

theorem host_mem_params
    (notEmpty : exchange.clientHost ≠ "")
    (remoteAddr : List Char) :
    ("HTTP_HOST".toList, exchange.clientHost.toList) ∈
      exchange.params remoteAddr := by
  rw [params, if_neg notEmpty]
  apply List.mem_append_left
  apply List.mem_append_left
  apply List.mem_append_right
  exact List.mem_singleton_self _

theorem combined_cookie : exchange.combined "cookie" = exchange.httpCookie := by
  rw [combined, if_neg (by decide), if_pos rfl, linesOf, List.map_map]
  rfl

/-- What a list without repetitions has of one key. -/
theorem filter_eq_singleton
    {α β γ : Type}
    [BEq β]
    [LawfulBEq β]
    {items : List α}
    {item : α}
    (key : α → β)
    (name : α → γ)
    (nodup : (items.map name).Nodup)
    (member : item ∈ items)
    (sameName :
      ∀ other ∈ items, key other = key item → name other = name item) :
    (items.filter fun other => key other == key item) = [item] := by
  have inFilter : item ∈ items.filter fun other => key other == key item :=
    List.mem_filter.mpr ⟨member, beq_self_eq_true _⟩
  have filterNodup :=
    nodup.sublist ((List.filter_sublist
      (p := fun other => key other == key item) (l := items)).map name)
  have allSame :
      ∀ other ∈ items.filter fun other => key other == key item,
        name other = name item := by
    intro other isOther
    obtain ⟨inItems, sameKey⟩ := List.mem_filter.mp isOther
    exact sameName other inItems (beq_iff_eq.mp sameKey)
  cases shape : items.filter fun other => key other == key item with
  | nil =>
      rw [shape] at inFilter
      cases inFilter
  | cons first rest =>
      rw [shape] at inFilter filterNodup allSame
      cases rest with
      | nil =>
          rw [List.mem_singleton.mp inFilter]
      | cons second others =>
          rw [List.map_cons, List.nodup_cons] at filterNodup
          exfalso
          apply filterNodup.1
          rw [allSame first List.mem_cons_self,
            ← allSame second (List.mem_cons_of_mem _ List.mem_cons_self)]
          exact List.mem_map_of_mem List.mem_cons_self

/-- A header that comes once says what its only line says. -/
theorem combined_of_once
    {header : String × List UInt8}
    (others :
      (exchange.otherHeaders.map fun header => paramName header.1).Nodup)
    (member : header ∈ exchange.otherHeaders) :
    exchange.combined header.1 = fromUtf8Lossy header.2 := by
  obtain ⟨_, notOwn⟩ := List.mem_filter.mp member
  have notHost : header.1 ≠ "host" := by
    intro isHost
    rw [isHost] at notOwn
    exact absurd notOwn (by decide)
  have sameLines :
      linesOf header.1 exchange.headers =
        linesOf header.1 exchange.otherHeaders := by
    rw [linesOf, linesOf, otherHeaders, List.filter_filter]
    congr 1
    apply List.filter_congr
    intro other _
    by_cases same : other.1 = header.1
    · rw [same, notOwn, Bool.and_true]
    · rw [beq_eq_false_iff_ne.mpr same, Bool.false_and]
  have once :
      linesOf header.1 exchange.otherHeaders = [header.2] := by
    have alone :
        (exchange.otherHeaders.filter fun other => other.1 == header.1) =
          [header] :=
      filter_eq_singleton Prod.fst
        (fun header : String × List UInt8 => paramName header.1) others member
        fun _ _ same => congrArg paramName same
    rw [linesOf, alone]
    rfl
  rw [combined, if_neg notHost, sameLines, once]
  simp

/-- The readable value of a host that comes once. -/
theorem combined_host_of_once
    (notEmpty : exchange.clientHost ≠ "")
    (once :
      exchange.authority = none →
      (linesOf "host" exchange.headers).length ≤ 1) :
    exchange.combined "host" = exchange.clientHost.toList := by
  rw [combined, if_pos rfl]
  rw [clientHost] at notEmpty ⊢
  cases isAuthority : exchange.authority with
  | some authority =>
      rfl
  | none =>
      rw [isAuthority] at notEmpty
      dsimp only at notEmpty ⊢
      rw [get?_eq_head?] at notEmpty ⊢
      have atMostOne := once isAuthority
      cases shape : linesOf "host" exchange.headers with
      | nil =>
          rw [shape] at notEmpty
          exact absurd rfl notEmpty
      | cons line rest =>
          rw [shape] at notEmpty atMostOne
          cases rest with
          | nil =>
              cases readable : toStr? line with
              | none =>
                  simp [readable] at notEmpty
              | some text =>
                  simp [readable]
          | cons second others =>
              rw [List.length_cons, List.length_cons] at atMostOne
              omega

/-- A host that comes more than once is not what its first line says. -/
theorem host_once_of_combined
    (isNone : exchange.authority = none)
    (notEmpty : exchange.clientHost ≠ "")
    (same : exchange.clientHost.toList = exchange.combined "host") :
    (linesOf "host" exchange.headers).length ≤ 1 := by
  rw [combined, if_pos rfl, isNone] at same
  rw [clientHost, isNone] at notEmpty same
  dsimp only at notEmpty same
  rw [get?_eq_head?] at notEmpty same
  cases shape : linesOf "host" exchange.headers with
  | nil =>
      exact Nat.zero_le _
  | cons line rest =>
      cases rest with
      | nil =>
          exact Nat.le_refl _
      | cons second others =>
          exfalso
          rw [shape] at notEmpty same
          cases readable : toStr? line with
          | none =>
              simp [readable] at notEmpty
          | some text =>
              have lengths := congrArg List.length same
              simp [readable, List.intercalate] at lengths

/--
The parameters are unambiguous exactly if no two lines of the headers that have
no parameters of their own have the same name for CGI, and `Host` comes once.
-/
theorem params_unambiguous_iff
    (lower : LowerNames exchange.headers)
    (remoteAddr : List Char) :
    exchange.Unambiguous (exchange.params remoteAddr) ↔
      exchange.DistinctNames := by
  constructor
  · rintro ⟨once, own⟩
    refine ⟨(nodup_params_iff lower remoteAddr).mp once, ?_⟩
    intro isNone notEmpty
    have member :
        ("HTTP_HOST".toList, exchange.clientHost.toList) ∈
          exchange.params remoteAddr :=
      host_mem_params notEmpty remoteAddr
    obtain ⟨name, isLower, isHost, isCombined, _⟩ :=
      own _ member httpPrefix_host
    rw [eq_host_of_paramName isLower isHost] at isCombined
    exact host_once_of_combined isNone notEmpty isCombined
  · rintro ⟨others, host⟩
    refine ⟨(nodup_params_iff lower remoteAddr).mpr others, ?_⟩
    intro param member ofHeader
    rcases mem_params_cases member ofHeader with
        ⟨notEmpty, rfl⟩ | rfl | ⟨header, isOther, rfl⟩
    · refine
        ⟨"host", by decide, paramName_host,
          (combined_host_of_once notEmpty fun isNone =>
            host isNone notEmpty).symm, ?_⟩
      intro header isOther same
      exact
        eq_host_of_paramName (lower header (List.mem_filter.mp isOther).1) same
    · refine
        ⟨"cookie", by decide, paramName_cookie, combined_cookie.symm, ?_⟩
      intro header isOther same
      exact
        eq_cookie_of_paramName (lower header (List.mem_filter.mp isOther).1)
          same
    · refine
        ⟨header.1, lower header (List.mem_filter.mp isOther).1, rfl,
          (combined_of_once others isOther).symm, ?_⟩
      intro other isAlso same
      rw [List.inj_on_of_nodup_map others isAlso isOther same]

end Lists

/-! ## Two requests -/

/-- Headers with different names for CGI. -/
def apart : Exchange :=
  ClientAddress.sampleExchange [("host", [97]), ("x-foo", [98])]

/-- Two headers with one name for CGI. -/
def clashing : Exchange :=
  ClientAddress.sampleExchange [("x-foo", [97]), ("x_foo", [98])]

theorem params_unambiguous_apart : apart.Unambiguous (apart.params []) :=
  (@params_unambiguous_iff apart (by unfold LowerNames; decide) []).mpr
    ⟨by decide, fun _ _ => by decide⟩

/-- The backend gets the parameter twice, with what each header says. -/
theorem two_headers_one_param :
    LowerNames clashing.headers ∧
      clashing.headerParams =
        [("HTTP_X_FOO".toList, ['a']), ("HTTP_X_FOO".toList, ['b'])] ∧
      ¬clashing.Unambiguous (clashing.params []) := by
  have lower : LowerNames clashing.headers := by
    unfold LowerNames
    decide
  refine ⟨lower, by decide, ?_⟩
  rintro ⟨once, _⟩
  exact absurd ((nodup_params_iff lower []).mp once) (by decide)

end Exchange

end Sweety.BackendHeaders
