import Sweety.CacheTransparency
import Sweety.ContentCoding

namespace Sweety.WholeBodies

open HttpText UpstreamResponse CacheTransparency

/-!
# Which bodies are compressed

Only a response that carries a whole representation may get a content coding.
`compress_response` asks for the settings, the headers `Content-Encoding` and
`Content-Type`, and the choice of the client; neither for the status nor for
`Content-Range` nor for a body.
-/

/-- The response carries a whole representation. -/
structure IsWhole (response : WebResponse) : Prop where
  notInformational : ¬(100 ≤ response.status ∧ response.status < 200)
  hasContent : response.status ∉ [204, 205, 206, 304]
  noRange : response.headers.getAll "content-range".toList = []
  hasBody : response.body ≠ []

section Compression

variable
  (tools : ResponseTools)
  (context : ResponseContext)
  (response : WebResponse)

/-- The values of `Content-Encoding` are other ones afterwards. -/
def NewlyEncoded : Prop :=
  (compressResponse tools context response).headers.getAll
      "content-encoding".toList ≠
    response.headers.getAll "content-encoding".toList

/-- Only a whole representation is encoded, and no body is made of none. -/
structure OnlyWhole : Prop where
  encoded : NewlyEncoded tools context response → IsWhole response
  noBody :
    response.body = [] →
      (compressResponse tools context response).body = []

/-- The `Content-Type` as it is compared. -/
def contentType (headers : ResponseHeaders) : List Char :=
  ((headers.get? "content-type".toList).filter tools.readable).getD []

/-- The `Content-Length` as a hint of the size. -/
def sizeHint? (headers : ResponseHeaders) : Option Nat :=
  ((headers.get? "content-length".toList).filter tools.readable).bind
    parseUsize?

/-- The response is not one to compress. -/
inductive Excused (headers : ResponseHeaders) : Prop where
  | disabled
      (noGzip : context.compress.gzip = false)
      (noBrotli : context.compress.brotli = false)
      (noZstd : context.compress.zstd = false)
  | encodedBefore
      (isEncoded : headers.getAll "content-encoding".toList ≠ [])
  | otherType
      (notCompressible : compressible (contentType tools headers) = false)
  | notAccepted
      (isNone :
        tools.pickBestEncodingSized context.headers context.compress.gzip
            context.compress.brotli context.compress.zstd
            (sizeHint? tools headers) =
          none)

variable {tools context response}

theorem get?_isSome_iff
    {headers : ResponseHeaders}
    {name : List Char} :
    (headers.get? name).isSome = true ↔ headers.getAll name ≠ [] := by
  rw [MultiMap.get?]
  cases headers.getAll name with
  | nil =>
      constructor
      · intro isSome
        cases isSome
      · intro notNil
        exact absurd rfl notNil
  | cons value later =>
      constructor
      · intro _ isNil
        cases isNil
      · intro _
        rfl

/-- Nothing is encoded exactly in these cases. -/
theorem encoding?_eq_none_iff {headers : ResponseHeaders} :
    encoding? tools context headers = none ↔
      Excused tools context headers := by
  rw [encoding?, encodingFor?]
  constructor
  · intro isNone
    by_cases disabled :
        (!context.compress.gzip && !context.compress.brotli &&
          !context.compress.zstd) = true
    · rw [Bool.and_eq_true, Bool.and_eq_true, Bool.not_eq_true',
        Bool.not_eq_true', Bool.not_eq_true'] at disabled
      exact .disabled disabled.1.1 disabled.1.2 disabled.2
    · rw [if_neg disabled] at isNone
      by_cases isEncoded :
          (headers.get? "content-encoding".toList).isSome = true
      · exact .encodedBefore (get?_isSome_iff.mp isEncoded)
      · rw [if_neg isEncoded] at isNone
        cases isType : compressible (contentType tools headers) with
        | false =>
            exact .otherType isType
        | true =>
            rw [contentType] at isType
            rw [if_pos isType] at isNone
            exact .notAccepted isNone
  · intro excused
    cases excused with
    | disabled noGzip noBrotli noZstd =>
        rw [noGzip, noBrotli, noZstd]
        rfl
    | encodedBefore isEncoded =>
        rw [if_pos (get?_isSome_iff.mpr isEncoded)]
        exact ite_self none
    | otherType notCompressible =>
        rw [contentType] at notCompressible
        rw [notCompressible, if_neg Bool.false_ne_true, ite_self, ite_self]
    | notAccepted isNone =>
        rw [sizeHint?] at isNone
        rw [isNone, ite_self, ite_self, ite_self]

/-- A response that is encoded gets the name of its encoding. -/
theorem getAll_compressResponse_encoding
    {encoding : Encoding}
    (isEncoded : encoding? tools context response.headers = some encoding)
    (isValid : tools.validValue encoding.name = true) :
    (compressResponse tools context response).headers.getAll
        "content-encoding".toList =
      [encoding.name] := by
  have notVary : "content-encoding".toList ≠ "vary".toList := by
    decide
  simp only [compressResponse, isEncoded]
  rw [MultiMap.getAll_insert, if_neg notVary, ResponseTools.value?,
    if_pos isValid, Option.elim_some, MultiMap.getAll_insert, if_pos rfl]

theorem newlyEncoded_of_encoding?
    {encoding : Encoding}
    (isEncoded : encoding? tools context response.headers = some encoding)
    (isValid : tools.validValue encoding.name = true) :
    NewlyEncoded tools context response := by
  intro same
  rw [getAll_compressResponse_encoding isEncoded isValid] at same
  have notExcused : ¬Excused tools context response.headers := by
    rw [← encoding?_eq_none_iff, isEncoded]
    intro isNone
    cases isNone
  refine notExcused (.encodedBefore ?_)
  rw [← same]
  intro isNil
  cases isNil

/--
Only whole representations are encoded exactly when the response is a whole one
or is not one to compress.
-/
theorem compression_only_whole_iff
    (namesValid :
      ∀ encoding : Encoding, tools.validValue encoding.name = true) :
    OnlyWhole tools context response ↔
      IsWhole response ∨ Excused tools context response.headers := by
  cases isEncoding : encoding? tools context response.headers with
  | none =>
      have isSame := compressResponse_eq_self isEncoding
      constructor
      · intro _
        exact Or.inr (encoding?_eq_none_iff.mp isEncoding)
      · intro _
        refine ⟨fun isNew => absurd ?_ isNew, fun isNil => ?_⟩
        · rw [isSame]
        · rw [isSame, isNil]
  | some encoding =>
      have isNew :=
        newlyEncoded_of_encoding? isEncoding (namesValid encoding)
      constructor
      · intro onlyWhole
        exact Or.inl (onlyWhole.encoded isNew)
      · rintro (isWhole | excused)
        · exact ⟨fun _ => isWhole, fun isNil => absurd isNil isWhole.hasBody⟩
        · rw [encoding?_eq_none_iff.mpr excused] at isEncoding
          cases isEncoding

end Compression

/--
Values of ASCII, the choice of an encoding, and what gzip makes of nothing.
-/
def gzipTools : ResponseTools :=
  { CacheTransparency.asciiTools with
    pickBestEncodingSized :=
      ContentCoding.pickBestEncodingSized fun _ => none
    encode _ _ body :=
      if body.isEmpty then
        [31, 139, 8, 0, 0, 0, 0, 0, 0, 255, 3, 0, 0, 0, 0, 0, 0, 0, 0, 0]
      else
        body }

/-- A client that accepts gzip, and a site that has it enabled. -/
def gzipContext : ResponseContext :=
  { CacheTransparency.plainContext with
    compress := ⟨true, 6, false, 4, false, 3⟩
    headers := [("accept-encoding", encodeUtf8 "gzip".toList)] }

/-- A response of a page. -/
def pageResponse (status : Nat) (body : List UInt8) : WebResponse where
  status := status
  headers :=
    MultiMap.insert "content-type".toList "text/html".toList ∅
  body := body

theorem gzipTools_names (encoding : Encoding) :
    gzipTools.validValue encoding.name = true := by
  cases encoding <;> decide

/-- A whole page is one that may be encoded. -/
theorem compression_only_whole_page :
    OnlyWhole gzipTools gzipContext (pageResponse 200 [60, 62]) :=
  (compression_only_whole_iff gzipTools_names).mpr
    (Or.inl ⟨by decide, by decide, rfl, by decide⟩)

/-- A response 304 without body is sent with an encoded one. -/
theorem not_modified_is_encoded :
    ¬ ∀ (tools : ResponseTools) (context : ResponseContext)
        (response : WebResponse),
      (∀ encoding : Encoding, tools.validValue encoding.name = true) →
        OnlyWhole tools context response := by
  intro claimed
  have onlyWhole :=
    claimed gzipTools gzipContext (pageResponse 304 []) gzipTools_names
  have isEncoded :
      (compressResponse gzipTools gzipContext (pageResponse 304 [])).body =
        [] :=
    onlyWhole.noBody rfl
  exact absurd isEncoded (by decide)

end Sweety.WholeBodies
