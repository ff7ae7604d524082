import Sweety.FirstMaximum
import Sweety.ProxyResponse
import Sweety.RealIp

namespace Sweety.ContentCoding

open HttpText FirstMaximum

/-!
# The choice of an encoding

Model of `parse_accept_encoding` and `pick_best_encoding_sized`.  Weights are
counted in thousandths, as RFC 7231 writes them.  How a number is read is a
parameter.
-/

/-- `struct AcceptEncoding`. -/
structure AcceptEncoding where
  gzip : Int
  brotli : Int
  zstd : Int
  deriving Repr, DecidableEq

/-- The weights that are set in the loop; -1 stands for none. -/
structure SetWeights where
  gz : Int
  br : Int
  zst : Int
  wildcard : Int
  deriving Repr, DecidableEq

/-- The names of a weight: an encoding, or the star. -/
def weightName : Option Encoding → List Char
  | some encoding =>
      encoding.name
  | none =>
      ['*']

/-- The weight of an encoding, or of the star. -/
def SetWeights.weight (weights : SetWeights) : Option Encoding → Int
  | some .br =>
      weights.br
  | some .zstd =>
      weights.zst
  | some .gzip =>
      weights.gz
  | none =>
      weights.wildcard

def AcceptEncoding.weight (accepted : AcceptEncoding) : Encoding → Int
  | .br =>
      accepted.brotli
  | .zstd =>
      accepted.zstd
  | .gzip =>
      accepted.gzip

section Parsing

variable (parse : List Char → Option Int)

/-- The name of a token, and what follows the first semicolon. -/
def tokenParts (token : List Char) : List Char × Option (List Char) :=
  match splitOnce? ';' token with
  | some (name, parameters) =>
      (toAsciiLowercase (trim name), some parameters)
  | none =>
      (toAsciiLowercase (trim token), none)

/-- The weight of a token. -/
def tokenWeight (parameters : Option (List Char)) : Int :=
  let q := parameters.bind fun text =>
    let text := trim text
    if "q=".toList.isPrefixOf text || "Q=".toList.isPrefixOf text then
      parse (trim (text.drop 2))
    else
      none
  max 0 (min (q.getD 1000) 1000)

/-- The loop body of `parse_accept_encoding`. -/
def readToken (weights : SetWeights) (token : List Char) : SetWeights :=
  let token := trim token
  if token.isEmpty then
    weights
  else
    let parts := tokenParts token
    let q := tokenWeight parse parts.2
    if parts.1 = "gzip".toList then
      { weights with gz := q }
    else if parts.1 = "br".toList then
      { weights with br := q }
    else if parts.1 = "zstd".toList then
      { weights with zst := q }
    else if parts.1 = "*".toList then
      { weights with wildcard := q }
    else
      weights

/-- `parse_accept_encoding`. -/
def parseAcceptEncoding (header : List Char) : AcceptEncoding :=
  let weights :=
    (header.splitOn ',').foldl (readToken parse) ⟨-1, -1, -1, -1⟩
  let defaultQ := if 0 ≤ weights.wildcard then weights.wildcard else 0
  { gzip := if 0 ≤ weights.gz then weights.gz else defaultQ
    brotli := if 0 ≤ weights.br then weights.br else defaultQ
    zstd := if 0 ≤ weights.zst then weights.zst else defaultQ }

/-- `ZSTD_PREFERRED_BELOW_BYTES`. -/
def zstdPreferredBelowBytes : Nat := 20 * 1024

/-- The encodings that are enabled and accepted, with their weights. -/
def candidates (accepted : AcceptEncoding) (gzEn brEn zstEn : Bool) :
    List (Encoding × Int) :=
  (if brEn && decide (0 < accepted.brotli) then
    [(Encoding.br, accepted.brotli)]
  else
    []) ++
  (if zstEn && decide (0 < accepted.zstd) then
    [(Encoding.zstd, accepted.zstd)]
  else
    []) ++
  (if gzEn && decide (0 < accepted.gzip) then
    [(Encoding.gzip, accepted.gzip)]
  else
    [])

/-- The order of the encodings for a response of this size. -/
def sizeOrder (sizeHint : Option Nat) : List Encoding :=
  let preferZstd :=
    match sizeHint with
    | some size =>
        decide (size ≤ zstdPreferredBelowBytes)
    | none =>
        true
  if preferZstd then
    [.zstd, .br, .gzip]
  else
    [.br, .zstd, .gzip]

/-- `max_by`: the last of several largest items. -/
def maxBy (avail : List (Encoding × Int)) : Option (Encoding × Int) :=
  firstMaximum Prod.snd avail.reverse

/-- The choice among the candidates. -/
def chooseFrom (avail : List (Encoding × Int)) (sizeHint : Option Nat) :
    Option Encoding :=
  if avail.isEmpty then
    none
  else
    let weights := avail.map Prod.snd
    let qMax := weights.max?.getD 0
    let qMin := weights.min?.getD 0
    if 1 < qMax - qMin then
      (maxBy avail).map Prod.fst
    else
      (sizeOrder sizeHint).find? fun name =>
        avail.any fun candidate => candidate.1 == name

/-- The text of `Accept-Encoding`. -/
def acceptText (headers : HeaderMap) : List Char :=
  ((HeaderMap.get? "accept-encoding" headers).bind RealIp.toStr?).getD []

/-- `pick_best_encoding_sized`. -/
def pickBestEncodingSized
    (headers : HeaderMap)
    (gzEn brEn zstEn : Bool)
    (sizeHint : Option Nat) :
    Option Encoding :=
  let raw := acceptText headers
  if raw.isEmpty then
    none
  else
    chooseFrom (candidates (parseAcceptEncoding parse raw) gzEn brEn zstEn)
      sizeHint

end Parsing

/-! ## The weights that a header states -/

section Stated

variable (parse : List Char → Option Int)

/-- What a token says: a name and a weight. -/
def preference? (token : List Char) : Option (List Char × Int) :=
  if (trim token).isEmpty then
    none
  else
    some
      ((tokenParts (trim token)).1,
        tokenWeight parse (tokenParts (trim token)).2)

/-- What a header says of codings: names and weights in their order. -/
def preferences (header : List Char) : List (List Char × Int) :=
  (header.splitOn ',').filterMap (preference? parse)

/-- The last weight of a name. -/
def lastWeight? (name : List Char) (stated : List (List Char × Int)) :
    Option Int :=
  (stated.reverse.find? fun preference => preference.1 == name).map Prod.snd

/--
The weight of an encoding: its own, or else that of the star, or else nothing.
-/
def statedWeight (header : List Char) (encoding : Encoding) : Int :=
  ((lastWeight? encoding.name (preferences parse header)).or
    (lastWeight? ['*'] (preferences parse header))).getD 0

/-- The weight of a token is at least zero. -/
theorem tokenWeight_nonneg (parameters : Option (List Char)) :
    0 ≤ tokenWeight parse parameters :=
  le_max_left _ _

/-- A token sets the weight that it names. -/
theorem weight_readToken
    (weights : SetWeights)
    (token : List Char)
    (slot : Option Encoding) :
    (readToken parse weights token).weight slot =
      if ¬(trim token).isEmpty ∧
          (tokenParts (trim token)).1 = weightName slot then
        tokenWeight parse (tokenParts (trim token)).2
      else
        weights.weight slot := by
  rw [readToken]
  by_cases isEmpty : (trim token).isEmpty = true
  · rw [if_pos isEmpty, if_neg fun both => both.1 isEmpty]
  · rw [if_neg isEmpty]
    dsimp only
    generalize (tokenParts (trim token)).1 = name
    generalize tokenWeight parse (tokenParts (trim token)).2 = q
    have byName :
        (if name = "gzip".toList then { weights with gz := q }
          else if name = "br".toList then { weights with br := q }
          else if name = "zstd".toList then { weights with zst := q }
          else if name = "*".toList then { weights with wildcard := q }
          else weights : SetWeights).weight slot =
        if name = weightName slot then q else weights.weight slot := by
      split
      · rename_i isGzip
        subst isGzip
        rcases slot with _ | _ | _ | _ <;> rfl
      · rename_i notGzip
        split
        · rename_i isBr
          subst isBr
          rcases slot with _ | _ | _ | _ <;> rfl
        · rename_i notBr
          split
          · rename_i isZstd
            subst isZstd
            rcases slot with _ | _ | _ | _ <;> rfl
          · rename_i notZstd
            split
            · rename_i isStar
              subst isStar
              rcases slot with _ | _ | _ | _ <;> rfl
            · rename_i notStar
              rw [if_neg]
              rcases slot with _ | _ | _ | _
              · exact notStar
              · exact notBr
              · exact notZstd
              · exact notGzip
    rw [byName]
    exact if_congr (by simp [isEmpty]) rfl rfl

/-- The weights after the loop are the last ones, or those before it. -/
theorem weight_readTokens
    (tokens : List (List Char))
    (weights : SetWeights)
    (slot : Option Encoding) :
    (tokens.foldl (readToken parse) weights).weight slot =
      (lastWeight? (weightName slot)
          (tokens.filterMap (preference? parse))).getD
        (weights.weight slot) := by
  induction tokens using List.reverseRecOn with
  | nil =>
      rfl
  | append_singleton earlier token ih =>
      rw [List.foldl_append, List.filterMap_append]
      change (readToken parse (earlier.foldl (readToken parse) weights)
        token).weight slot = _
      rw [weight_readToken, ih, List.filterMap_cons, List.filterMap_nil,
        preference?]
      by_cases isEmpty : (trim token).isEmpty = true
      · rw [if_pos isEmpty, if_neg fun both => both.1 isEmpty,
          List.append_nil]
      · rw [if_neg isEmpty, lastWeight?, lastWeight?, List.reverse_append]
        change _ = (Option.map Prod.snd (List.find? _ (_ :: _))).getD _
        rw [List.find?_cons]
        by_cases isName :
            (tokenParts (trim token)).1 = weightName slot
        · rw [if_pos ⟨isEmpty, isName⟩, beq_iff_eq.mpr isName]
          rfl
        · rw [if_neg fun both => isName both.2,
            beq_eq_false_iff_ne.mpr isName]
          rfl

/-- Every weight that is stated is at least zero. -/
theorem lastWeight?_nonneg
    {name header : List Char}
    {weight : Int}
    (isLast : lastWeight? name (preferences parse header) = some weight) :
    0 ≤ weight := by
  obtain ⟨preference, isFound, rfl⟩ := Option.map_eq_some_iff.mp isLast
  have member := List.mem_reverse.mp (List.mem_of_find?_eq_some isFound)
  obtain ⟨token, -, ofToken⟩ := List.mem_filterMap.mp member
  rw [preference?] at ofToken
  split at ofToken
  · cases ofToken
  · obtain rfl := Option.some.inj ofToken
    exact tokenWeight_nonneg parse _

/-- A weight that is negative when it is not set stands for that. -/
theorem setOr_eq
    {stated : Option Int}
    (isSet : ∀ weight ∈ stated, 0 ≤ weight)
    (other : Int) :
    (if 0 ≤ stated.getD (-1) then stated.getD (-1) else other) =
      stated.getD other := by
  cases stated with
  | none =>
      rfl
  | some weight =>
      exact if_pos (isSet weight rfl)

/-- The weights that are read are those that the header states. -/
theorem weight_parseAcceptEncoding
    (header : List Char)
    (encoding : Encoding) :
    (parseAcceptEncoding parse header).weight encoding =
      statedWeight parse header encoding := by
  have slots := weight_readTokens parse (header.splitOn ',') ⟨-1, -1, -1, -1⟩
  have nonneg (name : List Char) :
      ∀ weight ∈ lastWeight? name (preferences parse header), 0 ≤ weight :=
    fun weight isLast => lastWeight?_nonneg parse isLast
  have ofStar := slots none
  have star :
      (if 0 ≤ ((header.splitOn ',').foldl (readToken parse)
            ⟨-1, -1, -1, -1⟩).wildcard then
          ((header.splitOn ',').foldl (readToken parse)
            ⟨-1, -1, -1, -1⟩).wildcard
        else 0) =
        (lastWeight? ['*'] (preferences parse header)).getD 0 := by
    rw [show ((header.splitOn ',').foldl (readToken parse)
        ⟨-1, -1, -1, -1⟩).wildcard = _ from ofStar]
    exact setOr_eq (nonneg _) 0
  have own (slot : Encoding) :
      (if 0 ≤ ((header.splitOn ',').foldl (readToken parse)
            ⟨-1, -1, -1, -1⟩).weight (some slot) then
          ((header.splitOn ',').foldl (readToken parse)
            ⟨-1, -1, -1, -1⟩).weight (some slot)
        else (lastWeight? ['*'] (preferences parse header)).getD 0) =
        statedWeight parse header slot := by
    have unset : (⟨-1, -1, -1, -1⟩ : SetWeights).weight (some slot) = -1 := by
      cases slot <;> rfl
    rw [slots (some slot), unset, statedWeight, Option.getD_or]
    exact setOr_eq (nonneg _) _
  cases encoding with
  | br =>
      rw [← own .br, ← star]
      rfl
  | zstd =>
      rw [← own .zstd, ← star]
      rfl
  | gzip =>
      rw [← own .gzip, ← star]
      rfl

end Stated

end Sweety.ContentCoding
