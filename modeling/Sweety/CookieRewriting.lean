import Sweety.ProxyResponse

namespace Sweety.CookieRewriting

open HttpText

/-!
# What becomes of a cookie

`rewrite_set_cookie` should remove `Secure` and replace the attribute `Domain`,
and leave everything else as it is.  It cuts parts at their seventh byte to see
whether they begin with `Domain=`.  This module says which cookies survive that.
-/

/-- A part of a cookie: the pair in front, or an attribute behind it. -/
structure Piece where
  isAttribute : Bool
  raw : List Char
  deriving Repr, DecidableEq

/-- The text of a piece without the blanks around it. -/
def Piece.text (piece : Piece) : List Char :=
  trim piece.raw

/-- The pieces of a cookie. -/
def piecesOf (cookie : List Char) : List Piece :=
  match cookie.splitOn ';' with
  | [] =>
      []
  | pair :: attributes =>
      ⟨false, pair⟩ :: attributes.map fun part => ⟨true, part⟩

/-- The attribute that a text names, in lower case, by RFC 6265. -/
def attributeName (text : List Char) : List Char :=
  trim ((toAsciiLowercase text).takeWhile fun char => char != '=')

/-- The piece is an attribute `Domain`, with a value or not. -/
def Piece.isDomain (piece : Piece) : Bool :=
  piece.isAttribute && attributeName piece.text == "domain".toList

/-- The text of the attribute that replaces a domain. -/
def domainText (domain : List Char) : List Char :=
  "Domain=".toList ++ domain

section Expected

variable (stripSecure : Bool) (newDomain : Option (List Char))

/-- The piece is not removed. -/
def kept (piece : Piece) : Bool :=
  !(stripSecure && eqIgnoreAsciiCase piece.text "secure".toList)

/-- What should stand for a piece that is kept. -/
def expectedText (piece : Piece) : List Char :=
  match newDomain with
  | some domain =>
      if piece.isDomain then
        trim (domainText domain)
      else
        piece.text
  | none =>
      piece.text

/-- The parts that the result should have. -/
def expectedParts (cookie : List Char) : List (List Char) :=
  ((piecesOf cookie).filter (kept stripSecure)).map
    (expectedText newDomain)

/-- The cookie is rewritten without a panic and to these parts. -/
def RewrittenExactly (cookie : List Char) : Prop :=
  ∃ result,
    rewriteSetCookie stripSecure newDomain cookie = some result ∧
      (result.splitOn ';').map trim =
        expectedParts stripSecure newDomain cookie

/-- Longer than seven bytes, the first of which are `Domain=`. -/
def startsWithDomain (text : List Char) : Bool :=
  decide (7 < byteLength text) &&
    (cutAt 7 text).any fun start =>
      eqIgnoreAsciiCase start "domain=".toList

/-- A text can be cut at its seventh byte if it is longer. -/
def Cuttable (text : List Char) : Prop :=
  7 < byteLength text → (cutAt 7 text).isSome = true

/-- The new domain can stand for what is found, and finds what it should. -/
structure FitsDomain (domain : List Char) (piece : Piece) : Prop where
  cuttable : Cuttable piece.text
  found :
    startsWithDomain piece.text = true →
      ';' ∉ domain ∧
        (piece.isAttribute = true ∨ piece.text = trim (domainText domain))
  missed :
    startsWithDomain piece.text = false →
      piece.isDomain = true →
        piece.text = trim (domainText domain)

/-- One piece is kept, and a new domain fits the pieces that are kept. -/
structure Rewritable (cookie : List Char) : Prop where
  keepsOne : ∃ piece ∈ piecesOf cookie, kept stripSecure piece = true
  fits :
    ∀ domain ∈ newDomain,
      ∀ piece ∈ piecesOf cookie,
        kept stripSecure piece = true → FitsDomain domain piece

end Expected

/-! ## Texts that are joined and split again -/

/-- The parts of a text without the blanks around them. -/
def trimmedParts (text : List Char) : List (List Char) :=
  (text.splitOn ';').map trim

theorem trimmedParts_ne_nil (text : List Char) : trimmedParts text ≠ [] := by
  rw [trimmedParts, ne_eq, List.map_eq_nil_iff]
  exact List.splitOn_ne_nil ';' text

theorem trimmedParts_blank (text : List Char) :
    trimmedParts (' ' :: text) = trimmedParts text := by
  have notSemicolon : ¬(' ' == ';') = true := by
    decide
  rw [trimmedParts, trimmedParts, List.splitOn_cons_eq_if_modifyHead,
    if_neg notSemicolon]
  cases text.splitOn ';' with
  | nil =>
      rfl
  | cons first later =>
      rw [List.modifyHead_cons, List.map_cons, List.map_cons, trim_blank]

/-- A text without a semicolon is one part. -/
theorem trimmedParts_single
    {text : List Char}
    (onePart : ';' ∉ text) :
    trimmedParts text = [trim text] := by
  rw [trimmedParts, List.splitOn_eq_singleton onePart]
  rfl

theorem trimmedParts_eq_singleton_iff
    {text part : List Char} :
    trimmedParts text = [part] ↔ ';' ∉ text ∧ trim text = part := by
  constructor
  · intro isSingle
    have onePart : ';' ∉ text := by
      intro member
      obtain ⟨before, after, rfl⟩ := List.append_of_mem member
      have length := congrArg List.length isSingle
      rw [trimmedParts, List.splitOn_append_cons_self, List.length_map,
        List.length_append] at length
      have first :=
        List.length_pos_of_ne_nil (List.splitOn_ne_nil ';' before)
      have second :=
        List.length_pos_of_ne_nil (List.splitOn_ne_nil ';' after)
      rw [List.length_singleton] at length
      omega
    rw [trimmedParts_single onePart] at isSingle
    exact ⟨onePart, (List.cons.inj isSingle).1⟩
  · rintro ⟨onePart, rfl⟩
    exact trimmedParts_single onePart

/-- The parts of a joined text are those of its pieces. -/
theorem trimmedParts_intercalate
    (first : List Char)
    (later : List (List Char)) :
    trimmedParts (List.intercalate "; ".toList (first :: later)) =
      (first :: later).flatMap trimmedParts := by
  induction later generalizing first with
  | nil =>
      rw [List.intercalate_singleton, List.flatMap_cons, List.flatMap_nil,
        List.append_nil]
  | cons next rest ih =>
      have isCut :
          trimmedParts
              (first ++
                ';' :: (' ' :: "; ".toList.intercalate (next :: rest))) =
            trimmedParts first ++
              trimmedParts (' ' :: "; ".toList.intercalate (next :: rest)) := by
        rw [trimmedParts, List.splitOn_append_cons_self, List.map_append]
        rfl
      calc
        trimmedParts ("; ".toList.intercalate (first :: next :: rest)) =
            trimmedParts
              (first ++
                ';' :: (' ' :: "; ".toList.intercalate (next :: rest))) := by
          rw [List.intercalate_cons_cons, List.append_assoc]
          rfl
        _ = trimmedParts first ++
            trimmedParts (' ' :: "; ".toList.intercalate (next :: rest)) :=
          isCut
        _ = trimmedParts first ++ (next :: rest).flatMap trimmedParts := by
          rw [trimmedParts_blank, ih]
        _ = (first :: next :: rest).flatMap trimmedParts :=
          rfl

/-! ## What is made of each piece -/

theorem append_of_cutAt
    {bytes : Nat}
    {text start : List Char}
    (isCut : cutAt bytes text = some start) :
    ∃ rest, text = start ++ rest := by
  induction bytes, text using cutAt.induct generalizing start with
  | case1 text =>
      rw [cutAt] at isCut
      obtain rfl := Option.some.inj isCut
      exact ⟨text, rfl⟩
  | case2 bytes =>
      rw [cutAt] at isCut
      cases isCut
  | case3 bytes char rest fits ih =>
      rw [cutAt, if_pos fits] at isCut
      obtain ⟨before, isBefore, rfl⟩ := Option.map_eq_some_iff.mp isCut
      obtain ⟨after, isRest⟩ := ih isBefore
      exact ⟨after, by rw [isRest, List.cons_append]⟩
  | case4 bytes char rest notFits =>
      rw [cutAt, if_neg notFits] at isCut
      cases isCut

/-- What is found by its first seven bytes is the attribute `Domain`. -/
theorem attributeName_of_startsWithDomain
    {text : List Char}
    (isFound : startsWithDomain text = true) :
    attributeName text = "domain".toList := by
  rw [startsWithDomain, Bool.and_eq_true] at isFound
  cases isCut : cutAt 7 text with
  | none =>
      rw [isCut] at isFound
      cases isFound.2
  | some start =>
      rw [isCut] at isFound
      obtain ⟨rest, rfl⟩ := append_of_cutAt isCut
      have isDomain : toAsciiLowercase start = "domain=".toList :=
        beq_iff_eq.mp isFound.2
      rw [attributeName, toAsciiLowercase, List.map_append,
        show start.map Char.toLower = "domain=".toList from isDomain]
      rfl

theorem semicolon_not_mem_text
    {cookie : List Char}
    {piece : Piece}
    (member : piece ∈ piecesOf cookie) :
    ';' ∉ piece.text := by
  have isPart : piece.raw ∈ cookie.splitOn ';' := by
    rw [piecesOf] at member
    cases isSplit : cookie.splitOn ';' with
    | nil =>
        rw [isSplit] at member
        cases member
    | cons pair attributes =>
        rw [isSplit] at member
        rcases List.mem_cons.mp member with rfl | inAttributes
        · exact List.mem_cons_self
        · obtain ⟨part, isIn, rfl⟩ := List.mem_map.mp inAttributes
          exact List.mem_cons_of_mem _ isIn
  intro inText
  have isSublist : (trim piece.raw).Sublist piece.raw :=
    (List.rdropWhile_prefix _ _).sublist.trans (List.dropWhile_sublist _)
  exact not_mem_of_mem_splitOn isPart (isSublist.mem inText)

section Pieces

variable (stripSecure : Bool) (newDomain : Option (List Char))

/-- What is made of a piece that is kept and can be cut. -/
def rewrittenText (piece : Piece) : List Char :=
  match newDomain with
  | some domain =>
      if startsWithDomain piece.text then
        domainText domain
      else
        piece.text
  | none =>
      piece.text

/-- The piece is cut where that is possible, if it is cut at all. -/
def Cuts (piece : Piece) : Prop :=
  newDomain.isSome = true → Cuttable piece.text

theorem setCookiePart_removed
    {piece : Piece}
    (isRemoved : kept stripSecure piece = false) :
    setCookiePart stripSecure newDomain piece.raw = some none := by
  rw [kept, Bool.not_eq_false', Piece.text] at isRemoved
  unfold setCookiePart
  dsimp only
  rw [if_pos isRemoved]

theorem setCookiePart_kept
    {piece : Piece}
    (isKept : kept stripSecure piece = true)
    (cuts : Cuts newDomain piece) :
    setCookiePart stripSecure newDomain piece.raw =
      some (some (rewrittenText newDomain piece)) := by
  rw [kept, Bool.not_eq_true', Piece.text] at isKept
  unfold setCookiePart
  dsimp only
  rw [if_neg (Bool.eq_false_iff.mp isKept)]
  cases newDomain with
  | none =>
      rfl
  | some domain =>
      change (if 7 < byteLength piece.text then _ else _) = _
      by_cases isLong : 7 < byteLength piece.text
      · obtain ⟨start, isCut⟩ :=
          Option.isSome_iff_exists.mp (cuts rfl isLong)
        rw [if_pos isLong, rewrittenText, startsWithDomain,
          decide_eq_true isLong, ← Piece.text, isCut]
        change some (if _ then _ else _) = some (some (if _ then _ else _))
        split
        · rename_i isDomain
          rw [Bool.true_and, Option.any_some, if_pos isDomain]
          rfl
        · rename_i notDomain
          rw [Bool.true_and, Option.any_some, if_neg notDomain]
      · rw [if_neg isLong, rewrittenText, startsWithDomain,
          decide_eq_false isLong]
        rfl

/-- A piece that is cut inside of a character is a panic. -/
theorem setCookiePart_panics
    {piece : Piece}
    (isKept : kept stripSecure piece = true)
    (notCuts : ¬Cuts newDomain piece) :
    setCookiePart stripSecure newDomain piece.raw = none := by
  rw [kept, Bool.not_eq_true', Piece.text] at isKept
  unfold setCookiePart
  dsimp only
  rw [if_neg (Bool.eq_false_iff.mp isKept)]
  cases newDomain with
  | none =>
      exact absurd (fun isSome => by cases isSome) notCuts
  | some domain =>
      have isLong : 7 < byteLength piece.text := by
        by_contra isShort
        exact notCuts fun _ isLong => absurd isLong isShort
      have notCut : cutAt 7 piece.text = none := by
        cases isCut : cutAt 7 piece.text with
        | none =>
            rfl
        | some start =>
            exact absurd (fun _ _ => by rw [isCut]; rfl) notCuts
      change (if 7 < byteLength piece.text then _ else _) = _
      rw [if_pos isLong, ← Piece.text, notCut]
      rfl

/-- The pieces that are kept, as they are rewritten. -/
def rewrittenTexts (pieces : List Piece) : List (List Char) :=
  (pieces.filter (kept stripSecure)).map (rewrittenText newDomain)

/-- The pieces are rewritten one by one, unless one of them is cut wrong. -/
theorem mapM_setCookiePart
    {pieces : List Piece}
    (cuts :
      ∀ piece ∈ pieces, kept stripSecure piece = true → Cuts newDomain piece) :
    ((pieces.map Piece.raw).mapM (setCookiePart stripSecure newDomain)).map
        List.reduceOption =
      some (rewrittenTexts stripSecure newDomain pieces) := by
  induction pieces with
  | nil =>
      rfl
  | cons piece later ih =>
      have isLater :=
        ih fun other member => cuts other (List.mem_cons_of_mem _ member)
      obtain ⟨parts, isParts, isReduced⟩ := Option.map_eq_some_iff.mp isLater
      rw [List.map_cons, List.mapM_cons, isParts, rewrittenTexts,
        List.filter_cons]
      cases isKept : kept stripSecure piece with
      | false =>
          rw [setCookiePart_removed stripSecure newDomain isKept,
            if_neg Bool.false_ne_true]
          exact congrArg some isReduced
      | true =>
          have isCut := cuts piece List.mem_cons_self isKept
          rw [setCookiePart_kept stripSecure newDomain isKept isCut,
            if_pos rfl, List.map_cons]
          exact
            congrArg
              (fun texts => some (rewrittenText newDomain piece :: texts))
              isReduced

theorem mapM_setCookiePart_none
    {pieces : List Piece}
    {piece : Piece}
    (member : piece ∈ pieces)
    (isKept : kept stripSecure piece = true)
    (notCuts : ¬Cuts newDomain piece) :
    (pieces.map Piece.raw).mapM (setCookiePart stripSecure newDomain) =
      none := by
  induction pieces with
  | nil =>
      cases member
  | cons first later ih =>
      rw [List.map_cons, List.mapM_cons]
      rcases List.mem_cons.mp member with rfl | inLater
      · rw [setCookiePart_panics stripSecure newDomain isKept notCuts]
        rfl
      · rw [ih inLater]
        cases setCookiePart stripSecure newDomain first.raw with
        | none =>
            rfl
        | some part =>
            rfl

theorem map_raw_piecesOf (cookie : List Char) :
    (piecesOf cookie).map Piece.raw = cookie.splitOn ';' := by
  rw [piecesOf]
  cases cookie.splitOn ';' with
  | nil =>
      rfl
  | cons pair attributes =>
      rw [List.map_cons, List.map_map]
      exact congrArg (pair :: ·) (List.map_id attributes)

/-- A cookie is rewritten piece by piece. -/
theorem rewriteSetCookie_eq_some
    {cookie : List Char}
    (cuts :
      ∀ piece ∈ piecesOf cookie,
        kept stripSecure piece = true → Cuts newDomain piece) :
    rewriteSetCookie stripSecure newDomain cookie =
      some
        (List.intercalate "; ".toList
          (rewrittenTexts stripSecure newDomain (piecesOf cookie))) := by
  obtain ⟨parts, isParts, isReduced⟩ :=
    Option.map_eq_some_iff.mp (mapM_setCookiePart stripSecure newDomain cuts)
  rw [rewriteSetCookie, ← map_raw_piecesOf, isParts, ← isReduced]
  rfl

/-- Rewriting panics exactly when a piece is cut inside of a character. -/
theorem rewriteSetCookie_isSome_iff (cookie : List Char) :
    (rewriteSetCookie stripSecure newDomain cookie).isSome = true ↔
      ∀ piece ∈ piecesOf cookie,
        kept stripSecure piece = true → Cuts newDomain piece := by
  constructor
  · intro isSome piece member isKept
    by_contra notCuts
    rw [rewriteSetCookie, ← map_raw_piecesOf,
      mapM_setCookiePart_none stripSecure newDomain member isKept notCuts]
      at isSome
    cases isSome
  · intro cuts
    rw [rewriteSetCookie_eq_some stripSecure newDomain cuts]
    rfl

end Pieces

/-! ## Which cookies are rewritten as they should be -/

theorem semicolon_not_mem_domainText (domain : List Char) :
    ';' ∉ domainText domain ↔ ';' ∉ domain := by
  have notInName : ';' ∉ "Domain=".toList := by
    decide
  unfold domainText
  rw [List.mem_append, not_or]
  exact and_iff_right notInName

/-- A piece is what it should be exactly when the new domain fits it. -/
theorem trimmedParts_rewrittenText_iff
    {domain : List Char}
    {piece : Piece}
    (onePart : ';' ∉ piece.text)
    (cuttable : Cuttable piece.text) :
    trimmedParts (rewrittenText (some domain) piece) =
        [expectedText (some domain) piece] ↔
      FitsDomain domain piece := by
  have trimmed : trim piece.text = piece.text := trim_trim piece.raw
  rw [trimmedParts_eq_singleton_iff, rewrittenText, expectedText]
  cases isFound : startsWithDomain piece.text with
  | true =>
      have isName := attributeName_of_startsWithDomain isFound
      rw [if_pos rfl, semicolon_not_mem_domainText]
      cases isAttribute : piece.isAttribute with
      | true =>
          have isDomain : piece.isDomain = true := by
            rw [Piece.isDomain, isAttribute, isName]
            rfl
          rw [if_pos isDomain]
          constructor
          · rintro ⟨oneDomain, -⟩
            exact ⟨cuttable, fun _ => ⟨oneDomain, Or.inl isAttribute⟩,
              fun notFound => Bool.noConfusion (isFound.symm.trans notFound)⟩
          · intro fits
            exact ⟨(fits.found isFound).1, rfl⟩
      | false =>
          have notDomain : ¬piece.isDomain = true := by
            rw [Piece.isDomain, isAttribute]
            exact Bool.false_ne_true
          rw [if_neg notDomain]
          constructor
          · rintro ⟨oneDomain, isText⟩
            exact ⟨cuttable, fun _ => ⟨oneDomain, Or.inr isText.symm⟩,
              fun notFound => Bool.noConfusion (isFound.symm.trans notFound)⟩
          · intro fits
            obtain ⟨oneDomain, isAttributeOr⟩ := fits.found isFound
            rcases isAttributeOr with isTrue | isText
            · rw [isAttribute] at isTrue
              cases isTrue
            · exact ⟨oneDomain, isText.symm⟩
  | false =>
      rw [if_neg Bool.false_ne_true, trimmed]
      cases isDomain : piece.isDomain with
      | true =>
          rw [if_pos rfl]
          constructor
          · rintro ⟨-, isText⟩
            exact ⟨cuttable,
              fun found => absurd (isFound.symm.trans found) Bool.false_ne_true,
              fun _ _ => isText⟩
          · intro fits
            exact ⟨onePart, fits.missed isFound isDomain⟩
      | false =>
          rw [if_neg Bool.false_ne_true]
          constructor
          · intro _
            exact ⟨cuttable,
              fun found => absurd (isFound.symm.trans found) Bool.false_ne_true,
              fun _ isTrue =>
                absurd (isDomain.symm.trans isTrue) Bool.false_ne_true⟩
          · intro _
            exact ⟨onePart, rfl⟩

/-- The parts of a rewritten cookie are those of its pieces. -/
theorem trimmedParts_rewritten_iff
    (stripSecure : Bool)
    (newDomain : Option (List Char))
    (cookie : List Char) :
    trimmedParts
          (List.intercalate "; ".toList
            (rewrittenTexts stripSecure newDomain (piecesOf cookie))) =
        expectedParts stripSecure newDomain cookie ↔
      (∃ piece ∈ piecesOf cookie, kept stripSecure piece = true) ∧
        ∀ piece ∈ piecesOf cookie,
          kept stripSecure piece = true →
            trimmedParts (rewrittenText newDomain piece) =
              [expectedText newDomain piece] := by
  rw [rewrittenTexts, expectedParts]
  cases isKept : (piecesOf cookie).filter (kept stripSecure) with
  | nil =>
      have noneKept := List.filter_eq_nil_iff.mp isKept
      constructor
      · intro same
        cases same
      · rintro ⟨⟨piece, member, pieceKept⟩, -⟩
        exact absurd pieceKept (noneKept piece member)
  | cons first later =>
      have memberIff (piece : Piece) :
          piece ∈ first :: later ↔
            piece ∈ piecesOf cookie ∧ kept stripSecure piece = true := by
        rw [← isKept, List.mem_filter]
      have keepsOne := (memberIff first).mp List.mem_cons_self
      rw [List.map_cons, trimmedParts_intercalate, ← List.map_cons,
        List.flatMap_map,
        flatMap_eq_map_iff fun piece _ => trimmedParts_ne_nil _]
      constructor
      · intro each
        refine ⟨⟨first, keepsOne⟩, ?_⟩
        intro piece member pieceKept
        exact each piece ((memberIff piece).mpr ⟨member, pieceKept⟩)
      · rintro ⟨-, each⟩ piece member
        obtain ⟨isPiece, pieceKept⟩ := (memberIff piece).mp member
        exact each piece isPiece pieceKept

/--
A cookie is rewritten as it should be exactly when a piece of it is kept and a
new domain fits the pieces that are kept.
-/
theorem cookie_rewritten_exactly_iff
    (stripSecure : Bool)
    (newDomain : Option (List Char))
    (cookie : List Char) :
    RewrittenExactly stripSecure newDomain cookie ↔
      Rewritable stripSecure newDomain cookie := by
  have partsIff := trimmedParts_rewritten_iff stripSecure newDomain cookie
  constructor
  · rintro ⟨result, isResult, sameParts⟩
    have cuts :=
      (rewriteSetCookie_isSome_iff stripSecure newDomain cookie).mp
        (Option.isSome_of_eq_some isResult)
    rw [rewriteSetCookie_eq_some stripSecure newDomain cuts] at isResult
    rw [← Option.some.inj isResult] at sameParts
    obtain ⟨keepsOne, each⟩ := partsIff.mp sameParts
    refine ⟨keepsOne, ?_⟩
    intro domain isDomain piece member isKept
    obtain rfl : newDomain = some domain := isDomain
    exact
      (trimmedParts_rewrittenText_iff (semicolon_not_mem_text member)
        (cuts piece member isKept rfl)).mp
        (each piece member isKept)
  · intro rewritable
    have cuts :
        ∀ piece ∈ piecesOf cookie,
          kept stripSecure piece = true → Cuts newDomain piece := by
      intro piece member isKept isSome
      obtain ⟨domain, isDomain⟩ := Option.isSome_iff_exists.mp isSome
      exact (rewritable.fits domain isDomain piece member isKept).cuttable
    refine ⟨_, rewriteSetCookie_eq_some stripSecure newDomain cuts,
      partsIff.mpr ⟨rewritable.keepsOne, ?_⟩⟩
    intro piece member isKept
    have onePart := semicolon_not_mem_text member
    cases newDomain with
    | none =>
        rw [rewrittenText, expectedText, trimmedParts_single onePart]
        exact congrArg (fun text => [text]) (trim_trim piece.raw)
    | some domain =>
        have fits := rewritable.fits domain rfl piece member isKept
        exact
          (trimmedParts_rewrittenText_iff onePart fits.cuttable).mpr fits

/-- A cookie that is cut inside of a character is a panic. -/
theorem cookie_cut_inside_character :
    ¬ ∀ (stripSecure : Bool) (newDomain : Option (List Char))
        (cookie : List Char),
      RewrittenExactly stripSecure newDomain cookie := by
  intro claimed
  have panics :
      rewriteSetCookie false (some "example.com".toList)
          "name=bücher; Path=/".toList =
        none := by
    decide
  obtain ⟨result, isResult, -⟩ :=
    claimed false (some "example.com".toList) "name=bücher; Path=/".toList
  rw [panics] at isResult
  cases isResult

end Sweety.CookieRewriting
