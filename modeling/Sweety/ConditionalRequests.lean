import Sweety.EntityTags
import Sweety.StaticCache

namespace Sweety.ConditionalRequests

open HttpText EntityTags StaticCache

/-!
# Which conditional requests are answered from the client's cache

What RFC 7232 asks of a request with `If-None-Match` or `If-Modified-Since`
against what `is_cache_valid` does: it compares the whole value with the tag of
the file, where the value may be a list.
-/

/-- The text of a file's tag between its quotes. -/
def fileTagText (size modifiedSecs : Nat) : List Char :=
  toHex size ++ '-' :: toHex modifiedSecs

theorem etagChar_of_mem_toHex
    {number : Nat}
    {char : Char}
    (member : char ∈ toHex number) :
    isEtagChar char = true := by
  have isDigit :=
    isSome_digitValue?_toDigits (by decide) (by decide) number char member
  have bounds := range_of_digitValue? isDigit
  have notQuote : char ≠ '"' := by
    rintro rfl
    exact absurd bounds.1 (by decide)
  rw [isEtagChar, Bool.and_eq_true, Bool.and_eq_true, bne_iff_ne, bne_iff_ne,
    decide_eq_true_eq]
  exact ⟨⟨by omega, by omega⟩, notQuote⟩

theorem all_fileTagText (size modifiedSecs : Nat) :
    (fileTagText size modifiedSecs).all isEtagChar = true := by
  rw [List.all_eq_true]
  intro char member
  rcases List.mem_append.mp member with inSize | inRest
  · exact etagChar_of_mem_toHex inSize
  · rcases List.mem_cons.mp inRest with rfl | inTime
    · rfl
    · exact etagChar_of_mem_toHex inTime

/-- The tag of a file. -/
def fileTag (size modifiedSecs : Nat) : EntityTag where
  weak := true
  inner :=
    { chars := fileTagText size modifiedSecs
      isLegal := all_fileTagText size modifiedSecs }

/-- `generate_etag` writes the tag of the file. -/
theorem text_fileTag (size modifiedSecs : Nat) :
    (fileTag size modifiedSecs).text = generateEtag size modifiedSecs := by
  change "W/".toList ++ '"' :: (fileTagText size modifiedSecs ++ ['"']) = _
  rw [generateEtag, fileTagText]
  simp only [List.append_assoc, List.cons_append]
  rfl

/-- What RFC 7232 says of a request for a file. -/
def stillCurrent
    (ifNoneMatch : Option IfNoneMatch)
    (ifModifiedSince : Option Nat)
    (size modifiedSecs : Nat) :
    Bool :=
  match ifNoneMatch with
  | some header =>
      header.condition.matches (fileTag size modifiedSecs)
  | none =>
      ifModifiedSince.any fun since => decide (modifiedSecs ≤ since)

/--
The value names the file's tag as the server writes it and no other, or does
not name it at all.
-/
def NamesTagAlone (header : IfNoneMatch) (size modifiedSecs : Nat) : Prop :=
  header.condition = .star ∨
    header.text = generateEtag size modifiedSecs ∨
    header.condition.matches (fileTag size modifiedSecs) = false

/-! ## What is read from the values that are compared -/

theorem star_of_text
    {header : IfNoneMatch}
    (isStar : header.text = ['*']) :
    header.condition = .star := by
  have isRead := header.isRead
  rw [readCondition?, if_pos isStar] at isRead
  exact (Option.some.inj isRead).symm

theorem text_of_star
    {header : IfNoneMatch}
    (isStar : header.condition = .star) :
    header.text = ['*'] := by
  have isRead := header.isRead
  rw [isStar, readCondition?] at isRead
  by_cases textIsStar : header.text = ['*']
  · exact textIsStar
  · rw [if_neg textIsStar] at isRead
    obtain ⟨listed, -, ofListed⟩ := Option.bind_eq_some_iff.mp isRead
    split at ofListed
    · cases ofListed
    · cases ofListed

/-- A value that is no star is read as a list. -/
theorem readTags_of_tags
    {header : IfNoneMatch}
    {listed : List EntityTag}
    (isList : header.condition = .tags listed) :
    readTags .element header.text = some listed := by
  have isRead := header.isRead
  rw [isList, readCondition?] at isRead
  split at isRead
  · cases isRead
  · obtain ⟨found, isFound, ofFound⟩ := Option.bind_eq_some_iff.mp isRead
    split at ofFound
    · cases ofFound
    · cases ofFound
      exact isFound

/-- The server's own tag is read as that tag. -/
theorem readTags_generateEtag (size modifiedSecs : Nat) :
    readTags .element (generateEtag size modifiedSecs) =
      some [fileTag size modifiedSecs] := by
  have alone := readTags_writeTags [fileTag size modifiedSecs]
  rwa [writeTags, text_fileTag] at alone

theorem matches_of_text
    {header : IfNoneMatch}
    {size modifiedSecs : Nat}
    (isTag : header.text = generateEtag size modifiedSecs) :
    header.condition.matches (fileTag size modifiedSecs) = true := by
  cases isCondition : header.condition with
  | star =>
      rfl
  | tags listed =>
      have isRead := readTags_of_tags isCondition
      rw [isTag, readTags_generateEtag] at isRead
      obtain rfl := Option.some.inj isRead
      have same :
          (fileTag size modifiedSecs).weaklyEquals
              (fileTag size modifiedSecs) =
            true :=
        beq_self_eq_true _
      rw [Condition.matches, List.any_cons, same]
      rfl

/-- What the server does with a value of `If-None-Match`. -/
theorem isCacheValid_some_iff
    (given : List Char)
    (since : Option Nat)
    (etag : List Char)
    (modifiedSecs : Nat) :
    isCacheValid (some given) since etag modifiedSecs = true ↔
      given = etag ∨ given = ['*'] := by
  rw [isCacheValid, Bool.or_eq_true, beq_iff_eq, beq_iff_eq]

/-- No list of two tags or more is ever taken for the file's tag. -/
theorem isCacheValid_writeTags
    {tags : List EntityTag}
    (isMany : 1 < tags.length)
    (since : Option Nat)
    (size modifiedSecs : Nat) :
    isCacheValid (some (writeTags tags)) since
        (generateEtag size modifiedSecs) modifiedSecs =
      false := by
  have isRead := readTags_writeTags tags
  rw [Bool.eq_false_iff, Ne, isCacheValid_some_iff]
  rintro (isTag | isStar)
  · rw [isTag, readTags_generateEtag] at isRead
    rw [← Option.some.inj isRead] at isMany
    exact absurd isMany (lt_irrefl 1)
  · rw [isStar] at isRead
    cases isRead

/-- A value is answered as it should be when it names the tag alone. -/
theorem isCacheValid_eq_matches_iff
    (header : IfNoneMatch)
    (since : Option Nat)
    (size modifiedSecs : Nat) :
    isCacheValid (some header.text) since
          (generateEtag size modifiedSecs) modifiedSecs =
        header.condition.matches (fileTag size modifiedSecs) ↔
      NamesTagAlone header size modifiedSecs := by
  have validIff :=
    isCacheValid_some_iff header.text since
      (generateEtag size modifiedSecs) modifiedSecs
  constructor
  · intro agrees
    cases isMatch : header.condition.matches (fileTag size modifiedSecs) with
    | false =>
        exact Or.inr (Or.inr isMatch)
    | true =>
        rw [isMatch] at agrees
        rcases validIff.mp agrees with isTag | isStar
        · exact Or.inr (Or.inl isTag)
        · exact Or.inl (star_of_text isStar)
  · rintro (isStar | isTag | notMatch)
    · have isValid := validIff.mpr (Or.inr (text_of_star isStar))
      rw [isValid, isStar]
      rfl
    · rw [validIff.mpr (Or.inl isTag), matches_of_text isTag]
    · rw [notMatch, Bool.eq_false_iff, Ne, validIff]
      rintro (isTag | isStar)
      · rw [matches_of_text isTag] at notMatch
        cases notMatch
      · rw [star_of_text isStar] at notMatch
        cases notMatch

/-- Without `If-None-Match` the time of the change decides. -/
theorem isCacheValid_none
    (since : Option Nat)
    (etag : List Char)
    (modifiedSecs : Nat) :
    isCacheValid none since etag modifiedSecs =
      since.any fun time => decide (modifiedSecs ≤ time) := by
  cases since with
  | none =>
      rfl
  | some time =>
      rfl

/--
A request is answered as RFC 7232 says exactly when its `If-None-Match`, if it
has one, names the file's tag alone or not at all.
-/
theorem revalidation_follows_rfc_iff
    (ifNoneMatch : Option IfNoneMatch)
    (ifModifiedSince : Option Nat)
    (size modifiedSecs : Nat) :
    (isCacheValid (ifNoneMatch.map IfNoneMatch.text) ifModifiedSince
          (generateEtag size modifiedSecs) modifiedSecs =
        true ↔
      stillCurrent ifNoneMatch ifModifiedSince size modifiedSecs = true) ↔
      ∀ header ∈ ifNoneMatch, NamesTagAlone header size modifiedSecs := by
  rw [← Bool.eq_iff_iff]
  cases ifNoneMatch with
  | none =>
      constructor
      · intro _ header member
        cases member
      · intro _
        exact isCacheValid_none ifModifiedSince _ modifiedSecs
  | some header =>
      have decided :=
        isCacheValid_eq_matches_iff header ifModifiedSince size modifiedSecs
      constructor
      · intro agrees other member
        rw [← Option.some.inj (Option.mem_def.mp member)]
        exact decided.mp agrees
      · intro allAlone
        exact decided.mpr (allAlone header rfl)

/-- A value with an old tag and the tag of a file. -/
def twoTags : IfNoneMatch where
  text := "\"old\", W/\"400-64\"".toList
  condition :=
    .tags
      [{ weak := false, inner := { chars := "old".toList, isLegal := rfl } },
        { weak := true, inner := { chars := "400-64".toList, isLegal := rfl } }]
  isRead := by decide

/-- A list that has the tag of the file is taken for a stale one. -/
theorem listed_tag_not_found :
    ¬ ∀ (ifNoneMatch : Option IfNoneMatch) (ifModifiedSince : Option Nat)
        (size modifiedSecs : Nat),
      (isCacheValid (ifNoneMatch.map IfNoneMatch.text) ifModifiedSince
            (generateEtag size modifiedSecs) modifiedSecs =
          true ↔
        stillCurrent ifNoneMatch ifModifiedSince size modifiedSecs = true) := by
  intro claimed
  have answered := (claimed (some twoTags) none 1024 100).mpr (by decide)
  exact absurd answered (by decide)

end Sweety.ConditionalRequests
