import Mathlib.Logic.Basic

namespace Sweety.EntityTags

/-!
# Lists of entity tags

Entity tags and the values of `If-None-Match` as RFC 7232 defines them: a list
of tags with blanks and empty elements between the commas, or a star.  A tag
has quotes around it, and a comma between the quotes does not end it.
-/

/-- `etagc`. -/
def isEtagChar (char : Char) : Bool :=
  33 ≤ char.toNat && char.toNat != 127 && char != '"'

/-- `OWS`. -/
def isBlank (char : Char) : Bool :=
  char == ' ' || char == '\t'

/-- What stands between the quotes of a tag. -/
structure TagText where
  chars : List Char
  isLegal : chars.all isEtagChar = true
  deriving DecidableEq

/-- The text of a tag before its first character is read. -/
def TagText.empty : TagText where
  chars := []
  isLegal := rfl

/-- One more character at the end of a text. -/
def TagText.push
    (text : TagText)
    (char : Char)
    (isChar : isEtagChar char = true) :
    TagText where
  chars := text.chars ++ [char]
  isLegal := by
    rw [List.all_append, text.isLegal, List.all_cons, isChar]
    rfl

/-- `entity-tag`. -/
structure EntityTag where
  weak : Bool
  inner : TagText
  deriving DecidableEq

/-- How a tag is written. -/
def EntityTag.text (tag : EntityTag) : List Char :=
  (if tag.weak then "W/".toList else []) ++
    '"' :: (tag.inner.chars ++ ['"'])

/-- Weak comparison. -/
def EntityTag.weaklyEquals (tag other : EntityTag) : Bool :=
  tag.inner == other.inner

/-- Where a reader of a list stands. -/
inductive Place where
  /-- Before a tag, a comma or the end. -/
  | element
  /-- After a `W`. -/
  | weakMark
  /-- After `W/`. -/
  | weakSlash
  /-- Between the quotes of a tag. -/
  | inside (weak : Bool) (before : TagText)
  /-- After a tag. -/
  | separator

/-- Read the tags of a list. -/
def readTags : Place → List Char → Option (List EntityTag)
  | .element, [] =>
      some []
  | .element, char :: rest =>
      if isBlank char || char == ',' then
        readTags .element rest
      else if char == 'W' then
        readTags .weakMark rest
      else if char == '"' then
        readTags (.inside false .empty) rest
      else
        none
  | .weakMark, '/' :: rest =>
      readTags .weakSlash rest
  | .weakMark, _ =>
      none
  | .weakSlash, '"' :: rest =>
      readTags (.inside true .empty) rest
  | .weakSlash, _ =>
      none
  | .inside _ _, [] =>
      none
  | .inside weak before, char :: rest =>
      if char == '"' then
        (readTags .separator rest).map fun tags =>
          { weak := weak, inner := before } :: tags
      else if isChar : isEtagChar char = true then
        readTags (.inside weak (before.push char isChar)) rest
      else
        none
  | .separator, [] =>
      some []
  | .separator, char :: rest =>
      if isBlank char then
        readTags .separator rest
      else if char == ',' then
        readTags .element rest
      else
        none

/-- What a value of `If-None-Match` asks about. -/
inductive Condition where
  | star
  | tags (listed : List EntityTag)
  deriving DecidableEq

/-- Read a value of `If-None-Match`. -/
def readCondition? (text : List Char) : Option Condition :=
  if text = ['*'] then
    some .star
  else
    (readTags .element text).bind fun listed =>
      if listed.isEmpty then
        none
      else
        some (.tags listed)

/-- A legal value of `If-None-Match`. -/
structure IfNoneMatch where
  text : List Char
  condition : Condition
  isRead : readCondition? text = some condition

/-- Whether a representation with this tag matches the condition. -/
def Condition.matches (condition : Condition) (current : EntityTag) : Bool :=
  match condition with
  | .star =>
      true
  | .tags listed =>
      listed.any fun tag => tag.weaklyEquals current

/-! ## Written tags are read back -/

theorem quote_not_etagChar {char : Char} (isChar : isEtagChar char = true) :
    (char == '"') = false := by
  rw [isEtagChar, Bool.and_eq_true, bne_iff_ne] at isChar
  exact beq_false_of_ne isChar.2

/-- The rest of a tag is read to its quote. -/
theorem readTags_inside
    (weak : Bool)
    (rest : List Char) :
    ∀ (chars : List Char) (before inner : TagText),
      before.chars ++ chars = inner.chars →
      readTags (.inside weak before) (chars ++ '"' :: rest) =
        (readTags .separator rest).map fun tags =>
          { weak := weak, inner := inner } :: tags := by
  intro chars
  induction chars with
  | nil =>
      intro before inner isWhole
      have isInner : before = inner := by
        cases before
        cases inner
        simpa using isWhole
      rw [isInner]
      rfl
  | cons char later ih =>
      intro before inner isWhole
      have member : char ∈ inner.chars := by
        rw [← isWhole]
        exact List.mem_append_right _ List.mem_cons_self
      have isChar : isEtagChar char = true :=
        List.all_eq_true.mp inner.isLegal char member
      have pushed :
          (before.push char isChar).chars ++ later = inner.chars := by
        rw [← isWhole]
        exact List.append_assoc _ _ _
      rw [List.cons_append, readTags, quote_not_etagChar isChar]
      rw [if_neg Bool.false_ne_true, dif_pos isChar]
      exact ih _ _ pushed

/-- A tag is read where one may stand. -/
theorem readTags_text (tag : EntityTag) (rest : List Char) :
    readTags .element (tag.text ++ rest) =
      (readTags .separator rest).map fun tags => tag :: tags := by
  obtain ⟨weak, inner⟩ := tag
  have whole : TagText.empty.chars ++ inner.chars = inner.chars := rfl
  have inside := readTags_inside weak rest inner.chars .empty inner whole
  cases weak with
  | false =>
      calc
        readTags .element (('"' :: (inner.chars ++ ['"'])) ++ rest) =
            readTags (.inside false .empty) (inner.chars ++ ['"'] ++ rest) :=
          rfl
        _ = readTags (.inside false .empty) (inner.chars ++ '"' :: rest) := by
          rw [List.append_assoc, List.singleton_append]
        _ = _ := inside
  | true =>
      calc
        readTags .element
              (('W' :: '/' :: '"' :: (inner.chars ++ ['"'])) ++ rest) =
            readTags (.inside true .empty) (inner.chars ++ ['"'] ++ rest) :=
          rfl
        _ = readTags (.inside true .empty) (inner.chars ++ '"' :: rest) := by
          rw [List.append_assoc, List.singleton_append]
        _ = _ := inside

/-- Tags with a comma and a blank between them. -/
def writeTags : List EntityTag → List Char
  | [] =>
      []
  | [tag] =>
      tag.text
  | tag :: next :: later =>
      tag.text ++ ", ".toList ++ writeTags (next :: later)

/-- A written list is read back. -/
theorem readTags_writeTags (tags : List EntityTag) :
    readTags .element (writeTags tags) = some tags := by
  induction tags with
  | nil =>
      rfl
  | cons tag later ih =>
      cases later with
      | nil =>
          have alone := readTags_text tag []
          rw [List.append_nil] at alone
          exact alone
      | cons next after =>
          have afterComma :
              readTags .separator
                  (", ".toList ++ writeTags (next :: after)) =
                some (next :: after) :=
            ih
          rw [writeTags, List.append_assoc, readTags_text, afterComma]
          rfl

end Sweety.EntityTags
