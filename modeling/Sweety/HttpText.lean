import Mathlib.Algebra.GroupWithZero.Nat
import Mathlib.Data.List.Basic
import Mathlib.Data.List.DropRight
import Mathlib.Tactic.Common

namespace Sweety.HttpText

/-!
# The text functions of the HTTP/1 decoder

The functions of Rust's `str` and integer parsing that the response decoder
uses, on lists of characters.
-/

/-- `str::from_utf8`. -/
def decodeUtf8 (bytes : List UInt8) : Option (List Char) :=
  bytes.toByteArray.utf8Decode?.map Array.toList

/-- The bytes of a text. -/
def encodeUtf8 (text : List Char) : List UInt8 :=
  text.flatMap String.utf8EncodeChar

/-- The bytes of a text decode to the text. -/
theorem decodeUtf8_encodeUtf8 (text : List Char) :
    decodeUtf8 (encodeUtf8 text) = some text := by
  have decoded : text.utf8Encode.utf8Decode? = some text.toArray :=
    List.utf8Decode?_utf8Encode
  rw [List.utf8Encode] at decoded
  simp [decodeUtf8, encodeUtf8, decoded]

/-- Only the bytes of a text decode to it. -/
theorem eq_encodeUtf8_of_decodeUtf8
    {bytes : List UInt8}
    {text : List Char}
    (decoded : decodeUtf8 bytes = some text) :
    bytes = encodeUtf8 text := by
  obtain ⟨chars, isChars, rfl⟩ := Option.map_eq_some_iff.mp decoded
  have isSome : bytes.toByteArray.utf8Decode?.isSome = true := by
    rw [isChars]
    rfl
  have encoded :
      (bytes.toByteArray.utf8Decode?.get isSome).toList.utf8Encode =
        bytes.toByteArray :=
    ByteArray.utf8Encode_get_utf8Decode?
  simp only [isChars, Option.get_some, List.utf8Encode] at encoded
  have sameBytes := congrArg (fun array => array.data.toList) encoded
  simpa [encodeUtf8] using sameBytes.symm

theorem encodeUtf8_append (first second : List Char) :
    encodeUtf8 (first ++ second) =
      encodeUtf8 first ++ encodeUtf8 second :=
  List.flatMap_append

/-- The first character of an encoded text is determined by its bytes. -/
theorem head_of_utf8EncodeChar
    {first second : Char}
    {rest others : List UInt8}
    (same :
      String.utf8EncodeChar first ++ rest =
        String.utf8EncodeChar second ++ others) :
    first = second := by
  have decoded (char : Char) (bytes : List UInt8) :
      (String.utf8EncodeChar char ++ bytes).toByteArray.utf8DecodeChar? 0 =
        some char := by
    rw [List.toByteArray_append]
    exact ByteArray.utf8DecodeChar?_utf8EncodeChar_append
  have isFirst := decoded first rest
  rw [same, decoded second others] at isFirst
  exact (Option.some.inj isFirst).symm

/-- A text begins with another if its bytes do. -/
theorem encodeUtf8_prefix_iff {word text : List Char} :
    encodeUtf8 word <+: encodeUtf8 text ↔ word <+: text := by
  constructor
  · intro isPrefix
    induction word generalizing text with
    | nil =>
        exact List.nil_prefix
    | cons char chars inductionHypothesis =>
        obtain ⟨rest, isText⟩ := isPrefix
        rw [encodeUtf8, encodeUtf8, List.flatMap_cons,
          List.append_assoc] at isText
        cases text with
        | nil =>
            have bytes := String.length_utf8EncodeChar char
            have positive := Char.utf8Size_pos char
            have isLength := congrArg List.length isText
            rw [List.length_append, List.flatMap_nil, List.length_nil]
              at isLength
            omega
        | cons head others =>
            rw [List.flatMap_cons] at isText
            obtain rfl := head_of_utf8EncodeChar isText
            have isRest : encodeUtf8 chars <+: encodeUtf8 others :=
              ⟨rest, List.append_cancel_left isText⟩
            exact List.cons_prefix_cons.mpr
              ⟨rfl, inductionHypothesis isRest⟩
  · rintro ⟨rest, rfl⟩
    rw [encodeUtf8_append]
    exact List.prefix_append _ _

/-- A text has at least one byte for each character. -/
theorem length_le_encodeUtf8 (text : List Char) :
    text.length ≤ (encodeUtf8 text).length := by
  induction text with
  | nil =>
      exact Nat.le_refl 0
  | cons char rest inductionHypothesis =>
      have positive := Char.utf8Size_pos char
      rw [← String.length_utf8EncodeChar] at positive
      simp only [encodeUtf8, List.flatMap_cons, List.length_append,
        List.length_cons] at inductionHypothesis ⊢
      omega

/-- An ASCII byte stands only for its own character. -/
theorem ascii_not_mem_encodeUtf8
    {text : List Char}
    {code : Nat}
    (isAscii : code < 128)
    (absent : ∀ char ∈ text, char.toNat ≠ code) :
    UInt8.ofNat code ∉ encodeUtf8 text := by
  intro member
  obtain ⟨char, isChar, inChar⟩ := List.mem_flatMap.mp member
  have differs : char.val.toNat ≠ code := absent char isChar
  have isByte (value : Nat) :
      UInt8.ofNat code = UInt8.ofNat value ↔ value % 256 = code := by
    rw [← UInt8.toNat_inj, UInt8.toNat_ofNat', UInt8.toNat_ofNat',
      Nat.mod_eq_of_lt (by omega : code < 2 ^ 8)]
    exact eq_comm
  -- Every byte of a longer encoding has its highest bit set.
  unfold String.utf8EncodeChar at inChar
  dsimp only at inChar
  split at inChar
  · rw [List.mem_singleton, isByte] at inChar
    omega
  · split at inChar
    · simp only [List.mem_cons, List.not_mem_nil, or_false,
        isByte] at inChar
      omega
    · split at inChar
      all_goals
        simp only [List.mem_cons, List.not_mem_nil, or_false,
          isByte] at inChar
        omega

/-- Only a newline has the byte of a newline. -/
theorem newline_not_mem_encodeUtf8
    {text : List Char}
    (oneLine : '\n' ∉ text) :
    (10 : UInt8) ∉ encodeUtf8 text := by
  apply ascii_not_mem_encodeUtf8 (by decide : 10 < 128)
  intro char isChar isNewline
  have same : char = '\n' := Char.ext (UInt32.toNat_inj.mp isNewline)
  exact oneLine (same ▸ isChar)

/-- `char::is_whitespace`: the Unicode property White_Space. -/
def isWhitespace (char : Char) : Bool :=
  let code := char.toNat
  decide (9 ≤ code ∧ code ≤ 13) || code == 0x20 || code == 0x85 ||
    code == 0xa0 || code == 0x1680 ||
    decide (0x2000 ≤ code ∧ code ≤ 0x200a) ||
    code == 0x2028 || code == 0x2029 || code == 0x202f ||
    code == 0x205f || code == 0x3000

/-- `trim`. -/
def trim (text : List Char) : List Char :=
  (text.dropWhile isWhitespace).rdropWhile isWhitespace

/-- Only whitespace is trimmed to nothing. -/
theorem trim_eq_nil_iff {text : List Char} :
    trim text = [] ↔ ∀ char ∈ text, isWhitespace char = true := by
  rw [trim, List.rdropWhile_eq_nil_iff]
  constructor
  · intro allDropped char member
    rw [← List.takeWhile_append_dropWhile (p := isWhitespace)
      (l := text)] at member
    rcases List.mem_append.mp member with taken | dropped
    · exact List.mem_takeWhile_imp taken
    · exact allDropped char dropped
  · intro allSpace char member
    apply allSpace
    exact (List.dropWhile_sublist isWhitespace).mem member

/-- Trimming a visible text keeps it, and cuts what follows from the right. -/
theorem trim_append
    {text tail : List Char}
    (nonempty : text ≠ [])
    (visible : ∀ char ∈ text, isWhitespace char = false) :
    trim (text ++ tail) = text ++ tail.rdropWhile isWhitespace := by
  obtain ⟨first, others, rfl⟩ := List.exists_cons_of_ne_nil nonempty
  have firstVisible := visible first List.mem_cons_self
  have keeps :
      (first :: others ++ tail).dropWhile isWhitespace =
        first :: others ++ tail := by
    simp [firstVisible]
  rw [trim, keeps, List.rdropWhile, List.reverse_append,
    List.dropWhile_append]
  split
  · rename_i allSpace
    rw [List.isEmpty_iff] at allSpace
    have dropped : tail.rdropWhile isWhitespace = [] := by
      rw [List.rdropWhile, allSpace]
      rfl
    have lastVisible :
        (first :: others).rdropWhile isWhitespace = first :: others := by
      rw [List.rdropWhile_eq_self_iff]
      intro _
      rw [visible _ (List.getLast_mem _)]
      exact Bool.false_ne_true
    rw [dropped, List.append_nil]
    exact lastVisible
  · rw [List.reverse_append, List.reverse_reverse]
    rfl

theorem trim_blank (text : List Char) : trim (' ' :: text) = trim text := by
  rw [trim, List.dropWhile_cons_of_pos (by decide)]
  rfl

/-- A trimmed text is trimmed. -/
theorem trim_trim (text : List Char) : trim (trim text) = trim text := by
  have startsVisible : (trim text).dropWhile isWhitespace = trim text := by
    rw [List.dropWhile_eq_self_iff]
    intro nonempty
    have isPrefix : trim text <+: text.dropWhile isWhitespace :=
      List.rdropWhile_prefix isWhitespace _
    rw [isPrefix.getElem]
    exact List.dropWhile_get_zero_not _ _ _
  rw [trim, startsVisible, trim]
  exact List.rdropWhile_idempotent _ _

/-- A character of a text that is split is the separator or in a part. -/
theorem eq_or_exists_mem_splitOn
    (separator : Char)
    {text : List Char}
    {char : Char}
    (member : char ∈ text) :
    char = separator ∨ ∃ part ∈ text.splitOn separator, char ∈ part := by
  induction text with
  | nil =>
      nomatch member
  | cons first rest inductionHypothesis =>
      rw [List.splitOn_cons_eq_if_modifyHead]
      obtain ⟨part, others, isSplit⟩ :=
        List.exists_cons_of_ne_nil (List.splitOn_ne_nil separator rest)
      rw [isSplit] at inductionHypothesis ⊢
      split
      · rename_i isSeparator
        rcases List.mem_cons.mp member with isFirst | inRest
        · exact .inl (isFirst.trans (beq_iff_eq.mp isSeparator))
        · refine (inductionHypothesis inRest).imp_right ?_
          rintro ⟨found, isPart, inFound⟩
          exact ⟨found, List.mem_cons_of_mem [] isPart, inFound⟩
      · rw [List.modifyHead_cons]
        rcases List.mem_cons.mp member with isFirst | inRest
        · rw [isFirst]
          exact .inr ⟨first :: part, List.mem_cons_self, List.mem_cons_self⟩
        · refine (inductionHypothesis inRest).imp_right ?_
          rintro ⟨found, isPart, inFound⟩
          rcases List.mem_cons.mp isPart with rfl | inOthers
          · exact ⟨first :: found, List.mem_cons_self,
              List.mem_cons_of_mem first inFound⟩
          · exact ⟨found, List.mem_cons_of_mem _ inOthers, inFound⟩

/-- No part of a text that is split has the separator in it. -/
theorem not_mem_of_mem_splitOn
    {separator : Char}
    {text part : List Char}
    (member : part ∈ text.splitOn separator) :
    separator ∉ part := by
  induction text generalizing part with
  | nil =>
      rw [List.splitOn_nil, List.mem_singleton] at member
      rw [member]
      exact List.not_mem_nil
  | cons char rest inductionHypothesis =>
      rw [List.splitOn_cons_eq_if_modifyHead] at member
      obtain ⟨first, others, isSplit⟩ :=
        List.exists_cons_of_ne_nil (List.splitOn_ne_nil separator rest)
      rw [isSplit] at member inductionHypothesis
      split at member
      · rcases List.mem_cons.mp member with isNil | inRest
        · rw [isNil]
          exact List.not_mem_nil
        · exact inductionHypothesis inRest
      · rename_i notSeparator
        rw [List.modifyHead_cons] at member
        rcases List.mem_cons.mp member with isFirst | inOthers
        · have absent : separator ∉ first :=
            inductionHypothesis List.mem_cons_self
          rw [isFirst]
          intro inPart
          rcases List.mem_cons.mp inPart with isChar | inFirst
          · exact notSeparator (beq_iff_eq.mpr isChar.symm)
          · exact absent inFirst
        · exact inductionHypothesis (List.mem_cons_of_mem first inOthers)

/-! ### Lists of parts -/

theorem length_le_flatMap
    {items : List α}
    {several : α → List β}
    (nonempty : ∀ item ∈ items, several item ≠ []) :
    items.length ≤ (items.flatMap several).length := by
  induction items with
  | nil =>
      exact Nat.le_refl _
  | cons first later ih =>
      have atLeast :=
        ih fun item member => nonempty item (List.mem_cons_of_mem _ member)
      have firstLength :=
        List.length_pos_of_ne_nil (nonempty first List.mem_cons_self)
      rw [List.flatMap_cons, List.length_append, List.length_cons]
      omega

/-- Lists that are not empty stand one for one when their lengths agree. -/
theorem flatMap_eq_map_iff
    {items : List α}
    {several : α → List β}
    {single : α → β}
    (nonempty : ∀ item ∈ items, several item ≠ []) :
    items.flatMap several = items.map single ↔
      ∀ item ∈ items, several item = [single item] := by
  constructor
  · induction items with
    | nil =>
        intro _ item member
        cases member
    | cons first later ih =>
        intro same
        have laterNonempty : ∀ item ∈ later, several item ≠ [] :=
          fun item member => nonempty item (List.mem_cons_of_mem _ member)
        have lengthLater := length_le_flatMap laterNonempty
        obtain ⟨head, tail, isSeveral⟩ :=
          List.exists_cons_of_ne_nil (nonempty first List.mem_cons_self)
        rw [List.flatMap_cons, List.map_cons, isSeveral, List.cons_append]
          at same
        obtain ⟨isHead, sameTail⟩ := List.cons.inj same
        have tailNil : tail = [] := by
          have lengths := congrArg List.length sameTail
          rw [List.length_append, List.length_map] at lengths
          exact List.eq_nil_of_length_eq_zero (by omega)
        rw [tailNil, List.nil_append] at sameTail
        intro item member
        rcases List.mem_cons.mp member with rfl | inLater
        · rw [isSeveral, isHead, tailNil]
        · exact ih laterNonempty sameTail item inLater
  · intro each
    induction items with
    | nil =>
        rfl
    | cons first later ih =>
        rw [List.flatMap_cons, List.map_cons, each first List.mem_cons_self,
          ih (fun item member => nonempty item (List.mem_cons_of_mem _ member))
            fun item member => each item (List.mem_cons_of_mem _ member)]
        rfl

/-! ### Words, bytes and digits -/

/-- `split_whitespace`. -/
def splitWhitespace (text : List Char) : List (List Char) :=
  (text.splitOnP isWhitespace).filter fun word => !word.isEmpty

/-- `str::len`: the number of bytes in UTF-8. -/
def byteLength (text : List Char) : Nat :=
  (text.map Char.utf8Size).sum

/-- `to_ascii_lowercase`. -/
def toAsciiLowercase (text : List Char) : List Char :=
  text.map Char.toLower

theorem utf8Size_toLower (char : Char) :
    char.toLower.utf8Size = char.utf8Size := by
  by_cases isUpper : char.val ≥ 'A'.val ∧ char.val ≤ 'Z'.val
  · have range : 65 ≤ char.toNat ∧ char.toNat ≤ 90 := by
      simpa [UInt32.le_iff_toNat_le] using isUpper
    have small : char.val ≤ 0x7f := by
      simp [UInt32.le_iff_toNat_le]
      omega
    have smallLower : char.val + ('a'.val - 'A'.val) ≤ 0x7f := by
      simp [UInt32.le_iff_toNat_le]
      omega
    rw [Char.utf8Size_eq_one_iff.mpr small, Char.utf8Size_eq_one_iff]
    unfold Char.toLower
    rw [dif_pos isUpper]
    exact smallLower
  · unfold Char.toLower
    rw [dif_neg isUpper]

theorem byteLength_toAsciiLowercase (text : List Char) :
    byteLength (toAsciiLowercase text) = byteLength text := by
  simp only [byteLength, toAsciiLowercase, List.map_map]
  apply congrArg
  apply List.map_congr_left
  intro char _
  exact utf8Size_toLower char

/-- `eq_ignore_ascii_case`. -/
def eqIgnoreAsciiCase (first second : List Char) : Bool :=
  toAsciiLowercase first == toAsciiLowercase second

/-- `contains` for a text inside a text. -/
def contains (text pattern : List Char) : Bool :=
  text.tails.any fun suffix => pattern.isPrefixOf suffix

/-- The value of a digit in radix `radix` (at most 16). -/
def digitValue? (radix : Nat) (char : Char) : Option Nat :=
  let value :=
    if '0' ≤ char ∧ char ≤ '9' then
      some (char.toNat - '0'.toNat)
    else if 'a' ≤ char ∧ char ≤ 'f' then
      some (char.toNat - 'a'.toNat + 10)
    else if 'A' ≤ char ∧ char ≤ 'F' then
      some (char.toNat - 'A'.toNat + 10)
    else
      none
  value.filter (· < radix)

/-- The value of a digit string, or `none` from `bound` on. -/
def digitsValue?
    (radix bound : Nat) :
    List Char → Nat → Option Nat
  | [], total =>
      some total
  | char :: rest, total =>
      match digitValue? radix char with
      | none =>
          none
      | some digit =>
          if total * radix + digit < bound then
            digitsValue? radix bound rest (total * radix + digit)
          else
            none

/-- `from_str_radix` of an unsigned type with `bound` values. -/
def fromStrRadix?
    (radix bound : Nat)
    (text : List Char) :
    Option Nat :=
  match text with
  | [] | ['+'] | ['-'] =>
      none
  | '+' :: digits =>
      digitsValue? radix bound digits 0
  | digits =>
      digitsValue? radix bound digits 0

/-- The value of a string of digits, without a bound. -/
def foldDigits (radix : Nat) (total : Nat) (text : List Char) : Nat :=
  text.foldl
    (fun total digit =>
      total * radix + (digitValue? radix digit).getD 0)
    total

theorem le_foldDigits
    {radix : Nat}
    (positive : 0 < radix)
    (total : Nat)
    (text : List Char) :
    total ≤ foldDigits radix total text := by
  induction text generalizing total with
  | nil =>
      exact Nat.le_refl total
  | cons char rest inductionHypothesis =>
      have larger := Nat.le_mul_of_pos_right total positive
      exact Nat.le_trans
        (Nat.le_trans larger (Nat.le_add_right _ _))
        (inductionHypothesis _)

/-- Digits whose value fits are parsed to it. -/
theorem digitsValue?_eq_some
    {radix bound total : Nat}
    {text : List Char}
    (positive : 0 < radix)
    (digits :
      ∀ char ∈ text, (digitValue? radix char).isSome = true)
    (fits : foldDigits radix total text < bound) :
    digitsValue? radix bound text total =
      some (foldDigits radix total text) := by
  induction text generalizing total with
  | nil =>
      rfl
  | cons char rest inductionHypothesis =>
      obtain ⟨digit, isDigit⟩ :=
        Option.isSome_iff_exists.mp (digits char List.mem_cons_self)
      have goesOn :
          foldDigits radix total (char :: rest) =
            foldDigits radix (total * radix + digit) rest := by
        simp [foldDigits, isDigit]
      have below :=
        le_foldDigits positive (total * radix + digit) rest
      rw [goesOn] at fits ⊢
      rw [digitsValue?, isDigit]
      simp only [if_pos (Nat.lt_of_le_of_lt below fits)]
      apply inductionHypothesis _ fits
      intro other member
      exact digits other (List.mem_cons_of_mem char member)

/-- A string of digits has no sign. -/
theorem fromStrRadix?_eq_some
    {radix bound : Nat}
    {text : List Char}
    (positive : 0 < radix)
    (nonempty : text ≠ [])
    (digits :
      ∀ char ∈ text, (digitValue? radix char).isSome = true)
    (fits : foldDigits radix 0 text < bound) :
    fromStrRadix? radix bound text = some (foldDigits radix 0 text) := by
  have plus : digitValue? radix '+' = none := rfl
  have minus : digitValue? radix '-' = none := rfl
  rw [← digitsValue?_eq_some positive digits fits]
  unfold fromStrRadix?
  split
  · exact absurd rfl nonempty
  · have isDigit := digits '+' List.mem_cons_self
    rw [plus] at isDigit
    cases isDigit
  · have isDigit := digits '-' List.mem_cons_self
    rw [minus] at isDigit
    cases isDigit
  · have isDigit := digits '+' List.mem_cons_self
    rw [plus] at isDigit
    cases isDigit
  · rfl

theorem digitsValue?_eq_foldDigits
    {radix bound total value : Nat}
    {text : List Char}
    (isValue : digitsValue? radix bound text total = some value) :
    value = foldDigits radix total text := by
  induction text generalizing total with
  | nil =>
      exact (Option.some.inj isValue).symm
  | cons char rest inductionHypothesis =>
      unfold digitsValue? at isValue
      split at isValue
      · cases isValue
      · next digit isDigit =>
          split at isValue
          · rw [inductionHypothesis isValue]
            simp [foldDigits, isDigit]
          · cases isValue

/-- The value that is read of a string of digits is its value. -/
theorem fromStrRadix?_eq_foldDigits
    {radix bound value : Nat}
    {text : List Char}
    (digits :
      ∀ char ∈ text, (digitValue? radix char).isSome = true)
    (isValue : fromStrRadix? radix bound text = some value) :
    value = foldDigits radix 0 text := by
  have plus : digitValue? radix '+' = none := rfl
  unfold fromStrRadix? at isValue
  split at isValue
  · nomatch isValue
  · nomatch isValue
  · nomatch isValue
  · have isDigit := digits '+' List.mem_cons_self
    rw [plus] at isDigit
    nomatch isDigit
  · exact digitsValue?_eq_foldDigits isValue

/-- What is read has digits only. -/
theorem isSome_of_digitsValue?
    {radix bound total value : Nat}
    {text : List Char}
    (isValue : digitsValue? radix bound text total = some value) :
    ∀ char ∈ text, (digitValue? radix char).isSome = true := by
  induction text generalizing total with
  | nil =>
      intro char member
      nomatch member
  | cons first rest inductionHypothesis =>
      unfold digitsValue? at isValue
      split at isValue
      · nomatch isValue
      · next digit isDigit =>
          split at isValue
          · intro char member
            rcases List.mem_cons.mp member with rfl | inRest
            · rw [isDigit]
              rfl
            · exact inductionHypothesis isValue char inRest
          · nomatch isValue

theorem lt_of_digitsValue?
    {radix bound total value : Nat}
    {text : List Char}
    (within : total < bound)
    (isValue : digitsValue? radix bound text total = some value) :
    value < bound := by
  induction text generalizing total with
  | nil =>
      cases isValue
      exact within
  | cons first rest inductionHypothesis =>
      unfold digitsValue? at isValue
      split at isValue
      · nomatch isValue
      · split at isValue
        · rename_i small
          exact inductionHypothesis small isValue
        · nomatch isValue

/-- What is read has digits behind at most one sign. -/
theorem digits_of_fromStrRadix?
    {radix bound value : Nat}
    {text : List Char}
    (isRead : fromStrRadix? radix bound text = some value) :
    digitsValue? radix bound text 0 = some value ∨
      ∃ digits,
        text = '+' :: digits ∧
          digitsValue? radix bound digits 0 = some value := by
  unfold fromStrRadix? at isRead
  split at isRead
  · nomatch isRead
  · nomatch isRead
  · nomatch isRead
  · exact Or.inr ⟨_, rfl, isRead⟩
  · exact Or.inl isRead

/-- A digit is one of `0` to `9` or a letter. -/
theorem range_of_digitValue?
    {radix : Nat}
    {char : Char}
    (isDigit : (digitValue? radix char).isSome = true) :
    48 ≤ char.toNat ∧ char.toNat ≤ 102 := by
  have between :
      ∀ low high : Char,
        low ≤ char ∧ char ≤ high →
          low.toNat ≤ char.toNat ∧ char.toNat ≤ high.toNat :=
    fun low high within => within
  rw [digitValue?] at isDigit
  split at isDigit
  · rename_i within
    have bounds := between '0' '9' within
    simp only [show '0'.toNat = 48 from rfl, show '9'.toNat = 57 from rfl]
      at bounds
    omega
  · split at isDigit
    · rename_i within
      have bounds := between 'a' 'f' within
      simp only [show 'a'.toNat = 97 from rfl,
        show 'f'.toNat = 102 from rfl] at bounds
      omega
    · split at isDigit
      · rename_i within
        have bounds := between 'A' 'F' within
        simp only [show 'A'.toNat = 65 from rfl,
          show 'F'.toNat = 70 from rfl] at bounds
        omega
      · cases isDigit

/-- A digit is no blank. -/
theorem isWhitespace_of_digit
    {radix : Nat}
    {char : Char}
    (isDigit : (digitValue? radix char).isSome = true) :
    isWhitespace char = false := by
  have bounds := range_of_digitValue? isDigit
  simp only [isWhitespace, Bool.or_eq_false_iff, beq_eq_false_iff_ne,
    decide_eq_false_iff_not]
  omega

theorem digitValue?_digitChar :
    ∀ radix ≤ 16, ∀ digit < radix,
      digitValue? radix (Nat.digitChar digit) = some digit := by
  decide

section Digits

variable
  {radix : Nat}
  (large : 1 < radix)
  (small : radix ≤ 16)

include large small

/-- A number is written with digits only. -/
theorem isSome_digitValue?_toDigits (number : Nat) :
    ∀ char ∈ Nat.toDigits radix number,
      (digitValue? radix char).isSome = true := by
  have isDigit := digitValue?_digitChar radix small
  induction number using Nat.strongRecOn with
  | ind number inductionHypothesis =>
      intro char member
      by_cases one : number < radix
      · rw [Nat.toDigits_of_lt_base one, List.mem_singleton] at member
        rw [member, isDigit number one]
        rfl
      · rw [Nat.not_lt] at one
        rw [Nat.toDigits_of_base_le large one, List.mem_append,
          List.mem_singleton] at member
        rcases member with before | isLast
        · exact inductionHypothesis (number / radix)
            (Nat.div_lt_self (by omega) large) char before
        · rw [isLast, isDigit (number % radix) (Nat.mod_lt _ (by omega))]
          rfl

/-- The digits of a number have its value. -/
theorem foldDigits_toDigits (number : Nat) :
    foldDigits radix 0 (Nat.toDigits radix number) = number := by
  have isDigit := digitValue?_digitChar radix small
  induction number using Nat.strongRecOn with
  | ind number inductionHypothesis =>
      by_cases one : number < radix
      · rw [Nat.toDigits_of_lt_base one, foldDigits, List.foldl_cons,
          List.foldl_nil, isDigit number one]
        simp
      · rw [Nat.not_lt] at one
        have before := inductionHypothesis (number / radix)
          (Nat.div_lt_self (by omega) large)
        rw [foldDigits] at before
        rw [Nat.toDigits_of_base_le large one, foldDigits,
          List.foldl_append, before, List.foldl_cons, List.foldl_nil,
          isDigit (number % radix) (Nat.mod_lt _ (by omega)),
          Option.getD_some]
        exact Nat.div_add_mod' number radix

end Digits

/-- `parse::<u16>`. -/
def parseU16? (text : List Char) : Option Nat :=
  fromStrRadix? 10 (2 ^ 16) text

/-- A number of 16 bits is read back from its digits. -/
theorem parseU16?_toDigits_of_lt
    {number : Nat}
    (small : number < 2 ^ 16) :
    parseU16? (Nat.toDigits 10 number) = some number := by
  have isValue := @foldDigits_toDigits 10 (by decide) (by decide) number
  rw [parseU16?, fromStrRadix?_eq_some (by decide) Nat.toDigits_ne_nil
    (isSome_digitValue?_toDigits (by decide) (by decide) number)
    (by rw [isValue]; exact small), isValue]

/-- `parse::<usize>` on a 64-bit target. -/
def parseUsize? (text : List Char) : Option Nat :=
  fromStrRadix? 10 (2 ^ 64) text

/-! ### Decimal numbers -/

/-- A number in decimal digits. -/
structure Decimal (text : List Char) (value : Nat) : Prop where
  nonempty : text ≠ []
  digits : ∀ char ∈ text, (digitValue? 10 char).isSome = true
  isValue : foldDigits 10 0 text = value

section Decimals

variable
  {text : List Char}
  {value bound : Nat}

/-- Digits are not trimmed. -/
theorem Decimal.trim_eq (decimal : Decimal text value) : trim text = text := by
  have visible : ∀ char ∈ text, isWhitespace char = false :=
    fun char member => isWhitespace_of_digit (decimal.digits char member)
  have kept := @trim_append text [] decimal.nonempty visible
  rw [List.append_nil] at kept
  rw [kept]
  exact List.append_nil _

/-- Without a sign, what is read is a decimal number below the bound. -/
theorem fromStrRadix?_decimal_iff (positive : 0 < bound) :
    fromStrRadix? 10 bound text = some value ∧ text.head? ≠ some '+' ↔
      Decimal text value ∧ value < bound := by
  constructor
  · rintro ⟨isRead, noSign⟩
    rcases digits_of_fromStrRadix? isRead with isDigits | ⟨digits, isSign, -⟩
    · have isNonempty : text ≠ [] := by
        rintro rfl
        nomatch isRead
      exact ⟨⟨isNonempty, isSome_of_digitsValue? isDigits,
        (digitsValue?_eq_foldDigits isDigits).symm⟩,
        lt_of_digitsValue? positive isDigits⟩
    · rw [isSign] at noSign
      exact absurd rfl noSign
  · rintro ⟨decimal, small⟩
    constructor
    · rw [fromStrRadix?_eq_some (by decide) decimal.nonempty decimal.digits
        (by rw [decimal.isValue]; exact small), decimal.isValue]
    · intro isSign
      obtain ⟨digits, rfl⟩ := List.head?_eq_some_iff.mp isSign
      have isDigit := decimal.digits '+' List.mem_cons_self
      nomatch isDigit

/-- A decimal number is read if it is one of 64 bits. -/
theorem Decimal.parseUsize?_eq
    (decimal : Decimal text value)
    (small : value < 2 ^ 64) :
    parseUsize? (trim text) = some value := by
  rw [decimal.trim_eq, parseUsize?,
    fromStrRadix?_eq_some (by decide) decimal.nonempty decimal.digits
      (by rw [decimal.isValue]; exact small), decimal.isValue]

/-- What is read of a decimal number is its value. -/
theorem Decimal.eq_of_parseUsize?
    {found : Nat}
    (decimal : Decimal text value)
    (isFound : parseUsize? (trim text) = some found) :
    found = value := by
  rw [decimal.trim_eq] at isFound
  rw [fromStrRadix?_eq_foldDigits decimal.digits isFound, decimal.isValue]

end Decimals

/-- `usize::from_str_radix(text, 16)`. -/
def parseHex? (text : List Char) : Option Nat :=
  fromStrRadix? 16 (2 ^ 64) text

/-- Cut at the first `separator`, which belongs to neither part. -/
def splitOnce?
    (separator : Char) :
    List Char → Option (List Char × List Char)
  | [] =>
      none
  | char :: rest =>
      if char = separator then
        some ([], rest)
      else
        (splitOnce? separator rest).map fun parts =>
          (char :: parts.1, parts.2)

/-- The first separator is the one behind a part without any. -/
theorem splitOnce?_append
    {separator : Char}
    {part : List Char}
    (absent : separator ∉ part)
    (rest : List Char) :
    splitOnce? separator (part ++ separator :: rest) =
      some (part, rest) := by
  induction part with
  | nil =>
      rw [List.nil_append, splitOnce?, if_pos rfl]
  | cons char others inductionHypothesis =>
      rw [List.mem_cons, not_or] at absent
      rw [List.cons_append, splitOnce?, if_neg (Ne.symm absent.1),
        inductionHypothesis absent.2]
      rfl

theorem splitOnce?_eq_some_iff
    {separator : Char}
    {text front rest : List Char} :
    splitOnce? separator text = some (front, rest) ↔
      text = front ++ separator :: rest ∧ separator ∉ front := by
  constructor
  · intro isSplit
    induction text generalizing front with
    | nil =>
        nomatch isSplit
    | cons char others inductionHypothesis =>
        rw [splitOnce?] at isSplit
        split at isSplit
        · rename_i isSeparator
          cases isSplit
          exact ⟨by rw [isSeparator]; rfl, List.not_mem_nil⟩
        · rename_i differs
          obtain ⟨parts, isParts, same⟩ := Option.map_eq_some_iff.mp isSplit
          cases same
          obtain ⟨rfl, absent⟩ := inductionHypothesis isParts
          refine ⟨rfl, fun member => ?_⟩
          rcases List.mem_cons.mp member with isChar | inFront
          · exact differs isChar.symm
          · exact absent inFront
  · rintro ⟨rfl, absent⟩
    exact splitOnce?_append absent rest

theorem splitOnce?_eq_none_iff
    {separator : Char}
    {text : List Char} :
    splitOnce? separator text = none ↔ separator ∉ text := by
  constructor
  · intro notSplit member
    obtain ⟨front, rest, rfl, absent⟩ := List.eq_append_cons_of_mem member
    rw [splitOnce?_append absent rest] at notSplit
    nomatch notSplit
  · intro absent
    cases isSplit : splitOnce? separator text with
    | none =>
        rfl
    | some parts =>
        obtain ⟨rfl, -⟩ := splitOnce?_eq_some_iff.mp isSplit
        exact absurd (List.mem_append_right _ List.mem_cons_self) absent

/-- What `strip_prefix` leaves. -/
theorem dropPrefix?_eq_some_iff_append
    {text marker rest : List Char} :
    text.dropPrefix? marker = some rest ↔ text = marker ++ rest := by
  rw [List.dropPrefix?_eq_some_iff]
  constructor
  · rintro ⟨start, rfl, same⟩
    rw [beq_iff_eq.mp same]
  · rintro rfl
    exact ⟨marker, rfl, beq_self_eq_true marker⟩

/-- `{:x}`. -/
def toHex (number : Nat) : List Char :=
  Nat.toDigits 16 number

/--
`str::lines`: a line end is a newline, with a `\r` before it if there is one.
-/
def lines (text : List Char) : List (List Char) :=
  let parts := text.splitOn '\n'
  let ended := parts.dropLast.map fun line =>
    if line.getLast? = some '\r' then line.dropLast else line
  ended ++ parts.getLast?.toList.filter fun line => !line.isEmpty

/-! ## Bytes that may not be UTF-8 -/

/-- A character of which some bytes were read, and what its next byte may be. -/
structure BegunChar where
  value : Nat
  owed : Nat
  low : Nat
  high : Nat
  deriving Repr, DecidableEq

/-- `char::REPLACEMENT_CHARACTER`. -/
def replacementChar : Char :=
  Char.ofNat 0xfffd

/-- The character that the first of several bytes begins. -/
def beginChar? (byte : Nat) : Option BegunChar :=
  if 0xc2 ≤ byte ∧ byte ≤ 0xdf then
    some ⟨byte - 0xc0, 1, 0x80, 0xbf⟩
  else if byte = 0xe0 then
    some ⟨0, 2, 0xa0, 0xbf⟩
  else if byte = 0xed then
    some ⟨0xd, 2, 0x80, 0x9f⟩
  else if 0xe1 ≤ byte ∧ byte ≤ 0xef then
    some ⟨byte - 0xe0, 2, 0x80, 0xbf⟩
  else if byte = 0xf0 then
    some ⟨0, 3, 0x90, 0xbf⟩
  else if 0xf1 ≤ byte ∧ byte ≤ 0xf3 then
    some ⟨byte - 0xf0, 3, 0x80, 0xbf⟩
  else if byte = 0xf4 then
    some ⟨4, 3, 0x80, 0x8f⟩
  else
    none

/-- What a byte between two characters gives. -/
def firstByte (byte : Nat) : List Char × Option BegunChar :=
  if byte < 0x80 then
    ([Char.ofNat byte], none)
  else
    match beginChar? byte with
    | some begun =>
        ([], some begun)
    | none =>
        ([replacementChar], none)

/-- The loop of `from_utf8_lossy`. -/
def lossyLoop : Option BegunChar → List UInt8 → List Char
  | none, [] =>
      []
  | some _, [] =>
      [replacementChar]
  | none, byte :: rest =>
      let (chars, next) := firstByte byte.toNat
      chars ++ lossyLoop next rest
  | some begun, byte :: rest =>
      if begun.low ≤ byte.toNat ∧ byte.toNat ≤ begun.high then
        let value := begun.value * 64 + (byte.toNat - 0x80)
        if begun.owed ≤ 1 then
          Char.ofNat value :: lossyLoop none rest
        else
          lossyLoop (some ⟨value, begun.owed - 1, 0x80, 0xbf⟩) rest
      else
        -- One replacement for the bytes of the character that breaks off.
        let (chars, next) := firstByte byte.toNat
        replacementChar :: chars ++ lossyLoop next rest

/-- `String::from_utf8_lossy`. -/
def fromUtf8Lossy (bytes : List UInt8) : List Char :=
  lossyLoop none bytes

example : decodeUtf8 [72, 0xc3, 0xa9] = some ['H', 'é'] := by decide

example : parseU16? "+204".toList = some 204 := by decide

example : parseHex? "1aF".toList = some 0x1af := by decide

example :
    fromUtf8Lossy [72, 0xc3, 0xa9, 0xe4, 0xbd, 72, 0xff] =
      ['H', 'é', replacementChar, 'H', replacementChar] := by decide

end Sweety.HttpText
