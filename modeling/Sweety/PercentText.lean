import Mathlib.Data.List.GetD
import Sweety.AccessLog

namespace Sweety.PercentText

open HttpText

/-!
# Percent-encoded texts

Model of `urldecode` and `hex_val` in `admin_api/util.rs` and of `url_encode` in
`server/dns01.rs`.  The bytes of a text are encoded one by one.  `urldecode`
makes each byte that it decodes a character of its own, so what it returns is
the text only if no character of it takes more than one byte.
-/

/-! ## Decoding -/

/-- `hex_val`. -/
def hexVal (byte : UInt8) : Nat :=
  let code := byte.toNat
  if 48 ≤ code ∧ code ≤ 57 then
    code - 48
  else if 97 ≤ code ∧ code ≤ 102 then
    code - 97 + 10
  else if 65 ≤ code ∧ code ≤ 70 then
    code - 65 + 10
  else
    0

/-- `byte as char`. -/
def byteChar (byte : UInt8) : Char :=
  Char.ofNat byte.toNat

/-- What is pushed for two digits. -/
def escapedChar (hi lo : UInt8) : Char :=
  Char.ofNat (hexVal hi * 16 + hexVal lo)

/-- What is pushed for a byte other than `%`. -/
def plainChar (byte : UInt8) : Char :=
  if byte = 43 then ' ' else byteChar byte

/-- The loop of `urldecode`; missing digits are read as `0`. -/
def decodeBytes : List UInt8 → List Char
  | [] =>
      []
  | [byte] =>
      if byte = 37 then [escapedChar 48 48] else [plainChar byte]
  | [byte, next] =>
      if byte = 37 then
        [escapedChar next 48]
      else
        plainChar byte :: decodeBytes [next]
  | byte :: hi :: lo :: rest =>
      if byte = 37 then
        escapedChar hi lo :: decodeBytes rest
      else
        plainChar byte :: decodeBytes (hi :: lo :: rest)

/-- `urldecode`. -/
def urldecode (text : List Char) : List Char :=
  decodeBytes (encodeUtf8 text)

/-! ## Encoding -/

/-- The bytes that `url_encode` leaves as they are. -/
def isUnreserved (byte : UInt8) : Bool :=
  let code := byte.toNat
  (65 ≤ code && code ≤ 90) || (97 ≤ code && code ≤ 122) ||
    (48 ≤ code && code ≤ 57) || code == 45 || code == 95 || code == 46 ||
    code == 126

/-- The digits of `{:X}`. -/
def upperDigits : List Char :=
  "0123456789ABCDEF".toList

/-- The digits of `{:x}`. -/
def lowerDigits : List Char :=
  "0123456789abcdef".toList

/-- What `url_encode` writes for a byte. -/
def encodeByte (byte : UInt8) : List Char :=
  if isUnreserved byte then
    [byteChar byte]
  else
    ['%', upperDigits.getD (byte.toNat / 16) '0',
      upperDigits.getD (byte.toNat % 16) '0']

/-- `url_encode`. -/
def urlEncode (text : List Char) : List Char :=
  (encodeUtf8 text).flatMap encodeByte

/-- A digit in either case. -/
def Spells (char : Char) (value : Nat) : Prop :=
  upperDigits[value]? = some char ∨ lowerDigits[value]? = some char

/-- The bytes are encoded as `url_encode` does, in any case of the digits. -/
inductive Encodes : List UInt8 → List Char → Prop where
  | nil :
      Encodes [] []
  | plain
      {byte : UInt8}
      {bytes : List UInt8}
      {encoded : List Char}
      (unreserved : isUnreserved byte = true)
      (rest : Encodes bytes encoded) :
      Encodes (byte :: bytes) (byteChar byte :: encoded)
  | escaped
      {byte : UInt8}
      {bytes : List UInt8}
      {hi lo : Char}
      {encoded : List Char}
      (reserved : isUnreserved byte = false)
      (spellsHi : Spells hi (byte.toNat / 16))
      (spellsLo : Spells lo (byte.toNat % 16))
      (rest : Encodes bytes encoded) :
      Encodes (byte :: bytes) ('%' :: hi :: lo :: encoded)

/-! ## Digits -/

section Digits

variable {char : Char} {value : Nat}

/-- `hex_val` reads the digits of both cases. -/
theorem hexVal_digits :
    ∀ value < 16,
      (hexVal (UInt8.ofNat (upperDigits.getD value '0').toNat) = value ∧
        (upperDigits.getD value '0').toNat < 128) ∧
      hexVal (UInt8.ofNat (lowerDigits.getD value '0').toNat) = value ∧
        (lowerDigits.getD value '0').toNat < 128 := by
  decide

theorem Spells.hexVal
    (spells : Spells char value) :
    PercentText.hexVal (UInt8.ofNat char.toNat) = value ∧
      char.toNat < 128 := by
  rcases spells with isDigit | isDigit
  · obtain ⟨within, rfl⟩ := List.getElem?_eq_some_iff.mp isDigit
    have reads := (hexVal_digits value within).1
    rwa [List.getD_eq_getElem _ _ within] at reads
  · obtain ⟨within, rfl⟩ := List.getElem?_eq_some_iff.mp isDigit
    have reads := (hexVal_digits value within).2
    rwa [List.getD_eq_getElem _ _ within] at reads

/-- `url_encode` writes capital digits. -/
theorem spells_upper (small : value < 16) :
    Spells (upperDigits.getD value '0') value := by
  left
  have within : value < upperDigits.length := small
  rw [List.getD_eq_getElem _ _ within]
  exact List.getElem?_eq_getElem within

/-- Both digits of a byte make the byte again. -/
theorem escapedChar_of_spells
    {byte : UInt8}
    {hi lo : Char}
    (spellsHi : Spells hi (byte.toNat / 16))
    (spellsLo : Spells lo (byte.toNat % 16)) :
    escapedChar (UInt8.ofNat hi.toNat) (UInt8.ofNat lo.toNat) =
      byteChar byte := by
  rw [escapedChar, byteChar, spellsHi.hexVal.1, spellsLo.hexVal.1,
    Nat.mul_comm, Nat.div_add_mod]

end Digits

/-! ## What is decoded of an encoded text -/

section Decoding

variable
  {byte : UInt8}
  {bytes : List UInt8}
  {text encoded : List Char}

theorem decodeBytes_escape (hi lo : UInt8) (rest : List UInt8) :
    decodeBytes (37 :: hi :: lo :: rest) =
      escapedChar hi lo :: decodeBytes rest :=
  if_pos rfl

theorem decodeBytes_cons
    (notPercent : byte ≠ 37)
    (rest : List UInt8) :
    decodeBytes (byte :: rest) = plainChar byte :: decodeBytes rest := by
  match rest with
  | [] | [_] | _ :: _ :: _ =>
      exact if_neg notPercent

theorem isUnreserved_iff :
    isUnreserved byte = true ↔
      (65 ≤ byte.toNat ∧ byte.toNat ≤ 90 ∨
        97 ≤ byte.toNat ∧ byte.toNat ≤ 122 ∨
        48 ≤ byte.toNat ∧ byte.toNat ≤ 57 ∨
        byte.toNat = 45 ∨ byte.toNat = 95 ∨ byte.toNat = 46 ∨
        byte.toNat = 126) := by
  simp only [isUnreserved, Bool.or_eq_true, Bool.and_eq_true,
    decide_eq_true_eq, beq_iff_eq, or_assoc]

/-- An unreserved byte is a character of ASCII, and no sign of the encoding. -/
theorem plain_of_isUnreserved (unreserved : isUnreserved byte = true) :
    byte.toNat < 128 ∧ byte ≠ 37 ∧ byte ≠ 43 := by
  rw [isUnreserved_iff] at unreserved
  have notPercent : byte.toNat ≠ 37 := by omega
  have notPlus : byte.toNat ≠ 43 := by omega
  refine ⟨by omega, ?_, ?_⟩
  · rintro rfl
    exact notPercent rfl
  · rintro rfl
    exact notPlus rfl

theorem encodeUtf8_cons_ascii
    {char : Char}
    (isAscii : char.toNat < 128) :
    encodeUtf8 (char :: text) =
      UInt8.ofNat char.toNat :: encodeUtf8 text := by
  rw [encodeUtf8, List.flatMap_cons, AccessLog.utf8EncodeChar_ascii isAscii]
  rfl

/-- `urldecode` makes a character of each byte, by induction on the bytes. -/
theorem Encodes.urldecode_eq (encodes : Encodes bytes encoded) :
    urldecode encoded = bytes.map byteChar := by
  rw [urldecode]
  induction encodes with
  | nil =>
      rfl
  | @plain byte bytes encoded unreserved rest inductionHypothesis =>
      obtain ⟨isAscii, notPercent, notPlus⟩ := plain_of_isUnreserved unreserved
      have isByte : (byteChar byte).toNat = byte.toNat :=
        AccessLog.toNat_ofNat_byte byte
      rw [encodeUtf8_cons_ascii (isByte ▸ isAscii), isByte,
        UInt8.ofNat_toNat, decodeBytes_cons notPercent, plainChar,
        if_neg notPlus, inductionHypothesis, List.map_cons]
  | escaped reserved spellsHi spellsLo rest inductionHypothesis =>
      rw [encodeUtf8_cons_ascii (by decide),
        encodeUtf8_cons_ascii spellsHi.hexVal.2,
        encodeUtf8_cons_ascii spellsLo.hexVal.2]
      change decodeBytes (37 :: _) = _
      rw [decodeBytes_escape, escapedChar_of_spells spellsHi spellsLo,
        inductionHypothesis, List.map_cons]

/-- `url_encode` encodes. -/
theorem encodes_urlEncode (text : List Char) :
    Encodes (encodeUtf8 text) (urlEncode text) := by
  rw [urlEncode]
  generalize encodeUtf8 text = bytes
  induction bytes with
  | nil =>
      exact .nil
  | cons byte rest inductionHypothesis =>
      rw [List.flatMap_cons, encodeByte]
      cases isPlain : isUnreserved byte with
      | true =>
          exact .plain isPlain inductionHypothesis
      | false =>
          have small := byte.toNat_lt
          exact .escaped isPlain (spells_upper (by omega))
            (spells_upper (by omega)) inductionHypothesis

/-- All characters are of ASCII. -/
def IsAscii (text : List Char) : Prop :=
  ∀ char ∈ text, char.toNat < 128

/-- Only a text of ASCII has as many bytes as characters. -/
theorem length_encodeUtf8 (text : List Char) :
    text.length ≤ (encodeUtf8 text).length ∧
      ((encodeUtf8 text).length = text.length → IsAscii text) := by
  induction text with
  | nil =>
      exact ⟨Nat.le_refl _, fun _ _ member => absurd member List.not_mem_nil⟩
  | cons char rest inductionHypothesis =>
      obtain ⟨isLonger, whenSame⟩ := inductionHypothesis
      have positive := char.utf8Size_pos
      rw [encodeUtf8, List.flatMap_cons, List.length_append,
        String.length_utf8EncodeChar, List.length_cons]
      change _ ≤ _ + (encodeUtf8 rest).length ∧
        (_ + (encodeUtf8 rest).length = _ → _)
      refine ⟨by omega, fun same => ?_⟩
      have isOne : char.utf8Size = 1 := by omega
      rw [IsAscii, List.forall_mem_cons]
      refine ⟨?_, whenSame (by omega)⟩
      exact Nat.lt_succ_of_le (Char.utf8Size_eq_one_iff.mp isOne)

/-- The characters of the bytes are the text exactly for a text of ASCII. -/
theorem map_byteChar_encodeUtf8_iff :
    (encodeUtf8 text).map byteChar = text ↔ IsAscii text := by
  constructor
  · intro same
    apply (length_encodeUtf8 text).2
    have sameLength := congrArg List.length same
    rw [List.length_map] at sameLength
    exact sameLength
  · intro isAscii
    induction text with
    | nil =>
        rfl
    | cons char rest inductionHypothesis =>
        rw [IsAscii, List.forall_mem_cons] at isAscii
        rw [encodeUtf8_cons_ascii isAscii.1, List.map_cons,
          inductionHypothesis isAscii.2, byteChar]
        congr 1
        rw [UInt8.toNat_ofNat', Nat.mod_eq_of_lt (by omega),
          Char.ofNat_toNat]

/-- An encoded text is decoded to itself exactly if it is one of ASCII. -/
theorem urldecode_eq_iff (encodes : Encodes (encodeUtf8 text) encoded) :
    urldecode encoded = text ↔ IsAscii text := by
  rw [encodes.urldecode_eq, map_byteChar_encodeUtf8_iff]

end Decoding

end Sweety.PercentText
