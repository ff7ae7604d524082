import Mathlib.Tactic.Common

namespace Sweety

/-!
# Base64 of cached bodies

Model of `base64_encode` and `base64_decode` in `middleware/proxy_cache.rs`.
The bits of a group do not overlap, so the shifts and `|` of the source are
written as arithmetic.
-/

/-- `CHARS`. -/
def base64Chars : List UInt8 :=
  "ABCDEFGHIJKLMNOPQRSTUVWXYZabcdefghijklmnopqrstuvwxyz0123456789+/".toList.map
    fun char => UInt8.ofNat char.toNat

/-- `CHARS[digit]`. -/
def encodeDigit (digit : Nat) : UInt8 :=
  base64Chars.getD digit 0

/-- The byte of `=`. -/
def base64Pad : UInt8 := 61

/-- `base64_encode`. -/
def base64Encode : List UInt8 → List UInt8
  | [] =>
      []
  | [first] =>
      [encodeDigit (first.toNat / 4),
        encodeDigit (first.toNat % 4 * 16),
        base64Pad, base64Pad]
  | [first, second] =>
      [encodeDigit (first.toNat / 4),
        encodeDigit (first.toNat % 4 * 16 + second.toNat / 16),
        encodeDigit (second.toNat % 16 * 4), base64Pad]
  | first :: second :: third :: rest =>
      encodeDigit (first.toNat / 4) ::
        encodeDigit (first.toNat % 4 * 16 + second.toNat / 16) ::
        encodeDigit (second.toNat % 16 * 4 + third.toNat / 64) ::
        encodeDigit (third.toNat % 64) :: base64Encode rest

/-- `decode_char`. -/
def decodeChar (char : UInt8) : Option Nat :=
  let code := char.toNat
  if 65 ≤ code ∧ code ≤ 90 then
    some (code - 65)
  else if 97 ≤ code ∧ code ≤ 122 then
    some (code - 97 + 26)
  else if 48 ≤ code ∧ code ≤ 57 then
    some (code - 48 + 52)
  else if code = 43 then
    some 62
  else if code = 47 then
    some 63
  else if code = 61 then
    some 0
  else
    none

/-- One group of `base64_decode`. -/
def decodeGroup (first second third fourth : UInt8) : List UInt8 :=
  let digit := fun char => (decodeChar char).getD 0
  UInt8.ofNat (digit first * 4 + digit second / 16) ::
    ((if third ≠ base64Pad then
        [UInt8.ofNat (digit second * 16 + digit third / 4)]
      else
        []) ++
      if fourth ≠ base64Pad then
        [UInt8.ofNat (digit third * 64 + digit fourth)]
      else
        [])

/-- `base64_decode`; a last group of less than four is dropped. -/
def base64Decode : List UInt8 → List UInt8
  | first :: second :: third :: fourth :: rest =>
      decodeGroup first second third fourth ++ base64Decode rest
  | _ =>
      []

theorem decodeChar_encodeDigit :
    ∀ digit < 64,
      decodeChar (encodeDigit digit) = some digit ∧
        encodeDigit digit ≠ base64Pad := by
  decide +kernel

@[simp]
theorem getD_decodeChar_encodeDigit {digit : Nat} (small : digit < 64) :
    (decodeChar (encodeDigit digit)).getD 0 = digit := by
  rw [(decodeChar_encodeDigit digit small).1, Option.getD_some]

theorem encodeDigit_ne_pad {digit : Nat} (small : digit < 64) :
    encodeDigit digit ≠ base64Pad :=
  (decodeChar_encodeDigit digit small).2

theorem ofNat_eq_of_mod
    {number : Nat}
    {byte : UInt8}
    (same : number % 256 = byte.toNat) :
    UInt8.ofNat number = byte := by
  apply UInt8.toNat_inj.mp
  rw [UInt8.toNat_ofNat']
  exact same

/-- A whole group is decoded to its three bytes. -/
theorem decodeGroup_three (first second third : UInt8) :
    decodeGroup
        (encodeDigit (first.toNat / 4))
        (encodeDigit (first.toNat % 4 * 16 + second.toNat / 16))
        (encodeDigit (second.toNat % 16 * 4 + third.toNat / 64))
        (encodeDigit (third.toNat % 64)) =
      [first, second, third] := by
  have firstSmall := first.toNat_lt
  have secondSmall := second.toNat_lt
  have thirdSmall := third.toNat_lt
  have digit0 : first.toNat / 4 < 64 := by omega
  have digit1 : first.toNat % 4 * 16 + second.toNat / 16 < 64 := by omega
  have digit2 : second.toNat % 16 * 4 + third.toNat / 64 < 64 := by omega
  have digit3 : third.toNat % 64 < 64 := by omega
  simp only [decodeGroup, getD_decodeChar_encodeDigit digit0,
    getD_decodeChar_encodeDigit digit1, getD_decodeChar_encodeDigit digit2,
    getD_decodeChar_encodeDigit digit3, encodeDigit_ne_pad digit2,
    encodeDigit_ne_pad digit3, ne_eq, not_false_eq_true, if_true,
    List.singleton_append]
  congr 1
  · exact ofNat_eq_of_mod (by omega)
  · congr 1
    · exact ofNat_eq_of_mod (by omega)
    · congr 1
      exact ofNat_eq_of_mod (by omega)

/-- Decoding gives back what was encoded. -/
theorem base64Decode_base64Encode (bytes : List UInt8) :
    base64Decode (base64Encode bytes) = bytes := by
  induction bytes using base64Encode.induct with
  | case1 =>
      rfl
  | case2 first =>
      have firstSmall := first.toNat_lt
      have digit0 : first.toNat / 4 < 64 := by omega
      have digit1 : first.toNat % 4 * 16 < 64 := by omega
      simp only [base64Encode, base64Decode, decodeGroup,
        getD_decodeChar_encodeDigit digit0,
        getD_decodeChar_encodeDigit digit1, ne_eq, not_true_eq_false,
        if_false, List.append_nil]
      congr 1
      exact ofNat_eq_of_mod (by omega)
  | case3 first second =>
      have firstSmall := first.toNat_lt
      have secondSmall := second.toNat_lt
      have digit0 : first.toNat / 4 < 64 := by omega
      have digit1 : first.toNat % 4 * 16 + second.toNat / 16 < 64 := by
        omega
      have digit2 : second.toNat % 16 * 4 < 64 := by omega
      simp only [base64Encode, base64Decode, decodeGroup,
        getD_decodeChar_encodeDigit digit0,
        getD_decodeChar_encodeDigit digit1,
        getD_decodeChar_encodeDigit digit2, encodeDigit_ne_pad digit2,
        ne_eq, not_true_eq_false, not_false_eq_true, if_true, if_false,
        List.append_nil]
      congr 1
      · exact ofNat_eq_of_mod (by omega)
      · congr 1
        exact ofNat_eq_of_mod (by omega)
  | case4 first second third rest inductionHypothesis =>
      rw [base64Encode, base64Decode, decodeGroup_three,
        inductionHypothesis]
      rfl

end Sweety
