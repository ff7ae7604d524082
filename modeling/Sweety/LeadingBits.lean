import Mathlib.Algebra.GroupWithZero.Nat
import Mathlib.Data.List.GetD
import Mathlib.Data.List.Induction
import Mathlib.Tactic.Common

namespace Sweety

/-!
# Leading bits and masks

The number that a list of bytes stands for, most significant byte first, has the
bits of the bytes in their order.  Two numbers are equal under the mask that
keeps a number of leading bits exactly when these bits are equal.
-/

namespace LeadingBits

/-- The number of a list of bytes, the most significant first. -/
def bigEndian (bytes : List UInt8) : Nat :=
  bytes.foldl (fun total byte => total * 2 ^ 8 + byte.toNat) 0

/-- A bit of a list of bytes, counted from the most significant one. -/
def bit (bytes : List UInt8) (index : Nat) : Bool :=
  (bytes.getD (index / 8) 0).toNat.testBit (7 - index % 8)

/-- The first bits are the same. -/
def SharesPrefix (length : Nat) (first second : List UInt8) : Prop :=
  ∀ index < length, bit first index = bit second index

instance
    (length : Nat)
    (first second : List UInt8) :
    Decidable (SharesPrefix length first second) :=
  inferInstanceAs (Decidable (∀ _ < _, _))

/-- The mask that keeps so many leading bits of a number with `bits` bits. -/
def mask (bits length : Nat) : Nat :=
  (2 ^ bits - 1) <<< (bits - length) % 2 ^ bits

theorem testBit_mask (bits length index : Nat) :
    (mask bits length).testBit index =
      decide (bits - length ≤ index ∧ index < bits) := by
  rw [mask, Nat.testBit_mod_two_pow, Nat.testBit_shiftLeft,
    Nat.testBit_two_pow_sub_one]
  by_cases inBits : index < bits
  · have below : index - (bits - length) < bits := by
      omega
    simp [inBits, below]
  · simp [inBits]

theorem bigEndian_append (bytes : List UInt8) (byte : UInt8) :
    bigEndian (bytes ++ [byte]) = bigEndian bytes * 2 ^ 8 + byte.toNat := by
  rw [bigEndian, List.foldl_append]
  rfl

/-- The bits of the number are the bits of the bytes. -/
theorem testBit_bigEndian
    {bytes : List UInt8}
    {index : Nat}
    (inBounds : index < 8 * bytes.length) :
    (bigEndian bytes).testBit (8 * bytes.length - 1 - index) =
      bit bytes index := by
  induction bytes using List.reverseRecOn with
  | nil =>
      exact absurd inBounds (by simp)
  | append_singleton bytes byte inductionHypothesis =>
      have inByte : byte.toNat < 2 ^ 8 := byte.toNat_lt
      rw [List.length_append, List.length_singleton] at inBounds ⊢
      rw [bigEndian_append, Nat.mul_comm, Nat.testBit_two_pow_mul_add _ inByte]
      by_cases earlier : index < 8 * bytes.length
      · have isByte : index / 8 < bytes.length := by
          omega
        have sameBit : bit (bytes ++ [byte]) index = bit bytes index := by
          rw [bit, bit, List.getD_append _ _ _ _ isByte]
        rw [if_neg (by omega), sameBit, ← inductionHypothesis earlier]
        congr 1
        omega
      · -- The bit is one of the last byte.
        have isByte : index / 8 = bytes.length := by
          omega
        rw [if_pos (by omega), bit, isByte,
          List.getD_append_right _ _ _ _ (Nat.le_refl _), Nat.sub_self,
          List.getD_cons_zero]
        congr 1
        omega

/-- Numbers are equal under a mask if they have the same leading bits. -/
theorem and_mask_eq_iff
    {bits length first second : Nat}
    (within : length ≤ bits) :
    first &&& mask bits length = second &&& mask bits length ↔
      ∀ index < length,
        first.testBit (bits - 1 - index) =
          second.testBit (bits - 1 - index) := by
  constructor
  · intro same index inPrefix
    have sameBit :=
      congrArg (fun number => number.testBit (bits - 1 - index)) same
    have kept : bits - length ≤ bits - 1 - index ∧ bits - 1 - index < bits := by
      omega
    simpa only [Nat.testBit_and, testBit_mask, kept, and_self, decide_true,
      Bool.and_true] using sameBit
  · intro same
    apply Nat.eq_of_testBit_eq
    intro index
    rw [Nat.testBit_and, Nat.testBit_and, testBit_mask]
    by_cases kept : bits - length ≤ index ∧ index < bits
    · have sameBit := same (bits - 1 - index) (by omega)
      have isIndex : bits - 1 - (bits - 1 - index) = index := by
        omega
      rw [isIndex] at sameBit
      rw [sameBit]
    · rw [decide_eq_false kept, Bool.and_false, Bool.and_false]

/-- The comparison under a mask is the comparison of the leading bits. -/
theorem bigEndian_and_mask_eq_iff
    {first second : List UInt8}
    {length : Nat}
    (sameLength : first.length = second.length)
    (within : length ≤ 8 * first.length) :
    bigEndian first &&& mask (8 * first.length) length =
        bigEndian second &&& mask (8 * first.length) length ↔
      SharesPrefix length first second := by
  rw [and_mask_eq_iff within]
  constructor
  · intro same index inPrefix
    have sameBit := same index inPrefix
    rw [testBit_bigEndian (by omega), sameLength,
      testBit_bigEndian (by omega)] at sameBit
    exact sameBit
  · intro shares index inPrefix
    rw [testBit_bigEndian (by omega), sameLength,
      testBit_bigEndian (by omega)]
    exact shares index inPrefix

/-- All bits are shared by equal lists only. -/
theorem sharesPrefix_all_iff
    {first second : List UInt8}
    (sameLength : first.length = second.length) :
    SharesPrefix (8 * first.length) first second ↔ first = second := by
  constructor
  · intro shares
    apply List.ext_getElem sameLength
    intro place inFirst inSecond
    apply UInt8.toNat_inj.mp
    apply Nat.eq_of_testBit_eq
    intro index
    by_cases inByte : index < 8
    · have sameBit := shares (8 * place + (7 - index)) (by omega)
      have isPlace : (8 * place + (7 - index)) / 8 = place := by
        omega
      have isIndex : 7 - (8 * place + (7 - index)) % 8 = index := by
        omega
      rw [bit, bit, isPlace, isIndex, List.getD_eq_getElem _ _ inFirst,
        List.getD_eq_getElem _ _ inSecond] at sameBit
      exact sameBit
    · have outside (byte : UInt8) : byte.toNat.testBit index = false := by
        apply Nat.testBit_lt_two_pow
        calc
          byte.toNat < 2 ^ 8 := byte.toNat_lt
          _ ≤ 2 ^ index := Nat.pow_le_pow_right (by decide) (by omega)
      rw [outside, outside]
  · rintro rfl index inPrefix
    rfl

/-- A prefix within the first bytes is one of these bytes. -/
theorem sharesPrefix_take_iff
    {first second : List UInt8}
    {length count : Nat}
    (within : length ≤ 8 * count) :
    SharesPrefix length (first.take count) (second.take count) ↔
      SharesPrefix length first second := by
  have bit_take :
      ∀ (bytes : List UInt8) (index : Nat), index < length →
        bit (bytes.take count) index = bit bytes index := by
    intro bytes index inPrefix
    have inTake : index / 8 < count := by
      omega
    rw [bit, bit, List.getD_eq_getElem?_getD, List.getD_eq_getElem?_getD,
      List.getElem?_take_of_lt inTake]
  constructor
  · intro shares index inPrefix
    rw [← bit_take first index inPrefix, ← bit_take second index inPrefix]
    exact shares index inPrefix
  · intro shares index inPrefix
    rw [bit_take first index inPrefix, bit_take second index inPrefix]
    exact shares index inPrefix

end LeadingBits

end Sweety
