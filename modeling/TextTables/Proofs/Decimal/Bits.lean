import Mathlib
import TextTables.Decimal.Written
/-!
# The bits of a float

A float is given by its bits, and all values that are not numbers have the same ones. The bits of a
finite value hold the mantissa and the exponent that `Binary.ofBits` reads from them.
-/

open Float.Model (Format)
open Float.Model.UnpackedFloat

namespace TextTables.Decimal

/-! ## What is not a number -/

section Fields
variable (b : BitVec 64)

theorem toNat_unpackMantissa : (@unpackMantissa Format.binary64 b).toNat = b.toNat % 2 ^ 52 := by
  simp [unpackMantissa_def]

theorem toNat_unpackExponent :
    (@unpackExponent Format.binary64 b).toNat = b.toNat / 2 ^ 52 % 2 ^ 11 := by
  simp [unpackExponent_def, Nat.shiftRight_eq_div_pow]

end Fields

/-- Bits above those of infinity are those of the one value that is not a number. -/
theorem eq_notANumber {x : Float} (h : infinityBits < x.toBits.toNat % pow2 63) : x = notANumber := by
  obtain ⟨⟨⟨b⟩, hv⟩⟩ := x
  have h63 : pow2 63 = 9223372036854775808 := rfl
  have h : 0x7FF0000000000000 < b.toNat % 9223372036854775808 := h63 ▸ h
  have hexponent := toNat_unpackExponent b
  have hmantissa := toNat_unpackMantissa b
  have hb : b = _ := hv.eq_packedNaN (BitVec.eq_of_toNat_eq (hexponent.trans (by
      change _ = 2047
      omega))) fun hm => by
    have hm := congrArg BitVec.toNat hm
    have hm : b.toNat % 2 ^ 52 = 0 := hmantissa.symm.trans hm
    omega
  subst hb
  rfl

/-! ## Magnitudes -/

/-- The binary values that bits of finite values stand for. -/
structure Binary.Canonical (x : Binary) : Prop where
  least : -1074 ≤ x.exponent
  greatest : x.exponent ≤ 971
  mantissa : x.mantissa < 2 ^ 53
  normal : x.exponent = -1074 ∨ 2 ^ 52 ≤ x.mantissa

/-- The bits of a binary value, the sign aside. -/
def Binary.bits (x : Binary) : Nat := (x.exponent + 1074).toNat * pow2 52 + x.mantissa

theorem Binary.Canonical.bits_le {x : Binary} (hx : x.Canonical) : x.bits ≤ infinityBits := by
  have hgreatest := hx.greatest
  have hmantissa := hx.mantissa
  have h52 : pow2 52 = 4503599627370496 := rfl
  simp only [Binary.bits, infinityBits, h52]
  omega

section Magnitudes
variable {bits : UInt64}

theorem Binary.canonical_ofBits (h : bits.toNat % pow2 63 < infinityBits) :
    (Binary.ofBits bits).Canonical := by
  have h52 : pow2 52 = 4503599627370496 := rfl
  have h11 : pow2 11 = 2048 := rfl
  have h63 : pow2 63 = 9223372036854775808 := rfl
  rw [h63, infinityBits] at h
  simp only [Binary.ofBits, h52, h11]
  split <;> constructor <;> dsimp only <;> omega

theorem Binary.bits_ofBits : (Binary.ofBits bits).bits = bits.toNat % pow2 63 := by
  have h52 : pow2 52 = 4503599627370496 := rfl
  have h11 : pow2 11 = 2048 := rfl
  have h63 : pow2 63 = 9223372036854775808 := rfl
  simp only [Binary.bits, Binary.ofBits, h52, h11, h63]
  split <;> dsimp only <;> omega

theorem Binary.mantissa_ofBits_ne_zero (h : bits.toNat % pow2 63 ≠ 0) :
    (Binary.ofBits bits).mantissa ≠ 0 := by
  have h52 : pow2 52 = 4503599627370496 := rfl
  have h11 : pow2 11 = 2048 := rfl
  have h63 : pow2 63 = 9223372036854775808 := rfl
  rw [h63] at h
  simp only [Binary.ofBits, h52, h11]
  split <;> dsimp only <;> omega

/-- The magnitude and the sign of bits give the bits. -/
theorem exists_sign (bits : UInt64) : ∃ negative : Bool,
    (if bits.toNat < pow2 63 then "" else "-") = (if negative then "-" else "") ∧
      UInt64.ofNat (bits.toNat % pow2 63 + if negative then pow2 63 else 0) = bits := by
  have h63 : pow2 63 = 9223372036854775808 := rfl
  have hlt := bits.toNat_lt
  rw [h63]
  by_cases h : bits.toNat < 9223372036854775808
  · refine ⟨false, by rw [if_pos h]; rfl, ?_⟩
    rw [if_neg Bool.false_ne_true, Nat.add_zero, Nat.mod_eq_of_lt h, UInt64.ofNat_toNat]
  · refine ⟨true, by rw [if_neg h]; rfl, ?_⟩
    have hsum : bits.toNat % 9223372036854775808 + 9223372036854775808 = bits.toNat := by omega
    rw [if_pos rfl, hsum, UInt64.ofNat_toNat]

end Magnitudes

end TextTables.Decimal
