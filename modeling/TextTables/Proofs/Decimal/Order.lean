import Mathlib.Order.Compare
import TextTables.Proofs.Decimal.Rounding
import TextTables.Value
/-!
# The order of floats

The bits of floats that are numbers grow with them, the sign aside, so such floats are ordered as their signed
bits are (`floatOrder?_eq`). One that is not a number has no order to any other. Rounding keeps the order of
integers (`rank_ofInt_mono`).
-/

open Float.Model (Format UnpackedFloat)
open Float.Model.UnpackedFloat

namespace TextTables.Decimal

/-! ## Ranks -/

/-- The bits of a float without its sign. -/
def magnitude (x : Float) : Nat := x.toBits.toNat % pow2 63

/-- Infinities are numbers too: only bits above theirs are not. -/
def IsNumber (x : Float) : Prop := magnitude x ≤ infinityBits

instance (x : Float) : Decidable (IsNumber x) := inferInstanceAs (Decidable (_ ≤ _))

/-- The place of a number among all floats: its bits, negative below zero. Both zeros have the same. -/
def rank (x : Float) : ℤ := if x.toBits.toNat < pow2 63 then magnitude x else -magnitude x

/-! ## Bits -/

/-- The bits without the sign are those of the exponent in front of those of the fraction. -/
theorem toNat_mod_eq (bits : UInt64) : bits.toNat % pow2 63 =
    (@unpackExponent Format.binary64 bits.toBitVec).toNat * 2 ^ 52 +
      (@unpackMantissa Format.binary64 bits.toBitVec).toNat := by
  have h63 : pow2 63 = 9223372036854775808 := rfl
  rw [toNat_unpackExponent, toNat_unpackMantissa, h63]
  change bits.toNat % _ = bits.toNat / _ % _ * _ + bits.toNat % _
  omega

theorem sign_apply_magnitude (x : Float) :
    (Sign.ofBitVec (@unpackSign Format.binary64 x.toBits.toBitVec)).apply (magnitude x) = rank x := by
  have h63 : pow2 63 = 9223372036854775808 := rfl
  have hsign : (@unpackSign Format.binary64 x.toBits.toBitVec).toNat = x.toBits.toNat / 2 ^ 63 % 2 := by
    simp [unpackSign, Nat.shiftRight_eq_div_pow]
  have hbits := x.toBits.toNat_lt
  rw [rank, h63, Sign.ofBitVec]
  have hzero : @unpackSign Format.binary64 x.toBits.toBitVec = 0#1 ↔ x.toBits.toNat < 9223372036854775808 := by
    rw [← BitVec.toNat_inj, hsign, BitVec.toNat_zero]
    omega
  by_cases h : x.toBits.toNat < 9223372036854775808
  · rw [if_pos (hzero.2 h), if_pos h]
    rfl
  · rw [if_neg (mt hzero.1 h), if_neg h]
    rfl

/-- The bit that floats leave out stands in front of the fraction. -/
theorem toNat_one_append (fraction : BitVec 52) : (1#1 ++ fraction).toNat = 2 ^ 52 + fraction.toNat := by
  rw [BitVec.toNat_append, ← Nat.shiftLeft_add_eq_or_of_lt fraction.isLt]
  rfl

/-! ## Unpacked numbers -/

/-- The numbers that floats are unpacked to, with their ranks. -/
inductive Ranked : UnpackedFloat → ℤ → Prop
  | infinity (sign : Sign) : Ranked (.infinity sign) (sign.apply infinityBits)
  | zero (sign : Sign) : Ranked (.zero sign) 0
  | finite (sign : Sign) {x : Binary} (h : 0 < x.mantissa) : x.Canonical → x.bits < infinityBits →
      Ranked (.finite sign x.mantissa x.exponent h) (sign.apply x.bits)

theorem Ranked.subnormal {sign : Sign} {fraction : Nat} {e : ℤ} (h : 0 < fraction) (he : e = -1074)
    (hlt : fraction < 2 ^ 52) : Ranked (.finite sign fraction e h) (sign.apply fraction) := by
  have hbits : fraction = Binary.bits ⟨fraction, -1074⟩ := by simp [Binary.bits]
  subst he
  nth_rewrite 2 [hbits]
  refine .finite sign (x := ⟨fraction, -1074⟩) h ⟨?_, ?_, ?_, .inl rfl⟩ ?_
  all_goals simp only [← hbits, infinityBits]
  all_goals omega

theorem Ranked.normal {sign : Sign} {exponent fraction m : Nat} {e : ℤ} (h : 0 < m) (he : e = exponent - 1075)
    (hm : m = 2 ^ 52 + fraction) (hpos : exponent ≠ 0) (hexponent : exponent < 2047) (hlt : fraction < 2 ^ 52) :
    Ranked (.finite sign m e h) (sign.apply (exponent * 2 ^ 52 + fraction : Nat)) := by
  have h52 : pow2 52 = 2 ^ 52 := rfl
  have hbits : exponent * 2 ^ 52 + fraction = Binary.bits ⟨m, e⟩ := by
    simp only [Binary.bits, h52]
    omega
  rw [hbits]
  refine .finite sign (x := ⟨m, e⟩) h ⟨?_, ?_, ?_, .inr ?_⟩ ?_
  all_goals simp only [← hbits, infinityBits]
  all_goals omega

/-- Unpacking keeps the rank: subnormal values have the least exponent, and normal ones their leading bit. -/
theorem ranked {x : Float} (h : IsNumber x) : Ranked x.toModel.unpack (rank x) := by
  rw [IsNumber, magnitude, toNat_mod_eq, infinityBits] at h
  rw [← sign_apply_magnitude, magnitude, toNat_mod_eq]
  change Ranked (UnpackedFloat.unpack Format.binary64 x.toBits.toBitVec) _
  rw [UnpackedFloat.unpack]
  generalize Sign.ofBitVec (@unpackSign Format.binary64 x.toBits.toBitVec) = sign
  set exponent := @unpackExponent Format.binary64 x.toBits.toBitVec
  set fraction := @unpackMantissa Format.binary64 x.toBits.toBitVec
  have hexponent : exponent.toNat < 2048 := exponent.isLt
  have hfraction : fraction.toNat < 2 ^ 52 := fraction.isLt
  have hgreatest : exponent = -1#_ ↔ exponent.toNat = 2047 := BitVec.toNat_inj.symm
  have hleast : exponent = 0#_ ↔ exponent.toNat = 0 := BitVec.toNat_inj.symm
  have hzero : fraction = 0#_ ↔ fraction.toNat = 0 := BitVec.toNat_inj.symm
  have hbias : ((Format.binary64.exponentBias : ℕ) : ℤ) + Format.binary64.mantissaBitsWithoutImplicit = 1075 := rfl
  dsimp only
  split
  · next hall =>
    have hnull : fraction.toNat = 0 := by
      rw [hgreatest.1 hall] at h
      omega
    rw [if_pos (hzero.2 hnull), hgreatest.1 hall, hnull]
    exact .infinity sign
  · next hall =>
    split
    · next hsubnormal =>
      rw [hleast] at hsubnormal
      rw [hsubnormal, Nat.zero_mul, Nat.zero_add]
      split
      · next hnull =>
        rw [hzero.1 hnull]
        cases sign <;> exact .zero _
      · next hnull => exact .subnormal _ (by rw [hbias]; rfl) hfraction
    · next hsubnormal =>
      have hleading : (1#1 ++ fraction).toNat = 2 ^ 52 + fraction.toNat := toNat_one_append fraction
      rw [hgreatest] at hall
      exact .normal _ (by rw [hbias]) hleading (mt hleast.2 hsubnormal) (by omega) hfraction

theorem unpack_eq_notANumber {x : Float} (h : ¬IsNumber x) : x.toModel.unpack = .notANumber := by
  rw [eq_notANumber (not_le.1 h)]
  rfl

/-! ## Comparison -/

/-- A binary value with a greater exponent is greater, since its mantissa fills all its bits. -/
theorem Binary.Canonical.compare_bits {x y : Binary} (hx : x.Canonical) (hy : y.Canonical) :
    compare (x.bits : ℤ) y.bits = (compare x.exponent y.exponent).then (compare x.mantissa y.mantissa) := by
  have h52 : pow2 52 = 4503599627370496 := rfl
  obtain ⟨hxl, -, hxm, hxn⟩ := hx
  obtain ⟨hyl, -, hym, hyn⟩ := hy
  simp only [bits, h52]
  rcases lt_trichotomy x.exponent y.exponent with h | h | h
  · have hlt : compare x.exponent y.exponent = .lt := compare_lt_iff_lt.2 h
    rw [hlt, Ordering.lt_then, compare_lt_iff_lt]
    omega
  · have heq : compare x.exponent y.exponent = .eq := compare_eq_iff_eq.2 h
    rw [heq, Ordering.eq_then, h]
    rcases lt_trichotomy x.mantissa y.mantissa with h' | h' | h'
    · have hlt : compare x.mantissa y.mantissa = .lt := compare_lt_iff_lt.2 h'
      rw [hlt, compare_lt_iff_lt]
      omega
    · have heq : compare x.mantissa y.mantissa = .eq := compare_eq_iff_eq.2 h'
      rw [heq, compare_eq_iff_eq]
      omega
    · have hgt : compare x.mantissa y.mantissa = .gt := compare_gt_iff_gt.2 h'
      rw [hgt, compare_gt_iff_gt]
      omega
  · have hgt : compare x.exponent y.exponent = .gt := compare_gt_iff_gt.2 h
    rw [hgt, Ordering.gt_then, compare_gt_iff_gt]
    omega

theorem compare_neg (i j : ℤ) : compare (-i) (-j) = (compare i j).swap := by
  rw [← cmp_eq_compare, ← cmp_eq_compare, cmp_swap]
  exact StrictAnti.cmp_map_eq (fun _ _ => neg_lt_neg) i j

theorem Binary.bits_pos {x : Binary} (h : 0 < x.mantissa) : 0 < x.bits := Nat.add_pos_right _ h

theorem Ranked.compare_eq {u v : UnpackedFloat} {i j : ℤ} (hu : Ranked u i) (hv : Ranked v j) :
    u.compare v = some (compare i j) := by
  have hlt {i j : ℤ} (h : i < j) : some Ordering.lt = some (compare i j) := by rw [compare_lt_iff_lt.2 h]
  have hgt {i j : ℤ} (h : j < i) : some Ordering.gt = some (compare i j) := by rw [compare_gt_iff_gt.2 h]
  cases hu with
  | infinity s =>
    cases hv with
    | infinity s' => cases s <;> cases s' <;> decide
    | zero s' => cases s <;> exact congrArg some (by decide)
    | @finite s' y h hy hinf =>
      have hpos := Binary.bits_pos h
      cases s
      · refine hlt ?_
        cases s' <;> simp only [Sign.apply] <;> omega
      · refine hgt ?_
        cases s' <;> simp only [Sign.apply] <;> omega
  | zero s =>
    cases hv with
    | infinity s' => cases s' <;> exact congrArg some (by decide)
    | zero s' => rfl
    | @finite s' y h hy hinf =>
      have hpos := Binary.bits_pos h
      cases s'
      · exact hgt (by simp only [Sign.apply]; omega)
      · exact hlt (by simp only [Sign.apply]; omega)
  | @finite s x h hx hinf =>
    have hpos := Binary.bits_pos h
    cases hv with
    | infinity s' =>
      cases s'
      · refine hgt ?_
        cases s <;> simp only [Sign.apply] <;> omega
      · refine hlt ?_
        cases s <;> simp only [Sign.apply] <;> omega
    | zero s' =>
      cases s
      · exact hlt (by simp only [Sign.apply]; omega)
      · exact hgt (by simp only [Sign.apply]; omega)
    | @finite s' y h' hy hinf' =>
      have hpos' := Binary.bits_pos h'
      cases s <;> cases s'
      · simp only [UnpackedFloat.compare, Sign.apply, compare_neg, hx.compare_bits hy]
      · exact hlt (by simp only [Sign.apply]; omega)
      · exact hgt (by simp only [Sign.apply]; omega)
      · simp only [UnpackedFloat.compare, Sign.apply, hx.compare_bits hy]

theorem compare_notANumber (u : UnpackedFloat) : u.compare .notANumber = none := by
  cases u <;> rfl

/-- Numbers are ordered as their ranks are. What is not a number has no order. -/
theorem floatOrder?_eq (x y : Float) :
    floatOrder? x y = if IsNumber x ∧ IsNumber y then some (compare (rank x) (rank y)) else none := by
  have hlt (x y : Float) : x < y ↔ x.toModel.unpack.compare y.toModel.unpack = some .lt :=
    decide_eq_true_iff.trans beq_iff_eq
  have heq (x y : Float) : x == y ↔ x.toModel.unpack.compare y.toModel.unpack = some .eq :=
    beq_iff_eq (a := x.toModel.unpack.compare y.toModel.unpack)
  simp only [floatOrder?, hlt, heq]
  by_cases h : IsNumber x ∧ IsNumber y
  · rw [if_pos h, (ranked h.1).compare_eq (ranked h.2), (ranked h.2).compare_eq (ranked h.1)]
    rcases lt_trichotomy (rank x) (rank y) with h | h | h
    · simp [compare_lt_iff_lt.2 h]
    · simp [h]
    · simp [compare_lt_iff_lt.2 h, compare_gt_iff_gt.2 h]
  · have hnone : x.toModel.unpack.compare y.toModel.unpack = none ∧
        y.toModel.unpack.compare x.toModel.unpack = none := by
      rcases not_and_or.1 h with h | h <;> rw [unpack_eq_notANumber h]
      · exact ⟨rfl, compare_notANumber _⟩
      · exact ⟨compare_notANumber _, rfl⟩
    rw [if_neg h, hnone.1, hnone.2]
    rfl

/-! ## Integers -/

theorem toBits_ofBits {bits : UInt64} (h : bits.toNat % pow2 63 ≤ infinityBits) :
    (Float.ofBits bits).toBits = bits := by
  have hvalid : Format.binary64.Valid bits.toBitVec := by
    refine ⟨fun hexponent hfraction => absurd (BitVec.eq_of_toNat_eq ?_) hfraction⟩
    rw [toNat_mod_eq, hexponent, infinityBits] at h
    change 2047 * 2 ^ 52 + _ ≤ _ at h
    change _ = 0
    omega
  exact congrArg Float.toBits (Float.ofBits_toBits ⟨⟨bits, hvalid⟩⟩)

section Nearest
variable (negative : Bool) (num den : Nat)

theorem nearestBits_le : nearestBits num den ≤ infinityBits := by
  rw [nearestBits]
  split
  · exact Nat.zero_le _
  · exact min_le_right ..

theorem toBits_nearest : (nearest negative num den).toBits.toNat =
    nearestBits num den + if negative then pow2 63 else 0 := by
  have h63 : pow2 63 = 9223372036854775808 := rfl
  have hle := nearestBits_le num den
  rw [infinityBits] at hle
  have hbits : (UInt64.ofNat (nearestBits num den + if negative then pow2 63 else 0)).toNat =
      nearestBits num den + if negative then pow2 63 else 0 := by
    rw [UInt64.toNat_ofNat', h63]
    split <;> omega
  rw [nearest, toBits_ofBits]
  · exact hbits
  · rw [hbits, h63, infinityBits]
    split <;> omega

theorem magnitude_nearest : magnitude (nearest negative num den) = nearestBits num den := by
  have h63 : pow2 63 = 9223372036854775808 := rfl
  have hle := nearestBits_le num den
  rw [infinityBits] at hle
  rw [magnitude, toBits_nearest, h63]
  split <;> omega

theorem isNumber_nearest : IsNumber (nearest negative num den) :=
  (magnitude_nearest negative num den).trans_le (nearestBits_le num den)

theorem rank_nearest : rank (nearest negative num den) =
    if negative then -(nearestBits num den : ℤ) else nearestBits num den := by
  have h63 : pow2 63 = 9223372036854775808 := rfl
  have hle := nearestBits_le num den
  rw [infinityBits] at hle
  rw [rank, magnitude_nearest, toBits_nearest, h63]
  cases negative
  · exact if_pos (Nat.lt_of_le_of_lt hle (by decide))
  · exact if_neg (by simp)

end Nearest

theorem isNumber_ofInt (n : ℤ) : IsNumber (ofInt n) := isNumber_nearest ..

theorem rank_ofInt_mono {m n : ℤ} (h : m ≤ n) : rank (ofInt m) ≤ rank (ofInt n) := by
  have hmono {a b : Nat} (h : a ≤ b) : nearestBits a 1 ≤ nearestBits b 1 := nearestBits_mono one_ne_zero h
  rw [ofInt, ofInt, rank_nearest, rank_nearest]
  simp only [decide_eq_true_eq]
  split <;> split
  · have := hmono (show n.natAbs ≤ m.natAbs by omega)
    omega
  · omega
  · omega
  · have := hmono (show m.natAbs ≤ n.natAbs by omega)
    omega

end TextTables.Decimal
