import Mathlib.Algebra.Order.Field.Power
import Mathlib.Data.Nat.Digits.Defs
import Mathlib.Data.Rat.Cast.Order
import Mathlib.Tactic.FieldSimp
import Mathlib.Tactic.GCongr
import Mathlib.Tactic.Linarith
import Mathlib.Tactic.Positivity
import Mathlib.Tactic.Ring
import TextTables.Proofs.Decimal.Bits
/-!
# Rounding to a float

The shortest decimal of a binary value lies between the midpoints to the value's neighbours, and
every decimal that lies there is read as that value. Both sides are compared as rational numbers. Rounding
keeps the order of fractions.
-/

namespace TextTables.Decimal

/-! ## Scaled numbers -/

theorem toNat_zpow {b : ℚ} (hb : b ≠ 0) (i : ℤ) : b ^ i.toNat = b ^ i * b ^ (-i).toNat := by
  rw [← zpow_natCast, ← zpow_natCast, ← zpow_add₀ hb]
  congr 1
  omega

@[simp] theorem cast_pow2 (n : Nat) : ((pow2 n : Nat) : ℚ) = 2 ^ n := Nat.cast_pow 2 n

@[simp] theorem cast_pow10 (n : Nat) : ((pow10 n : Nat) : ℚ) = 10 ^ n := Nat.cast_pow 10 n

/-- The number that a decimal stands for. -/
def Scientific.value (d : Scientific) : ℚ := d.digits * 10 ^ d.exponent

/-- The number that a binary value stands for. -/
def Binary.value (x : Binary) : ℚ := x.mantissa * 2 ^ x.exponent

/-- Scaled numbers are compared as rational numbers are. -/
theorem compareScaled_eq (a : Nat) (i : ℤ) (b : Nat) (j : ℤ) :
    (compareScaled a i b j = .lt ↔ (a * 10 ^ i : ℚ) < b * 2 ^ j) ∧
    (compareScaled a i b j = .eq ↔ (a * 10 ^ i : ℚ) = b * 2 ^ j) ∧
    (compareScaled a i b j = .gt ↔ (b * 2 ^ j : ℚ) < a * 10 ^ i) := by
  have hk : (0 : ℚ) < 10 ^ (-i).toNat * 2 ^ (-j).toNat := by positivity
  have hleft : ((a * pow10 i.toNat * pow2 (-j).toNat : Nat) : ℚ) =
      a * 10 ^ i * (10 ^ (-i).toNat * 2 ^ (-j).toNat) := by
    push_cast
    rw [cast_pow10, cast_pow2, toNat_zpow (by norm_num) i]
    ring
  have hright : ((b * pow2 j.toNat * pow10 (-i).toNat : Nat) : ℚ) =
      b * 2 ^ j * (10 ^ (-i).toNat * 2 ^ (-j).toNat) := by
    push_cast
    rw [cast_pow10, cast_pow2, toNat_zpow (by norm_num) j]
    ring
  rw [compareScaled, Nat.compare_eq_lt, Nat.compare_eq_eq, Nat.compare_eq_gt, ← Nat.cast_lt (α := ℚ),
    ← Nat.cast_lt (α := ℚ), ← Nat.cast_inj (R := ℚ), hleft, hright]
  exact ⟨mul_lt_mul_iff_left₀ hk, mul_left_inj' hk.ne', mul_lt_mul_iff_left₀ hk⟩

/-! ## Rounding intervals -/

/-- The midpoint between a binary value and the value below it. -/
def Binary.below (x : Binary) : ℚ :=
  (4 * x.mantissa - if x.narrowBelow then 1 else 2) * 2 ^ (x.exponent - 2)

/-- The midpoint between a binary value and the value above it. -/
def Binary.above (x : Binary) : ℚ := (4 * x.mantissa + 2) * 2 ^ (x.exponent - 2)

/-- The numbers that round to a binary value: those between the midpoints to its neighbours, and the
midpoints too if its mantissa is even. -/
structure Binary.Nearest (x : Binary) (q : ℚ) : Prop where
  below : x.below < q ∨ (x.mantissa % 2 = 0 ∧ x.below = q)
  above : q < x.above ∨ (x.mantissa % 2 = 0 ∧ q = x.above)

theorem Binary.readsBack_iff {x : Binary} (hx : x.mantissa ≠ 0) {d : Scientific} :
    x.readsBack d = true ↔ x.Nearest d.value := by
  have hlow : (((if x.narrowBelow then 4 * x.mantissa - 1 else 4 * x.mantissa - 2 : Nat) : ℚ)) *
      2 ^ (x.exponent - 2) = x.below := by
    rw [Binary.below]
    split
    · rw [Nat.cast_sub (by omega)]; push_cast; ring
    · rw [Nat.cast_sub (by omega)]; push_cast; ring
  have hhigh : ((4 * x.mantissa + 2 : Nat) : ℚ) * 2 ^ (x.exponent - 2) = x.above := by
    rw [Binary.above]; push_cast; rfl
  obtain ⟨-, hloweq, hlowgt⟩ := compareScaled_eq d.digits d.exponent
    (if x.narrowBelow then 4 * x.mantissa - 1 else 4 * x.mantissa - 2) (x.exponent - 2)
  obtain ⟨hhighlt, hhigheq, -⟩ := compareScaled_eq d.digits d.exponent
    (4 * x.mantissa + 2) (x.exponent - 2)
  rw [hlow] at hloweq hlowgt
  rw [hhigh] at hhigheq hhighlt
  simp only [Binary.readsBack, Bool.and_eq_true, Bool.or_eq_true, beq_iff_eq, hlowgt, hloweq,
    hhighlt, hhigheq]
  constructor
  · rintro ⟨h, h'⟩
    exact ⟨h.imp_right fun h => ⟨h.1, h.2.symm⟩, h'⟩
  · rintro ⟨h, h'⟩
    exact ⟨h.imp_right fun h => ⟨h.1, h.2.symm⟩, h'⟩

theorem zpow_sub_two (e : ℤ) : (2 : ℚ) ^ (e - 2) = 2 ^ e / 4 := by
  rw [zpow_sub₀ (by norm_num)]
  norm_num

/-- A binary value rounds to itself. -/
theorem Binary.nearest_value {x : Binary} : x.Nearest x.value := by
  have hpos : (0 : ℚ) < 2 ^ x.exponent := by positivity
  constructor
  · left
    rw [Binary.below, Binary.value, zpow_sub_two]
    split <;> linarith
  · left
    rw [Binary.above, Binary.value, zpow_sub_two]
    linarith

theorem Binary.value_exact (x : Binary) : x.exact.value = x.value := by
  rw [Binary.exact]
  split
  · next h =>
    have htoNat : (x.exponent.toNat : ℤ) = x.exponent := Int.toNat_of_nonneg h
    simp only [Scientific.value, Binary.value, zpow_zero, mul_one]
    push_cast
    rw [cast_pow2, ← zpow_natCast, htoNat]
  · next h =>
    have htoNat : ((-x.exponent).toNat : ℤ) = -x.exponent := Int.toNat_of_nonneg (by omega)
    have hfive : ((Nat.pow 5 (-x.exponent).toNat : Nat) : ℚ) = 5 ^ (-x.exponent) := by
      rw [← htoNat, zpow_natCast]
      exact Nat.cast_pow 5 _
    simp only [Scientific.value, Binary.value]
    push_cast
    rw [hfive, show (10 : ℚ) = 2 * 5 by norm_num, mul_zpow, zpow_neg]
    field_simp

theorem Binary.readsBack_of_onGrid? {x : Binary} {grid : ℤ} {d : Scientific}
    (h : x.onGrid? grid = some d) : x.readsBack d = true := by
  simp only [Binary.onGrid?] at h
  split at h
  · next hlow hhigh =>
    split at h
    · cases h; exact hlow
    · cases h; exact hhigh
  · next hlow _ => cases h; exact hlow
  · next _ hhigh => cases h; exact hhigh
  · cases h

/-- The shortest decimal of a binary value rounds to it. -/
theorem Binary.nearest_shortest {x : Binary} (hx : x.mantissa ≠ 0) : x.Nearest x.shortest.value := by
  rw [Binary.shortest]
  cases hfind : (List.range 17).findSome? fun (n : Nat) => x.onGrid? (x.scale - n - 1) with
  | none =>
    rw [Option.getD_none, Binary.value_exact]
    exact Binary.nearest_value
  | some d =>
    obtain ⟨n, -, hn⟩ := List.exists_of_findSome?_eq_some hfind
    exact (Binary.readsBack_iff hx).1 (Binary.readsBack_of_onGrid? hn)

/-! ## Rounding -/

theorem scaled_quotient (num den : Nat) (e : ℤ) :
    ((num * pow2 (-e).toNat : Nat) : ℚ) / (den * pow2 e.toNat : Nat) = num / den / 2 ^ e := by
  have hk : (2 : ℚ) ^ (-e).toNat ≠ 0 := by positivity
  push_cast
  rw [cast_pow2, cast_pow2, toNat_zpow (by norm_num) e, ← mul_assoc, mul_div_mul_right _ _ hk, div_div]

/-- The rounded quotient is the number with the quotient at most one half away, the even one of two. -/
theorem divideToEven_of_bounds {n d k : Nat} (hd : 0 < d)
    (hlow : 2 * (k * d) < 2 * n + d ∨ k % 2 = 0 ∧ 2 * (k * d) = 2 * n + d)
    (hhigh : 2 * n < 2 * (k * d) + d ∨ k % 2 = 0 ∧ 2 * n = 2 * (k * d) + d) : divideToEven n d = k := by
  have hmod := Nat.mod_lt n hd
  have hdiv := Nat.div_add_mod n d
  generalize hq : n / d = q at hdiv
  generalize hr : n % d = r at hdiv hmod
  -- It is the quotient or the number after it.
  have hcase : k = q ∨ k = q + 1 := by
    have h1 : k < q + 2 := by
      by_contra hge
      have := Nat.mul_le_mul_right d (Nat.le_of_not_lt hge)
      rw [Nat.add_mul, Nat.mul_comm q d] at this
      omega
    have h2 : q < k + 1 := by
      by_contra hge
      have := Nat.mul_le_mul_right d (Nat.le_of_not_lt hge)
      rw [Nat.add_mul, Nat.mul_comm q d] at this
      omega
    omega
  simp only [divideToEven, hq, hr]
  rcases hcase with rfl | rfl
  · rw [Nat.mul_comm k d] at hlow hhigh
    repeat' split
    all_goals omega
  · rw [Nat.add_mul, Nat.mul_comm q d] at hlow hhigh
    repeat' split
    all_goals omega

theorem divideToEven_eq {n d k : Nat} (hd : 0 < d)
    (hlow : (k - 1 / 2 : ℚ) < n / d ∨ k % 2 = 0 ∧ (k - 1 / 2 : ℚ) = n / d)
    (hhigh : (n / d : ℚ) < k + 1 / 2 ∨ k % 2 = 0 ∧ (n / d : ℚ) = k + 1 / 2) :
    divideToEven n d = k := by
  have hdq : (0 : ℚ) < d := by exact_mod_cast hd
  refine divideToEven_of_bounds hd (hlow.imp (fun h => ?_) fun h => ⟨h.1, ?_⟩)
    (hhigh.imp (fun h => ?_) fun h => ⟨h.1, ?_⟩)
  · rw [lt_div_iff₀ hdq] at h
    have : (2 * (k * d) : ℚ) < 2 * n + d := by linarith
    exact_mod_cast this
  · have h := h.2
    rw [eq_div_iff hdq.ne'] at h
    have : (2 * (k * d) : ℚ) = 2 * n + d := by linarith
    exact_mod_cast this
  · rw [div_lt_iff₀ hdq] at h
    have : (2 * n : ℚ) < 2 * (k * d) + d := by linarith
    exact_mod_cast this
  · have h := h.2
    rw [div_eq_iff hdq.ne'] at h
    have : (2 * n : ℚ) = 2 * (k * d) + d := by linarith
    exact_mod_cast this

/-- A fraction lies in the binade that the logarithms of its terms lead to, or below the least one. -/
theorem mantissaExponent_spec {num den : Nat} (hnum : num ≠ 0) (hden : den ≠ 0) :
    ∃ e : ℤ, mantissaExponent num den = max e (-1074) ∧
      (2 : ℚ) ^ (52 + e) ≤ num / den ∧ (num / den : ℚ) < 2 ^ (53 + e) := by
  have hdq : (0 : ℚ) < den := by exact_mod_cast Nat.pos_of_ne_zero hden
  have hpow {n : Nat} (hn : n ≠ 0) : (2 : ℚ) ^ (n.log2 : ℤ) ≤ n ∧ (n : ℚ) < 2 ^ ((n.log2 : ℤ) + 1) := by
    constructor
    · rw [zpow_natCast]
      exact_mod_cast Nat.log2_self_le hn
    · rw [show ((n.log2 : ℤ) + 1) = ((n.log2 + 1 : Nat) : ℤ) by push_cast; rfl, zpow_natCast]
      exact_mod_cast Nat.lt_log2_self
  obtain ⟨hnum1, hnum2⟩ := hpow hnum
  obtain ⟨hden1, hden2⟩ := hpow hden
  generalize hg : (num.log2 : ℤ) - den.log2 - 53 = guess
  have hlow : (2 : ℚ) ^ (52 + guess) ≤ num / den := by
    rw [le_div_iff₀ hdq]
    calc (2 : ℚ) ^ (52 + guess) * den ≤ 2 ^ (52 + guess) * 2 ^ ((den.log2 : ℤ) + 1) := by gcongr
      _ = 2 ^ (num.log2 : ℤ) := by rw [← zpow_add₀ (by norm_num)]; congr 1; omega
      _ ≤ num := hnum1
  have hhigh : (num / den : ℚ) < 2 ^ (54 + guess) := by
    rw [div_lt_iff₀ hdq]
    calc (num : ℚ) < 2 ^ ((num.log2 : ℤ) + 1) := hnum2
      _ = 2 ^ (54 + guess) * 2 ^ (den.log2 : ℤ) := by
        rw [← zpow_add₀ (by norm_num)]; congr 1; omega
      _ ≤ 2 ^ (54 + guess) * den := by gcongr
  have hfits : num * pow2 (-(guess + 53)).toNat < den * pow2 (guess + 53).toNat ↔
      (num / den : ℚ) < 2 ^ (53 + guess) := by
    have hk : (0 : ℚ) < 2 ^ (-(guess + 53)).toNat := by positivity
    rw [div_lt_iff₀ hdq, ← Nat.cast_lt (α := ℚ)]
    push_cast
    rw [cast_pow2, cast_pow2, toNat_zpow (by norm_num) (guess + 53), ← mul_assoc,
      mul_lt_mul_iff_left₀ hk, mul_comm (den : ℚ), add_comm guess]
  simp only [mantissaExponent, hg]
  split
  · next h => exact ⟨guess, rfl, hlow, hfits.1 h⟩
  · next h =>
    refine ⟨guess + 1, rfl, ?_, ?_⟩
    · rw [show 52 + (guess + 1) = 53 + guess by ring]
      exact not_lt.1 (mt hfits.2 h)
    · rw [show 53 + (guess + 1) = 54 + guess by ring]
      exact hhigh

theorem mantissaExponent_eq {num den : Nat} {e : ℤ} (hnum : num ≠ 0) (hden : den ≠ 0)
    (hlow : (2 : ℚ) ^ (52 + e) ≤ num / den ∨ e = -1074) (hhigh : (num / den : ℚ) < 2 ^ (53 + e))
    (hleast : -1074 ≤ e) : mantissaExponent num den = e := by
  have hmono {i j : ℤ} (h : (2 : ℚ) ^ i < 2 ^ j) : i < j :=
    (zpow_lt_zpow_iff_right₀ (by norm_num)).1 h
  obtain ⟨found, hfound, hbinade, hbinade'⟩ := mantissaExponent_spec hnum hden
  have hle := hmono (hbinade.trans_lt hhigh)
  rcases hlow with hlow | rfl
  · have hge := hmono (hlow.trans_lt hbinade')
    omega
  · omega

section Rounding
variable {x : Binary} {q : ℚ}

theorem Binary.Nearest.le_above (h : x.Nearest q) : q ≤ x.above := by
  rcases h.above with h | ⟨-, h⟩
  · exact h.le
  · exact h.le

theorem Binary.Nearest.below_le (h : x.Nearest q) : x.below ≤ q := by
  rcases h.below with h | ⟨-, h⟩
  · exact h.le
  · exact h.le

theorem Binary.half_le_below (x : Binary) : (x.mantissa - 1 / 2) * 2 ^ x.exponent ≤ x.below := by
  have hpos : (0 : ℚ) < 2 ^ x.exponent := by positivity
  rw [Binary.below, zpow_sub_two]
  split <;> linarith

theorem Binary.above_eq (x : Binary) : x.above = (x.mantissa + 1 / 2) * 2 ^ x.exponent := by
  rw [Binary.above, zpow_sub_two]
  ring

theorem Binary.Nearest.pos (h : x.Nearest q) (hx : x.mantissa ≠ 0) : 0 < q := by
  have hpos : (0 : ℚ) < 2 ^ x.exponent := by positivity
  have hm : (1 : ℚ) ≤ x.mantissa := by exact_mod_cast Nat.one_le_iff_ne_zero.2 hx
  have hhalf := x.half_le_below.trans h.below_le
  nlinarith

theorem Binary.Nearest.digits_ne_zero {d : Scientific} (h : x.Nearest d.value) (hx : x.mantissa ≠ 0) :
    d.digits ≠ 0 := by
  intro hd
  simpa [Scientific.value, hd] using h.pos hx

theorem Binary.Canonical.lt_binade (hx : x.Canonical) (h : x.Nearest q) : q < 2 ^ (53 + x.exponent) := by
  have hpos : (0 : ℚ) < 2 ^ x.exponent := by positivity
  have hm : (x.mantissa : ℚ) + 1 ≤ 2 ^ 53 := by exact_mod_cast hx.mantissa
  calc q ≤ (x.mantissa + 1 / 2) * 2 ^ x.exponent := h.le_above.trans_eq x.above_eq
    _ < 2 ^ 53 * 2 ^ x.exponent := by
      apply mul_lt_mul_of_pos_right _ hpos
      linarith
    _ = 2 ^ (53 + x.exponent) := by rw [zpow_add₀ (by norm_num)]; norm_num

theorem nearestBits_eq_of {num den : Nat} {e : ℤ} {m : Nat} (hnum : num ≠ 0) (hden : den ≠ 0)
    (he : mantissaExponent num den = e)
    (hlow : (m - 1 / 2 : ℚ) * 2 ^ e < num / den ∨ m % 2 = 0 ∧ (m - 1 / 2 : ℚ) * 2 ^ e = num / den)
    (hhigh : (num / den : ℚ) < (m + 1 / 2) * 2 ^ e ∨
      m % 2 = 0 ∧ (num / den : ℚ) = (m + 1 / 2) * 2 ^ e) :
    nearestBits num den = min ((e + 1074).toNat * pow2 52 + m) infinityBits := by
  have hpos : (0 : ℚ) < 2 ^ e := by positivity
  have hdivide : divideToEven (num * pow2 (-e).toNat) (den * pow2 e.toNat) = m := by
    refine divideToEven_eq (Nat.mul_pos (Nat.pos_of_ne_zero hden) (Nat.pow_pos (by decide))) ?_ ?_
    · rw [scaled_quotient, lt_div_iff₀ hpos, eq_div_iff hpos.ne']
      exact hlow
    · rw [scaled_quotient, div_lt_iff₀ hpos, div_eq_iff hpos.ne']
      exact hhigh
  simp only [nearestBits, hnum, if_false, he, hdivide]

/-- Below the power of two that a binade starts with the gap is half as wide. -/
theorem Binary.Canonical.narrow (hx : x.Canonical) (h : x.Nearest q) (hexp : x.exponent ≠ -1074)
    (hlt : q < 2 ^ (52 + x.exponent)) :
    x.mantissa = 2 ^ 52 ∧ x.below = ((2 ^ 53 : Nat) - 1 / 2) * 2 ^ (x.exponent - 1) := by
  have hpos : (0 : ℚ) < 2 ^ x.exponent := by positivity
  have hmantissa : x.mantissa = 2 ^ 52 := by
    have hge : 2 ^ 52 ≤ x.mantissa := hx.normal.resolve_left hexp
    have hhalf := (x.half_le_below.trans h.below_le).trans_lt hlt
    rw [zpow_add₀ (by norm_num), mul_lt_mul_iff_left₀ hpos] at hhalf
    have hcast : (2 : ℚ) ^ (52 : ℤ) = 2 ^ 52 := zpow_natCast 2 52
    have hle : (x.mantissa : ℚ) < 2 ^ 52 + 1 := by linarith
    have hle : x.mantissa < 2 ^ 52 + 1 := by exact_mod_cast hle
    omega
  have hnarrow : x.narrowBelow = true := by
    simp only [Binary.narrowBelow, hmantissa, decide_eq_true_eq]
    exact ⟨rfl, hexp⟩
  refine ⟨hmantissa, ?_⟩
  rw [Binary.below, hnarrow, if_pos rfl, zpow_sub_two, zpow_sub₀ (by norm_num), zpow_one, hmantissa]
  push_cast
  ring

/-- A fraction in the rounding interval of a binary value has that value's bits. -/
theorem nearestBits_eq (hx : x.Canonical) (hm : x.mantissa ≠ 0) {num den : Nat} (hden : den ≠ 0)
    (h : x.Nearest (num / den)) : nearestBits num den = x.bits := by
  have hpos : (0 : ℚ) < 2 ^ x.exponent := by positivity
  have hnum : num ≠ 0 := by
    rintro rfl
    simpa using h.pos hm
  by_cases hsame : (2 : ℚ) ^ (52 + x.exponent) ≤ num / den ∨ x.exponent = -1074
  · -- The fraction is in the binade of the value, and at most half a unit away from it.
    have he := mantissaExponent_eq hnum hden hsame (hx.lt_binade h) hx.least
    rw [nearestBits_eq_of hnum hden he (m := x.mantissa)]
    · exact min_eq_left hx.bits_le
    · rcases h.below with hb | ⟨heven, hb⟩
      · exact .inl (x.half_le_below.trans_lt hb)
      · exact (hb ▸ x.half_le_below).lt_or_eq.imp_right fun heq => ⟨heven, heq⟩
    · rw [← x.above_eq]
      exact h.above
  · -- It is in the binade below, and rounding carries it into that of the value.
    obtain ⟨hlt, hexp⟩ := not_or.1 hsame
    rw [not_le] at hlt
    obtain ⟨hmantissa, hbelow⟩ := hx.narrow h hexp hlt
    have hlow : (2 : ℚ) ^ (52 + (x.exponent - 1)) ≤ num / den := by
      refine le_trans ?_ h.below_le
      rw [hbelow, zpow_add₀ (by norm_num)]
      gcongr
      norm_num
    have hhigh : (num / den : ℚ) < 2 ^ (53 + (x.exponent - 1)) := by
      rwa [show 53 + (x.exponent - 1) = 52 + x.exponent by ring]
    have hleast := hx.least
    have he := mantissaExponent_eq hnum hden (.inl hlow) hhigh (by omega)
    rw [nearestBits_eq_of hnum hden he (m := 2 ^ 53)]
    · have hbits : (x.exponent - 1 + 1074).toNat * pow2 52 + 2 ^ 53 = x.bits := by
        have h52 : pow2 52 = 4503599627370496 := rfl
        simp only [Binary.bits, hmantissa, h52]
        omega
      rw [hbits]
      exact min_eq_left hx.bits_le
    · rw [← hbelow]
      exact h.below.imp_right fun h => ⟨by norm_num, h.2⟩
    · left
      refine hhigh.trans_le ?_
      rw [zpow_add₀ (by norm_num)]
      gcongr
      norm_num

/-! ## Order -/

theorem scaled_div_lt {num den k : Nat} (e : ℤ) (hden : den ≠ 0) :
    num * pow2 (-e).toNat / (den * pow2 e.toNat) < k ↔ (num / den : ℚ) < k * 2 ^ e := by
  have hd : 0 < den * pow2 e.toNat := Nat.mul_pos (Nat.pos_of_ne_zero hden) (Nat.pow_pos (by decide))
  have hpos : (0 : ℚ) < 2 ^ e := by positivity
  rw [Nat.div_lt_iff_lt_mul hd, ← Nat.cast_lt (α := ℚ), Nat.cast_mul k,
    ← div_lt_iff₀ (by exact_mod_cast hd), scaled_quotient, div_lt_iff₀ hpos]

theorem divideToEven_bounds (n d : Nat) : n / d ≤ divideToEven n d ∧ divideToEven n d ≤ n / d + 1 := by
  simp only [divideToEven]
  repeat' split
  all_goals omega

theorem divideToEven_mono {n n' d : Nat} (h : n ≤ n') : divideToEven n d ≤ divideToEven n' d := by
  rcases (Nat.div_le_div_right (c := d) h).lt_or_eq with hlt | heq
  · exact (divideToEven_bounds n d).2.trans (hlt.trans_le (divideToEven_bounds n' d).1)
  · have hmod : n % d ≤ n' % d := by
      have hn := Nat.div_add_mod n d
      have hn' := Nat.div_add_mod n' d
      rw [heq] at hn
      omega
    simp only [divideToEven, heq]
    repeat' split
    all_goals omega

/-- Rounding keeps the order of fractions. -/
theorem nearestBits_mono {num num' den : Nat} (hden : den ≠ 0) (h : num ≤ num') :
    nearestBits num den ≤ nearestBits num' den := by
  by_cases hnum : num = 0
  · simp [nearestBits, hnum]
  have hnum' : num' ≠ 0 := by omega
  have h52 : pow2 52 = 2 ^ 52 := rfl
  obtain ⟨e, he, hlow, hhigh⟩ := mantissaExponent_spec hnum hden
  obtain ⟨e', he', hlow', hhigh'⟩ := mantissaExponent_spec hnum' hden
  have hle : (num / den : ℚ) ≤ num' / den := by gcongr
  have hbinades : e < e' + 1 := by
    have hlt : (2 : ℚ) ^ (52 + e) < 2 ^ (53 + e') := (hlow.trans hle).trans_lt hhigh'
    have := (zpow_lt_zpow_iff_right₀ (by norm_num)).1 hlt
    omega
  simp only [nearestBits, hnum, hnum', if_false, he, he', h52]
  refine min_le_min_right _ ?_
  rcases eq_or_ne (max e (-1074)) (max e' (-1074)) with heq | hne
  · rw [heq]
    exact Nat.add_le_add_left (divideToEven_mono (Nat.mul_le_mul_right _ h)) _
  · -- The lesser fraction rounds to at most the power of two at which the binade of the greater one starts.
    obtain ⟨hexponent, hleast⟩ : e ≤ max e (-1074) ∧ -1074 ≤ max e (-1074) := ⟨le_max_left .., le_max_right ..⟩
    have hmax' : max e' (-1074) = e' := by omega
    have hgap : max e (-1074) < e' := by omega
    rw [hmax']
    generalize max e (-1074) = exponent at *
    have hquotient : num * pow2 (-exponent).toNat / (den * pow2 exponent.toNat) < 2 ^ 53 := by
      refine (scaled_div_lt exponent hden).2 (hhigh.trans_le ?_)
      rw [zpow_add₀ (by norm_num)]
      gcongr <;> norm_num
    have hquotient' : ¬num' * pow2 (-e').toNat / (den * pow2 e'.toNat) < 2 ^ 52 := by
      rw [scaled_div_lt e' hden, not_lt]
      refine le_trans ?_ hlow'
      rw [zpow_add₀ (by norm_num)]
      gcongr
      norm_num
    have hup := (divideToEven_bounds (num * pow2 (-exponent).toNat) (den * pow2 exponent.toNat)).2
    have hdown := (divideToEven_bounds (num' * pow2 (-e').toNat) (den * pow2 e'.toNat)).1
    omega

/-! ## Reading a decimal -/

theorem two_zpow_lt : (2 : ℚ) ^ (1200 : ℤ) < 10 ^ (400 : ℤ) := by
  rw [show (1200 : ℤ) = 3 * 400 by norm_num, zpow_mul]
  exact zpow_lt_zpow_left₀ (by norm_num) (by norm_num) (by norm_num)

theorem Binary.Canonical.small_lt (hx : x.Canonical) (hm : x.mantissa ≠ 0) (h : x.Nearest q) :
    (10 : ℚ) ^ (-400 : ℤ) < q := by
  have hm : (1 : ℚ) ≤ x.mantissa := by exact_mod_cast Nat.one_le_iff_ne_zero.2 hm
  have hleast := hx.least
  have hpos : (0 : ℚ) < 2 ^ x.exponent := by positivity
  calc
    (10 : ℚ) ^ (-400 : ℤ) < 2 ^ (-1200 : ℤ) := by
      rw [zpow_neg, zpow_neg]
      exact inv_strictAnti₀ (by positivity) two_zpow_lt
    _ ≤ 2 ^ (x.exponent - 1) := zpow_le_zpow_right₀ (by norm_num) (by omega)
    _ = 1 / 2 * 2 ^ x.exponent := by rw [zpow_sub_one₀ (by norm_num)]; ring
    _ ≤ (x.mantissa - 1 / 2) * 2 ^ x.exponent := by
      apply mul_le_mul_of_nonneg_right _ hpos.le
      linarith
    _ ≤ x.below := x.half_le_below
    _ ≤ q := h.below_le

theorem Binary.Canonical.lt_large (hx : x.Canonical) (h : x.Nearest q) : q < (10 : ℚ) ^ (400 : ℤ) := by
  have hgreatest := hx.greatest
  calc q < 2 ^ (53 + x.exponent) := hx.lt_binade h
    _ ≤ 2 ^ (1200 : ℤ) := zpow_le_zpow_right₀ (by norm_num) (by omega)
    _ < 10 ^ (400 : ℤ) := two_zpow_lt

/-- The digits of a decimal number tell its order of magnitude. -/
theorem Scientific.value_bounds {d : Scientific} (hd : d.digits ≠ 0) :
    (10 : ℚ) ^ ((Nat.toDigits 10 d.digits).length + d.exponent - 1) ≤ d.value ∧
      d.value < 10 ^ ((Nat.toDigits 10 d.digits).length + d.exponent) := by
  generalize hlen : (Nat.toDigits 10 d.digits).length = len
  have hlt : d.digits < 10 ^ len := by
    rw [← Nat.length_toDigits_le_iff (by decide) (hlen ▸ Nat.length_toDigits_pos), hlen]
  have hle : 10 ^ (len - 1) ≤ d.digits := by
    rcases Nat.eq_zero_or_pos (len - 1) with h | h
    · rw [h]
      exact Nat.pos_of_ne_zero hd
    · rw [← Nat.not_lt, ← Nat.length_toDigits_le_iff (by decide) h, hlen]
      omega
  have hlen : 1 ≤ len := hlen ▸ Nat.length_toDigits_pos
  rw [Scientific.value]
  constructor
  · rw [show (len : ℤ) + d.exponent - 1 = ((len - 1 : Nat) : ℤ) + d.exponent by omega,
      zpow_add₀ (by norm_num), zpow_natCast]
    gcongr
    exact_mod_cast hle
  · rw [zpow_add₀ (by norm_num), zpow_natCast]
    gcongr
    exact_mod_cast hlt

/-- A decimal that lies in the rounding interval of a binary value is read as that value. -/
theorem Binary.Canonical.toFloat_eq (hx : x.Canonical) (hm : x.mantissa ≠ 0) {d : Scientific}
    (h : x.Nearest d.value) (negative : Bool) :
    d.toFloat negative =
      Float.ofBits (UInt64.ofNat (x.bits + if negative then pow2 63 else 0)) := by
  have hmono {i j : ℤ} (h : (10 : ℚ) ^ i < 10 ^ j) : i < j :=
    (zpow_lt_zpow_iff_right₀ (by norm_num)).1 h
  have hd := h.digits_ne_zero hm
  obtain ⟨hlow, hhigh⟩ := Scientific.value_bounds hd
  have hsmall := hmono ((hx.small_lt hm h).trans hhigh)
  have hlarge := hmono (hlow.trans_lt (hx.lt_large h))
  have hden : pow10 (-d.exponent).toNat ≠ 0 := (Nat.pow_pos (by decide)).ne'
  have hfraction : ((d.digits * pow10 d.exponent.toNat : Nat) : ℚ) / pow10 (-d.exponent).toNat =
      d.value := by
    have hk : (10 : ℚ) ^ (-d.exponent).toNat ≠ 0 := by positivity
    push_cast
    rw [cast_pow10, cast_pow10, toNat_zpow (by norm_num) d.exponent, ← mul_assoc,
      mul_div_cancel_right₀ _ hk, Scientific.value]
  rw [Scientific.toFloat, if_neg (by omega), if_neg (by omega), nearest,
    nearestBits_eq hx hm hden (hfraction.symm ▸ h)]

end Rounding

end TextTables.Decimal
