import Mathlib.Data.List.TakeWhile
import TextTables.Proofs.Decimal.Rounding
import TextTables.Proofs.Text.Case
import TextTables.Proofs.Text.Words
/-!
# Written numbers are read back

The written form of an integer or a float is made of plain characters, and reading it gives the number
that was written.
-/

namespace TextTables.Decimal

open Text (isPlain isPlain_of_isDigit)

/-! ## Digits -/

/-- Characters that are all decimal digits. -/
def AllDigits (cs : List Char) : Prop := ∀ c ∈ cs, c.isDigit = true

theorem allDigits_toDigits (n : Nat) : AllDigits (Nat.toDigits 10 n) :=
  fun _ hc => Nat.isDigit_of_mem_toDigits (by decide) (by decide) hc

theorem AllDigits.mono {cs ds : List Char} (h : AllDigits ds) (hsub : cs ⊆ ds) : AllDigits cs :=
  fun c hc => h c (hsub hc)

theorem AllDigits.append {cs ds : List Char} (h : AllDigits cs) (h' : AllDigits ds) :
    AllDigits (cs ++ ds) := by
  intro c hc
  rcases List.mem_append.1 hc with hc | hc
  · exact h c hc
  · exact h' c hc

theorem allDigits_zeros (n : Nat) : AllDigits (List.replicate n '0') := by
  intro c hc
  rw [List.eq_of_mem_replicate hc]
  rfl

theorem AllDigits.plain {cs : List Char} (h : AllDigits cs) : ∀ c ∈ cs, isPlain c = true :=
  fun c hc => isPlain_of_isDigit (h c hc)

theorem readSign_of_isDigit {c : Char} {cs : List Char} (h : c.isDigit = true) :
    readSign (c :: cs) = (false, c :: cs) := by
  unfold readSign
  split
  · next heq => cases heq; cases h
  · next heq => cases heq; cases h
  · rfl

/-! ## Integers -/

theorem toList_toString_int (n : Int) :
    (toString n).toList = (if n < 0 then ['-'] else []) ++ Nat.toDigits 10 n.natAbs := by
  rw [show toString n = n.repr from rfl, Int.repr_eq_if]
  split
  · next h => simp [Nat.toList_repr, if_neg (show ¬ n < 0 by omega), show n.toNat = n.natAbs by omega]
  · next h =>
    simp [Nat.toList_repr, if_pos (show n < 0 by omega), show (-n).toNat = n.natAbs by omega]

theorem plain_toString_int (n : Int) : ∀ c ∈ (toString n).toList, isPlain c = true := by
  intro c hc
  rw [toList_toString_int, List.mem_append] at hc
  rcases hc with hc | hc
  · split at hc
    · rw [List.mem_singleton.1 hc]; decide
    · cases hc
  · exact (allDigits_toDigits _).plain c hc

/-- The sign and the digits of a written integer. -/
theorem readSign_toString_int (n : Int) :
    readSign (toString n).toList = (decide (n < 0), Nat.toDigits 10 n.natAbs) := by
  rw [toList_toString_int]
  by_cases h : n < 0
  · simp [h, readSign]
  · rw [if_neg h, List.nil_append]
    obtain ⟨c, rest, hd⟩ := List.exists_cons_of_ne_nil (Nat.toDigits_ne_nil (n := n.natAbs) (b := 10))
    have hc : c.isDigit = true := allDigits_toDigits n.natAbs c (by simp [hd])
    rw [hd, readSign_of_isDigit hc, decide_eq_false h]

theorem ofDigits_toDigits (n : Nat) : ofDigits (Nat.toDigits 10 n) = n := Nat.ofDigitChars_ten_toDigits

theorem signed_natAbs (n : Int) : (if n < 0 then -(n.natAbs : Int) else n.natAbs) = n := by
  split <;> omega

theorem readInteger?_toString (n : Int64) : readInteger? (toString n.toInt).toList = some n := by
  have hall : (Nat.toDigits 10 n.toInt.natAbs).all Char.isDigit = true :=
    List.all_eq_true.2 (allDigits_toDigits _)
  have hlow := n.le_toInt
  have hhigh := n.toInt_lt
  simp only [readInteger?, readSign_toString_int, hall, Bool.not_true, Bool.or_false,
    List.isEmpty_iff, Nat.toDigits_ne_nil, if_false, decide_eq_true_eq, ofDigits_toDigits,
    signed_natAbs, int64?]
  rw [if_pos ⟨by omega, by omega⟩, Int64.ofInt_toInt]

theorem readExponent?_toString (n : Int) : readExponent? (toString n).toList = some n := by
  have hall : (Nat.toDigits 10 n.natAbs).all Char.isDigit = true :=
    List.all_eq_true.2 (allDigits_toDigits _)
  simp only [readExponent?, readSign_toString_int, hall, Bool.not_true, Bool.or_false,
    List.isEmpty_iff, Nat.toDigits_ne_nil, if_false, decide_eq_true_eq, ofDigits_toDigits,
    signed_natAbs]

/-! ## Zeros -/

theorem ofDigits_zeros_append (n : Nat) (cs : List Char) :
    ofDigits (List.replicate n '0' ++ cs) = ofDigits cs := by
  rw [ofDigits, Nat.ofDigitChars_append, Nat.ofDigitChars_replicate_zero, Nat.mul_zero, ofDigits]

theorem ofDigits_append_zeros (cs : List Char) (n : Nat) :
    ofDigits (cs ++ List.replicate n '0') = 10 ^ n * ofDigits cs := by
  rw [ofDigits, Nat.ofDigitChars_append, Nat.ofDigitChars_replicate_zero, ofDigits]

/-! ## Numerals -/

/-- The forms in which positive floats are written, each with the decimal that it stands for: digits
with a point, with an exponent, or with both. -/
inductive Numeral : List Char → Scientific → Prop
  | pointed {whole fraction : List Char} : AllDigits whole → whole ≠ [] → AllDigits fraction →
      Numeral (whole ++ '.' :: fraction) ⟨ofDigits (whole ++ fraction), -fraction.length⟩
  | scaled {whole : List Char} {exponent : Int} : AllDigits whole → whole ≠ [] →
      Numeral (whole ++ 'e' :: (toString exponent).toList) ⟨ofDigits whole, exponent⟩
  | pointedScaled {whole fraction : List Char} {exponent : Int} : AllDigits whole → whole ≠ [] →
      AllDigits fraction → Numeral (whole ++ '.' :: (fraction ++ 'e' :: (toString exponent).toList))
        ⟨ofDigits (whole ++ fraction), exponent - fraction.length⟩

section Numerals
variable {cs : List Char} {d : Scientific}

theorem Numeral.plain (h : Numeral cs d) : ∀ c ∈ cs, isPlain c = true := by
  have hpoint : isPlain '.' = true := by decide
  have hmark : isPlain 'e' = true := by decide
  intro c hc
  cases h with
  | pointed hw _ hf =>
    simp only [List.mem_append, List.mem_cons] at hc
    rcases hc with hc | rfl | hc
    · exact hw.plain c hc
    · exact hpoint
    · exact hf.plain c hc
  | scaled hw =>
    simp only [List.mem_append, List.mem_cons] at hc
    rcases hc with hc | rfl | hc
    · exact hw.plain c hc
    · exact hmark
    · exact plain_toString_int _ c hc
  | pointedScaled hw _ hf =>
    simp only [List.mem_append, List.mem_cons] at hc
    rcases hc with hc | rfl | hc | rfl | hc
    · exact hw.plain c hc
    · exact hpoint
    · exact hf.plain c hc
    · exact hmark
    · exact plain_toString_int _ c hc

theorem Numeral.readDecimal?_eq (h : Numeral cs d) : readDecimal? cs = some d := by
  have hpoint : Char.isDigit '.' = false := by decide
  have hmark : Char.isDigit 'e' = false := by decide
  cases h with
  | pointed hw hne hf =>
    simp [readDecimal?, List.takeWhile_append_of_pos hw, List.dropWhile_append_of_pos hw, hpoint,
      List.takeWhile_eq_self_iff.2 hf, List.dropWhile_eq_nil_iff.2 hf, readScale?, hne]
  | @scaled whole exponent hw hne =>
    have he := readExponent?_toString exponent
    generalize (toString exponent).toList = scale at he
    simp [readDecimal?, List.takeWhile_append_of_pos hw, List.dropWhile_append_of_pos hw, hmark,
      readScale?, he, hne]
  | @pointedScaled whole fraction exponent hw hne hf =>
    have he := readExponent?_toString exponent
    generalize (toString exponent).toList = scale at he
    simp [readDecimal?, List.takeWhile_append_of_pos hw, List.dropWhile_append_of_pos hw, hpoint,
      List.takeWhile_append_of_pos hf, List.dropWhile_append_of_pos hf, hmark, readScale?, he, hne]

theorem Numeral.startsWithDigit (h : Numeral cs d) : ∃ c rest, cs = c :: rest ∧ c.isDigit = true := by
  have hdigits {whole rest : List Char} (hw : AllDigits whole) (hne : whole ≠ []) :
      ∃ c tail, whole ++ rest = c :: tail ∧ c.isDigit = true := by
    obtain ⟨c, tail, rfl⟩ := List.exists_cons_of_ne_nil hne
    exact ⟨c, tail ++ rest, rfl, hw c List.mem_cons_self⟩
  cases h with
  | pointed hw hne | scaled hw hne | pointedScaled hw hne => exact hdigits hw hne

theorem Numeral.readSign_eq (h : Numeral cs d) : readSign cs = (false, cs) := by
  obtain ⟨c, rest, rfl, hc⟩ := h.startsWithDigit
  exact readSign_of_isDigit hc

theorem toLower_of_isDigit {c : Char} (h : c.isDigit = true) : c.toLower = c := by
  simp only [Char.isDigit, Bool.and_eq_true, decide_eq_true_eq] at h
  exact Text.toLower_eq_self (.inl (Nat.lt_of_le_of_lt (UInt32.le_iff_toNat_le.1 h.2) (by decide)))

/-- What a numeral is read as, behind a sign that was read already. -/
theorem Numeral.readFloat?_eq {cs text : List Char} {negative : Bool} (h : Numeral cs d)
    (hsign : readSign text = (negative, cs)) : readFloat? text = some (d.toFloat negative) := by
  obtain ⟨c, rest, rfl, hc⟩ := h.startsWithDigit
  -- The words that reading knows start with a letter.
  have hword (first : Char) (tail : List Char) (hfirst : first.isDigit = false) :
      String.ofList ((c :: rest).map Char.toLower) ≠ String.ofList (first :: tail) := by
    intro heq
    have heq := String.ofList_injective heq
    rw [List.map_cons, List.cons.injEq, toLower_of_isDigit hc] at heq
    rw [heq.1, hfirst] at hc
    cases hc
  have hinf := hword 'i' ['n', 'f'] (by decide)
  have hinfinity := hword 'i' ['n', 'f', 'i', 'n', 'i', 't', 'y'] (by decide)
  have hnan := hword 'n' ['a', 'n'] (by decide)
  simp only [readFloat?, hsign, h.readDecimal?_eq]
  rw [if_neg (not_or.2 ⟨hinf, hinfinity⟩), if_neg hnan]
  rfl

end Numerals

/-! ## Layouts -/

section Layouts
variable {digits : List Char} {point : Int}

theorem numeral_positional (hd : AllDigits digits) (hne : digits ≠ []) :
    ∃ d, Numeral (positional digits point) d ∧
      d.value = ofDigits digits * 10 ^ (point - digits.length) := by
  simp only [positional]
  split
  · next hpoint =>
    have hzero : AllDigits ['0'] := allDigits_zeros 1
    have h := Numeral.pointed hzero (by simp) ((allDigits_zeros (-point).toNat).append hd)
    refine ⟨_, by rw [List.append_assoc]; exact h, ?_⟩
    have hdigits : ofDigits (['0'] ++ (List.replicate (-point).toNat '0' ++ digits)) = ofDigits digits :=
      (ofDigits_zeros_append 1 _).trans (ofDigits_zeros_append _ digits)
    rw [Scientific.value, hdigits, List.length_append, List.length_replicate]
    dsimp only
    congr 2
    omega
  · next hpoint =>
    obtain ⟨n, rfl⟩ := Int.eq_ofNat_of_zero_le (show 0 ≤ point by omega)
    rw [Int.toNat_natCast]
    have hwhole : AllDigits (digits.take n ++ List.replicate (n - (digits.take n).length) '0') :=
      (hd.mono (List.take_subset _ _)).append (allDigits_zeros _)
    have htake : digits.take n ≠ [] := by
      rw [Ne, List.take_eq_nil_iff]
      rintro (h | h)
      · omega
      · exact hne h
    rcases Nat.lt_or_ge n digits.length with hlt | hge
    · have hdrop : (digits.drop n).isEmpty = false := by simpa using hlt
      have h := Numeral.pointed hwhole (by simp [htake]) (hd.mono (List.drop_subset n digits))
      have hlen : (digits.take n).length = n := List.length_take_of_le hlt.le
      refine ⟨_, by rw [hdrop, List.append_assoc _ ['.']]; exact h, ?_⟩
      rw [Scientific.value, hlen, Nat.sub_self, List.replicate_zero, List.append_nil,
        List.take_append_drop, List.length_drop]
      dsimp only
      congr 2
      omega
    · have hdrop : digits.drop n = [] := List.drop_eq_nil_iff.2 hge
      have hzero : AllDigits ['0'] := allDigits_zeros 1
      have h := Numeral.pointed hwhole (by simp [htake]) hzero
      refine ⟨_, by rw [hdrop, List.append_assoc _ ['.']]; exact h, ?_⟩
      have hone : ['0'] = List.replicate 1 '0' := rfl
      rw [Scientific.value, List.take_of_length_le hge, hone, List.append_assoc,
        List.replicate_append_replicate, ofDigits_append_zeros, List.length_replicate]
      push_cast
      rw [mul_comm ((10 : ℚ) ^ _), mul_assoc, ← zpow_natCast, ← zpow_add₀ (by norm_num)]
      congr 2
      omega

theorem numeral_exponential (hd : AllDigits digits) (hne : digits ≠ []) :
    ∃ d, Numeral (exponential digits point) d ∧
      d.value = ofDigits digits * 10 ^ (point - digits.length) := by
  have htake : AllDigits (digits.take 1) := hd.mono (List.take_subset _ _)
  have htakene : digits.take 1 ≠ [] := by simp [hne]
  have hpos : 0 < digits.length := List.length_pos_iff.2 hne
  simp only [exponential]
  split
  · next hle =>
    refine ⟨_, by rw [List.append_nil]; exact Numeral.scaled htake htakene, ?_⟩
    rw [Scientific.value, List.take_of_length_le hle]
    dsimp only
    congr 2
    omega
  · have h := @Numeral.pointedScaled _ _ (point - 1) htake htakene
      (hd.mono (List.drop_subset 1 digits))
    refine ⟨_, by rw [List.append_assoc]; exact h, ?_⟩
    rw [Scientific.value, List.take_append_drop, List.length_drop]
    dsimp only
    congr 2
    omega

end Layouts

/-! ## Floats -/

/-- The zeros that end a numeral are dropped, and the point tells how many there were. -/
theorem significant_value {d : Scientific} (h : d.digits ≠ 0) :
    AllDigits d.significant.1 ∧ d.significant.1 ≠ [] ∧
      (ofDigits d.significant.1 * 10 ^ (d.significant.2 - d.significant.1.length) : ℚ) = d.value := by
  generalize hkept : d.significant.1 = kept
  have hall := allDigits_toDigits d.digits
  -- The digits are the ones kept and zeros.
  obtain ⟨zeros, hzeros⟩ : ∃ n, Nat.toDigits 10 d.digits = kept ++ List.replicate n '0' := by
    refine ⟨((Nat.toDigits 10 d.digits).reverse.takeWhile (· == '0')).length, ?_⟩
    have htail : (Nat.toDigits 10 d.digits).reverse.takeWhile (· == '0') =
        List.replicate ((Nat.toDigits 10 d.digits).reverse.takeWhile (· == '0')).length '0' :=
      List.eq_replicate_iff.2 ⟨rfl, fun c hc => by simpa using List.mem_takeWhile_imp hc⟩
    rw [← hkept, Scientific.significant, ← List.reverse_inj, List.reverse_append, List.reverse_reverse,
      List.reverse_replicate, ← htail, List.takeWhile_append_dropWhile]
  have hdigits : d.digits = 10 ^ zeros * ofDigits kept := by
    rw [← ofDigits_append_zeros, ← hzeros, ofDigits_toDigits]
  have hpoint : d.significant.2 = ((kept.length + zeros : Nat) : Int) + d.exponent := by
    rw [Scientific.significant, hzeros, List.length_append, List.length_replicate]
  refine ⟨fun c hc => hall c (hzeros ▸ List.mem_append_left _ hc), ?_, ?_⟩
  · rintro rfl
    exact h (hdigits.trans (Nat.mul_zero _))
  · rw [Scientific.value, hdigits, hpoint]
    push_cast
    rw [mul_comm ((10 : ℚ) ^ _), mul_assoc, ← zpow_natCast, ← zpow_add₀ (by norm_num)]
    congr 2
    omega

/-- The digits of a float make a numeral of their value in either layout. -/
theorem Layout.numeral (layout : Layout) (hd : AllDigits digits) (hne : digits ≠ []) (point : ℤ) :
    ∃ d, Numeral (if layout.leastPoint ≤ point ∧ point ≤ layout.greatestPoint then positional digits point
        else exponential digits point) d ∧
      d.value = ofDigits digits * 10 ^ (point - digits.length) := by
  split
  · exact numeral_positional hd hne
  · exact numeral_exponential hd hne

/-- The written form of a float is plain, and the float is read from it. -/
theorem write_plain_readFloat? (layout : Layout) (x : Float) :
    (∀ c ∈ (layout.write x).toList, isPlain c = true) ∧
      readFloat? (layout.write x).toList = some x := by
  have hminus : isPlain '-' = true := by decide
  have hx := Float.ofBits_toBits x
  obtain ⟨negative, hsign, hbits⟩ := exists_sign x.toBits
  simp only [Layout.write]
  rw [hsign]
  -- What is not a number, infinity and zero have texts of their own.
  split
  · next h =>
    rw [eq_notANumber h]
    exact ⟨List.all_eq_true.1 (by decide), by decide⟩
  split
  · next h =>
    rw [h] at hbits
    rw [← hbits] at hx
    rw [← hx]
    cases negative <;> exact ⟨List.all_eq_true.1 (by decide), by decide⟩
  split
  · next h =>
    rw [h] at hbits
    rw [← hbits] at hx
    rw [← hx]
    cases negative <;> exact ⟨List.all_eq_true.1 (by decide), by decide⟩
  · next hnan hinf hzero =>
    -- All others are significant digits in one of the two layouts, behind the sign.
    have hfinite := Nat.lt_of_le_of_ne (Nat.not_lt.1 hnan) hinf
    have hcanonical := Binary.canonical_ofBits hfinite
    have hmantissa := Binary.mantissa_ofBits_ne_zero hzero
    have hnearest := Binary.nearest_shortest hmantissa
    obtain ⟨hd, hne, hvalue⟩ := significant_value (hnearest.digits_ne_zero hmantissa)
    rw [← hvalue] at hnearest
    generalize (Binary.ofBits x.toBits).shortest.significant = found at hd hne hnearest
    obtain ⟨digits, point⟩ := found
    obtain ⟨d, hbody, hdvalue⟩ := layout.numeral hd hne point
    rw [← hdvalue] at hnearest
    generalize (if layout.leastPoint ≤ point ∧ point ≤ layout.greatestPoint then
        positional digits point else exponential digits point) = body at hbody
    have hread : d.toFloat negative = x := by
      rw [hcanonical.toFloat_eq hmantissa hnearest, Binary.bits_ofBits, hbits, hx]
    rw [String.toList_append, String.toList_ofList, ← hread]
    cases negative with
    | false => exact ⟨hbody.plain, hbody.readFloat?_eq hbody.readSign_eq⟩
    | true =>
      refine ⟨fun c hc => ?_, hbody.readFloat?_eq rfl⟩
      rcases List.mem_cons.1 hc with rfl | hc
      · exact hminus
      · exact hbody.plain c hc

/-- The written form of a float is made of plain characters. -/
theorem plain_write (layout : Layout) (x : Float) : ∀ c ∈ (layout.write x).toList, isPlain c = true :=
  (write_plain_readFloat? layout x).1

/-- A float is read back from its written form, whatever its layout. -/
theorem readFloat?_write (layout : Layout) (x : Float) :
    readFloat? (layout.write x).toList = some x :=
  (write_plain_readFloat? layout x).2

end TextTables.Decimal
