import Mathlib.Data.List.Basic
import Mathlib.Tactic.Common
import TextTables.Text.Case
import TextTables.Text.Letter
/-!
# Texts in lower case

The lower case of a text has no capital ASCII letter in it, so texts that are their own lower case
differ only if they differ past the case of the ASCII letters. A text of ASCII letters has the case
mappings of every other way to capitalize it.
-/

namespace TextTables.Text

variable {c d : Char} {cs : List Char} {s t : String}

theorem toLower_eq_self (h : c.toNat < 0x41 ∨ 0x5A < c.toNat) : c.toLower = c := by
  refine dif_neg fun hupper => ?_
  have hlow : 0x41 ≤ c.toNat := hupper.1
  have hhigh : c.toNat ≤ 0x5A := hupper.2
  omega

/-- What holds of the capital ASCII letters, and of the characters that are their own lower case, holds of all. -/
theorem of_capitals {P : Char → Prop} (h : ∀ n < 0x5B, 0x41 ≤ n → P (Char.ofNat n)) (hself : c.toLower = c → P c) :
    P c := by
  by_cases hother : c.toNat < 0x41 ∨ 0x5A < c.toNat
  · exact hself (toLower_eq_self hother)
  · have hc := h c.toNat (by omega) (by omega)
    rwa [Char.ofNat_toNat] at hc

theorem toLower_toLower (c : Char) : c.toLower.toLower = c.toLower :=
  of_capitals (P := fun c => c.toLower.toLower = c.toLower) (by decide +kernel) fun h => by rw [h, h]

/-- No run of the table leads to a capital ASCII letter. -/
theorem lowerShifts_above : ∀ s ∈ lowerShifts, 0x5A < s.first + s.distance := by decide +kernel

theorem toLower_ofNat {n : Nat} (h : 0x5A < n) : (Char.ofNat n).toLower = Char.ofNat n := by
  by_cases hvalid : n.isValidChar
  · have hn : (Char.ofNat n).toNat = n := by
      rw [Char.ofNat, dif_pos hvalid]
      rfl
    exact toLower_eq_self (.inr (by omega))
  · rw [Char.ofNat, dif_neg hvalid]
    rfl

theorem move?_above {shift : CaseShift} (hshift : shift ∈ lowerShifts) {n k : Nat}
    (h : shift.move? n = some k) : 0x5A < k := by
  have habove := lowerShifts_above shift hshift
  simp only [CaseShift.move?] at h
  split at h
  · next hrange =>
    cases h
    simp only [Bool.and_eq_true, decide_eq_true_eq] at hrange
    omega
  · cases h

theorem toLower_of_mem_lowerChar (h : c ∈ lowerChar d) : c.toLower = c := by
  unfold lowerChar at h
  split at h
  · rw [List.mem_singleton.1 h, toLower_toLower]
  · next hwide =>
    split at h
    · simp only [List.mem_cons, List.not_mem_nil, or_false] at h
      rcases h with rfl | rfl <;> rfl
    · rw [List.mem_singleton.1 h]
      cases hmove : lowerShifts.findSome? (·.move? d.toNat) with
      | none => exact toLower_ofNat (by rw [Option.getD_none]; omega)
      | some k =>
        obtain ⟨shift, hshift, hk⟩ := List.exists_of_findSome?_eq_some hmove
        exact toLower_ofNat (move?_above hshift hk)

theorem toLower_of_mem_lowerAfter {before : List Char} (h : c ∈ lowerAfter before cs) : c.toLower = c := by
  induction cs generalizing before with
  | nil => cases h
  | cons d rest ih =>
    simp only [lowerAfter] at h
    rcases List.mem_append.1 h with h | h
    · split at h
      · split at h <;> (rw [List.mem_singleton.1 h]; decide)
      · exact toLower_of_mem_lowerChar h
    · exact ih h

/-- Texts in lower case are the same if they are past the case of the ASCII letters. -/
theorem sameIgnoringCase_iff (hs : lowerCase s = s) (ht : lowerCase t = t) :
    sameIgnoringCase s t = true ↔ s = t := by
  have hmap {s : String} (hs : lowerCase s = s) : s.toList.map Char.toLower = s.toList := by
    refine (List.map_congr_left fun c hc => ?_).trans (List.map_id _)
    rw [← hs, lowerCase, String.toList_ofList] at hc
    exact toLower_of_mem_lowerAfter hc
  rw [sameIgnoringCase, hmap hs, hmap ht, beq_iff_eq, String.toList_inj]

/-! ## Past the case of ASCII letters -/

theorem toLower_eq_sigma : c.toLower = 'Σ' ↔ c = 'Σ' :=
  of_capitals (P := fun c => c.toLower = 'Σ' ↔ c = 'Σ') (by decide +kernel) fun h => by rw [h]

theorem lowerChar_toLower (c : Char) : lowerChar c.toLower = lowerChar c :=
  of_capitals (P := fun c => lowerChar c.toLower = lowerChar c) (by decide +kernel) fun h => by rw [h]

theorem caseIgnorable_toLower (c : Char) :
    inRanges caseIgnorableRanges c.toLower.toNat = inRanges caseIgnorableRanges c.toNat :=
  of_capitals (P := fun c => inRanges caseIgnorableRanges c.toLower.toNat = inRanges caseIgnorableRanges c.toNat)
    (by decide +kernel) fun h => by rw [h]

theorem cased_toLower (c : Char) : inRanges casedRanges c.toLower.toNat = inRanges casedRanges c.toNat :=
  of_capitals (P := fun c => inRanges casedRanges c.toLower.toNat = inRanges casedRanges c.toNat)
    (by decide +kernel) fun h => by rw [h]

theorem meetsCased_toLower (cs : List Char) : meetsCased (cs.map Char.toLower) = meetsCased cs := by
  induction cs with
  | nil => rfl
  | cons c rest ih =>
    unfold meetsCased at ih ⊢
    rw [List.map_cons, List.dropWhile_cons, List.dropWhile_cons, caseIgnorable_toLower]
    by_cases hc : inRanges caseIgnorableRanges c.toNat = true
    · rwa [if_pos hc, if_pos hc]
    · rw [if_neg hc, if_neg hc]
      exact cased_toLower c

theorem lowerAfter_toLower (before cs : List Char) :
    lowerAfter (before.map Char.toLower) (cs.map Char.toLower) = lowerAfter before cs := by
  induction cs generalizing before with
  | nil => rfl
  | cons c rest ih =>
    have hrest := ih (c :: before)
    rw [List.map_cons] at hrest
    rw [List.map_cons, lowerAfter, lowerAfter, hrest, lowerChar_toLower, meetsCased_toLower, meetsCased_toLower]
    simp only [toLower_eq_sigma]

/-- Texts that differ in the case of ASCII letters only have the same lower case. -/
theorem lowerCase_eq_of_sameIgnoringCase (h : sameIgnoringCase s t = true) : lowerCase s = lowerCase t := by
  rw [sameIgnoringCase, beq_iff_eq] at h
  have hs := lowerAfter_toLower [] s.toList
  have ht := lowerAfter_toLower [] t.toList
  rw [lowerCase, lowerCase, lower, lower, ← hs, h, ← ht]

/-! ## Marks stay marks -/

/-- An ASCII character below the letters is the lower case of nothing but itself. -/
theorem eq_of_mem_lowerChar (hlow : 0 < c.toNat) (hhigh : c.toNat < 0x41) (h : c ∈ lowerChar d) : c = d := by
  unfold lowerChar at h
  split at h
  · rw [List.mem_singleton] at h
    subst h
    exact of_capitals (P := fun c => c.toLower.toNat < 0x41 → c.toLower = c) (by decide +kernel) (fun h _ => h) hhigh
  · split at h
    · simp only [List.mem_cons, List.not_mem_nil, or_false] at h
      rcases h with rfl | rfl <;> exact absurd hhigh (by decide)
    · rw [List.mem_singleton] at h
      cases hmove : lowerShifts.findSome? (·.move? d.toNat) with
      | none => rw [h, hmove, Option.getD_none, Char.ofNat_toNat]
      | some k =>
        obtain ⟨shift, hshift, hk⟩ := List.exists_of_findSome?_eq_some hmove
        have habove := move?_above hshift hk
        rw [hmove, Option.getD_some] at h
        by_cases hvalid : k.isValidChar
        · have hk : c.toNat = k := by
            rw [h, Char.ofNat, dif_pos hvalid]
            rfl
          omega
        · rw [h, Char.ofNat, dif_neg hvalid] at hlow
          exact absurd hlow (by decide)

theorem mem_of_mem_lowerAfter {before : List Char} (hlow : 0 < c.toNat) (hhigh : c.toNat < 0x41)
    (h : c ∈ lowerAfter before cs) : c ∈ cs := by
  induction cs generalizing before with
  | nil => cases h
  | cons d rest ih =>
    rw [lowerAfter] at h
    rcases List.mem_append.1 h with h | h
    · split at h
      · split at h <;> (rw [List.mem_singleton.1 h] at hhigh; exact absurd hhigh (by decide))
      · rw [eq_of_mem_lowerChar hlow hhigh h]
        exact List.mem_cons_self
    · exact List.mem_cons_of_mem _ (ih h)

theorem lowerChar_ne_nil (c : Char) : lowerChar c ≠ [] := by
  unfold lowerChar
  split
  · exact List.cons_ne_nil _ _
  · split <;> exact List.cons_ne_nil _ _

theorem lower_ne_nil (h : cs ≠ []) : lower cs ≠ [] := by
  obtain ⟨c, rest, rfl⟩ := List.exists_cons_of_ne_nil h
  rw [lower, lowerAfter]
  refine List.append_ne_nil_of_left_ne_nil ?_ _
  split
  · split <;> exact List.cons_ne_nil _ _
  · exact lowerChar_ne_nil c

/-! ## Texts of ASCII letters -/

section Letters
variable {before : List Char}

theorem toNat_of_isLower (h : c.isLower = true) : 'a'.toNat ≤ c.toNat ∧ c.toNat ≤ 'z'.toNat := by
  have hbounds : (decide ('a'.val ≤ c.val) && decide (c.val ≤ 'z'.val)) = true := h
  rw [Bool.and_eq_true, decide_eq_true_eq, decide_eq_true_eq] at hbounds
  exact ⟨UInt32.le_iff_toNat_le.1 hbounds.1, UInt32.le_iff_toNat_le.1 hbounds.2⟩

/-- What the case mappings do to an ASCII letter. -/
theorem letter_cases (h : c.toLower.isLower = true) :
    c ≠ 'Σ' ∧ lowerChar c = [c.toLower] ∧ upperChar c = upperChar c.toLower ∧ isLetter c = true := by
  have hlt : c.toNat < 0x7B := by
    by_contra hge
    have hself : c.toLower = c := toLower_eq_self (.inr (by omega))
    rw [hself] at h
    exact hge (Nat.lt_succ_of_le (toNat_of_isLower h).2)
  have hall : ∀ n < 0x7B, (Char.ofNat n).toLower.isLower = true → Char.ofNat n ≠ 'Σ' ∧
      lowerChar (Char.ofNat n) = [(Char.ofNat n).toLower] ∧
      upperChar (Char.ofNat n) = upperChar (Char.ofNat n).toLower ∧ isLetter (Char.ofNat n) = true := by
    decide +kernel
  have hc := hall c.toNat hlt
  rw [Char.ofNat_toNat] at hc
  exact hc h

theorem lowerAfter_letters (h : ∀ c ∈ cs, c.toLower.isLower = true) :
    lowerAfter before cs = cs.map Char.toLower := by
  induction cs generalizing before with
  | nil => rfl
  | cons c cs ih =>
    obtain ⟨hc, hcs⟩ := List.forall_mem_cons.1 h
    obtain ⟨hsigma, hlower, -⟩ := letter_cases hc
    rw [lowerAfter, if_neg hsigma, hlower, ih hcs]
    rfl

theorem upper_letters (h : ∀ c ∈ cs, c.toLower.isLower = true) : upper cs = upper (cs.map Char.toLower) := by
  rw [upper, upper, List.flatMap_map]
  exact List.flatMap_congr fun c hc => (letter_cases (h c hc)).2.2.1

/-- A text that differs at most in case from one of small ASCII letters has letters only. -/
theorem letters_of_sameIgnoringCase (ht : ∀ c ∈ t.toList, c.isLower = true) (h : sameIgnoringCase s t = true) :
    s.toList.map Char.toLower = t.toList ∧ ∀ c ∈ s.toList, c.toLower.isLower = true := by
  have hsmall : t.toList.map Char.toLower = t.toList := by
    refine (List.map_congr_left fun c hc => ?_).trans (List.map_id _)
    exact toLower_eq_self (.inr (Nat.lt_of_lt_of_le (by decide) (toNat_of_isLower (ht c hc)).1))
  rw [sameIgnoringCase, beq_iff_eq, hsmall] at h
  exact ⟨h, fun c hc => ht _ (h ▸ List.mem_map_of_mem hc)⟩

theorem lowerCase_of_sameIgnoringCase (ht : ∀ c ∈ t.toList, c.isLower = true) (h : sameIgnoringCase s t = true) :
    lowerCase s = t := by
  obtain ⟨hmap, hletters⟩ := letters_of_sameIgnoringCase ht h
  rw [lowerCase, lower, lowerAfter_letters hletters, hmap, String.ofList_toList]

theorem upperCase_of_sameIgnoringCase (ht : ∀ c ∈ t.toList, c.isLower = true) (h : sameIgnoringCase s t = true) :
    upperCase s = upperCase t := by
  obtain ⟨hmap, hletters⟩ := letters_of_sameIgnoringCase ht h
  rw [upperCase, upperCase, upper_letters hletters, hmap]

/-- No run of the table leads from beyond ASCII to a small ASCII letter, but for the sign of the kelvin. -/
theorem lowerShifts_beyond : ∀ s ∈ lowerShifts, s.last < 0x80 ∨ 0x7A < s.first + s.distance ∨
    s.first = s.last ∧ s.first + s.distance = 0x6B := by decide +kernel

theorem not_isLower_ofNat {n : Nat} (h : 0x7A < n) : (Char.ofNat n).isLower = false := by
  rw [← Bool.not_eq_true]
  intro hlower
  by_cases hvalid : n.isValidChar
  · have hn : (Char.ofNat n).toNat = n := by
      rw [Char.ofNat, dif_pos hvalid]
      rfl
    have hle : (Char.ofNat n).toNat ≤ 0x7A := (toNat_of_isLower hlower).2
    omega
  · rw [Char.ofNat, dif_neg hvalid] at hlower
    exact absurd hlower (by decide)

/-- A character whose lower case is small ASCII letters is an ASCII letter, or the sign of the kelvin. -/
theorem lowerChar_of_small (h : ∀ d ∈ lowerChar c, d.isLower = true ∧ d ≠ 'k') : lowerChar c = [c.toLower] := by
  unfold lowerChar at h ⊢
  split
  · rfl
  · next hwide =>
    rw [if_neg hwide] at h
    split at h
    · -- The dotted capital has a mark in its lower case that is no letter.
      exact absurd (h '\u0307' (by simp)).1 (by decide)
    · obtain ⟨hlower, hkelvin⟩ := h _ (List.mem_singleton_self _)
      cases hmove : lowerShifts.findSome? (·.move? c.toNat) with
      | none =>
        rw [hmove, Option.getD_none, not_isLower_ofNat (by omega)] at hlower
        cases hlower
      | some k =>
        obtain ⟨shift, hshift, hk⟩ := List.exists_of_findSome?_eq_some hmove
        rw [hmove, Option.getD_some] at hlower hkelvin
        have hbeyond := lowerShifts_beyond shift hshift
        simp only [CaseShift.move?] at hk
        split at hk
        · next hrange =>
          cases hk
          simp only [Bool.and_eq_true, decide_eq_true_eq] at hrange
          by_cases hletter : 0x7A < (c.toNat + shift.distance).toNat
          · rw [not_isLower_ofNat hletter] at hlower
            cases hlower
          · have hk : (c.toNat + shift.distance).toNat = 0x6B := by omega
            rw [hk] at hkelvin
            exact absurd rfl hkelvin
        · cases hk

theorem lowerAfter_of_small (h : ∀ d ∈ lowerAfter before cs, d.isLower = true ∧ d ≠ 'k') :
    lowerAfter before cs = cs.map Char.toLower := by
  induction cs generalizing before with
  | nil => rfl
  | cons c rest ih =>
    rw [lowerAfter] at h ⊢
    obtain ⟨hc, hrest⟩ := List.forall_mem_append.1 h
    rw [ih hrest]
    split
    · next hsigma =>
      rw [if_pos hsigma] at hc
      split at hc <;> exact absurd (hc _ (List.mem_singleton_self _)).1 (by decide)
    · next hsigma =>
      rw [if_neg hsigma] at hc
      rw [lowerChar_of_small hc]
      rfl

/-- A text has a lower case of small ASCII letters only if it differs from that in case at most. The letter
`k` is left out, since it is the lower case of another sign too. -/
theorem lowerCase_eq_iff_sameIgnoringCase (ht : ∀ c ∈ t.toList, c.isLower = true ∧ c ≠ 'k') :
    lowerCase s = t ↔ sameIgnoringCase s t = true := by
  refine ⟨?_, lowerCase_of_sameIgnoringCase fun c hc => (ht c hc).1⟩
  rintro rfl
  rw [lowerCase, String.toList_ofList] at ht
  have hlower := lowerAfter_of_small ht
  rw [sameIgnoringCase, beq_iff_eq, lowerCase, String.toList_ofList, lower, hlower, List.map_map]
  refine List.map_congr_left fun c _ => ?_
  rw [Function.comp_apply, toLower_toLower]

end Letters

end TextTables.Text
