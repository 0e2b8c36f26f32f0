import Mathlib.Tactic.Common
import TextTables.Schema
import TextTables.Text.Blank
import TextTables.Text.Numeral
/-!
# Blanks and words

Which characters are blanks, trimming and splitting of texts whose blanks are known, and that the
characters of a word are neither blanks nor characters that a table file gives a meaning to.
-/

namespace TextTables.Text

variable {c : Char} {cs w v : List Char}

/-! ## Plain characters -/

/-- Whether a character is neither a blank nor one that separates values or marks a lock line. -/
def isPlain (c : Char) : Bool := !isBlank c && c != '|' && c != '&'

theorem isBlank_of_isPlain (h : isPlain c = true) : isBlank c = false := by
  simp only [isPlain, Bool.and_eq_true, Bool.not_eq_true'] at h
  exact h.1.1

theorem ne_bar_of_isPlain (h : isPlain c = true) : c ≠ '|' := by
  rintro rfl
  revert h
  decide

theorem ne_ampersand_of_isPlain (h : isPlain c = true) : c ≠ '&' := by
  rintro rfl
  revert h
  decide

/-- Two lists of ranges with no code point in common. -/
def Apart (rs ss : List (Nat × Nat)) : Bool := rs.all fun r => ss.all fun s => r.2 < s.1 || s.2 < r.1

theorem Apart.not_inRanges {rs ss : List (Nat × Nat)} (h : Apart rs ss = true) {n : Nat}
    (hr : inRanges rs n = true) : inRanges ss n = false := by
  rw [← Bool.not_eq_true]
  intro hs
  obtain ⟨r, hrmem, hrn⟩ := List.any_eq_true.1 hr
  obtain ⟨s, hsmem, hsn⟩ := List.any_eq_true.1 hs
  have hapart := List.all_eq_true.1 (List.all_eq_true.1 h r hrmem) s hsmem
  simp only [Bool.and_eq_true, decide_eq_true_eq, Bool.or_eq_true] at hrn hsn hapart
  omega

theorem blankRanges_apart_letterRanges : Apart blankRanges letterRanges = true := by decide +kernel

theorem blankRanges_apart_numeralRanges : Apart blankRanges numeralRanges = true := by decide +kernel

/-- Closed ranges of the ASCII characters that may stand in a word. -/
def asciiWordRanges : List (Nat × Nat) := [(0x30, 0x39), (0x41, 0x5A), (0x5F, 0x5F), (0x61, 0x7A)]

theorem blankRanges_apart_asciiWordRanges : Apart blankRanges asciiWordRanges = true := by decide

theorem isWordChar_cases (h : isWordChar c = true) :
    inRanges asciiWordRanges c.toNat = true ∨ inRanges letterRanges c.toNat = true ∨
      inRanges numeralRanges c.toNat = true := by
  -- Below 0x80 the classes are those of ASCII, and above it the tables decide.
  by_cases hlt : c.toNat < 0x80
  · left
    have halpha : c.isAlpha = (decide ('A'.val ≤ c.val ∧ c.val ≤ 'Z'.val) ||
        ('a'.val ≤ c.val && c.val ≤ 'z'.val)) := rfl
    simp only [isWordChar, isLetter, isNumeral, if_pos hlt, halpha, Char.isDigit, Bool.or_eq_true,
      Bool.and_eq_true, decide_eq_true_eq, beq_iff_eq, UInt32.le_iff_toNat_le, ge_iff_le] at h
    have hcode : c.val.toNat = c.toNat := rfl
    simp only [inRanges, asciiWordRanges, List.any_cons, List.any_nil, Bool.or_false, Bool.or_eq_true,
      Bool.and_eq_true, decide_eq_true_eq]
    rcases h with ((⟨h1, h2⟩ | ⟨h1, h2⟩) | ⟨h1, h2⟩) | rfl
    · right; left; exact ⟨h1, h2⟩
    · right; right; right; exact ⟨h1, h2⟩
    · left; exact ⟨h1, h2⟩
    · decide
  · simp only [isWordChar, isLetter, isNumeral, if_neg hlt, Bool.or_eq_true, beq_iff_eq] at h
    rcases h with (h | h) | rfl
    · exact .inr (.inl h)
    · exact .inr (.inr h)
    · exact absurd (by decide) hlt

/-- The characters of words are plain. -/
theorem isPlain_of_isWordChar (h : isWordChar c = true) : isPlain c = true := by
  have hblank : isBlank c = false := by
    rw [← Bool.not_eq_true]
    intro hb
    -- No table of characters that may stand in a word has a blank in it.
    have hnot {ranges : List (Nat × Nat)} (hapart : Apart blankRanges ranges = true) :
        ¬ inRanges ranges c.toNat = true := by simp [Apart.not_inRanges hapart hb]
    rcases isWordChar_cases h with h | h | h
    · exact hnot blankRanges_apart_asciiWordRanges h
    · exact hnot blankRanges_apart_letterRanges h
    · exact hnot blankRanges_apart_numeralRanges h
  have hbar : c ≠ '|' := by
    rintro rfl
    revert h
    decide
  have hamp : c ≠ '&' := by
    rintro rfl
    revert h
    decide
  simp [isPlain, hblank, hbar, hamp]

theorem isWordChar_of_isDigit (h : c.isDigit = true) : isWordChar c = true := by
  have hlt : c.toNat < 0x80 := by
    simp only [Char.isDigit, Bool.and_eq_true, decide_eq_true_eq, UInt32.le_iff_toNat_le] at h
    have hcode : c.val.toNat = c.toNat := rfl
    have hnine : '9'.val.toNat = 57 := rfl
    omega
  simp [isWordChar, isNumeral, if_pos hlt, h]

theorem isWord_iff : isWord cs = true ↔ cs ≠ [] ∧ ∀ c ∈ cs, isWordChar c = true := by
  simp [isWord]

theorem isPlain_of_isDigit (h : c.isDigit = true) : isPlain c = true :=
  isPlain_of_isWordChar (isWordChar_of_isDigit h)

/-! ## Trimming -/

theorem trim_eq_self (hfirst : ∀ c ∈ cs.head?, isBlank c = false)
    (hlast : ∀ c ∈ cs.getLast?, isBlank c = false) : trim cs = cs := by
  have hstart : trimStart cs = cs := by
    cases cs with
    | nil => rfl
    | cons c rest => simp [trimStart, hfirst c rfl]
  rw [trim, hstart, trimEnd]
  cases hr : cs.reverse with
  | nil => simpa using congrArg List.reverse hr
  | cons c rest =>
    have hc : isBlank c = false := by
      apply hlast
      rw [List.getLast?_eq_head?_reverse, hr]
      rfl
    rw [List.dropWhile_cons_of_neg (by simp [hc]), ← hr, List.reverse_reverse]

theorem trim_eq_self_of_isPlain (h : ∀ c ∈ cs, isPlain c = true) : trim cs = cs :=
  trim_eq_self (fun c hc => isBlank_of_isPlain (h c (List.mem_of_mem_head? hc)))
    fun c hc => isBlank_of_isPlain (h c (List.mem_of_mem_getLast? hc))

/-! ## Splitting -/

theorem splitOn_append {α : Type} [DecidableEq α] {a : α} {as bs : List α} (h : a ∉ as) :
    (as ++ bs).splitOn a = (bs.splitOn a).modifyHead (as ++ ·) := by
  induction as with
  | nil =>
    rw [List.nil_append]
    cases bs.splitOn a <;> rfl
  | cons c as ih =>
    obtain ⟨hne, h⟩ := not_or.1 (mt List.mem_cons.2 h)
    have hc : (c == a) = false := by simpa using Ne.symm hne
    rw [List.cons_append, List.splitOn_cons_eq_if_modifyHead, hc, ih h]
    cases bs.splitOn a <;> simp

theorem mem_splitOnP {p : Char → Bool} (h : w ∈ cs.splitOnP p) (hc : c ∈ w) :
    p c = false ∧ c ∈ cs := by
  induction cs generalizing w with
  | nil => simp_all
  | cons x xs ih =>
    rw [List.splitOnP_cons_eq_if_modifyHead] at h
    split at h
    · rcases List.mem_cons.1 h with rfl | h
      · cases hc
      · exact (ih h hc).imp_right (List.mem_cons_of_mem x)
    · next hx =>
      obtain ⟨first, rest, hsplit⟩ := List.exists_cons_of_ne_nil (List.splitOnP_ne_nil p xs)
      rw [hsplit, List.modifyHead_cons] at h
      rcases List.mem_cons.1 h with rfl | h
      · rcases List.mem_cons.1 hc with rfl | hc
        · exact ⟨by simpa using hx, List.mem_cons_self⟩
        · exact (ih (hsplit ▸ List.mem_cons_self) hc).imp_right (List.mem_cons_of_mem x)
      · exact (ih (hsplit ▸ List.mem_cons_of_mem first h) hc).imp_right (List.mem_cons_of_mem x)

theorem mem_words (h : w ∈ words cs) : w ≠ [] ∧ ∀ c ∈ w, isBlank c = false := by
  obtain ⟨hw, hne⟩ := List.mem_filter.1 h
  exact ⟨by simpa using hne, fun c hc => (mem_splitOnP hw hc).1⟩

/-- Two words with a space between them. -/
theorem words_two (hw : w ≠ []) (hv : v ≠ []) (hwb : ∀ c ∈ w, isBlank c = false)
    (hvb : ∀ c ∈ v, isBlank c = false) : words (w ++ ' ' :: v) = [w, v] := by
  rw [words, List.splitOnP_append_cons_of_forall_mem hwb ' ' (by decide),
    List.splitOnP_eq_singleton hvb]
  simp [hw, hv]

/-! ## Blanks around texts -/

theorem words_of_blanks (h : ∀ c ∈ cs, isBlank c = true) : words cs = [] := by
  induction cs with
  | nil => rfl
  | cons c rest ih =>
    obtain ⟨hc, hrest⟩ := List.forall_mem_cons.1 h
    rw [words, List.splitOnP_cons_eq_if_modifyHead, if_pos hc, List.filter_cons_of_neg (by simp)]
    exact ih hrest

theorem words_append_cons (hc : isBlank c = true) : words (w ++ c :: v) = words w ++ words v := by
  rw [words, List.splitOnP_append_cons w v hc, List.filter_append]
  rfl

/-- Blanks behind a text add no word, -/
theorem words_append_blanks (h : ∀ c ∈ v, isBlank c = true) : words (w ++ v) = words w := by
  cases v with
  | nil => rw [List.append_nil]
  | cons c v =>
    obtain ⟨hc, hv⟩ := List.forall_mem_cons.1 h
    rw [words_append_cons hc, words_of_blanks hv, List.append_nil]

/-- and neither do blanks in front of it. -/
theorem words_blanks_append (h : ∀ c ∈ v, isBlank c = true) : words (v ++ w) = words w := by
  rcases List.eq_nil_or_concat v with rfl | ⟨front, c, rfl⟩
  · rfl
  · obtain ⟨hfront, hc⟩ := List.forall_mem_append.1 (List.concat_eq_append ▸ h)
    have hlast := hc c (List.mem_singleton_self c)
    rw [List.concat_eq_append, List.append_assoc, List.singleton_append, words_append_cons hlast,
      words_of_blanks hfront, List.nil_append]

theorem splitOn_append_right {a : Char} (h : a ∉ v) (cs : List Char) :
    ∃ front last, cs.splitOn a = front ++ [last] ∧ (cs ++ v).splitOn a = front ++ [last ++ v] := by
  induction cs with
  | nil => exact ⟨[], [], rfl, List.splitOn_eq_singleton h⟩
  | cons c rest ih =>
    obtain ⟨front, last, hsplit, happend⟩ := ih
    rw [List.cons_append, List.splitOn_cons_eq_if_modifyHead, List.splitOn_cons_eq_if_modifyHead, hsplit, happend]
    split
    · exact ⟨[] :: front, last, rfl, rfl⟩
    · cases front with
      | nil => exact ⟨[], c :: last, rfl, rfl⟩
      | cons piece front => exact ⟨(c :: piece) :: front, last, rfl, rfl⟩

/-- A text is its trimmed form with blanks around it. -/
theorem exists_trim (cs : List Char) : ∃ front back, cs = front ++ trim cs ++ back ∧
    (∀ c ∈ front, isBlank c = true) ∧ ∀ c ∈ back, isBlank c = true := by
  refine ⟨cs.takeWhile isBlank, ((trimStart cs).reverse.takeWhile isBlank).reverse, ?_,
    List.all_eq_true.1 List.all_takeWhile,
    fun c hc => List.all_eq_true.1 List.all_takeWhile c (List.mem_reverse.1 hc)⟩
  rw [trim, trimEnd, List.append_assoc, ← List.reverse_append, List.takeWhile_append_dropWhile, List.reverse_reverse,
    trimStart, List.takeWhile_append_dropWhile]

/-- The pieces of a text have the words that those of the trimmed text have. -/
theorem words_pieces_trim {a : Char} (ha : isBlank a = false) (cs : List Char) :
    ((trim cs).splitOn a).map words = (cs.splitOn a).map words := by
  obtain ⟨front, back, hcs, hfront, hback⟩ := exists_trim cs
  have hnot {v : List Char} (hv : ∀ c ∈ v, isBlank c = true) : a ∉ v := fun hmem => by
    rw [hv a hmem] at ha
    cases ha
  obtain ⟨pieces, last, hsplit, happend⟩ := splitOn_append_right (hnot hback) (trim cs)
  conv_rhs => rw [hcs, List.append_assoc, splitOn_append (hnot hfront), happend]
  rw [hsplit]
  cases pieces with
  | nil => simp [words_append_blanks hback, words_blanks_append hfront]
  | cons piece pieces => simp [words_append_blanks hback, words_blanks_append hfront]

/-! ## Texts put together -/

theorem head?_intercalate {sep first : List Char} {rest : List (List Char)} (h : first ≠ []) :
    (List.intercalate sep (first :: rest)).head? = first.head? := by
  obtain ⟨c, tail, rfl⟩ := List.exists_cons_of_ne_nil h
  cases rest with
  | nil => simp
  | cons second rest => simp [List.intercalate_cons_cons]

theorem getLast?_intercalate {sep : List Char} {ls : List (List Char)} (hne : ls ≠ [])
    (h : ∀ l ∈ ls, l ≠ []) : ∃ l ∈ ls, (List.intercalate sep ls).getLast? = l.getLast? := by
  induction ls with
  | nil => exact absurd rfl hne
  | cons first rest ih =>
    cases rest with
    | nil => exact ⟨first, List.mem_cons_self, by simp⟩
    | cons second rest =>
      obtain ⟨l, hl, hlast⟩ := ih (List.cons_ne_nil _ _) fun l hl => h l (List.mem_cons_of_mem first hl)
      obtain ⟨c, tail, rfl⟩ := List.exists_cons_of_ne_nil (h l (List.mem_cons_of_mem first hl))
      refine ⟨c :: tail, List.mem_cons_of_mem first hl, ?_⟩
      have hsome : (c :: tail).getLast?.isSome = true := by simp
      rw [List.intercalate_cons_cons, List.getLast?_append, hlast, Option.or_of_isSome hsome]

theorem intercalate_concat {α : Type} {sep l : List α} {ls : List (List α)} (h : ls ≠ []) :
    List.intercalate sep (ls ++ [l]) = List.intercalate sep ls ++ sep ++ l := by
  induction ls with
  | nil => exact absurd rfl h
  | cons first rest ih =>
    cases rest with
    | nil => simp [List.intercalate_cons_cons]
    | cons second rest =>
      have hrest := ih (List.cons_ne_nil _ _)
      rw [List.cons_append] at hrest ⊢
      rw [List.cons_append, List.intercalate_cons_cons, hrest, List.intercalate_cons_cons]
      simp only [List.append_assoc]

theorem mem_intercalate {α : Type} {sep : List α} {ls : List (List α)} {a : α}
    (h : a ∈ List.intercalate sep ls) : a ∈ sep ∨ ∃ l ∈ ls, a ∈ l := by
  induction ls with
  | nil => simp at h
  | cons first rest ih =>
    cases rest with
    | nil => exact .inr ⟨first, List.mem_cons_self, by simpa using h⟩
    | cons second rest =>
      rw [List.intercalate_cons_cons, List.mem_append, List.mem_append] at h
      rcases h with (h | h) | h
      · exact .inr ⟨first, List.mem_cons_self, h⟩
      · exact .inl h
      · obtain h | ⟨l, hl, ha⟩ := ih h
        · exact .inl h
        · exact .inr ⟨l, List.mem_cons_of_mem first hl, ha⟩

end TextTables.Text
