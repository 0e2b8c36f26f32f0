import TextTables.Proofs.Syntax.Lexemes
/-!
# Tokens as text

Tokens are written with a space between any two of them, and lexing the text gives them back
(`lex_writeAll`). A space ends every lexeme, so what a token is lexed as does not depend on what comes
behind the space (`Lexes`).
-/

namespace TextTables

open Decimal (AllDigits)

/-! ## Tokens that can be written -/

/-- A word that is read as a name: it starts as one, and it is no keyword in any case. -/
def IsName (s : String) : Prop :=
  s.toList.head?.any startsWord = true ∧ isWord s.toList = true ∧ Keyword.ofWord? s = none

instance (s : String) : Decidable (IsName s) := inferInstanceAs (Decidable (_ ∧ _ ∧ _))

theorem IsName.of_sameIgnoringCase {s t : String} (h : IsName t) (ht : ∀ c ∈ t.toList, c.isLower = true)
    (hsame : Text.sameIgnoringCase s t = true) : IsName s := by
  obtain ⟨hmap, hletters⟩ := Text.letters_of_sameIgnoringCase ht hsame
  have hstarts (c : Char) (hc : c ∈ s.toList) : startsWord c = true := by
    rw [startsWord, (Text.letter_cases (hletters c hc)).2.2.2, Bool.true_or]
  have hne : s.toList ≠ [] := by
    intro hnil
    rw [hnil, List.map_nil] at hmap
    exact (Text.isWord_iff.1 h.2.1).1 hmap.symm
  obtain ⟨c, cs, hcs⟩ := List.exists_cons_of_ne_nil hne
  refine ⟨?_, Text.isWord_iff.2 ⟨hne, fun c hc => isWordChar_of_startsWord (hstarts c hc)⟩, ?_⟩
  · rw [hcs]
    exact hstarts c (by simp [hcs])
  · have hword : Keyword.ofWord? s = Keyword.ofWord? t := by
      rw [Keyword.ofWord?, Keyword.ofWord?, Text.upperCase_of_sameIgnoringCase ht hsame]
    rw [hword, h.2.2]

/-- A token that can be written: a name is one, a number is digits, and a text has no quote that would end
it. -/
def Token.Writable : Token → Prop
  | .name s => IsName s
  | .number s => AllDigits s.toList ∧ s.toList ≠ []
  | .text s => '\'' ∉ s.toList
  | _ => True

/-- A token as it is written: texts are quoted, and all others are written as messages show them. -/
def Token.written : Token → String
  | .text s => "'" ++ s ++ "'"
  | t => t.render

/-- Tokens with single spaces between them. -/
def Token.writeAll (ts : List Token) : String := String.intercalate " " (ts.map Token.written)

/-! ## Scans -/

section Scans
variable {scan : Scan} {t : Token} {cs rest read : List Char} {c : Char}

/-- Nothing comes, or a space does. -/
def Gap (rest : List Char) : Prop := ∀ c ∈ rest.head?, c = ' '

theorem startScan_space : startScan ' ' = ([], .between) := by decide

theorem lexFrom_space (rest : List Char) : lexFrom .between (' ' :: rest) = lexFrom .between rest := by
  rw [lexFrom, continueScan]
  simp only [startScan_space, List.nil_append]

/-- A lexeme ends at the end of the text, and at a character that is not part of it. -/
theorem lexFrom_end (hend : endScan scan = [.ok t])
    (hrest : ∀ c ∈ rest.head?, continueScan scan c = ([.ok t], none)) :
    lexFrom scan rest = .ok t :: lexFrom .between rest := by
  cases rest with
  | nil => exact hend
  | cons c rest =>
    rw [lexFrom, hrest c rfl, lexFrom, continueScan]
    rfl

theorem lexFrom_gap (hend : endScan scan = [.ok t]) (hspace : continueScan scan ' ' = ([.ok t], none))
    (hrest : Gap rest) : lexFrom scan rest = .ok t :: lexFrom .between rest :=
  lexFrom_end hend fun c hc => by rw [hrest c hc, hspace]

theorem lexFrom_word (hcs : ∀ c ∈ cs, Text.isWordChar c = true) (hrest : Gap rest) :
    lexFrom (.word read) (cs ++ rest) = .ok (wordToken (read.reverse ++ cs)) :: lexFrom .between rest := by
  induction cs generalizing read with
  | nil =>
    have hspace : continueScan (.word read) ' ' = ([.ok (wordToken read.reverse)], none) := by
      rw [continueScan, if_neg (by decide)]
    rw [List.append_nil]
    exact lexFrom_gap rfl hspace hrest
  | cons c cs ih =>
    obtain ⟨hc, hcs⟩ := List.forall_mem_cons.1 hcs
    rw [List.cons_append, lexFrom, continueScan, if_pos hc]
    simp only [List.nil_append, ih hcs, List.reverse_cons, List.append_assoc, List.cons_append]

/-- Nothing comes that would be part of a number. -/
def EndsNumber (rest : List Char) : Prop := ∀ c ∈ rest.head?, c.isDigit = false ∧ c ≠ '.'

theorem Gap.endsNumber (h : Gap rest) : EndsNumber rest := by
  intro c hc
  rw [h c hc]
  decide

theorem lexFrom_number (hcs : AllDigits cs) (hrest : EndsNumber rest) : lexFrom (.number read false) (cs ++ rest) =
    .ok (.number (String.ofList (read.reverse ++ cs))) :: lexFrom .between rest := by
  induction cs generalizing read with
  | nil =>
    rw [List.append_nil]
    refine lexFrom_end rfl fun c hc => ?_
    obtain ⟨hdigit, hpoint⟩ := hrest c hc
    rw [continueScan, if_neg (by rw [hdigit]; decide), if_neg fun h => hpoint h.1]
  | cons c cs ih =>
    obtain ⟨hc, hcs⟩ := List.forall_mem_cons.1 hcs
    rw [List.cons_append, lexFrom, continueScan, if_pos hc]
    simp only [List.nil_append, ih hcs, List.reverse_cons, List.append_assoc, List.cons_append]

theorem lexFrom_quoted (hcs : '\'' ∉ cs) : lexFrom (.quoted '\'' read) (cs ++ '\'' :: rest) =
    .ok (.text (String.ofList (read.reverse ++ cs))) :: lexFrom .between rest := by
  induction cs generalizing read with
  | nil =>
    rw [List.nil_append, lexFrom, continueScan, if_pos rfl, List.append_nil]
    rfl
  | cons c cs ih =>
    obtain ⟨hc, hcs⟩ := not_or.1 (mt List.mem_cons.2 hcs)
    rw [List.cons_append, lexFrom, continueScan, if_neg (Ne.symm hc)]
    simp only [List.nil_append, ih hcs, List.reverse_cons, List.append_assoc, List.cons_append]

theorem isBlank_of_startsWord (h : startsWord c = true) : Text.isBlank c = false := by
  exact Text.isBlank_of_isPlain (Text.isPlain_of_isWordChar (isWordChar_of_startsWord h))

theorem not_isDigit_of_startsWord (h : startsWord c = true) : ¬ c.isDigit = true := by
  intro hdigit
  have hlt : c.toNat < 0x3A := by
    simp only [Char.isDigit, Bool.and_eq_true, decide_eq_true_eq] at hdigit
    exact Nat.lt_of_le_of_lt (UInt32.le_iff_toNat_le.1 hdigit.2) (by decide)
  have hall : ∀ n < 0x3A, (Char.ofNat n).isDigit = true → startsWord (Char.ofNat n) = false := by decide +kernel
  have hc := hall c.toNat hlt
  rw [Char.ofNat_toNat, h] at hc
  cases hc hdigit

theorem startScan_word (h : startsWord c = true) : startScan c = ([], .word [c]) := by
  have hquote : ¬ (c = '\'' ∨ c = '"') := by
    rintro (rfl | rfl) <;> revert h <;> decide
  rw [startScan, isBlank_of_startsWord h, if_neg (by decide), if_neg hquote, if_neg (not_isDigit_of_startsWord h),
    if_pos h]

theorem startScan_digit (h : c.isDigit = true) : startScan c = ([], .number [c] false) := by
  have hquote : ¬ (c = '\'' ∨ c = '"') := by
    rintro (rfl | rfl) <;> revert h <;> decide
  rw [startScan, Text.isBlank_of_isPlain (Text.isPlain_of_isDigit h), if_neg (by decide), if_neg hquote, if_pos h]

theorem startScan_quote : startScan '\'' = ([], .quoted '\'' []) := by decide

theorem startScan_symbol (h : symbol? c = some t) : startScan c = ([.ok t], .between) := by
  unfold symbol? at h
  split at h <;> cases h <;> decide

end Scans

/-! ## Single tokens -/

theorem Keyword.ofWord?_spelling (k : Keyword) : ofWord? k.spelling = some k := by
  have hall : ∀ k ∈ all, ofWord? k.spelling = some k := by decide +kernel
  exact hall k (by cases k <;> decide)

/-- Characters are lexed as a token wherever a gap comes behind them. -/
def Lexes (cs : List Char) (t : Token) : Prop :=
  ∀ rest, Gap rest → lexFrom .between (cs ++ rest) = .ok t :: lexFrom .between rest

section Lexes
variable {t : Token} {c : Char} {s : String}

theorem lexes_word (hfirst : s.toList.head?.any startsWord = true) (hword : isWord s.toList = true) :
    Lexes s.toList (wordToken s.toList) := by
  obtain ⟨hne, hchars⟩ := Text.isWord_iff.1 hword
  obtain ⟨c, cs, hcs⟩ := List.exists_cons_of_ne_nil hne
  intro rest hrest
  rw [hcs] at hfirst hchars ⊢
  rw [List.cons_append, lexFrom, continueScan]
  simp only [startScan_word hfirst, List.nil_append]
  exact lexFrom_word (List.forall_mem_cons.1 hchars).2 hrest

theorem lexes_name (h : IsName s) : Lexes s.toList (.name s) := by
  have hlexes := lexes_word h.1 h.2.1
  rwa [wordToken, String.ofList_toList, h.2.2] at hlexes

theorem lexes_keyword (k : Keyword) : Lexes k.spelling.toList (.keyword k) := by
  have hlexes : Lexes k.spelling.toList (wordToken k.spelling.toList) := by
    cases k <;> exact lexes_word (by decide) (by decide)
  rwa [wordToken, String.ofList_toList, k.ofWord?_spelling] at hlexes

theorem lexFrom_between_number {rest : List Char} (h : AllDigits s.toList) (hne : s.toList ≠ [])
    (hrest : EndsNumber rest) :
    lexFrom .between (s.toList ++ rest) = .ok (.number s) :: lexFrom .between rest := by
  obtain ⟨c, cs, hcs⟩ := List.exists_cons_of_ne_nil hne
  rw [hcs] at h
  obtain ⟨hc, hdigits⟩ := List.forall_mem_cons.1 h
  rw [← s.ofList_toList, hcs, String.toList_ofList, List.cons_append, lexFrom, continueScan]
  simp only [startScan_digit hc, List.nil_append]
  exact lexFrom_number hdigits hrest

theorem lexes_number (h : AllDigits s.toList) (hne : s.toList ≠ []) : Lexes s.toList (.number s) :=
  fun _ hrest => lexFrom_between_number h hne hrest.endsNumber

theorem lexes_text (h : '\'' ∉ s.toList) : Lexes ("'" ++ s ++ "'").toList (.text s) := by
  intro rest hrest
  have hchars : ("'" ++ s ++ "'").toList ++ rest = '\'' :: (s.toList ++ '\'' :: rest) := by
    simp [String.toList_append]
  have hquoted : lexFrom (.quoted '\'' []) (s.toList ++ '\'' :: rest) = _ := lexFrom_quoted h
  rw [List.reverse_nil, List.nil_append, String.ofList_toList] at hquoted
  rw [hchars, lexFrom, continueScan]
  simp only [startScan_quote, List.nil_append]
  exact hquoted

theorem lexFrom_symbol (h : symbol? c = some t) (rest : List Char) :
    lexFrom .between (c :: rest) = .ok t :: lexFrom .between rest := by
  rw [lexFrom, continueScan]
  simp only [startScan_symbol h, List.nil_append, List.cons_append]

theorem lexes_symbol (h : symbol? c = some t) : Lexes [c] t := fun rest _ => lexFrom_symbol h rest

theorem lexes_relation {first : Char} {scan : Scan} (hstart : startScan first = ([], scan))
    (hend : endScan scan = [.ok t]) (hspace : continueScan scan ' ' = ([.ok t], none)) : Lexes [first] t := by
  intro rest hrest
  rw [List.cons_append, lexFrom, continueScan]
  simp only [hstart, List.nil_append]
  exact lexFrom_gap hend hspace hrest

theorem lexes_relation₂ {first second : Char} {scan : Scan} (hstart : startScan first = ([], scan))
    (hsecond : continueScan scan second = ([.ok t], some .between)) : Lexes [first, second] t := by
  intro rest _
  rw [List.cons_append, lexFrom, continueScan]
  simp only [hstart, List.nil_append]
  rw [List.cons_append, lexFrom, hsecond]
  rfl

theorem lexes_written (h : t.Writable) : Lexes t.written.toList t := by
  cases t with
  | keyword k => exact lexes_keyword k
  | name s => exact lexes_name h
  | text s => exact lexes_text h
  | number s => exact lexes_number h.1 h.2
  | openParen | closeParen | comma | semicolon | period | asterisk | plus | minus | slash => exact lexes_symbol rfl
  | equal => exact lexes_relation (show startScan '=' = ([], .equals) by decide) rfl (by decide)
  | notEqual => exact lexes_relation₂ (show startScan '!' = ([], .bang) by decide) (by decide)
  | less => exact lexes_relation (show startScan '<' = ([], .less) by decide) rfl (by decide)
  | lessOrEqual => exact lexes_relation₂ (show startScan '<' = ([], .less) by decide) (by decide)
  | greater => exact lexes_relation (show startScan '>' = ([], .greater) by decide) rfl (by decide)
  | greaterOrEqual => exact lexes_relation₂ (show startScan '>' = ([], .greater) by decide) (by decide)

end Lexes

/-! ## Many tokens -/

theorem lexFrom_intercalate {ts : List Token} (h : ∀ t ∈ ts, t.Writable) :
    lexFrom .between (List.intercalate [' '] (ts.map fun t => t.written.toList)) = ts.map .ok := by
  induction ts with
  | nil => rfl
  | cons t ts ih =>
    obtain ⟨ht, hts⟩ := List.forall_mem_cons.1 h
    cases ts with
    | nil =>
      have hlexes := lexes_written ht [] (by simp [Gap])
      rw [List.append_nil] at hlexes
      rw [List.map_singleton, List.intercalate_singleton]
      exact hlexes
    | cons u ts =>
      have hgap : Gap (' ' :: List.intercalate [' '] ((u :: ts).map fun t => t.written.toList)) := by
        rintro c ⟨⟩
        rfl
      have hlexes := lexes_written ht _ hgap
      rw [lexFrom_space, ih hts] at hlexes
      simpa only [List.map_cons, List.intercalate_cons_cons, List.append_assoc, List.singleton_append] using hlexes

theorem untilFault_map_ok (ts : List Token) : untilFault (ts.map .ok) = ts.map .ok := by
  induction ts with
  | nil => rfl
  | cons t ts ih => rw [List.map_cons, untilFault, ih]

/-- Tokens are lexed back from the text that they are written as. -/
theorem lex_writeAll {ts : List Token} (h : ∀ t ∈ ts, t.Writable) : lex (Token.writeAll ts) = ts.map .ok := by
  have hchars : (Token.writeAll ts).toList = List.intercalate [' '] (ts.map fun t => t.written.toList) := by
    rw [Token.writeAll, String.toList_intercalate, List.map_map]
    rfl
  rw [lex, hchars, lexFrom_intercalate h, untilFault_map_ok]

end TextTables
