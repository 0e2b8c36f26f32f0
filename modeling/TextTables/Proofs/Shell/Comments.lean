import Mathlib.Algebra.Group.Nat.Even
import Mathlib.Data.List.Induction
import TextTables.Shell.Splitter
import TextTables.Syntax.Lexer
/-!
# Where comments start

A statement reads literals in single and in double quotes, and a quote of the one kind stands in a
literal of the other (`openQuote`). The cutting of comments counts single quotes only, so that it is
right just when that count tells the same at the dashes of a line, up to where the line is cut.
-/

namespace TextTables

/-! ## Open literals -/

/-- The quote of the literal that is open after a character. -/
def nextQuote : Option Char → Char → Option Char
  | none, c => if c = '\'' ∨ c = '"' then some c else none
  | some quote, c => if c = quote then none else some quote

/-- The quote of the literal that a text leaves open. -/
def openQuote (text : List Char) : Option Char := text.foldl nextQuote none

theorem openQuote_concat (text : List Char) (c : Char) :
    openQuote (text ++ [c]) = nextQuote (openQuote text) c := by
  rw [openQuote, List.foldl_append]
  rfl

/-- Without double quotes, single quotes open and close in turn. -/
theorem openQuote_of_not_mem {text : List Char} (h : '"' ∉ text) :
    openQuote text = if Even (text.count '\'') then none else some '\'' := by
  induction text using List.reverseRecOn with
  | nil => rfl
  | append_singleton text c ih =>
    obtain ⟨htext, hc⟩ : '"' ∉ text ∧ ¬ c = '"' := by simpa [eq_comm] using h
    rw [openQuote_concat, ih htext, List.count_append, List.count_singleton]
    by_cases heven : Even (text.count '\'') <;> by_cases hsingle : c = '\'' <;>
      simp [nextQuote, heven, hsingle, hc, Nat.even_add_one]

/-! ## Literals of the lexer -/

/-- The quote of the literal that a scan is inside of. -/
def Scan.quote? : Scan → Option Char
  | .quoted quote _ => some quote
  | _ => none

theorem startScan_quote? (c : Char) :
    (startScan c).2.quote? = nextQuote none c ∧ .error .openText ∉ (startScan c).1 := by
  by_cases hquote : c = '\'' ∨ c = '"'
  · have hblank : Text.isBlank c = false := by rcases hquote with rfl | rfl <;> decide
    simp [startScan, nextQuote, hblank, hquote, Scan.quote?]
  · rw [show nextQuote none c = none from if_neg hquote]
    simp only [startScan, if_neg hquote]
    repeat' split
    all_goals simp [Scan.quote?]

/-- A scan goes on with the literal that is open, and only the end of the text finds it open. -/
theorem continueScan_quote? (scan : Scan) (c : Char) :
    ((continueScan scan c).2.elim (scan.quote? = none) fun next => next.quote? = nextQuote scan.quote? c) ∧
      .error .openText ∉ (continueScan scan c).1 := by
  cases scan with
  | quoted quote read => by_cases h : c = quote <;> simp [continueScan, Scan.quote?, nextQuote, h]
  | _ =>
    by_cases hquote : c = '\'' ∨ c = '"'
    · -- A quote ends every lexeme but a literal.
      have hends : Text.isWordChar c = false ∧ c.isDigit = false ∧ c ≠ '.' ∧ c ≠ '=' ∧ c ≠ '>' := by
        rcases hquote with rfl | rfl <;> decide
      simp [continueScan, Scan.quote?, hends]
    · simp only [continueScan, Scan.quote?, show nextQuote none c = none from if_neg hquote]
      repeat' split
      all_goals simp

theorem openText_mem_lexFrom (scan : Scan) (text : List Char) :
    .error .openText ∈ lexFrom scan text ↔ (text.foldl nextQuote scan.quote?).isSome = true := by
  induction text generalizing scan with
  | nil => cases scan <;> simp [lexFrom, endScan, Scan.quote?]
  | cons c rest ih =>
    obtain ⟨hnext, hdone⟩ := continueScan_quote? scan c
    rw [lexFrom, List.foldl_cons]
    split
    · next done next heq =>
      rw [heq] at hnext hdone
      rw [List.mem_append, ih, ← hnext]
      simp [hdone]
    · next done heq =>
      obtain ⟨hstart, hmore⟩ := startScan_quote? c
      rw [heq] at hnext hdone
      rw [show scan.quote? = none from hnext, List.mem_append, List.mem_append, ih, hstart]
      simp [hdone, hmore]

/-! ## Cuts -/

/-- A text is a line up to the first two dashes that stand outside of literals, or all of the line if no
dashes do; `outside` tells from the text in front of them whether they stand outside. -/
structure UpToComment (outside : List Char → Prop) (line text : List Char) : Prop where
  cut : text = line ∨ ∃ comment, line = text ++ '-' :: '-' :: comment ∧ outside text
  first : ∀ front back, line = front ++ '-' :: '-' :: back → outside front → text.length ≤ front.length

section UpToComment
variable {outside outside' : List Char → Prop} {line text : List Char} {c : Char}

theorem UpToComment.nil_of_dashes (h : outside []) (comment : List Char) :
    UpToComment outside ('-' :: '-' :: comment) [] :=
  ⟨.inr ⟨comment, rfl, h⟩, fun front _ _ _ => Nat.zero_le front.length⟩

theorem UpToComment.cons (h : UpToComment (fun front => outside (c :: front)) line text)
    (hc : outside [] → c = '-' → line.head? ≠ some '-') : UpToComment outside (c :: line) (c :: text) where
  cut := by
    obtain rfl | ⟨comment, rfl, hout⟩ := h.cut
    · exact .inl rfl
    · exact .inr ⟨comment, rfl, hout⟩
  first := by
    intro front back hline hout
    cases front with
    | nil =>
      obtain ⟨hdash, hrest⟩ := List.cons.inj hline
      exact absurd (congrArg List.head? hrest) (hc hout hdash)
    | cons c' front =>
      obtain ⟨rfl, hrest⟩ := List.cons.inj hline
      exact Nat.succ_le_succ (h.first front back hrest hout)

/-- A cut is right for other literals too exactly if these agree on the dashes up to the cut. -/
theorem UpToComment.iff_agree (h : UpToComment outside line text) :
    UpToComment outside' line text ↔ ∀ front back, line = front ++ '-' :: '-' :: back →
      front.length ≤ text.length → (outside' front ↔ outside front) := by
  constructor
  · intro h' front back hline hlength
    rcases Nat.lt_or_eq_of_le hlength with hlt | heq
    · -- Neither reading finds the dashes outside, or the line would be cut there.
      exact ⟨fun hout => absurd (h'.first front back hline hout) (not_le.2 hlt),
        fun hout => absurd (h.first front back hline hout) (not_le.2 hlt)⟩
    · have hcut {outside : List Char → Prop} (h : UpToComment outside line text) : outside front := by
        obtain rfl | ⟨comment, hline', hout⟩ := h.cut
        · simp [hline] at heq
        · rwa [(List.append_inj (hline.symm.trans hline') heq).1]
      exact ⟨fun _ => hcut h, fun _ => hcut h'⟩
  · intro hagree
    refine ⟨h.cut.imp_right ?_, fun front back hline hout => ?_⟩
    · rintro ⟨comment, hline, hout⟩
      exact ⟨comment, hline, (hagree text comment hline le_rfl).2 hout⟩
    · by_contra hlt
      have hlength : front.length ≤ text.length := by omega
      exact hlt (h.first front back hline ((hagree front back hline hlength).1 hout))

end UpToComment

/-- A line is cut at the first two dashes with an even number of single quotes in front of them. -/
theorem cutComment_upToComment (quoted : Bool) (line : List Char) :
    UpToComment (fun front => Even (front.count '\'') ↔ quoted = false) line (cutComment quoted line) := by
  induction line generalizing quoted with
  | nil => exact ⟨.inl rfl, fun front _ _ _ => Nat.zero_le front.length⟩
  | cons c rest ih =>
    rw [cutComment]
    split
    · next hquote =>
      have houtside (front : List Char) :
          (Even ((c :: front).count '\'') ↔ quoted = false) ↔ (Even (front.count '\'') ↔ (!quoted) = false) := by
        cases quoted <;> simp [hquote, Nat.even_add_one]
      refine UpToComment.cons ?_ ?_
      · simpa only [houtside] using ih (!quoted)
      · rintro - rfl
        cases hquote
    · next hquote =>
      have hcount (front : List Char) : (c :: front).count '\'' = front.count '\'' := List.count_cons_of_ne hquote
      split
      · next hdashes =>
        obtain ⟨⟨rfl, rfl⟩, hhead⟩ : (quoted = false ∧ c = '-') ∧ rest.head? = some '-' := by
          simpa [and_assoc] using hdashes
        obtain ⟨comment, rfl⟩ := List.head?_eq_some_iff.1 hhead
        exact .nil_of_dashes (by simp) comment
      · next hdashes =>
        refine UpToComment.cons ?_ ?_
        · simpa only [hcount] using ih quoted
        · intro hout hdash hhead
          obtain rfl : quoted = false := hout.1 (by simp)
          simp [hdash, hhead] at hdashes

/-- A quote that is open is one that lexing finds open at the end of a text. Lines are cut by the count of
single quotes; that is where comments start exactly if the count and the literals agree on the dashes up to
there, as they do in a line without double quotes. -/
theorem comments_cut (line : List Char) :
    (∀ text, openQuote text = none ↔ .error .openText ∉ lexFrom .between text) ∧
    UpToComment (fun front => Even (front.count '\'')) line (cutComment false line) ∧
    (UpToComment (fun front => openQuote front = none) line (cutComment false line) ↔
      ∀ front back, line = front ++ '-' :: '-' :: back → front.length ≤ (cutComment false line).length →
        (openQuote front = none ↔ Even (front.count '\''))) ∧
    ('"' ∉ line → UpToComment (fun front => openQuote front = none) line (cutComment false line)) := by
  have hcut : UpToComment (fun front => Even (front.count '\'')) line (cutComment false line) := by
    simpa using cutComment_upToComment false line
  refine ⟨fun text => ?_, hcut, hcut.iff_agree, fun hline => hcut.iff_agree.2 ?_⟩
  · rw [openText_mem_lexFrom, openQuote]
    simp [Scan.quote?]
  · rintro front back rfl -
    have hfront : '"' ∉ front := fun h => hline (List.mem_append_left _ h)
    rw [openQuote_of_not_mem hfront]
    simp

/-- Dashes in single quotes stay, and those behind them start a comment. -/
theorem comments_cut_single_quotes :
    let line := "values ('a--b'); -- note".toList
    cutComment false line = "values ('a--b'); ".toList ∧
      UpToComment (fun front => openQuote front = none) line (cutComment false line) := by
  obtain ⟨-, -, -, hcut⟩ := comments_cut "values ('a--b'); -- note".toList
  exact ⟨by decide, hcut (by decide)⟩

/-- Dashes in a literal in double quotes are taken for a comment. -/
theorem not_upToComment_of_double_quotes :
    let line := "insert into t values (\"a--b\");".toList
    ¬ UpToComment (fun front => openQuote front = none) line (cutComment false line) := by
  intro line h
  have hcut : cutComment false line = "insert into t values (\"a".toList := by decide
  rw [hcut] at h
  obtain h | ⟨comment, -, h⟩ := h.cut
  · exact absurd h (by decide)
  · exact absurd h (by decide)

end TextTables
