import TextTables.Proofs.Decimal.ReadBack
import TextTables.Syntax.Lexer
/-!
# What lexing gives

Every token of a text has the form of its kind: names are words, and numbers are digits with at most
one point behind the first of them. `Scan.Inside` is what a scan has established about the lexeme
that it is inside of, and every character keeps it.
-/

namespace TextTables

open Decimal (AllDigits)

/-! ## Forms of tokens -/

/-- A number as it is written in a text: digits, or digits with a point behind one or more of them. -/
inductive Literal : Bool → List Char → Prop
  | whole {digits : List Char} : AllDigits digits → digits ≠ [] → Literal false digits
  | pointed {whole fraction : List Char} : AllDigits whole → whole ≠ [] → AllDigits fraction →
      Literal true (whole ++ '.' :: fraction)

/-- A token that can stand in a text, as far as its name or number tells. -/
def Token.Formed : Token → Prop
  | .name s => isWord s.toList = true
  | .number s => ∃ pointed, Literal pointed s.toList
  | _ => True

/-- The tokens among some lexemes have the form of their kind. -/
def Formed (lexemes : List Lexeme) : Prop := ∀ t, .ok t ∈ lexemes → t.Formed

theorem Formed.append {front back : List Lexeme} (hf : Formed front) (hb : Formed back) :
    Formed (front ++ back) := by
  intro t ht
  rcases List.mem_append.1 ht with ht | ht
  · exact hf t ht
  · exact hb t ht

theorem formed_nil : Formed [] := nofun

theorem formed_token {t : Token} (h : t.Formed) : Formed [.ok t] := by
  intro u hu
  cases List.mem_singleton.1 hu
  exact h

theorem formed_fault {fault : SyntaxFault} : Formed [.error fault] :=
  fun _ hu => nomatch List.mem_singleton.1 hu

theorem formed_word {word : List Char} (h : isWord word = true) : (wordToken word).Formed := by
  simp only [wordToken]
  split
  · trivial
  · simpa only [Token.Formed, String.toList_ofList] using h

theorem formed_number {digits : List Char} {pointed : Bool} (h : Literal pointed digits) :
    (Token.number (String.ofList digits)).Formed := by
  refine ⟨pointed, ?_⟩
  rwa [String.toList_ofList]

/-! ## Longer words and numbers -/

theorem isWordChar_of_startsWord {c : Char} (h : startsWord c = true) : Text.isWordChar c = true := by
  simp only [startsWord, Bool.or_eq_true] at h
  simp only [Text.isWordChar, Bool.or_eq_true]
  exact h.imp_left .inl

theorem isWord_singleton {c : Char} (h : startsWord c = true) : isWord [c] = true := by
  refine Text.isWord_iff.2 ⟨List.cons_ne_nil _ _, fun c' hc => ?_⟩
  rw [List.mem_singleton.1 hc]
  exact isWordChar_of_startsWord h

theorem isWord_concat {cs : List Char} {c : Char} (h : isWord cs = true)
    (hc : Text.isWordChar c = true) : isWord (cs ++ [c]) = true := by
  refine Text.isWord_iff.2 ⟨by simp, fun c' hc' => ?_⟩
  rcases List.mem_append.1 hc' with hc' | hc'
  · exact (Text.isWord_iff.1 h).2 c' hc'
  · rwa [List.mem_singleton.1 hc']

theorem allDigits_singleton {c : Char} (h : c.isDigit = true) : AllDigits [c] := by
  intro c' hc'
  rwa [List.mem_singleton.1 hc']

theorem Literal.concat {cs : List Char} {pointed : Bool} (h : Literal pointed cs) {c : Char}
    (hc : c.isDigit = true) : Literal pointed (cs ++ [c]) := by
  cases h with
  | whole hdigits hne => exact .whole (hdigits.append (allDigits_singleton hc)) (by simp)
  | pointed hwhole hne hfraction =>
    rw [List.append_assoc, List.cons_append]
    exact .pointed hwhole hne (hfraction.append (allDigits_singleton hc))

theorem Literal.point {cs : List Char} (h : Literal false cs) : Literal true (cs ++ ['.']) := by
  cases h with
  | whole hdigits hne => exact .pointed hdigits hne nofun

/-! ## Scans -/

/-- A word or a number that a scan is inside of is one so far. -/
def Scan.Inside : Scan → Prop
  | .word read => isWord read.reverse = true
  | .number read pointed => Literal pointed read.reverse
  | _ => True

theorem formed_symbol? {c : Char} {t : Token} (h : symbol? c = some t) : t.Formed := by
  unfold symbol? at h
  split at h <;> cases h <;> trivial

theorem startScan_formed (c : Char) : Formed (startScan c).1 ∧ (startScan c).2.Inside := by
  unfold startScan
  split
  · exact ⟨formed_nil, trivial⟩
  split
  · exact ⟨formed_nil, trivial⟩
  split
  · next h => exact ⟨formed_nil, .whole (allDigits_singleton h) (List.cons_ne_nil _ _)⟩
  split
  · next h => exact ⟨formed_nil, isWord_singleton h⟩
  repeat (split; · exact ⟨formed_nil, trivial⟩)
  cases h : symbol? c with
  | none => exact ⟨formed_fault, trivial⟩
  | some t => exact ⟨formed_token (formed_symbol? h), trivial⟩

theorem continueScan_formed {scan : Scan} (h : scan.Inside) (c : Char) :
    Formed (continueScan scan c).1 ∧
      ∀ next, (continueScan scan c).2 = some next → next.Inside := by
  cases scan with
  | between => exact ⟨formed_nil, nofun⟩
  | word read =>
    simp only [continueScan]
    split
    · next hc =>
      refine ⟨formed_nil, fun next hnext => ?_⟩
      cases hnext
      simp only [Scan.Inside, List.reverse_cons]
      exact isWord_concat h hc
    · exact ⟨formed_token (formed_word h), nofun⟩
  | number read pointed =>
    simp only [continueScan]
    split
    · next hc =>
      refine ⟨formed_nil, fun next hnext => ?_⟩
      cases hnext
      simp only [Scan.Inside, List.reverse_cons]
      exact Literal.concat h hc
    · split
      · next hpoint =>
        obtain ⟨rfl, rfl⟩ := hpoint
        refine ⟨formed_nil, fun next hnext => ?_⟩
        cases hnext
        simp only [Scan.Inside, List.reverse_cons]
        exact Literal.point h
      · exact ⟨formed_token (formed_number h), nofun⟩
  | quoted | bang | equals | less | greater =>
    simp only [continueScan]
    repeat' split
    all_goals
      refine ⟨?_, fun next hnext => ?_⟩
      · first | exact formed_nil | exact formed_fault | exact formed_token trivial
      · cases hnext <;> trivial

theorem endScan_formed {scan : Scan} (h : scan.Inside) : Formed (endScan scan) := by
  cases scan with
  | between => exact formed_nil
  | word => exact formed_token (formed_word h)
  | number => exact formed_token (formed_number h)
  | quoted | bang => exact formed_fault
  | equals | less | greater => exact formed_token trivial

theorem lexFrom_formed {scan : Scan} (h : scan.Inside) (cs : List Char) :
    Formed (lexFrom scan cs) := by
  induction cs generalizing scan with
  | nil => exact endScan_formed h
  | cons c rest ih =>
    obtain ⟨hdone, hnext⟩ := continueScan_formed h c
    simp only [lexFrom]
    -- The lexeme goes on, or it ends in front of the character, which starts the next one.
    split
    · next done next heq =>
      rw [heq] at hdone hnext
      exact hdone.append (ih (hnext next rfl))
    · next done heq =>
      rw [heq] at hdone
      obtain ⟨hmore, hstart⟩ := startScan_formed c
      exact (hdone.append hmore).append (ih hstart)

theorem mem_of_mem_untilFault {t : Token} {lexemes : List Lexeme}
    (h : .ok t ∈ untilFault lexemes) : .ok t ∈ lexemes := by
  induction lexemes with
  | nil => exact h
  | cons lexeme rest ih =>
    cases lexeme with
    | error fault => cases List.mem_singleton.1 h
    | ok u =>
      rcases List.mem_cons.1 h with h | h
      · exact List.mem_cons.2 (.inl h)
      · exact List.mem_cons_of_mem _ (ih h)

/-- The tokens of a text have the form of their kind. -/
theorem lex_formed (text : String) : Formed (lex text) :=
  fun t ht => lexFrom_formed (show Scan.between.Inside from trivial) text.toList t
    (mem_of_mem_untilFault ht)

end TextTables
