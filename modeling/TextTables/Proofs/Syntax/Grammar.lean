import TextTables.Proofs.Syntax.Forward
import TextTables.Proofs.Syntax.Lexemes
/-!
# The grammar of expressions

`Writes level tokens e` says that the tokens derive `e` at a level of binding. Reading an expression
takes a list of tokens that writes it (`rounds_take`), and the tokens that write an expression are
read as it (`Writes.derives`), so reading accepts the grammar and nothing else:
`Expression.ofString_iff_writes`.
-/

namespace TextTables

open Decimal (AllDigits ofDigits Scientific)
open Reading (run_bind_eq_ok run_lift_eq_ok next_eq_ok expect_eq_ok name_eq_ok)

/-! ## The grammar -/

/-- The symbol of a comparison. -/
def Comparison.token : Comparison → Token
  | .equal => .equal
  | .notEqual => .notEqual
  | .less => .less
  | .lessOrEqual => .lessOrEqual
  | .greater => .greater
  | .greaterOrEqual => .greaterOrEqual

/-- The tokens that write an expression at a level of binding. Operators of one level group to the
left, except that the operands of a comparison are no comparisons. -/
inductive Writes : Level → List Token → Expression → Prop
  | conjunction {ts e} : Writes .conjunction ts e → Writes .disjunction ts e
  | or {ts us a b} : Writes .disjunction ts a → Writes .conjunction us b →
      Writes .disjunction (ts ++ .keyword .or :: us) (.binary .or a b)
  | comparison {ts e} : Writes .comparison ts e → Writes .conjunction ts e
  | and {ts us a b} : Writes .conjunction ts a → Writes .comparison us b →
      Writes .conjunction (ts ++ .keyword .and :: us) (.binary .and a b)
  | sum {ts e} : Writes .sum ts e → Writes .comparison ts e
  | compare {ts us a b} (c : Comparison) : Writes .sum ts a → Writes .sum us b →
      Writes .comparison (ts ++ c.token :: us) (.binary (.compare c) a b)
  | product {ts e} : Writes .product ts e → Writes .sum ts e
  | add {ts us a b} : Writes .sum ts a → Writes .product us b →
      Writes .sum (ts ++ .plus :: us) (.binary (.compute .add) a b)
  | subtract {ts us a b} : Writes .sum ts a → Writes .product us b →
      Writes .sum (ts ++ .minus :: us) (.binary (.compute .subtract) a b)
  | sign {ts e} : Writes .sign ts e → Writes .product ts e
  | multiply {ts us a b} : Writes .product ts a → Writes .sign us b →
      Writes .product (ts ++ .asterisk :: us) (.binary (.compute .multiply) a b)
  | divide {ts us a b} : Writes .product ts a → Writes .sign us b →
      Writes .product (ts ++ .slash :: us) (.binary (.compute .divide) a b)
  | minus {ts e} : Writes .sign ts e → Writes .sign (.minus :: ts) (.negate e)
  | plus {ts e} : Writes .sign ts e → Writes .sign (.plus :: ts) e
  | integer {digits : List Char} : AllDigits digits → digits ≠ [] → ofDigits digits < 2 ^ 63 →
      Writes .sign [.number (String.ofList digits)] (.constant (.integer (Int64.ofInt (ofDigits digits))))
  | float {whole fraction : List Char} : AllDigits whole → whole ≠ [] → AllDigits fraction →
      Writes .sign [.number (String.ofList (whole ++ '.' :: fraction))] (.constant (.float
        (Scientific.toFloat false ⟨ofDigits (whole ++ fraction), -fraction.length⟩)))
  | text (s : String) : Writes .sign [.text s] (.constant (.text s))
  | field (name : String) : Writes .sign [.name name] (.field ⟨none, name⟩)
  | qualified (qualifier name : String) :
      Writes .sign [.name qualifier, .period, .name name] (.field ⟨some qualifier, name⟩)
  | parens {ts e} : Writes .disjunction ts e → Writes .sign (.openParen :: ts ++ [.closeParen]) e

/-! ## Levels -/

namespace Level

/-- The level of what stands to the left of an operator. -/
def left : Level → Level
  | .comparison => .sum
  | level => level

/-- The place of a level among the levels, the loosest first. -/
def rank : Level → Nat
  | .disjunction => 0
  | .conjunction => 1
  | .comparison => 2
  | .sum => 3
  | .product => 4
  | .sign => 5

theorem rank_le (level : Level) : level.rank ≤ 5 := by
  cases level <;> decide

theorem rank_tighter {level : Level} (h : level ≠ .sign) : level.tighter.rank = level.rank + 1 := by
  cases level <;> first | rfl | exact absurd rfl h

end Level

section Levels
variable {level : Level} {ts us : List Token} {e a b : Expression} {t : Token} {op : Operator}

theorem Level.operator?_ne_sign (h : level.operator? t = some op) : level ≠ .sign := by
  rintro rfl
  cases t <;> cases h

theorem Writes.ofTighter (hlevel : level ≠ .sign) (h : Writes level.tighter ts e) :
    Writes level ts e := by
  cases level with
  | disjunction => exact .conjunction h
  | conjunction => exact .comparison h
  | comparison => exact .sum h
  | sum => exact .product h
  | product => exact .sign h
  | sign => exact absurd rfl hlevel

theorem Writes.leftOfTighter (hlevel : level ≠ .sign) (h : Writes level.tighter ts e) :
    Writes level.left ts e := by
  cases level with
  | comparison => exact h
  | disjunction | conjunction | sum | product | sign => exact h.ofTighter hlevel

theorem Writes.ofLeft (h : Writes level.left ts e) : Writes level ts e := by
  cases level with
  | comparison => exact .sum h
  | disjunction | conjunction | sum | product | sign => exact h

theorem Writes.left (hlevel : level ≠ .comparison) (h : Writes level ts e) :
    Writes level.left ts e := by
  cases level with
  | comparison => exact absurd rfl hlevel
  | disjunction | conjunction | sum | product | sign => exact h

theorem Writes.binary (hop : level.operator? t = some op) (ha : Writes level.left ts a)
    (hb : Writes level.tighter us b) : Writes level (ts ++ t :: us) (.binary op a b) := by
  unfold Level.operator? at hop
  split at hop <;> cases hop
  · exact .or ha hb
  · exact .and ha hb
  · exact .compare .equal ha hb
  · exact .compare .notEqual ha hb
  · exact .compare .less ha hb
  · exact .compare .lessOrEqual ha hb
  · exact .compare .greater ha hb
  · exact .compare .greaterOrEqual ha hb
  · exact .add ha hb
  · exact .subtract ha hb
  · exact .multiply ha hb
  · exact .divide ha hb

theorem Comparison.operator?_token (c : Comparison) :
    Level.operator? .comparison c.token = some (.compare c) := by
  cases c <;> rfl

end Levels

/-! ## Numbers -/

section Numbers
variable {digits whole fraction : List Char} {s : String} {value : Value}

theorem readInteger?_digits (h : AllDigits digits) (hne : digits ≠ []) :
    Decimal.readInteger? digits =
      if ofDigits digits < 2 ^ 63 then some (Int64.ofInt (ofDigits digits)) else none := by
  have hsign : Decimal.readSign digits = (false, digits) := by
    obtain ⟨c, rest, rfl⟩ := List.exists_cons_of_ne_nil hne
    exact Decimal.readSign_of_isDigit (h c List.mem_cons_self)
  have hall : digits.all Char.isDigit = true := List.all_eq_true.2 h
  have hdigits : (digits.isEmpty || !digits.all Char.isDigit) = false := by
    rw [hall, List.isEmpty_eq_false_iff.2 hne, Bool.not_true, Bool.or_self]
  rw [Decimal.readInteger?, hsign]
  simp only [hdigits, Bool.false_eq_true, if_false]
  exact if_congr (by omega) rfl rfl

theorem readNumber_whole (h : AllDigits digits) (hne : digits ≠ []) :
    readNumber (String.ofList digits) =
      if ofDigits digits < 2 ^ 63 then .ok (.integer (Int64.ofInt (ofDigits digits)))
      else .error .integerTooLarge := by
  have hall : digits.all Char.isDigit = true := List.all_eq_true.2 h
  simp only [readNumber, String.toList_ofList, hall, if_true, readInteger?_digits h hne]
  by_cases hsmall : ofDigits digits < 2 ^ 63
  · simp only [if_pos hsmall]
  · simp only [if_neg hsmall]

theorem readNumber_pointed (hwhole : AllDigits whole) (hne : whole ≠ []) (hfraction : AllDigits fraction) :
    readNumber (String.ofList (whole ++ '.' :: fraction)) =
      .ok (.float (Scientific.toFloat false ⟨ofDigits (whole ++ fraction), -fraction.length⟩)) := by
  have hnumeral := Decimal.Numeral.pointed hwhole hne hfraction
  have hall : (whole ++ '.' :: fraction).all Char.isDigit = false := by simp
  simp only [readNumber, String.toList_ofList, hall, hnumeral.readFloat?_eq hnumeral.readSign_eq]
  rfl

/-- A number that is read is written by its literal. -/
theorem Writes.number (hs : (Token.number s).Formed) (h : readNumber s = .ok value) :
    Writes .sign [.number s] (.constant value) := by
  obtain ⟨pointed, hs⟩ := hs
  rw [← String.ofList_toList (s := s)] at h ⊢
  generalize s.toList = cs at hs h
  cases hs with
  | whole hdigits hne =>
    rw [readNumber_whole hdigits hne] at h
    split at h
    · next hsmall =>
      cases h
      exact .integer hdigits hne hsmall
    · cases h
  | pointed hwhole hne hfraction =>
    rw [readNumber_pointed hwhole hne hfraction] at h
    cases h
    exact .float hwhole hne hfraction

end Numbers

/-! ## What is read is written -/

section Soundness
variable {input left : List Lexeme} {e : Expression}

theorem accept_eq_ok {t : Token} {taken : Bool} (h : (Reading.accept t).run input = .ok (taken, left)) :
    input = if taken then .ok t :: left else left := by
  rcases input with _ | ⟨_ | u, tail⟩
  · cases h; rfl
  · cases h; rfl
  · simp only [StateT.run, Reading.accept] at h
    split at h
    · next heq =>
      cases h
      rw [heq]
      rfl
    · cases h
      rfl

theorem peek?_eq_ok {t : Option Token} (h : Reading.peek?.run input = .ok (t, left)) :
    left = input := by
  rcases input with _ | ⟨_ | u, tail⟩ <;> cases h <;> rfl

theorem run_readNumber_eq_ok {literal : String} {value : Value}
    (h : (liftM (readNumber literal) : Reading SyntaxFault Value).run input = .ok (value, left)) :
    readNumber literal = .ok value ∧ left = input := by
  cases hvalue : readNumber literal <;> rw [hvalue] at h <;> cases h
  exact ⟨rfl, rfl⟩

theorem Formed.tail {lexeme : Lexeme} (h : Formed (lexeme :: left)) : Formed left :=
  fun t ht => h t (List.mem_cons_of_mem _ ht)

/-- The lexemes in front of those that are left are tokens that write an expression, behind tokens
that were read before. -/
def Took (level : Level) (before : List Token) (input : List Lexeme) (e : Expression)
    (left : List Lexeme) : Prop :=
  ∃ ts : List Token, input = ts.map .ok ++ left ∧ Writes level (before ++ ts) e

section Took
variable {mid : List Lexeme} {level level' : Level} {before : List Token} {first : Expression} {t : Token}

theorem Took.formed (h : Took level before input e left) (hinput : Formed input) : Formed left := by
  obtain ⟨ts, rfl, -⟩ := h
  exact fun t ht => hinput t (List.mem_append_right _ ht)

theorem Took.cons (h : Took level (before ++ [t]) mid e left) :
    Took level before (.ok t :: mid) e left := by
  obtain ⟨ts, rfl, hwrites⟩ := h
  rw [List.append_assoc] at hwrites
  exact ⟨t :: ts, rfl, hwrites⟩

/-- What is left when a first expression is read is read further with its tokens behind `before`. -/
theorem Took.andThen (hfirst : Took level [] input first mid)
    (h : ∀ ts, Writes level ts first → Took level' (before ++ ts) mid e left) :
    Took level' before input e left := by
  obtain ⟨ts, rfl, hts⟩ := hfirst
  obtain ⟨us, rfl, hwrites⟩ := h ts hts
  exact ⟨ts ++ us, by rw [List.map_append, List.append_assoc], by rwa [← List.append_assoc]⟩

theorem took_nil (h : Writes level before e) : Took level before left e left :=
  ⟨[], rfl, by rwa [List.append_nil]⟩

end Took

theorem fieldFrom_took {first : String} {ref : FieldRef}
    (h : (Reading.fieldFrom first).run input = .ok (ref, left)) :
    Took .sign [.name first] input (.field ref) left := by
  obtain ⟨taken, mid, hperiod, h⟩ := run_bind_eq_ok.1 h
  have hinput := accept_eq_ok hperiod
  cases taken with
  | true =>
    obtain ⟨name, mid', hname, h⟩ := run_bind_eq_ok.1 h
    cases h
    exact ⟨[.period, .name name], by rw [hinput, name_eq_ok hname]; rfl, .qualified first name⟩
  | false =>
    cases h
    exact ⟨[], hinput, .field first⟩

theorem readLevel_succ {rounds : Nat} {level : Level} (h : level ≠ .sign) :
    readLevel (rounds + 1) level = readLevel rounds level.tighter >>= readOperators rounds level := by
  cases level <;> first | rfl | exact absurd rfl h

/-- With some rounds, every reading takes tokens that write what it gives. -/
structure RoundsTake (rounds : Nat) : Prop where
  level {level : Level} {input : List Lexeme} {e : Expression} {left : List Lexeme} : Formed input →
    (readLevel rounds level).run input = .ok (e, left) → Took level [] input e left
  operators {level : Level} {before : List Token} {first : Expression} {input : List Lexeme}
    {e : Expression} {left : List Lexeme} : Formed input → Writes level.left before first →
    (readOperators rounds level first).run input = .ok (e, left) → Took level before input e left
  signed {input : List Lexeme} {e : Expression} {left : List Lexeme} : Formed input →
    (readSigned rounds).run input = .ok (e, left) → Took .sign [] input e left
  operand {input : List Lexeme} {e : Expression} {left : List Lexeme} : Formed input →
    (readOperand rounds).run input = .ok (e, left) → Took .sign [] input e left

namespace RoundsTake

variable {rounds : Nat} {level : Level} {before : List Token} {first : Expression}

theorem level_succ (ih : RoundsTake rounds) (hinput : Formed input)
    (h : (readLevel (rounds + 1) level).run input = .ok (e, left)) : Took level [] input e left := by
  by_cases hsign : level = .sign
  · cases hsign
    exact ih.signed hinput h
  rw [readLevel_succ hsign] at h
  obtain ⟨first, mid, hfirst, h⟩ := run_bind_eq_ok.1 h
  have htook := ih.level hinput hfirst
  exact htook.andThen fun ts hts =>
    ih.operators (htook.formed hinput) (hts.leftOfTighter hsign) h

/-- An operator of the level takes an operand of the tighter level to its right, and reading goes on
behind it, unless it is a comparison. -/
theorem operators_succ (ih : RoundsTake rounds) (hinput : Formed input)
    (hfirst : Writes level.left before first)
    (h : (readOperators (rounds + 1) level first).run input = .ok (e, left)) :
    Took level before input e left := by
  obtain ⟨t, mid, hpeek, hrest⟩ := run_bind_eq_ok.1 h
  obtain rfl := peek?_eq_ok hpeek
  split at hrest
  · cases hrest
    exact took_nil hfirst.ofLeft
  · next op hop =>
    obtain ⟨t', mid', hnext, hright⟩ := run_bind_eq_ok.1 hrest
    obtain rfl := next_eq_ok hnext
    cases hpeek
    obtain ⟨right, mid, hright, hmore⟩ := run_bind_eq_ok.1 hright
    have htook := ih.level hinput.tail hright
    refine Took.cons (htook.andThen fun us hus => ?_)
    have hwrites : Writes level ((before ++ [t']) ++ us) (.binary op first right) := by
      rw [List.append_assoc]
      exact .binary hop hfirst hus
    split at hmore
    · cases hmore
      exact took_nil hwrites
    · next hchains => exact ih.operators (htook.formed hinput.tail) (hwrites.left hchains) hmore

theorem signed_succ (ih : RoundsTake rounds) (hinput : Formed input)
    (h : (readSigned (rounds + 1)).run input = .ok (e, left)) : Took .sign [] input e left := by
  obtain ⟨minus, mid, hminus, hrest⟩ := run_bind_eq_ok.1 h
  obtain rfl := accept_eq_ok hminus
  cases minus with
  | true =>
    obtain ⟨operand, mid', hoperand, hrest⟩ := run_bind_eq_ok.1 hrest
    cases hrest
    obtain ⟨ts, rfl, hts⟩ := ih.signed hinput.tail hoperand
    exact ⟨.minus :: ts, rfl, .minus hts⟩
  | false =>
    obtain ⟨plus, mid', hplus, hrest⟩ := run_bind_eq_ok.1 hrest
    have hmid := accept_eq_ok hplus
    cases plus with
    | true =>
      obtain rfl := hmid
      obtain ⟨ts, rfl, hts⟩ := ih.signed hinput.tail hrest
      exact ⟨.plus :: ts, rfl, .plus hts⟩
    | false =>
      obtain rfl := hmid
      exact ih.operand hinput hrest

theorem operand_succ (ih : RoundsTake rounds) (hinput : Formed input)
    (h : (readOperand (rounds + 1)).run input = .ok (e, left)) : Took .sign [] input e left := by
  obtain ⟨t, mid, hnext, hrest⟩ := run_bind_eq_ok.1 h
  obtain rfl := next_eq_ok hnext
  split at hrest
  · obtain ⟨value, mid', hvalue, hrest⟩ := run_bind_eq_ok.1 hrest
    cases hrest
    obtain ⟨hnumber, rfl⟩ := run_readNumber_eq_ok hvalue
    exact ⟨[.number _], rfl, .number (hinput _ List.mem_cons_self) hnumber⟩
  · cases hrest
    exact ⟨[.text _], rfl, .text _⟩
  · obtain ⟨ref, mid', href, hrest⟩ := run_bind_eq_ok.1 hrest
    cases hrest
    exact Took.cons (fieldFrom_took href)
  · obtain ⟨inner, mid', hinner, hrest⟩ := run_bind_eq_ok.1 hrest
    obtain ⟨u, mid'', hclose, hrest⟩ := run_bind_eq_ok.1 hrest
    cases hrest
    obtain ⟨ts, rfl, hts⟩ := ih.level hinput.tail hinner
    obtain rfl := expect_eq_ok hclose
    exact ⟨.openParen :: ts ++ [.closeParen], by simp, .parens hts⟩
  · cases hrest

end RoundsTake

/-- With a round less, the readings inside a reading take what they should. -/
theorem rounds_take (rounds : Nat) : RoundsTake rounds := by
  induction rounds with
  | zero => exact ⟨nofun, nofun, nofun, nofun⟩
  | succ rounds ih => exact ⟨ih.level_succ, ih.operators_succ, ih.signed_succ, ih.operand_succ⟩

end Soundness

/-! ## What is written is read -/

/-- No operator of a level or of a tighter one starts some tokens, nor a period. -/
def StopsAt (level : Level) (ts : List Token) : Prop :=
  ∀ t ∈ ts.head?, t ≠ .period ∧ ∀ l : Level, level.rank ≤ l.rank → l.operator? t = none

/-- The rounds that reading tokens at a level takes at most. -/
def Level.rounds (level : Level) (ts : List Token) : Nat := 10 * ts.length + 8 - level.rank

/-- Tokens are read as an expression at a level wherever its operators stop. -/
def ReadAs (level : Level) (ts : List Token) (e : Expression) : Prop :=
  ∀ n rest, level.rounds ts ≤ n → StopsAt level rest →
    (readLevel n level).run ((ts ++ rest).map .ok) = .ok (e, rest.map .ok)

/-- Tokens are read as a first expression at a level, with further operators of the level to read
behind them. Each of its operators took a token and a round. -/
def LeadsTo (level : Level) (ts : List Token) (e : Expression) : Prop :=
  ∀ n rest, level.rounds ts ≤ n → StopsAt level.tighter rest → ∃ m, n ≤ m + ts.length ∧
    (readLevel n level).run ((ts ++ rest).map .ok) = (readOperators m level e).run (rest.map .ok)

section Completeness
variable {level : Level} {ts us : List Token} {e a b : Expression} {t : Token} {op : Operator}

theorem StopsAt.tighter (h : StopsAt level ts) : StopsAt level.tighter ts := by
  refine fun t ht => ⟨(h t ht).1, fun l hl => (h t ht).2 l (le_trans ?_ hl)⟩
  cases level <;> decide

theorem stopsAt_nil : StopsAt level [] := nofun

theorem stopsAt_closeParen : StopsAt level (.closeParen :: ts) := by
  rintro t ⟨⟩
  exact ⟨nofun, fun l _ => by cases l <;> rfl⟩

theorem stopsAt_operator (h : level.operator? t = some op) : StopsAt level.tighter (t :: ts) := by
  rintro t' ⟨⟩
  unfold Level.operator? at h
  split at h <;> cases h
  all_goals
    refine ⟨nofun, fun l hl => ?_⟩
    cases l <;> first | rfl | exact absurd hl (by decide)

theorem run_bind_of_ok {α β : Type} {x : Reading SyntaxFault α} {f : α → Reading SyntaxFault β}
    {input rest : List Lexeme} {value : α} (h : x.run input = .ok (value, rest)) :
    (x >>= f).run input = (f value).run rest := by
  rw [StateT.run_bind, h]
  rfl

theorem run_readOperators_of_none {m : Nat} {input : List Lexeme} (h : level.operator? t = none) :
    (readOperators (m + 1) level e).run (.ok t :: input) = .ok (e, .ok t :: input) := by
  have hpeek : Reading.peek?.run (.ok t :: input) = .ok (some t, .ok t :: input) := rfl
  rw [readOperators, run_bind_of_ok hpeek]
  simp only [Option.bind_some, h]
  rfl

theorem run_readOperators_of_some {m : Nat} {input : List Lexeme} (h : level.operator? t = some op) :
    (readOperators (m + 1) level a).run (.ok t :: input) = (do
      let b ← readLevel m level.tighter
      if level = .comparison then return .binary op a b
      else readOperators m level (.binary op a b) : Reading SyntaxFault Expression).run input := by
  have hpeek : Reading.peek?.run (.ok t :: input) = .ok (some t, .ok t :: input) := rfl
  rw [readOperators, run_bind_of_ok hpeek]
  simp only [Option.bind_some, h]
  rfl

theorem readOperators_stops {m : Nat} (h : StopsAt level ts) (hm : 0 < m) :
    (readOperators m level e).run (ts.map .ok) = .ok (e, ts.map .ok) := by
  obtain ⟨m, rfl⟩ := Nat.exists_eq_add_one.2 hm
  cases ts with
  | nil => rfl
  | cons t ts => exact run_readOperators_of_none ((h t rfl).2 level le_rfl)

/-- A first expression with nothing of its level behind it is read as it is. -/
theorem LeadsTo.readAs (h : LeadsTo level ts e) : ReadAs level ts e := by
  intro n rest hn hrest
  obtain ⟨m, hm, hread⟩ := h n rest hn hrest.tighter
  rw [hread]
  refine readOperators_stops hrest ?_
  have := level.rank_le
  simp only [Level.rounds] at hn
  omega

theorem ReadAs.leadsTo (hlevel : level ≠ .sign) (hts : ts ≠ []) (h : ReadAs level.tighter ts e) :
    LeadsTo level ts e := by
  intro n rest hn hrest
  have hlength := List.length_pos_iff.2 hts
  have hrank := level.rank_tighter hlevel
  simp only [Level.rounds] at hn
  obtain ⟨m, rfl⟩ : ∃ m, n = m + 1 := ⟨n - 1, by have := level.rank_le; omega⟩
  refine ⟨m, by omega, ?_⟩
  rw [readLevel_succ hlevel]
  exact run_bind_of_ok (h m rest (by simp only [Level.rounds]; omega) hrest)

/-- A right operand behind a first expression makes a longer first expression. -/
theorem LeadsTo.binary (hop : level.operator? t = some op) (hlevel : level ≠ .comparison)
    (ha : LeadsTo level ts a) (hb : ReadAs level.tighter us b) :
    LeadsTo level (ts ++ t :: us) (.binary op a b) := by
  intro n rest hn hrest
  have hrank := level.rank_tighter (Level.operator?_ne_sign hop)
  simp only [Level.rounds, List.length_append, List.length_cons] at hn ⊢
  obtain ⟨m, hm, hread⟩ := ha n (t :: us ++ rest) (by simp only [Level.rounds]; omega)
    (stopsAt_operator hop)
  have := level.rank_le
  obtain ⟨m, rfl⟩ : ∃ k, m = k + 1 := ⟨m - 1, by omega⟩
  refine ⟨m, by omega, ?_⟩
  have hright := hb m rest (by simp only [Level.rounds]; omega) hrest
  rw [List.append_assoc, hread, List.cons_append, List.map_cons, run_readOperators_of_some hop,
    run_bind_of_ok hright, if_neg hlevel]

theorem ReadAs.comparison (h : ReadAs .sum ts e) : ReadAs .comparison ts e := by
  intro n rest hn hrest
  simp only [Level.rounds, Level.rank] at hn
  obtain ⟨m, rfl⟩ : ∃ m, n = m + 1 := ⟨n - 1, by omega⟩
  have hfirst := h m rest (by simp only [Level.rounds, Level.rank]; omega) hrest.tighter
  rw [readLevel_succ (show Level.comparison ≠ .sign from nofun)]
  exact (run_bind_of_ok hfirst).trans (readOperators_stops hrest (by omega))

theorem ReadAs.compare (hop : Level.operator? .comparison t = some op) (ha : ReadAs .sum ts a)
    (hb : ReadAs .sum us b) : ReadAs .comparison (ts ++ t :: us) (.binary op a b) := by
  intro n rest hn hrest
  simp only [Level.rounds, Level.rank, List.length_append, List.length_cons] at hn
  obtain ⟨m, rfl⟩ : ∃ m, n = m + 2 := ⟨n - 2, by omega⟩
  have hfirst := ha (m + 1) (t :: us ++ rest) (by simp only [Level.rounds, Level.rank]; omega)
    (stopsAt_operator hop)
  have hright := hb m rest (by simp only [Level.rounds, Level.rank]; omega) hrest.tighter
  rw [List.append_assoc, readLevel_succ (show Level.comparison ≠ .sign from nofun)]
  refine (run_bind_of_ok hfirst).trans ?_
  rw [List.cons_append, List.map_cons, run_readOperators_of_some hop]
  exact run_bind_of_ok hright

/-! ### Signs and operands -/

theorem ReadAs.minus (h : ReadAs .sign ts e) : ReadAs .sign (.minus :: ts) (.negate e) := by
  intro n rest hn hrest
  simp only [Level.rounds, Level.rank, List.length_cons] at hn
  obtain ⟨m, rfl⟩ : ∃ m, n = m + 2 := ⟨n - 2, by omega⟩
  have hoperand : (readSigned m).run ((ts ++ rest).map .ok) = .ok (e, rest.map .ok) :=
    h (m + 1) rest (by simp only [Level.rounds, Level.rank]; omega) hrest
  change (readSigned m >>= fun e => pure (Expression.negate e)).run _ = _
  exact run_bind_of_ok hoperand

theorem ReadAs.plus (h : ReadAs .sign ts e) : ReadAs .sign (.plus :: ts) e := by
  intro n rest hn hrest
  simp only [Level.rounds, Level.rank, List.length_cons] at hn
  obtain ⟨m, rfl⟩ : ∃ m, n = m + 2 := ⟨n - 2, by omega⟩
  exact h (m + 1) rest (by simp only [Level.rounds, Level.rank]; omega) hrest

/-- What no sign stands in front of is read as an operand. -/
theorem readAs_operand (hminus : t ≠ .minus) (hplus : t ≠ .plus)
    (h : ∀ n rest, 10 * ts.length + 10 ≤ n + 3 → StopsAt .sign rest →
      (readOperand (n + 1)).run (.ok t :: (ts ++ rest).map .ok) = .ok (e, rest.map .ok)) :
    ReadAs .sign (t :: ts) e := by
  intro n rest hn hrest
  simp only [Level.rounds, Level.rank, List.length_cons] at hn
  obtain ⟨m, rfl⟩ : ∃ m, n = m + 3 := ⟨n - 3, by omega⟩
  have hnot {u : Token} (hu : t ≠ u) : (Reading.accept u).run (.ok t :: (ts ++ rest).map .ok) =
      .ok (false, .ok t :: (ts ++ rest).map .ok) := by
    simp only [StateT.run, Reading.accept, if_neg hu]
  refine Eq.trans ?_ (h m rest (by omega) hrest)
  exact (run_bind_of_ok (hnot hminus)).trans (run_bind_of_ok (hnot hplus))

theorem run_fieldFrom_of_stops {first : String} (h : StopsAt level ts) :
    (Reading.fieldFrom first).run (ts.map .ok) = .ok (⟨none, first⟩, ts.map .ok) := by
  have hperiod : (Reading.accept .period).run (ts.map .ok) = .ok (false, ts.map .ok) := by
    cases ts with
    | nil => rfl
    | cons t ts => simp only [StateT.run, List.map_cons, Reading.accept, if_neg (h t rfl).1]
  exact run_bind_of_ok hperiod

theorem readAs_number {s : String} {value : Value} (h : readNumber s = .ok value) :
    ReadAs .sign [.number s] (.constant value) := by
  refine readAs_operand nofun nofun fun n rest _ _ => ?_
  change StateT.run (do return .constant (← liftM (readNumber s)) : Reading SyntaxFault Expression) _ = _
  rw [h]
  rfl

theorem readAs_text {s : String} : ReadAs .sign [.text s] (.constant (.text s)) :=
  readAs_operand nofun nofun fun _ _ _ _ => rfl

theorem readAs_field {name : String} : ReadAs .sign [.name name] (.field ⟨none, name⟩) := by
  refine readAs_operand nofun nofun fun n rest _ hrest => ?_
  change (Reading.fieldFrom name >>= fun ref => pure (Expression.field ref)).run (rest.map .ok) = _
  exact run_bind_of_ok (run_fieldFrom_of_stops hrest)

theorem readAs_qualified {qualifier name : String} :
    ReadAs .sign [.name qualifier, .period, .name name] (.field ⟨some qualifier, name⟩) :=
  readAs_operand nofun nofun fun _ _ _ _ => rfl

theorem ReadAs.parens (h : ReadAs .disjunction ts e) :
    ReadAs .sign (.openParen :: ts ++ [.closeParen]) e := by
  refine readAs_operand nofun nofun fun n rest hn _ => ?_
  change 10 * (ts ++ [Token.closeParen]).length + 10 ≤ n + 3 at hn
  rw [List.length_append, List.length_singleton] at hn
  have hinner := h n (.closeParen :: rest) (by simp only [Level.rounds, Level.rank]; omega)
    stopsAt_closeParen
  change (do
    let inner ← readLevel n .disjunction
    Reading.expect .closeParen
    return inner : Reading SyntaxFault Expression).run ((ts ++ [Token.closeParen] ++ rest).map .ok) = _
  rw [List.append_assoc]
  exact run_bind_of_ok hinner

/-! ### Derivations -/

/-- What every derivation of a level gives. Comparisons do not chain, and signs stand in front. -/
def Derives : Level → List Token → Expression → Prop
  | .comparison => ReadAs .comparison
  | .sign => ReadAs .sign
  | level => LeadsTo level

theorem Derives.readAs (h : Derives level ts e) : ReadAs level ts e := by
  cases level with
  | comparison | sign => exact h
  | disjunction | conjunction | sum | product => exact LeadsTo.readAs h

theorem Writes.ne_nil (h : Writes level ts e) : ts ≠ [] := by
  induction h <;> first | assumption | simp

theorem Writes.derives (h : Writes level ts e) : Derives level ts e := by
  induction h with
  | conjunction h ih | comparison h ih | product h ih | sign h ih => exact ih.readAs.leadsTo nofun h.ne_nil
  | sum h ih => exact ih.readAs.comparison
  | or ha hb iha ihb | and ha hb iha ihb | add ha hb iha ihb | subtract ha hb iha ihb
  | multiply ha hb iha ihb | divide ha hb iha ihb => exact LeadsTo.binary rfl nofun iha ihb.readAs
  | compare c ha hb iha ihb => exact iha.readAs.compare c.operator?_token ihb.readAs
  | minus h ih => exact ReadAs.minus ih
  | plus h ih => exact ReadAs.plus ih
  | integer hdigits hne hsmall => exact readAs_number (by rw [readNumber_whole hdigits hne, if_pos hsmall])
  | float hwhole hne hfraction => exact readAs_number (readNumber_pointed hwhole hne hfraction)
  | text => exact readAs_text
  | field => exact readAs_field
  | qualified => exact readAs_qualified
  | parens h ih => exact ih.readAs.parens

end Completeness

theorem Expression.ofString_eq_ok {text : String} {e : Expression} :
    Expression.ofString text = .ok e ↔ readExpression.run (lex text) = .ok (e, []) := by
  cases hread : readExpression.run (lex text) with
  | error fault =>
    simp only [Expression.ofString, hread]
    exact ⟨nofun, nofun⟩
  | ok found =>
    obtain ⟨found, rest⟩ := found
    rw [Expression.ofString, hread]
    rcases rest with _ | ⟨_ | t, rest⟩
    · constructor <;> rintro ⟨⟩ <;> rfl
    · exact ⟨nofun, nofun⟩
    · exact ⟨nofun, nofun⟩

theorem run_readExpression (input : List Lexeme) :
    readExpression.run input = (readLevel (10 * input.length + 10) .disjunction).run input := by
  rw [Reading.run_apply, readExpression]

/-- The expression that a text writes is the one that its tokens derive, the whole text being tokens;
a text without one is malformed, and nothing else is wrong with it. -/
theorem Expression.ofString_iff_writes (text : String) :
    (∀ e, Expression.ofString text = .ok e ↔
      ∃ tokens : List Token, lex text = tokens.map .ok ∧ Writes .disjunction tokens e) ∧
    ((∃ e, Expression.ofString text = .ok e) ∨
      ∃ fault, Expression.ofString text = .error (.malformedExpression fault)) := by
  refine ⟨fun e => ?_, ?_⟩
  · rw [Expression.ofString_eq_ok, run_readExpression]
    constructor
    · intro h
      obtain ⟨tokens, hlex, hwrites⟩ := (rounds_take _).level (lex_formed text) h
      exact ⟨tokens, by rw [hlex, List.append_nil], hwrites⟩
    · rintro ⟨tokens, hlex, hwrites⟩
      have hrounds : Level.disjunction.rounds tokens ≤ 10 * (lex text).length + 10 := by
        rw [hlex, List.length_map]
        simp only [Level.rounds]
        omega
      have hread := hwrites.derives.readAs _ [] hrounds stopsAt_nil
      rwa [List.append_nil, ← hlex] at hread
  · rw [Expression.ofString]
    generalize (readExpression.run (lex text) >>= _) = outcome
    cases outcome with
    | ok e => exact .inl ⟨e, rfl⟩
    | error fault => exact .inr ⟨fault, rfl⟩

end TextTables
