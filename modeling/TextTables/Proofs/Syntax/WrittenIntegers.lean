import TextTables.Proofs.Evaluation.Integers
import TextTables.Proofs.Syntax.ReadBack
/-!
# Written integers

The sign of a written integer is a token of its own and its digits are another, so the integer is read as the
opposite of a number without a sign (`integerExpression`). That is the integer again, except for the least one,
of which the opposite does not fit into 64 bits.
-/

namespace TextTables

open Decimal (AllDigits allDigits_toDigits toList_toString_int int64?_of_inInt64)

/-! ## Tokens -/

/-- The tokens of a written integer. -/
def integerTokens (z : ℤ) : List Token :=
  (if z < 0 then [.minus] else []) ++ [.number (toString z.natAbs)]

theorem toList_toString_nat (n : Nat) : (toString n).toList = Nat.toDigits 10 n := Nat.toList_repr

theorem toString_of_nonneg {z : ℤ} (h : 0 ≤ z) : toString z = toString z.natAbs := by
  refine String.toList_inj.1 ?_
  rw [toList_toString_int, if_neg (by omega), List.nil_append, toList_toString_nat]

theorem lexFrom_toString_int (z : ℤ) {rest : List Char} (hrest : EndsNumber rest) :
    lexFrom .between ((toString z).toList ++ rest) = (integerTokens z).map .ok ++ lexFrom .between rest := by
  have hnumber : lexFrom .between (Nat.toDigits 10 z.natAbs ++ rest) =
      .ok (.number (toString z.natAbs)) :: lexFrom .between rest := by
    have hdigits := toList_toString_nat z.natAbs
    rw [← hdigits]
    exact lexFrom_between_number (hdigits ▸ allDigits_toDigits _) (hdigits ▸ Nat.toDigits_ne_nil) hrest
  rw [toList_toString_int, integerTokens]
  split
  · rw [List.append_assoc, List.singleton_append, lexFrom_symbol rfl, hnumber]
    rfl
  · rw [List.nil_append, hnumber]
    rfl

theorem lex_toString_int (z : ℤ) : lex (toString z) = (integerTokens z).map .ok := by
  have hlex : lexFrom .between (toString z).toList = (integerTokens z).map .ok := by
    have hrest := @lexFrom_toString_int z [] nofun
    rwa [List.append_nil, lexFrom, endScan, List.append_nil] at hrest
  rw [lex, hlex, untilFault_map_ok]

theorem Lexes.before_space {cs rest : List Char} {t : Token} (h : Lexes cs t) :
    lexFrom .between (cs ++ ' ' :: rest) = .ok t :: lexFrom .between rest := by
  rw [h _ (by rintro c ⟨⟩; rfl), lexFrom_space]

/-- The statement that puts one record of one integer into a table, as text. -/
def integerInsertion (table : String) (n : Int64) : String :=
  "INSERT INTO " ++ table ++ " VALUES (" ++ (Value.integer n).render ++ ")"

/-- The tokens of the statement. -/
def integerInsertionTokens (table : String) (z : ℤ) : List Token :=
  [.keyword .insert, .keyword .into, .name table, .keyword .values, .openParen] ++ integerTokens z ++ [.closeParen]

theorem lex_integerInsertion {table : String} (h : IsName table) (n : Int64) :
    lex (integerInsertion table n) = (integerInsertionTokens table n.toInt).map .ok := by
  have hchars : (integerInsertion table n).toList = Keyword.insert.spelling.toList ++ ' ' ::
      (Keyword.into.spelling.toList ++ ' ' :: (table.toList ++ ' ' :: (Keyword.values.spelling.toList ++ ' ' ::
        ('(' :: ((toString n.toInt).toList ++ [')']))))) := by
    simp [integerInsertion, Value.render, Keyword.spelling]
  have hparen : EndsNumber [')'] := by
    rintro c ⟨⟩
    decide
  have hlex : lexFrom .between (integerInsertion table n).toList = (integerInsertionTokens table n.toInt).map .ok := by
    rw [hchars, (lexes_keyword .insert).before_space, (lexes_keyword .into).before_space, (lexes_name h).before_space,
      (lexes_keyword .values).before_space, lexFrom_symbol rfl, lexFrom_toString_int _ hparen, lexFrom_symbol rfl]
    simp [integerInsertionTokens, lexFrom, endScan]
  rw [lex, hlex, untilFault_map_ok]

/-! ## Expressions -/

/-- The expression that a written integer is read as. -/
def integerExpression (n : Int64) : Expression :=
  if n.toInt < 0 then .negate (.constant (.integer (-n))) else .constant (.integer n)

section Expressions
variable {n : Int64}

theorem toInt_neg_of_ne_minValue (h : n ≠ Int64.minValue) : (-n).toInt = -n.toInt := by
  have hne : n.toInt ≠ -2 ^ 63 := fun heq => h (Int64.toInt_inj.1 (heq.trans Int64.toInt_minValue.symm))
  have hlow := n.le_toInt
  have hhigh := n.toInt_lt
  rw [Int64.toInt_neg, Int.bmod_eq_of_le]
  all_goals omega

theorem printable_integerExpression (h : n ≠ Int64.minValue) : (integerExpression n).Printable := by
  unfold integerExpression
  split
  · change 0 ≤ (-n).toInt
    rw [toInt_neg_of_ne_minValue h]
    omega
  · change 0 ≤ n.toInt
    omega

theorem tokens_integerExpression (h : n ≠ Int64.minValue) (level : Level) :
    (integerExpression n).tokens level = integerTokens n.toInt := by
  unfold integerExpression integerTokens
  split
  · next hnegative =>
    have hdigits : toString (-n).toInt = toString n.toInt.natAbs := by
      rw [toInt_neg_of_ne_minValue h, toString_of_nonneg (by omega), Int.natAbs_neg]
    rw [Expression.tokens, Expression.tokens, Value.token, Value.render, hdigits]
    · rfl
    · simp
  · next hnonneg =>
    rw [Expression.tokens, Value.token, Value.render, toString_of_nonneg (not_lt.1 hnonneg)]
    · rfl
    · simp

/-- The expression has the value of the integer. -/
theorem evaluate_integerExpression (h : n ≠ Int64.minValue) :
    (integerExpression n).evaluate [] = .ok (.integer n) := by
  unfold integerExpression
  split
  · have hopposite : -(-n).toInt = n.toInt := by rw [toInt_neg_of_ne_minValue h, neg_neg]
    obtain ⟨m, hm, hmz⟩ := int64?_of_inInt64 (hopposite ▸ inInt64_toInt n)
    rw [Expression.evaluate_negate]
    change Value.negate (.integer (-n)) = _
    simp only [Value.negate, hm]
    rw [Int64.toInt_inj.1 (hmz.trans hopposite)]
  · rfl

theorem ofString_of_lex {text : String} {ts : List Token} {e : Expression} (hlex : lex text = ts.map .ok)
    (h : Writes .disjunction ts e) : Expression.ofString text = .ok e := by
  have hrounds : Level.disjunction.rounds ts ≤ 10 * (ts.map (Except.ok (ε := SyntaxFault))).length + 10 := by
    rw [List.length_map, Level.rounds]
    omega
  have hread := h.derives.readAs _ [] hrounds stopsAt_nil
  rw [List.append_nil] at hread
  rw [Expression.ofString_eq_ok, run_readExpression, hlex]
  exact hread

theorem ofString_render_integer (h : n ≠ Int64.minValue) :
    Expression.ofString (Value.integer n).render = .ok (integerExpression n) := by
  refine ofString_of_lex (lex_toString_int n.toInt) ?_
  rw [← tokens_integerExpression h .disjunction]
  exact Expression.writes_tokens (printable_integerExpression h) .disjunction

end Expressions

/-! ## Insertions -/

section Insertions
variable {table : String} {n : Int64}

theorem Statement.ofString_of_lex {style : Style} {s : Statement} {text : String}
    (hlex : lex text = (s.tokens style).map .ok) (h : s.Printable) : Statement.ofString text = .ok s := by
  have hread : Reads read (s.tokens style ++ []) s [] := reads_read h nofun
  rw [List.append_nil] at hread
  rw [ofString, hlex]
  refine Except.bind_eq_ok.2 ⟨(s, []), ?_, rfl⟩
  change Reads _ _ s []
  exact hread.bind ((reads_accept_of_ne (by simp)).lift.bind (reads_peek?.lift.bind reads_pure))

theorem ofString_integerInsertion (htable : IsName table) (h : n ≠ Int64.minValue) :
    Plan.ofString (integerInsertion table n) = .ok (.insert table [[integerExpression n]]) := by
  let style : Style := ⟨false, false, false, false⟩
  have hprintable : (Statement.insert table [[integerExpression n]]).Printable := by
    simp [Statement.Printable, htable, printable_integerExpression h]
  have htokens : (Statement.insert table [[integerExpression n]]).tokens style =
      integerInsertionTokens table n.toInt := by
    simp [Statement.tokens, Statement.tupleTokens, commas, tokens_integerExpression h, integerInsertionTokens]
  rw [Plan.ofString, Statement.ofString_of_lex (htokens ▸ lex_integerInsertion htable n) hprintable]
  rfl

/-- The least integer is lexed like every other, and its digits stand for no integer. -/
theorem ofString_integerInsertion_minValue (htable : IsName table) :
    Plan.ofString (integerInsertion table Int64.minValue) = .error (.malformedExpression .integerTooLarge) := by
  rw [Plan.ofString, Statement.ofString, lex_integerInsertion htable]
  cbv

end Insertions

end TextTables
