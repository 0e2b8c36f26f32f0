import TextTables.Plan
import TextTables.Proofs.Store.Action
/-!
# Readings go forward

What a reading takes from the front of the lexemes, and that it leaves the end of them: a lexeme that
is read at some point of a statement is one of the statement's.
-/

namespace TextTables

/-! ## What a reading takes -/

namespace Reading

section Opening
variable {ε ε' α β : Type} {input rest : List Lexeme} {a : α} {b : β}

theorem run_bind_eq_ok {x : Reading ε α} {f : α → Reading ε β} :
    (x >>= f).run input = .ok (b, rest) ↔
      ∃ a mid, x.run input = .ok (a, mid) ∧ (f a).run mid = .ok (b, rest) := by
  rw [StateT.run_bind, Except.bind_eq_ok]
  constructor
  · rintro ⟨⟨a, mid⟩, hx, hf⟩
    exact ⟨a, mid, hx, hf⟩
  · rintro ⟨a, mid, hx, hf⟩
    exact ⟨(a, mid), hx, hf⟩

theorem run_mapError_eq_ok {f : ε → ε'} {x : Reading ε α} :
    (x.mapError f).run input = .ok (a, rest) ↔ x.run input = .ok (a, rest) := by
  change (x.run input).mapError f = _ ↔ _
  cases x.run input <;> simp [Except.mapError]

end Opening

variable {input rest : List Lexeme} {t : Token} {s : String} {u : Unit}

theorem next_eq_ok (h : next.run input = .ok (t, rest)) : input = .ok t :: rest := by
  rcases input with _ | ⟨_ | _, _⟩ <;> cases h
  rfl

theorem expect_eq_ok (h : (expect t).run input = .ok (u, rest)) : input = .ok t :: rest := by
  obtain ⟨t', mid, hnext, h⟩ := run_bind_eq_ok.1 h
  split at h
  · next heq =>
    cases h
    rw [next_eq_ok hnext, heq]
  · cases h

theorem name_eq_ok (h : name.run input = .ok (s, rest)) : input = .ok (.name s) :: rest := by
  obtain ⟨t, mid, hnext, h⟩ := run_bind_eq_ok.1 h
  split at h
  · cases h
    exact next_eq_ok hnext
  · cases h

/-- A reading inside a statement takes what it takes by itself. -/
theorem run_lift_eq_ok {α : Type} {x : Reading SyntaxFault α} {a : α} :
    (liftM x : Reading Error α).run input = .ok (a, rest) ↔ x.run input = .ok (a, rest) :=
  run_mapError_eq_ok

/-! ## What a reading leaves -/

section Advances

/-- What is left is the end of what there was. -/
def Advances {ε α : Type} (read : Reading ε α) : Prop :=
  ∀ input a rest, read.run input = .ok (a, rest) → rest <:+ input

variable {ε ε' α β : Type} {read : Reading ε α}

theorem run_apply (input : List Lexeme) : read.run input = read input := rfl

theorem advances_pure (a : α) : Advances (pure a : Reading ε α) := by
  intro input b rest h
  cases h
  exact List.suffix_rfl

theorem advances_throw (e : ε) : Advances (throw e : Reading ε α) := by
  intro input a rest h
  cases h

theorem advances_lift (result : Except ε α) : Advances (liftM result : Reading ε α) := by
  intro input a rest h
  cases result with
  | error e => cases h
  | ok b =>
    cases h
    exact List.suffix_rfl

theorem Advances.bind {f : α → Reading ε β} (h : read.Advances) (hf : ∀ a, (f a).Advances) :
    (read >>= f).Advances := by
  intro input b rest hrun
  obtain ⟨a, mid, hread, hrun⟩ := run_bind_eq_ok.1 hrun
  exact (hf a mid b rest hrun).trans (h input a mid hread)

theorem Advances.mapError (h : read.Advances) (f : ε → ε') : (read.mapError f).Advances :=
  fun input a rest hrun => h input a rest (run_mapError_eq_ok.1 hrun)

theorem advances_next : next.Advances := by
  intro input t rest h
  rw [next_eq_ok h]
  exact List.suffix_cons _ _

theorem advances_peek? : peek?.Advances := by
  intro input t rest h
  rcases input with _ | ⟨_ | _, _⟩ <;> cases h <;> exact List.suffix_rfl

theorem advances_accept (t : Token) : (accept t).Advances := by
  intro input b rest h
  rcases input with _ | ⟨_ | u, tail⟩
  · cases h
    exact List.suffix_rfl
  · cases h
    exact List.suffix_rfl
  · by_cases hu : u = t
    · simp only [StateT.run, accept, if_pos hu] at h
      cases h
      exact List.suffix_cons _ _
    · simp only [StateT.run, accept, if_neg hu] at h
      cases h
      exact List.suffix_rfl

theorem advances_expect (t : Token) : (expect t).Advances := by
  refine advances_next.bind fun u => ?_
  split
  · exact advances_pure _
  · exact advances_throw _

theorem advances_name : name.Advances := by
  refine advances_next.bind fun t => ?_
  split
  · exact advances_pure _
  · exact advances_throw _

theorem advances_fieldFrom (first : String) : (fieldFrom first).Advances := by
  refine (advances_accept _).bind fun b => ?_
  split
  · exact advances_name.bind fun _ => advances_pure _
  · exact advances_pure _

theorem Advances.commaSeparated {item : Reading SyntaxFault α} (h : item.Advances) (rounds : Nat) :
    (commaSeparated item rounds).Advances := by
  induction rounds with
  | zero => exact advances_throw _
  | succ rounds ih =>
    refine h.bind fun first => (advances_accept _).bind fun b => ?_
    split
    · exact ih.bind fun _ => advances_pure _
    · exact advances_pure _

end Advances

end Reading

open Reading

/-! ## Expressions -/

/-- Every level goes forward, since each reading in it has one round less. -/
theorem advances_rounds (rounds : Nat) :
    (∀ level, (readLevel rounds level).Advances) ∧
    (∀ level left, (readOperators rounds level left).Advances) ∧
    (readSigned rounds).Advances ∧ (readOperand rounds).Advances := by
  induction rounds with
  | zero => exact ⟨fun _ => advances_throw _, fun _ _ => advances_throw _, advances_throw _, advances_throw _⟩
  | succ rounds ih =>
    obtain ⟨hlevel, hoperators, hsigned, hoperand⟩ := ih
    refine ⟨fun level => ?_, fun level left => ?_, ?_, ?_⟩
    · cases level with
      | sign => exact hsigned
      | disjunction | conjunction | comparison | sum | product =>
        exact (hlevel _).bind fun first => hoperators _ first
    · refine advances_peek?.bind fun t => ?_
      split
      · exact advances_pure _
      · refine advances_next.bind fun _ => (hlevel _).bind fun right => ?_
        split
        · exact advances_pure _
        · exact hoperators _ _
    · refine (advances_accept _).bind fun minus => ?_
      split
      · exact hsigned.bind fun _ => advances_pure _
      · refine (advances_accept _).bind fun plus => ?_
        split
        · exact hsigned
        · exact hoperand
    · refine advances_next.bind fun t => ?_
      split
      · exact (advances_lift _).bind fun _ => advances_pure _
      · exact advances_pure _
      · exact (advances_fieldFrom _).bind fun _ => advances_pure _
      · exact (hlevel _).bind fun _ => (advances_expect _).bind fun _ => advances_pure _
      · exact advances_throw _

theorem advances_readExpression : readExpression.Advances := by
  intro input e rest h
  rw [run_apply, readExpression] at h
  exact (advances_rounds _).1 .disjunction input e rest h

/-! ## Parts of queries -/

namespace Statement

theorem advances_rounds {ε : Type} : (rounds : Reading ε Nat).Advances := by
  intro input n rest h
  cases h
  exact List.suffix_rfl

theorem advances_expression : expression.Advances := advances_readExpression.mapError _

theorem advances_aggregateArgument (function : String) : (aggregateArgument function).Advances := by
  refine (advances_accept _).bind fun star => ?_
  split
  · split
    · exact advances_pure _
    · exact advances_throw _
  · exact advances_name.bind fun _ => (advances_fieldFrom _).bind fun _ => advances_pure _

theorem advances_selectedFields (first : String) : (selectedFields first).Advances := by
  refine (advances_fieldFrom _).bind fun ref => (advances_accept _).bind fun comma => ?_
  split
  · have hitem : (do Reading.fieldFrom (← Reading.name) : Reading SyntaxFault FieldRef).Advances :=
      advances_name.bind advances_fieldFrom
    exact advances_rounds.bind fun n => (hitem.commaSeparated n).bind fun _ => advances_pure _
  · exact advances_pure _

theorem advances_selection : selection.Advances := by
  refine (advances_accept _).bind fun star => ?_
  split
  · exact advances_pure _
  · refine advances_name.bind fun first => ?_
    have hfields : (do return .fields (← selectedFields first) : Reading SyntaxFault Selection).Advances :=
      (advances_selectedFields first).bind fun _ => advances_pure _
    split
    · refine (advances_accept _).bind fun paren => ?_
      split
      · exact (advances_aggregateArgument _).bind fun _ =>
          (advances_expect _).bind fun _ => advances_pure _
      · exact hfields
    · exact hfields

theorem advances_joint : joint.Advances := by
  -- The kinds of joins are tried one after another.
  have houter (kind : JoinKind) : (do
      let _ ← Reading.accept (.keyword .outer)
      Reading.expect (.keyword .join)
      return .join kind : Reading SyntaxFault Joint).Advances :=
    (advances_accept _).bind fun _ => (advances_expect _).bind fun _ => advances_pure _
  refine (advances_accept _).bind fun comma => ?_
  split
  · exact advances_pure _
  refine (advances_accept _).bind fun join => ?_
  split
  · exact advances_pure _
  refine (advances_accept _).bind fun inner => ?_
  split
  · exact (advances_expect _).bind fun _ => advances_pure _
  refine (advances_accept _).bind fun left => ?_
  split
  · exact houter .left
  refine (advances_accept _).bind fun right => ?_
  split
  · exact houter .right
  · exact advances_pure _

theorem advances_fromTable : fromTable.Advances := by
  refine advances_name.bind fun name => advances_peek?.bind fun t => ?_
  split
  · exact advances_next.bind fun _ => advances_pure _
  · exact advances_pure _

end Statement

end TextTables
