import TextTables.Proofs.Syntax.Printing
/-!
# Printed statements are read back

`Reads read input a rest` says what a reading takes from the front of some tokens. Every part of a
statement reads its own tokens back, whatever comes behind it, as long as that is no part of it
(`Closed`); so parsing undoes printing, `Statement.ofString_print`.
-/

namespace TextTables

/-! ## Readings of tokens -/

/-- A reading takes the tokens in front of `rest` and gives `a`. -/
def Reads {ε α : Type} (read : Reading ε α) (input : List Token) (a : α) (rest : List Token) : Prop :=
  read.run (input.map .ok) = .ok (a, rest.map .ok)

section Readings
variable {ε ε' α β : Type} {input mid rest : List Token} {a : α} {b : β} {t : Token} {s : String}

theorem Reads.bind {x : Reading ε α} {f : α → Reading ε β} (h : Reads x input a mid)
    (hf : Reads (f a) mid b rest) : Reads (x >>= f) input b rest :=
  Reading.run_bind_eq_ok.2 ⟨a, mid.map .ok, h, hf⟩

theorem Reads.mapError {x : Reading ε α} (h : Reads x input a rest) (f : ε → ε') :
    Reads (x.mapError f) input a rest :=
  Reading.run_mapError_eq_ok.2 h

theorem Reads.lift {x : Reading SyntaxFault α} (h : Reads x input a rest) :
    Reads (liftM x : Reading Error α) input a rest :=
  Reading.run_lift_eq_ok.2 h

theorem reads_pure : Reads (pure a : Reading ε α) rest a rest := rfl

theorem reads_next : Reads Reading.next (t :: rest) t rest := rfl

theorem reads_peek? : Reads Reading.peek? rest rest.head? rest := by
  cases rest <;> rfl

theorem reads_expect : Reads (Reading.expect t) (t :: rest) () rest :=
  reads_next.bind (by rw [if_pos rfl]; exact reads_pure)

theorem reads_name : Reads Reading.name (.name s :: rest) s rest := rfl

theorem reads_accept : Reads (Reading.accept t) (t :: rest) true rest := by
  simp only [Reads, StateT.run, List.map_cons, Reading.accept, if_pos]

theorem reads_accept_of_ne (h : rest.head? ≠ some t) : Reads (Reading.accept t) rest false rest := by
  cases rest with
  | nil => rfl
  | cons u rest =>
    have hu : ¬ u = t := fun heq => h (congrArg some heq)
    simp only [Reads, StateT.run, List.map_cons, Reading.accept, if_neg hu]

theorem reads_rounds : Reads (Statement.rounds : Reading ε Nat) rest (rest.length + 1) rest := by
  simp only [Reads, StateT.run, Statement.rounds, List.length_map]

end Readings

/-! ## What comes behind -/

/-- A token that is no part of an expression, a reference or a table. -/
def Token.Closes : Token → Prop
  | .comma | .closeParen | .semicolon => True
  | .keyword k => k ≠ .and ∧ k ≠ .or
  | _ => False

/-- Nothing comes, or a token that closes what stands in front of it. -/
def Closed (rest : List Token) : Prop := ∀ t ∈ rest.head?, t.Closes

section Closings
variable {rest : List Token} {t : Token} {level : Level}

theorem closed_cons (h : t.Closes) : Closed (t :: rest) := by
  rintro u ⟨⟩
  exact h

theorem closed_comma : Closed (.comma :: rest) := closed_cons trivial

theorem closed_closeParen : Closed (.closeParen :: rest) := closed_cons trivial

theorem closed_keyword {k : Keyword} (h : k ≠ .and ∧ k ≠ .or) : Closed (.keyword k :: rest) := closed_cons h

theorem Closed.ne (h : Closed rest) (ht : ¬ t.Closes) : rest.head? ≠ some t := fun heq => ht (h t heq)

theorem Closed.stopsAt (h : Closed rest) : StopsAt level rest := by
  intro t ht
  have hcloses := h t ht
  refine ⟨?_, fun l _ => Option.eq_none_iff_forall_ne_some.2 fun op hop => ?_⟩
  · rintro rfl
    exact hcloses
  · unfold Level.operator? at hop
    split at hop <;> cases hop
    case h_1 => exact hcloses.2 rfl
    case h_2 => exact hcloses.1 rfl
    all_goals exact hcloses

end Closings

/-! ## Expressions -/

theorem reads_expression {e : Expression} {rest : List Token} (h : e.Printable) (hrest : Closed rest) :
    Reads Statement.expression (e.tokens .disjunction ++ rest) e rest := by
  refine Reads.mapError ?_ _
  rw [Reads, run_readExpression]
  refine (Expression.writes_tokens h .disjunction).derives.readAs _ rest ?_ hrest.stopsAt
  simp only [Level.rounds, List.length_map, List.length_append]
  omega

/-! ## References -/

section References
variable {ref : FieldRef} {rest : List Token}

theorem FieldRef.tokens_ne_nil (ref : FieldRef) : ref.tokens ≠ [] := by
  rcases ref with ⟨_ | q, name⟩ <;> simp [tokens]

/-- A reference starts with a name, and no parenthesis comes behind it. -/
theorem reads_fieldFrom (ref : FieldRef) : ∃ first ts, ref.tokens = .name first :: ts ∧
    ∀ rest, Closed rest →
      Reads (Reading.fieldFrom first) (ts ++ rest) ref rest ∧ (ts ++ rest).head? ≠ some .openParen := by
  rcases ref with ⟨_ | q, name⟩
  · refine ⟨name, [], rfl, fun rest hrest => ⟨?_, hrest.ne id⟩⟩
    exact (reads_accept_of_ne (hrest.ne id)).bind reads_pure
  · refine ⟨q, [.period, .name name], rfl, fun rest _ => ⟨?_, by simp⟩⟩
    exact reads_accept.bind (reads_name.bind reads_pure)

theorem reads_reference (ref : FieldRef) (hrest : Closed rest) :
    Reads (do Reading.fieldFrom (← Reading.name)) (ref.tokens ++ rest) ref rest := by
  obtain ⟨first, ts, htokens, hfield⟩ := reads_fieldFrom ref
  rw [htokens]
  exact reads_name.bind (hfield rest hrest).1

end References

/-! ## Lists -/

section Lists
variable {α : Type} {ts : List Token} {items : List (List Token)} {rest : List Token}

theorem commas_singleton : commas [ts] = ts := List.intercalate_singleton

theorem commas_cons_cons {us : List Token} : commas (ts :: us :: items) = ts ++ .comma :: commas (us :: items) := by
  rw [commas, List.intercalate_cons_cons, List.append_assoc]
  rfl

/-- There is at least one token for each item. -/
theorem length_le_commas (h : ∀ ts ∈ items, ts ≠ []) : items.length ≤ (commas items).length := by
  induction items with
  | nil => exact Nat.zero_le _
  | cons ts items ih =>
    obtain ⟨hts, hitems⟩ := List.forall_mem_cons.1 h
    have hpos := List.length_pos_iff.2 hts
    cases items with
    | nil => rwa [commas_singleton]
    | cons us items =>
      have hrest := ih hitems
      rw [commas_cons_cons]
      simp only [List.length_append, List.length_cons] at hrest ⊢
      omega

/-- A round for each item is left. -/
theorem length_le_rounds {print : α → List Token} (as : List α) (h : ∀ a ∈ as, print a ≠ [])
    (rest : List Token) : as.length ≤ (commas (as.map print) ++ rest).length + 1 := by
  have hlength := length_le_commas (List.forall_mem_map.2 h)
  rw [List.length_map] at hlength
  rw [List.length_append]
  omega

theorem reads_commaSeparated {item : Reading SyntaxFault α} {print : α → List Token} {as : List α} {n : Nat}
    (hitem : ∀ a ∈ as, ∀ rest, Closed rest → Reads item (print a ++ rest) a rest) (hne : as ≠ [])
    (hn : as.length ≤ n) (hrest : Closed rest) (hcomma : rest.head? ≠ some .comma) :
    Reads (Reading.commaSeparated item n) (commas (as.map print) ++ rest) as rest := by
  induction as generalizing n with
  | nil => exact absurd rfl hne
  | cons a as ih =>
    obtain ⟨n, rfl⟩ : ∃ k, n = k + 1 := ⟨n - 1, by rw [List.length_cons] at hn; omega⟩
    obtain ⟨ha, has⟩ := List.forall_mem_cons.1 hitem
    cases as with
    | nil =>
      rw [List.map_singleton, commas_singleton]
      exact (ha rest hrest).bind ((reads_accept_of_ne hcomma).bind reads_pure)
    | cons b as =>
      rw [List.map_cons, List.map_cons, commas_cons_cons, List.append_assoc]
      refine (ha _ closed_comma).bind (reads_accept.bind ?_)
      exact (ih has (List.cons_ne_nil b as) (Nat.le_of_succ_le_succ hn)).bind reads_pure

end Lists

/-! ## Columns -/

theorem Column.tokens_ne_nil (column : Column) : column.tokens ≠ [] := List.cons_ne_nil _ _

namespace Statement

section Columns
variable {column : Column} {descriptor : String} {rest : List Token}

theorem reads_hints {hints : List String} {type : String} {n : Nat} (hn : hints.length < n)
    (hparen : rest.head? ≠ some .openParen) :
    Reads (Statement.hints n type)
      ((hints.flatMap fun hint => [.openParen, Column.hintToken hint, .closeParen]) ++ rest)
      (hints.foldl (fun type hint => type ++ "(" ++ hint ++ ")") type) rest := by
  induction hints generalizing type n with
  | nil =>
    obtain ⟨n, rfl⟩ : ∃ k, n = k + 1 := ⟨n - 1, by rw [List.length_nil] at hn; omega⟩
    exact (reads_accept_of_ne hparen).bind reads_pure
  | cons hint hints ih =>
    obtain ⟨n, rfl⟩ : ∃ k, n = k + 1 := ⟨n - 1, by rw [List.length_cons] at hn; omega⟩
    refine reads_accept.bind (reads_next.bind ?_)
    have hrest := @ih (type ++ "(" ++ hint ++ ")") n (Nat.lt_of_succ_lt_succ hn)
    by_cases hdigits : hint.toList.all Char.isDigit = true
    · rw [Column.hintToken, if_pos hdigits]
      exact reads_pure.bind (reads_expect.bind hrest)
    · rw [Column.hintToken, if_neg hdigits]
      exact reads_pure.bind (reads_expect.bind hrest)

/-- A column is read back as its descriptor. -/
theorem reads_column (h : IsDescriptor descriptor) (hrest : Closed rest) :
    Reads Statement.column ((Column.ofDescriptor descriptor).tokens ++ rest) descriptor rest := by
  obtain ⟨column, hcolumn, rfl⟩ := h
  rw [Column.ofDescriptor_descriptor hcolumn]
  refine reads_name.bind (reads_name.bind (reads_rounds.bind ?_))
  have hlength : column.hints.length < ((column.hints.flatMap fun hint =>
      [.openParen, Column.hintToken hint, .closeParen]) ++ rest).length + 1 := by
    simp only [List.length_append, List.length_flatMap, List.length_cons, List.length_nil, List.map_const',
      List.sum_replicate_nat]
    omega
  exact (reads_hints hlength (hrest.ne id)).bind reads_pure

end Columns

/-! ## What a query returns -/

section Selections
variable {selection : Selection} {rest : List Token}

theorem reads_selectedFields {refs : List FieldRef} (hne : refs ≠ []) (hrest : Closed rest)
    (hcomma : rest.head? ≠ some .comma) : ∃ first ts, commas (refs.map FieldRef.tokens) = .name first :: ts ∧
      Reads (selectedFields first) (ts ++ rest) refs rest ∧ (ts ++ rest).head? ≠ some .openParen := by
  obtain ⟨ref, refs, rfl⟩ := List.exists_cons_of_ne_nil hne
  obtain ⟨first, ts, htokens, hfield⟩ := reads_fieldFrom ref
  cases refs with
  | nil =>
    obtain ⟨hreads, hparen⟩ := hfield rest hrest
    refine ⟨first, ts, by rw [List.map_singleton, commas_singleton, htokens], ?_, hparen⟩
    exact hreads.bind ((reads_accept_of_ne hcomma).bind reads_pure)
  | cons ref' refs =>
    obtain ⟨hreads, hparen⟩ := hfield (.comma :: (commas ((ref' :: refs).map FieldRef.tokens) ++ rest)) closed_comma
    refine ⟨first, ts ++ .comma :: commas ((ref' :: refs).map FieldRef.tokens), ?_, ?_, ?_⟩
    · rw [List.map_cons, List.map_cons, commas_cons_cons, htokens]
      rfl
    · rw [List.append_assoc]
      refine hreads.bind (reads_accept.bind (reads_rounds.bind ?_))
      exact (reads_commaSeparated (fun ref _ rest hrest => reads_reference ref hrest) (List.cons_ne_nil ref' refs)
        (length_le_rounds _ (fun ref _ => ref.tokens_ne_nil) rest) hrest hcomma).bind reads_pure
    · rwa [List.append_assoc]

theorem reads_aggregateArgument {function : String} {field : Option FieldRef}
    (hcount : field = none → Text.sameIgnoringCase function "count" = true) :
    Reads (aggregateArgument function) ((field.map FieldRef.tokens).getD [.asterisk] ++ .closeParen :: rest) field
      (.closeParen :: rest) := by
  cases field with
  | none =>
    refine reads_accept.bind ?_
    rw [if_pos rfl, if_pos (hcount rfl)]
    exact reads_pure
  | some ref =>
    obtain ⟨first, ts, htokens, hfield⟩ := reads_fieldFrom ref
    rw [Option.map_some, Option.getD_some, htokens]
    refine (reads_accept_of_ne (by simp)).bind (reads_name.bind ?_)
    exact (hfield (.closeParen :: rest) closed_closeParen).1.bind reads_pure

/-- What a query returns is read back. -/
theorem reads_selection (h : selection.Printable) (hrest : Closed rest) (hcomma : rest.head? ≠ some .comma) :
    Reads Statement.selection (selection.tokens ++ rest) selection rest := by
  cases selection with
  | all => exact reads_accept.bind reads_pure
  | fields refs =>
    obtain ⟨first, ts, htokens, hfields, hparen⟩ := reads_selectedFields h.1 hrest hcomma
    rw [Selection.tokens, htokens]
    refine (reads_accept_of_ne (by simp)).bind (reads_name.bind ?_)
    by_cases haggregate : Text.lowerCase first ∈ aggregateNames
    · rw [if_pos haggregate]
      exact (reads_accept_of_ne hparen).bind (hfields.bind reads_pure)
    · rw [if_neg haggregate]
      exact hfields.bind reads_pure
  | aggregate function field =>
    obtain ⟨⟨name, hname, hsame⟩, hcount, -⟩ := h
    have hfunction : Text.lowerCase function ∈ aggregateNames := by
      rwa [Text.lowerCase_of_sameIgnoringCase (letters_of_aggregate hname) hsame]
    rw [Selection.tokens, List.append_assoc, List.append_assoc]
    refine (reads_accept_of_ne (by simp)).bind (reads_name.bind ?_)
    rw [if_pos hfunction]
    refine reads_accept.bind ((reads_aggregateArgument hcount).bind ?_)
    exact reads_expect.bind reads_pure

end Selections

end Statement

/-! ## What a query reads from -/

/-- The table that a chain of joins starts with. -/
def FromItem.first : FromItem → FromItem
  | .table name aliasName => .table name aliasName
  | .join _ left _ _ => left.first

/-- The joins behind it as tokens. -/
def FromItem.joins (style : Style) : FromItem → List (List Token)
  | .table _ _ => []
  | .join kind left right on => left.joins style ++ [kind.joinTokens style (right.tokens style) on]

namespace Statement

/-- Nothing comes behind, or a semicolon or a condition does. -/
def Ending (rest : List Token) : Prop := ∀ t ∈ rest.head?, t = .semicolon ∨ t = .keyword .where

section Sources
variable {style : Style} {item : FromItem} {condition : Option Expression} {rest : List Token}

theorem Ending.closed (h : Ending rest) : Closed rest := by
  intro t ht
  rcases h t ht with rfl | rfl
  · trivial
  · exact ⟨by decide, by decide⟩

theorem Ending.ne {t : Token} (h : Ending rest) (ht : t ≠ .semicolon ∧ t ≠ .keyword .where) :
    rest.head? ≠ some t :=
  fun heq => (h t heq).elim ht.1 ht.2

theorem reads_fromTable (name : String) (aliasName : Option String) (hrest : Closed rest) :
    Reads fromTable (FromItem.tokens style (.table name aliasName) ++ rest) (.table name aliasName) rest := by
  cases aliasName with
  | some a => exact reads_name.bind (reads_peek?.bind (reads_next.bind reads_pure))
  | none =>
    refine reads_name.bind (reads_peek?.bind ?_)
    cases rest with
    | nil => exact reads_pure
    | cons t ts =>
      cases t with
      | name a => exact (hrest (.name a) rfl).elim
      | _ => exact reads_pure

theorem reads_joint_comma : Reads joint (.comma :: rest) .comma rest := reads_accept.bind reads_pure

theorem reads_accept_keyword {k k' : Keyword} (h : k' ≠ k) :
    Reads (Reading.accept (.keyword k)) (.keyword k' :: rest) false (.keyword k' :: rest) :=
  reads_accept_of_ne (by simpa using h)

theorem reads_outerJoin (kind : JoinKind) :
    Reads (do
        let _ ← Reading.accept (.keyword .outer)
        Reading.expect (.keyword .join)
        return Joint.join kind)
      ((if style.outer then [.keyword .outer] else []) ++ [.keyword .join] ++ rest) (.join kind) rest := by
  split
  · exact reads_accept.bind (reads_expect.bind reads_pure)
  · exact (reads_accept_keyword (by decide)).bind (reads_expect.bind reads_pure)

theorem reads_joint_kind (kind : JoinKind) : Reads joint (kind.tokens style ++ rest) (.join kind) rest := by
  have hcomma {k : Keyword} {ts : List Token} :
      Reads (Reading.accept .comma) (.keyword k :: ts) false (.keyword k :: ts) :=
    reads_accept_of_ne (by simp)
  cases kind with
  | inner =>
    rw [JoinKind.tokens]
    split
    · exact hcomma.bind ((reads_accept_keyword (by decide)).bind (reads_accept.bind (reads_expect.bind reads_pure)))
    · exact hcomma.bind (reads_accept.bind reads_pure)
  | left =>
    refine hcomma.bind ((reads_accept_keyword (by decide)).bind ((reads_accept_keyword (by decide)).bind ?_))
    exact reads_accept.bind (reads_outerJoin .left)
  | right =>
    refine hcomma.bind ((reads_accept_keyword (by decide)).bind ((reads_accept_keyword (by decide)).bind ?_))
    exact (reads_accept_keyword (by decide)).bind (reads_accept.bind (reads_outerJoin .right))

theorem reads_joint_none (h : Ending rest) : Reads joint rest .none rest := by
  refine (reads_accept_of_ne (h.ne (by decide))).bind ?_
  refine (reads_accept_of_ne (h.ne (by decide))).bind ?_
  refine (reads_accept_of_ne (h.ne (by decide))).bind ?_
  refine (reads_accept_of_ne (h.ne (by decide))).bind ?_
  exact (reads_accept_of_ne (h.ne (by decide))).bind reads_pure

theorem closed_jointKind (kind : JoinKind) : Closed (kind.tokens style ++ rest) := by
  cases kind with
  | inner =>
    rw [JoinKind.tokens]
    split <;> exact closed_keyword (by decide)
  | left | right => exact closed_keyword (by decide)

theorem closed_joinTokens (kind : JoinKind) (table : List Token) (on : Option Expression) :
    Closed (kind.joinTokens style table on ++ rest) := by
  cases on with
  | none => exact closed_comma
  | some e =>
    rw [JoinKind.joinTokens, List.append_assoc, List.append_assoc]
    exact closed_jointKind kind

variable (style) in
/-- A join is read in one round. -/
theorem reads_join {kind : JoinKind} {left whole : FromItem} {name : String} {aliasName : Option String}
    {on : Option Expression} {n : Nat} {end' : List Token} (hkind : on = none → kind = .inner)
    (hon : ∀ e ∈ on, e.Printable) (hrest : Closed rest)
    (h : Reads (joinedTo n (.join kind left (.table name aliasName) on)) rest whole end') :
    Reads (joinedTo (n + 1) left)
      (kind.joinTokens style (FromItem.tokens style (.table name aliasName)) on ++ rest) whole end' := by
  cases on with
  | none =>
    obtain rfl := hkind rfl
    exact reads_joint_comma.lift.bind ((reads_fromTable name aliasName hrest).lift.bind h)
  | some e =>
    rw [JoinKind.joinTokens, List.append_assoc, List.append_assoc]
    refine (reads_joint_kind kind).lift.bind ?_
    refine (reads_fromTable name aliasName (closed_keyword (by decide))).lift.bind ?_
    exact reads_expect.lift.bind ((reads_expression (hon e rfl) hrest).bind h)

variable (style) in
/-- Behind the first table the joins are read one by one, with a round for each. -/
theorem reads_joins (h : item.Printable) {whole : FromItem} {n : Nat} {end' : List Token} (hrest : Closed rest)
    (hread : Reads (joinedTo n item) rest whole end') :
    Closed ((item.joins style).flatten ++ rest) ∧
      Reads (joinedTo (n + (item.joins style).length) item.first) ((item.joins style).flatten ++ rest) whole end' := by
  induction item generalizing n rest with
  | table name aliasName => exact ⟨hrest, hread⟩
  | join kind left right on ihl _ =>
    cases right with
    | join => exact h.elim
    | table name aliasName =>
      obtain ⟨hleft, -, hkind, hon⟩ := h
      have hjoin := reads_join style hkind hon hrest hread
      have hjoins := ihl hleft (closed_joinTokens kind _ on) hjoin
      rw [FromItem.joins, List.flatten_concat, List.append_assoc, List.length_append, List.length_singleton]
      rwa [Nat.add_right_comm] at hjoins

theorem tokens_eq_joins (item : FromItem) :
    item.tokens style = item.first.tokens style ++ (item.joins style).flatten := by
  induction item with
  | table => exact (List.append_nil _).symm
  | join kind left right on ihl _ =>
    rw [FromItem.tokens, ihl, FromItem.first, FromItem.joins, List.flatten_concat, List.append_assoc]

variable (style) in
theorem length_joins_le (item : FromItem) : (item.joins style).length ≤ (item.joins style).flatten.length := by
  induction item with
  | table => exact le_rfl
  | join kind left right on ihl _ =>
    have hpos : 0 < (kind.joinTokens style (right.tokens style) on).length := by
      cases on <;> simp [JoinKind.joinTokens]
    rw [FromItem.joins, List.flatten_concat, List.length_append, List.length_append, List.length_singleton]
    omega

theorem exists_first (item : FromItem) : ∃ name aliasName, item.first = .table name aliasName := by
  induction item with
  | table name aliasName => exact ⟨name, aliasName, rfl⟩
  | join _ _ _ _ ihl _ => exact ihl

variable (style) in
/-- What a query reads from is read back: its first table, and then the joins. -/
theorem reads_item (h : item.Printable) (hrest : Ending rest) :
    Reads fromTable (item.tokens style ++ rest) item.first ((item.joins style).flatten ++ rest) ∧
      Reads (joinedTo (((item.joins style).flatten ++ rest).length + 1) item.first)
        ((item.joins style).flatten ++ rest) item rest := by
  have hlength := length_joins_le style item
  obtain ⟨n, hn⟩ : ∃ n, ((item.joins style).flatten ++ rest).length + 1 = n + 1 + (item.joins style).length := by
    rw [List.length_append]
    exact ⟨(item.joins style).flatten.length + rest.length - (item.joins style).length, by omega⟩
  have hlast : Reads (joinedTo (n + 1) item) rest item rest := (reads_joint_none hrest).lift.bind reads_pure
  obtain ⟨hclosed, hjoins⟩ := reads_joins style h hrest.closed hlast
  obtain ⟨name, aliasName, hfirst⟩ := exists_first item
  rw [hn, tokens_eq_joins, List.append_assoc]
  refine ⟨?_, hjoins⟩
  rw [hfirst]
  exact reads_fromTable name aliasName hclosed

end Sources

/-! ## Conditions -/

section Conditions
variable {condition : Option Expression} {rest : List Token}

/-- Nothing comes behind, or a semicolon does. -/
def AtEnd (rest : List Token) : Prop := ∀ t ∈ rest.head?, t = .semicolon

theorem AtEnd.ending (h : AtEnd rest) : Ending rest := fun t ht => .inl (h t ht)

theorem AtEnd.ending_condition (h : AtEnd rest) (condition : Option Expression) :
    Ending (conditionTokens condition ++ rest) := by
  cases condition with
  | none => exact h.ending
  | some e =>
    rintro t ⟨⟩
    exact .inr rfl

theorem reads_condition (h : ∀ e ∈ condition, e.Printable) (hrest : AtEnd rest) :
    Reads Statement.condition (conditionTokens condition ++ rest) condition rest := by
  cases condition with
  | none =>
    have hwhere : rest.head? ≠ some (.keyword .where) := fun heq => by cases hrest _ heq
    exact (reads_accept_of_ne hwhere).lift.bind reads_pure
  | some e => exact reads_accept.lift.bind ((reads_expression (h e rfl) hrest.ending.closed).bind reads_pure)

end Conditions

/-! ## Records -/

section Records
variable {rest : List Token}

theorem reads_tupleRest {tuple : List Expression} {n : Nat} (hne : tuple ≠ []) (h : ∀ e ∈ tuple, e.Printable)
    (hn : tuple.length ≤ n) :
    Reads (tupleRest n) (commas (tuple.map (·.tokens .disjunction)) ++ .closeParen :: rest) tuple rest := by
  induction tuple generalizing n with
  | nil => exact absurd rfl hne
  | cons e tuple ih =>
    obtain ⟨n, rfl⟩ : ∃ k, n = k + 1 := ⟨n - 1, by rw [List.length_cons] at hn; omega⟩
    obtain ⟨he, htuple⟩ := List.forall_mem_cons.1 h
    cases tuple with
    | nil =>
      rw [List.map_singleton, commas_singleton]
      exact (reads_expression he closed_closeParen).bind (reads_next.lift.bind reads_pure)
    | cons e' tuple =>
      rw [List.map_cons, List.map_cons, commas_cons_cons, List.append_assoc]
      refine (reads_expression he closed_comma).bind (reads_next.lift.bind ?_)
      exact (ih (List.cons_ne_nil e' tuple) htuple (Nat.le_of_succ_le_succ hn)).bind reads_pure

theorem tupleTokens_ne_nil (tuple : List Expression) : tupleTokens tuple ≠ [] := List.cons_ne_nil _ _

theorem reads_tuples {tuples : List (List Expression)} {n : Nat} (hne : tuples ≠ [])
    (h : ∀ tuple ∈ tuples, tuple ≠ [] ∧ ∀ e ∈ tuple, e.Printable) (hn : tuples.length ≤ n)
    (hcomma : rest.head? ≠ some .comma) :
    Reads (Statement.tuples n) (commas (tuples.map tupleTokens) ++ rest) tuples rest := by
  induction tuples generalizing n with
  | nil => exact absurd rfl hne
  | cons tuple tuples ih =>
    obtain ⟨n, rfl⟩ : ∃ k, n = k + 1 := ⟨n - 1, by rw [List.length_cons] at hn; omega⟩
    obtain ⟨⟨hnonempty, htuple⟩, htuples⟩ := List.forall_mem_cons.1 h
    have hfirst (left : List Token) :
        Reads (tupleRest ((commas (tuple.map (·.tokens .disjunction)) ++ .closeParen :: left).length + 1))
          (commas (tuple.map (·.tokens .disjunction)) ++ .closeParen :: left) tuple left :=
      reads_tupleRest hnonempty htuple
        (length_le_rounds _ (fun e he => (Expression.writes_tokens (htuple e he) _).ne_nil) _)
    cases tuples with
    | nil =>
      rw [List.map_singleton, commas_singleton, tupleTokens, List.append_assoc]
      refine reads_expect.lift.bind (reads_rounds.bind ((hfirst rest).bind ?_))
      exact (reads_accept_of_ne hcomma).lift.bind reads_pure
    | cons tuple' tuples =>
      rw [List.map_cons, List.map_cons, commas_cons_cons, List.append_assoc, tupleTokens, List.append_assoc]
      refine reads_expect.lift.bind (reads_rounds.bind ((hfirst _).bind ?_))
      refine reads_accept.lift.bind ?_
      exact (ih (List.cons_ne_nil tuple' tuples) htuples (Nat.le_of_succ_le_succ hn)).bind reads_pure

/-- An assignment to a column behind all others is put behind them. -/
theorem insertColumn_of_lt {name : String} {e : Expression} {columns : List (String × Expression)}
    (h : ∀ c ∈ columns, c.1 < name) : insertColumn name e columns = columns ++ [(name, e)] := by
  induction columns with
  | nil => rfl
  | cons c columns ih =>
    obtain ⟨hc, hcolumns⟩ := List.forall_mem_cons.1 h
    rw [insertColumn, if_neg (lt_asymm hc), ih hcolumns]
    rfl

theorem assignmentTokens_ne_nil (assignment : String × Expression) : assignmentTokens assignment ≠ [] :=
  List.cons_ne_nil _ _

theorem reads_assignments {columns before : List (String × Expression)} {n : Nat} (hne : columns ≠ [])
    (hsorted : ((before ++ columns).map (·.1)).Pairwise (· < ·)) (h : ∀ c ∈ columns, c.2.Printable)
    (hn : columns.length ≤ n) (hrest : Closed rest) (hcomma : rest.head? ≠ some .comma) :
    Reads (assignments n before) (commas (columns.map assignmentTokens) ++ rest) (before ++ columns) rest := by
  induction columns generalizing n before with
  | nil => exact absurd rfl hne
  | cons c columns ih =>
    obtain ⟨n, rfl⟩ : ∃ k, n = k + 1 := ⟨n - 1, by rw [List.length_cons] at hn; omega⟩
    obtain ⟨hc, hcolumns⟩ := List.forall_mem_cons.1 h
    have hbefore : ∀ d ∈ before, d.1 < c.1 := by
      rw [List.map_append, List.pairwise_append] at hsorted
      exact fun d hd => hsorted.2.2 d.1 (List.mem_map_of_mem hd) c.1 (by simp)
    have hnew : ¬ before.any (·.1 == c.1) = true := by
      rw [List.any_eq_true]
      rintro ⟨d, hd, heq⟩
      exact (hbefore d hd).ne (beq_iff_eq.1 heq)
    have hinsert : insertColumn c.1 c.2 before = before ++ [c] := insertColumn_of_lt hbefore
    cases columns with
    | nil =>
      rw [List.map_singleton, commas_singleton]
      refine reads_name.lift.bind (reads_expect.lift.bind ((reads_expression hc hrest).bind ?_))
      rw [if_neg hnew, hinsert]
      exact (reads_accept_of_ne hcomma).lift.bind reads_pure
    | cons c' columns =>
      rw [List.map_cons, List.map_cons, commas_cons_cons, List.append_assoc]
      refine reads_name.lift.bind (reads_expect.lift.bind ((reads_expression hc closed_comma).bind ?_))
      rw [if_neg hnew, hinsert]
      rw [List.append_cons before c (c' :: columns)] at hsorted ⊢
      refine reads_accept.lift.bind ?_
      exact ih (List.cons_ne_nil c' columns) hsorted hcolumns (Nat.le_of_succ_le_succ hn)

end Records

/-! ## Statements -/

section Statements
variable {style : Style} {rest : List Token}

theorem AtEnd.ne_comma (h : AtEnd rest) : rest.head? ≠ some .comma := fun heq => by cases h _ heq

/-- A statement is read back. -/
theorem reads_read {s : Statement} (h : s.Printable) (hrest : AtEnd rest) :
    Reads read (s.tokens style ++ rest) s rest := by
  cases s with
  | createDatabase name => exact reads_next.lift.bind (reads_next.lift.bind (reads_name.lift.bind reads_pure))
  | dropDatabase name => exact reads_next.lift.bind (reads_next.lift.bind (reads_name.lift.bind reads_pure))
  | useDatabase name => exact reads_next.lift.bind (reads_name.lift.bind reads_pure)
  | dropTable name => exact reads_next.lift.bind (reads_next.lift.bind (reads_name.lift.bind reads_pure))
  | createTable name columns =>
    obtain ⟨-, hne, hcolumns⟩ := h
    rw [tokens, List.append_assoc, List.append_assoc]
    refine reads_next.lift.bind (reads_next.lift.bind (reads_name.lift.bind (reads_expect.lift.bind ?_)))
    have hclosed : Closed (.closeParen :: rest) := closed_closeParen
    have hitems := reads_commaSeparated (fun d hd rest hrest => reads_column (hcolumns d hd) hrest) hne
      (length_le_rounds _ (fun d _ => (Column.ofDescriptor d).tokens_ne_nil) (.closeParen :: rest)) hclosed (by simp)
    exact ((reads_rounds.bind hitems).mapError _).bind ((reads_expect.mapError _).bind reads_pure)
  | alterTable name column =>
    refine reads_next.lift.bind (reads_expect.lift.bind (reads_name.lift.bind (reads_expect.lift.bind ?_)))
    exact ((reads_column h.2 hrest.ending.closed).mapError _).bind reads_pure
  | insert table tuples =>
    obtain ⟨-, hne, htuples⟩ := h
    rw [tokens, List.append_assoc]
    refine reads_next.lift.bind (reads_expect.lift.bind (reads_name.lift.bind (reads_expect.lift.bind ?_)))
    have hrounds := length_le_rounds tuples (fun tuple _ => tupleTokens_ne_nil tuple) rest
    have hitems := reads_tuples hne htuples hrounds hrest.ne_comma
    exact reads_rounds.bind (hitems.bind reads_pure)
  | select selection item condition =>
    obtain ⟨hselection, hitem, hcondition⟩ := h
    rw [tokens, List.append_assoc, List.append_assoc]
    refine reads_next.lift.bind ((reads_selection hselection (closed_keyword (by decide)) (by simp)).lift.bind ?_)
    obtain ⟨hfirst, hjoins⟩ := reads_item style hitem (hrest.ending_condition condition)
    refine reads_expect.lift.bind (hfirst.lift.bind (reads_rounds.bind (hjoins.bind ?_)))
    exact (reads_condition hcondition hrest).bind reads_pure
  | update table columns condition =>
    obtain ⟨-, hne, hsorted, hcolumns, hcondition⟩ := h
    have hending := hrest.ending_condition condition
    rw [tokens, List.append_assoc, List.append_assoc]
    refine reads_next.lift.bind (reads_name.lift.bind (reads_expect.lift.bind ?_))
    have hrounds := length_le_rounds columns (fun c _ => assignmentTokens_ne_nil c) (conditionTokens condition ++ rest)
    have hitems := @reads_assignments _ columns [] _ hne hsorted (fun c hc => (hcolumns c hc).2) hrounds hending.closed
      (hending.ne (by decide))
    exact reads_rounds.bind (hitems.bind ((reads_condition hcondition hrest).bind reads_pure))
  | delete table condition =>
    refine reads_next.lift.bind (reads_expect.lift.bind (reads_name.lift.bind ?_))
    exact (reads_condition h.2 hrest).bind reads_pure
  | begin =>
    rw [tokens]
    split
    · exact reads_next.lift.bind (reads_accept.lift.bind reads_pure)
    · have htransaction : rest.head? ≠ some (.keyword .transaction) := fun heq => by cases hrest _ heq
      exact reads_next.lift.bind ((reads_accept_of_ne htransaction).lift.bind reads_pure)
  | commit => exact reads_next.lift.bind reads_pure

end Statements

/-- Parsing undoes printing: the text of a statement that can be printed, in any style, is parsed as the
statement. -/
theorem ofString_print (style : Style) {s : Statement} (h : s.Printable) : ofString (s.print style) = .ok s := by
  have hwritable : ∀ t ∈ s.tokens style ++ (if style.semicolon then [.semicolon] else []), t.Writable := by
    refine List.forall_mem_append.2 ⟨writable_tokens h, ?_⟩
    split <;> simp [Token.Writable]
  rw [ofString, print, lex_writeAll hwritable]
  refine Except.bind_eq_ok.2 ⟨(s, []), ?_, rfl⟩
  split
  · have hread : Reads read (s.tokens style ++ [.semicolon]) s [.semicolon] := reads_read h (by simp [AtEnd])
    change Reads _ _ s []
    exact hread.bind (reads_accept.lift.bind (reads_peek?.lift.bind reads_pure))
  · have hread : Reads read (s.tokens style ++ []) s [] := reads_read h (by simp [AtEnd])
    change Reads _ _ s []
    exact hread.bind ((reads_accept_of_ne (by simp)).lift.bind (reads_peek?.lift.bind reads_pure))

/-- A query with tables joined in two ways, and with parentheses where they are needed. -/
def latestOrders : Statement :=
  .select (.aggregate "Max" (some ⟨some "o", "id"⟩))
    (.join .left (.join .inner (.table "orders" (some "o")) (.table "items" none) none) (.table "p" none)
      (some (.binary (.compare .equal) (.field ⟨none, "a"⟩) (.field ⟨none, "b"⟩))))
    (some (.binary (.compare .less)
      (.binary (.compute .subtract) (.field ⟨none, "x"⟩)
        (.binary (.compute .subtract) (.negate (.field ⟨none, "y"⟩)) (.constant (.integer 2))))
      (.constant (.text "z"))))

/-- It is printed as one line and parsed from it. -/
theorem ofString_print_latestOrders :
    let style : Style := { inner := false, outer := true, transaction := false, semicolon := true }
    latestOrders.print style =
        "SELECT Max ( o . id ) FROM orders o , items LEFT OUTER JOIN p ON a = b WHERE x - ( - y - 2 ) < 'z' ;" ∧
      ofString (latestOrders.print style) = .ok latestOrders := by
  intro style
  have hnames : IsName "o" ∧ IsName "id" ∧ IsName "orders" ∧ IsName "items" ∧ IsName "p" ∧ IsName "a" ∧
      IsName "b" ∧ IsName "x" ∧ IsName "y" := by
    decide +kernel
  have hprintable : latestOrders.Printable := by
    refine ⟨⟨⟨"max", by decide, by decide⟩, by simp, ?_⟩, ?_, ?_⟩
    all_goals simp [FromItem.Printable, Expression.Printable, Value.Printable, FieldRef.Printable, hnames]
  exact ⟨by cbv, ofString_print style hprintable⟩

end Statement

end TextTables
