import TextTables.Proofs.Syntax.Grammar
import TextTables.Proofs.Syntax.Spelling
/-!
# Printing

Statements as tokens and as text, and which of them can be printed. An expression has parentheses only
where its own operator binds less tightly than its place asks for; a statement is printed in a style, which
decides on the words and the semicolon that may be left out.
-/

namespace TextTables

open Decimal (AllDigits)

/-! ## Expressions -/

/-- The token that stands for an operator. -/
def Operator.token : Operator → Token
  | .or => .keyword .or
  | .and => .keyword .and
  | .compare c => c.token
  | .compute .add => .plus
  | .compute .subtract => .minus
  | .compute .multiply => .asterisk
  | .compute .divide => .slash

/-- How tightly an operator binds. -/
def Operator.level : Operator → Level
  | .or => .disjunction
  | .and => .conjunction
  | .compare _ => .comparison
  | .compute .add | .compute .subtract => .sum
  | .compute .multiply | .compute .divide => .product

/-- A constant as a token. -/
def Value.token : Value → Token
  | .text s => .text s
  | v => .number v.render

/-- A reference as tokens. -/
def FieldRef.tokens (ref : FieldRef) : List Token :=
  match ref.qualifier with
  | some q => [.name q, .period, .name ref.name]
  | none => [.name ref.name]

/-- An expression as tokens, in a place that asks for a level of binding. -/
def Expression.tokens : Expression → Level → List Token
  | .constant v, _ => [v.token]
  | .field ref, _ => ref.tokens
  | .negate e, _ => .minus :: e.tokens .sign
  | .binary op l r, level =>
    let ts := l.tokens op.level.left ++ op.token :: r.tokens op.level.tighter
    if level.rank ≤ op.level.rank then ts else .openParen :: ts ++ [.closeParen]

/-- A reference that can be printed. -/
def FieldRef.Printable (ref : FieldRef) : Prop := (∀ q ∈ ref.qualifier, IsName q) ∧ IsName ref.name

/-- A constant that can be printed: an integer has no sign and a text no single quote. Floats are left out. -/
def Value.Printable : Value → Prop
  | .integer n => 0 ≤ n.toInt
  | .text s => '\'' ∉ s.toList
  | .float _ => False

/-- An expression that can be printed. -/
def Expression.Printable : Expression → Prop
  | .constant v => v.Printable
  | .field ref => ref.Printable
  | .negate e => e.Printable
  | .binary _ l r => l.Printable ∧ r.Printable

section Expressions
variable {level tight : Level} {ts : List Token} {e : Expression} {n : Int64} {v : Value} {t : Token}

theorem Operator.operator?_token (op : Operator) : op.level.operator? op.token = some op := by
  rcases op with _ | _ | c | c
  · rfl
  · rfl
  · exact c.operator?_token
  · cases c <;> rfl

theorem Level.eq_of_rank (h : level.rank = tight.rank) : level = tight := by
  cases level <;> cases tight <;> first | rfl | cases h

/-- What is written at a level is written at every looser one. -/
theorem Writes.loosen (h : Writes tight ts e) (hle : level.rank ≤ tight.rank) : Writes level ts e := by
  obtain ⟨n, hn⟩ := Nat.le.dest hle
  induction n generalizing level with
  | zero => rwa [Level.eq_of_rank hn]
  | succ n ih =>
    have hsign : level ≠ .sign := by
      rintro rfl
      have hlast : Level.sign.rank = 5 := rfl
      have := tight.rank_le
      omega
    have hrank := level.rank_tighter hsign
    exact (ih (by omega) (by omega)).ofTighter hsign

theorem AllDigits.toString (h : 0 ≤ n.toInt) :
    AllDigits (toString n.toInt).toList ∧ (toString n.toInt).toList ≠ [] := by
  rw [Decimal.toList_toString_int, if_neg (by omega), List.nil_append]
  exact ⟨Decimal.allDigits_toDigits _, Nat.toDigits_ne_nil⟩

theorem Value.writes_token (h : v.Printable) : Writes .sign [v.token] (.constant v) := by
  cases v with
  | text s => exact .text s
  | float x => cases h
  | integer n =>
    obtain ⟨hdigits, hne⟩ := AllDigits.toString h
    have hall : (toString n.toInt).toList.all Char.isDigit = true := List.all_eq_true.2 hdigits
    refine .number ⟨false, .whole hdigits hne⟩ ?_
    simp only [readNumber, render, hall, if_true, Decimal.readInteger?_toString]

theorem FieldRef.writes_tokens (ref : FieldRef) : Writes .sign ref.tokens (.field ref) := by
  rcases ref with ⟨_ | q, name⟩
  · exact .field name
  · exact .qualified q name

/-- The tokens of an expression write it, wherever it stands. -/
theorem Expression.writes_tokens (h : e.Printable) (level : Level) : Writes level (e.tokens level) e := by
  induction e generalizing level with
  | constant v => exact (Value.writes_token h).loosen level.rank_le
  | field ref => exact ref.writes_tokens.loosen level.rank_le
  | negate e ih => exact (Writes.minus (ih h .sign)).loosen level.rank_le
  | binary op l r ihl ihr =>
    have hwrites := Writes.binary op.operator?_token (ihl h.1 op.level.left) (ihr h.2 op.level.tighter)
    rw [tokens]
    split
    · next hle => exact hwrites.loosen hle
    · exact (Writes.parens (hwrites.loosen (Nat.zero_le _))).loosen level.rank_le

theorem FieldRef.writable_tokens {ref : FieldRef} (h : ref.Printable) : ∀ t ∈ ref.tokens, t.Writable := by
  rcases ref with ⟨_ | q, name⟩
  · simpa [tokens, Token.Writable] using h.2
  · simpa [tokens, Token.Writable] using And.intro (h.1 q rfl) h.2

theorem Comparison.writable_token (c : Comparison) : c.token.Writable := by
  cases c <;> trivial

theorem Operator.writable_token (op : Operator) : op.token.Writable := by
  rcases op with _ | _ | c | c
  · trivial
  · trivial
  · exact c.writable_token
  · cases c <;> trivial

theorem Value.writable_token (h : v.Printable) : v.token.Writable := by
  cases v with
  | text s => exact h
  | float x => cases h
  | integer n => exact AllDigits.toString h

theorem Expression.writable_tokens (h : e.Printable) (level : Level) : ∀ t ∈ e.tokens level, t.Writable := by
  induction e generalizing level with
  | constant v => simpa [tokens] using Value.writable_token h
  | field ref => exact FieldRef.writable_tokens h
  | negate e ih => exact List.forall_mem_cons.2 ⟨trivial, ih h .sign⟩
  | binary op l r ihl ihr =>
    have hts : ∀ t ∈ l.tokens op.level.left ++ op.token :: r.tokens op.level.tighter, t.Writable :=
      List.forall_mem_append.2 ⟨ihl h.1 _, List.forall_mem_cons.2 ⟨op.writable_token, ihr h.2 _⟩⟩
    rw [tokens]
    split
    · exact hts
    · refine List.forall_mem_append.2 ⟨List.forall_mem_cons.2 ⟨trivial, hts⟩, ?_⟩
      exact List.forall_mem_singleton.2 trivial

end Expressions

/-! ## Columns -/

/-- A column of a table definition: its name, and its type with the hints behind it. -/
structure Column where
  name : String
  type : String
  hints : List String
deriving Repr, DecidableEq

namespace Column

/-- The descriptor of a column. -/
def descriptor (column : Column) : String :=
  column.name ++ " " ++ column.hints.foldl (fun type hint => type ++ "(" ++ hint ++ ")") column.type

/-- The column of a descriptor. -/
def ofDescriptor (descriptor : String) : Column :=
  let cs := descriptor.toList
  match ((cs.dropWhile (· ≠ ' ')).tail).splitOn '(' with
  | [] => ⟨descriptor, "", []⟩
  | type :: hints =>
    ⟨String.ofList (cs.takeWhile (· ≠ ' ')), String.ofList type, hints.map fun h => String.ofList h.dropLast⟩

/-- A hint as a token. -/
def hintToken (hint : String) : Token := if hint.toList.all Char.isDigit then .number hint else .name hint

/-- A column as tokens. -/
def tokens (column : Column) : List Token :=
  .name column.name :: .name column.type ::
    column.hints.flatMap fun hint => [.openParen, hintToken hint, .closeParen]

/-- A column that can be printed: its hints are digits or words. -/
def Printable (column : Column) : Prop :=
  IsName column.name ∧ IsName column.type ∧
    ∀ hint ∈ column.hints, (AllDigits hint.toList ∧ hint.toList ≠ []) ∨ IsName hint

end Column

/-- The descriptor of a column that can be printed. -/
def IsDescriptor (descriptor : String) : Prop :=
  ∃ column : Column, column.Printable ∧ column.descriptor = descriptor

section Columns
variable {column : Column} {s hint : String} {c : Char}

theorem IsName.isWordChar (h : IsName s) (hc : c ∈ s.toList) : Text.isWordChar c = true :=
  (Text.isWord_iff.1 h.2.1).2 c hc

theorem ne_of_isWordChar (h : Text.isWordChar c = true) : c ≠ ' ' ∧ c ≠ '(' := by
  constructor <;> rintro rfl <;> revert h <;> decide

/-- The type with its hints is cut into the two at its opening parentheses. -/
theorem Column.toList_declared (hints : List String) (type : String) :
    (hints.foldl (fun type hint => type ++ "(" ++ hint ++ ")") type).toList =
      List.intercalate ['('] (type.toList :: hints.map fun hint => hint.toList ++ [')']) := by
  induction hints generalizing type with
  | nil => simp
  | cons hint rest ih =>
    rw [List.foldl_cons, ih, List.map_cons, List.intercalate_cons_cons]
    cases rest <;> simp [String.toList_append, List.intercalate_cons_cons]

theorem Column.ofDescriptor_descriptor (h : column.Printable) : ofDescriptor column.descriptor = column := by
  obtain ⟨hname, htype, hhints⟩ := h
  have hspace : ∀ c ∈ column.name.toList, decide (c ≠ ' ') = true := fun c hc =>
    decide_eq_true (ne_of_isWordChar (hname.isWordChar hc)).1
  have hparens : ∀ part ∈ column.type.toList :: column.hints.map fun hint => hint.toList ++ [')'], '(' ∉ part := by
    have htypeParen : '(' ∉ column.type.toList := fun hc => (ne_of_isWordChar (htype.isWordChar hc)).2 rfl
    refine List.forall_mem_cons.2 ⟨htypeParen, fun part hpart hc => ?_⟩
    obtain ⟨hint, hhint, rfl⟩ := List.mem_map.1 hpart
    have hword : Text.isWordChar '(' = true := by
      rcases List.mem_append.1 hc with hc | hc
      · exact (hhints hint hhint).elim (fun h => Text.isWordChar_of_isDigit (h.1 _ hc)) fun h => h.isWordChar hc
      · exact absurd (List.mem_singleton.1 hc) (by decide)
    exact (ne_of_isWordChar hword).2 rfl
  have hchars : column.descriptor.toList = column.name.toList ++ ' ' :: List.intercalate ['(']
      (column.type.toList :: column.hints.map fun hint => hint.toList ++ [')']) := by
    rw [descriptor, String.toList_append, String.toList_append, toList_declared]
    simp
  have hsplit := List.splitOn_intercalate '(' hparens (List.cons_ne_nil _ _)
  rw [ofDescriptor, hchars]
  simp only [List.dropWhile_append_of_pos hspace, List.takeWhile_append_of_pos hspace, List.dropWhile_cons_of_neg,
    List.takeWhile_cons_of_neg, ne_eq, not_true_eq_false, decide_false, Bool.false_eq_true, not_false_eq_true,
    List.tail_cons, hsplit, List.append_nil, String.ofList_toList, List.map_map, Function.comp_def,
    List.dropLast_concat, List.map_id']

theorem Column.writable_hintToken (h : (AllDigits hint.toList ∧ hint.toList ≠ []) ∨ IsName hint) :
    (hintToken hint).Writable := by
  rw [hintToken]
  split
  · next hdigits =>
    rcases h with h | h
    · exact h
    · exact ⟨List.all_eq_true.1 hdigits, (Text.isWord_iff.1 h.2.1).1⟩
  · next hdigits =>
    rcases h with h | h
    · exact absurd (List.all_eq_true.2 h.1) hdigits
    · exact h

theorem Column.writable_tokens (h : column.Printable) : ∀ t ∈ column.tokens, t.Writable := by
  obtain ⟨hname, htype, hhints⟩ := h
  refine List.forall_mem_cons.2 ⟨hname, List.forall_mem_cons.2 ⟨htype, ?_⟩⟩
  refine List.forall_mem_flatMap.2 fun hint hhint => ?_
  exact List.forall_mem_cons.2 ⟨trivial, List.forall_mem_cons.2 ⟨writable_hintToken (hhints hint hhint),
    List.forall_mem_singleton.2 trivial⟩⟩

end Columns

/-! ## Statements -/

/-- Which of the words that change nothing are printed. -/
structure Style where
  /-- `INNER` in front of `JOIN` -/
  inner : Bool
  /-- `OUTER` in front of `JOIN`, behind `LEFT` and `RIGHT` -/
  outer : Bool
  /-- `TRANSACTION` behind `BEGIN` -/
  transaction : Bool
  /-- a semicolon at the end -/
  semicolon : Bool
deriving Repr, DecidableEq

/-- Items as tokens, with commas between them. -/
def commas (items : List (List Token)) : List Token := List.intercalate [.comma] items

/-- The words of a join. -/
def JoinKind.tokens (style : Style) : JoinKind → List Token
  | .inner => (if style.inner then [.keyword .inner] else []) ++ [.keyword .join]
  | .left => .keyword .left :: (if style.outer then [.keyword .outer] else []) ++ [.keyword .join]
  | .right => .keyword .right :: (if style.outer then [.keyword .outer] else []) ++ [.keyword .join]

/-- A joined table as tokens: a comma in front of it, or the words of a join, and the condition behind it. -/
def JoinKind.joinTokens (style : Style) (kind : JoinKind) (table : List Token) : Option Expression → List Token
  | none => .comma :: table
  | some e => kind.tokens style ++ table ++ .keyword .on :: e.tokens .disjunction

/-- What a query reads from, as tokens. -/
def FromItem.tokens (style : Style) : FromItem → List Token
  | .table name aliasName => .name name :: (aliasName.map Token.name).toList
  | .join kind left right on => left.tokens style ++ kind.joinTokens style (right.tokens style) on

/-- A list of what a query reads from that can be printed: joins are nested to the left only, and those
without a condition are inner ones. -/
def FromItem.Printable : FromItem → Prop
  | .table name aliasName => IsName name ∧ ∀ a ∈ aliasName, IsName a
  | .join kind left (.table name aliasName) on =>
    left.Printable ∧ (IsName name ∧ ∀ a ∈ aliasName, IsName a) ∧ (on = none → kind = .inner) ∧
      ∀ e ∈ on, e.Printable
  | .join _ _ (.join ..) _ => False

/-- What a query returns, as tokens. -/
def Selection.tokens : Selection → List Token
  | .all => [.asterisk]
  | .fields refs => commas (refs.map FieldRef.tokens)
  | .aggregate function field =>
    [.name function, .openParen] ++ (field.map FieldRef.tokens).getD [.asterisk] ++ [.closeParen]

/-- What a query returns that can be printed. Only the count takes whole records. -/
def Selection.Printable : Selection → Prop
  | .all => True
  | .fields refs => refs ≠ [] ∧ ∀ ref ∈ refs, ref.Printable
  | .aggregate function field =>
    (∃ name ∈ Statement.aggregateNames, Text.sameIgnoringCase function name = true) ∧
      (field = none → Text.sameIgnoringCase function "count" = true) ∧ ∀ ref ∈ field, ref.Printable

/-- A condition as tokens, if there is one. -/
def conditionTokens (condition : Option Expression) : List Token :=
  (condition.map fun e => .keyword .where :: e.tokens .disjunction).getD []

namespace Statement

/-- A tuple as tokens. -/
def tupleTokens (tuple : List Expression) : List Token :=
  .openParen :: commas (tuple.map (·.tokens .disjunction)) ++ [.closeParen]

/-- An assignment as tokens. -/
def assignmentTokens (assignment : String × Expression) : List Token :=
  .name assignment.1 :: .equal :: assignment.2.tokens .disjunction

/-- A statement as tokens, without a semicolon. -/
def tokens (style : Style) : Statement → List Token
  | .createDatabase name => [.keyword .create, .keyword .database, .name name]
  | .dropDatabase name => [.keyword .drop, .keyword .database, .name name]
  | .useDatabase name => [.keyword .use, .name name]
  | .createTable name columns =>
    [.keyword .create, .keyword .table, .name name, .openParen] ++
      commas (columns.map fun d => (Column.ofDescriptor d).tokens) ++ [.closeParen]
  | .dropTable name => [.keyword .drop, .keyword .table, .name name]
  | .alterTable name column =>
    [.keyword .alter, .keyword .table, .name name, .keyword .add] ++ (Column.ofDescriptor column).tokens
  | .insert table tuples =>
    [.keyword .insert, .keyword .into, .name table, .keyword .values] ++ commas (tuples.map tupleTokens)
  | .select selection item condition =>
    .keyword .select :: selection.tokens ++ .keyword .from :: item.tokens style ++ conditionTokens condition
  | .update table columns condition =>
    [.keyword .update, .name table, .keyword .set] ++ commas (columns.map assignmentTokens) ++
      conditionTokens condition
  | .delete table condition => [.keyword .delete, .keyword .from, .name table] ++ conditionTokens condition
  | .begin => .keyword .begin :: if style.transaction then [.keyword .transaction] else []
  | .commit => [.keyword .commit]

/-- A statement as text: its tokens with single spaces between them. -/
def print (style : Style) (s : Statement) : String :=
  Token.writeAll (s.tokens style ++ if style.semicolon then [.semicolon] else [])

/-- A statement that can be printed. -/
def Printable : Statement → Prop
  | .createDatabase name | .dropDatabase name | .useDatabase name | .dropTable name => IsName name
  | .createTable name columns => IsName name ∧ columns ≠ [] ∧ ∀ d ∈ columns, IsDescriptor d
  | .alterTable name column => IsName name ∧ IsDescriptor column
  | .insert table tuples =>
    IsName table ∧ tuples ≠ [] ∧ ∀ tuple ∈ tuples, tuple ≠ [] ∧ ∀ e ∈ tuple, e.Printable
  | .select selection item condition => selection.Printable ∧ item.Printable ∧ ∀ e ∈ condition, e.Printable
  | .update table columns condition =>
    IsName table ∧ columns ≠ [] ∧ (columns.map (·.1)).Pairwise (· < ·) ∧
      (∀ c ∈ columns, IsName c.1 ∧ c.2.Printable) ∧ ∀ e ∈ condition, e.Printable
  | .delete table condition => IsName table ∧ ∀ e ∈ condition, e.Printable
  | .begin | .commit => True

end Statement

/-! ## Printed statements are written -/

section Written
variable {style : Style} {items : List (List Token)} {item : FromItem} {condition : Option Expression}

theorem writable_commas (h : ∀ ts ∈ items, ∀ t ∈ ts, t.Writable) : ∀ t ∈ commas items, t.Writable := by
  intro t ht
  rcases Text.mem_intercalate ht with ht | ⟨ts, hts, ht⟩
  · rw [List.mem_singleton.1 ht]
    trivial
  · exact h ts hts t ht

theorem IsDescriptor.writable_tokens {descriptor : String} (h : IsDescriptor descriptor) :
    ∀ t ∈ (Column.ofDescriptor descriptor).tokens, t.Writable := by
  obtain ⟨column, hcolumn, rfl⟩ := h
  rw [Column.ofDescriptor_descriptor hcolumn]
  exact Column.writable_tokens hcolumn

theorem JoinKind.writable_tokens (kind : JoinKind) : ∀ t ∈ kind.tokens style, t.Writable := by
  have houter (b : Bool) (k : Keyword) :
      ∀ t ∈ (if b then [Token.keyword k] else []) ++ [.keyword .join], t.Writable := by
    cases b <;> simp [Token.Writable]
  cases kind with
  | inner => exact houter style.inner .inner
  | left | right => exact List.forall_mem_cons.2 ⟨trivial, houter style.outer .outer⟩

theorem writable_table {name : String} {aliasName : Option String} (h : IsName name ∧ ∀ a ∈ aliasName, IsName a) :
    ∀ t ∈ FromItem.tokens style (.table name aliasName), t.Writable := by
  refine List.forall_mem_cons.2 ⟨h.1, ?_⟩
  cases aliasName with
  | none => simp
  | some a => exact List.forall_mem_singleton.2 (h.2 a rfl)

theorem FromItem.writable_tokens (h : item.Printable) : ∀ t ∈ item.tokens style, t.Writable := by
  induction item with
  | table name aliasName => exact writable_table h
  | join kind left right on ihl _ =>
    cases right with
    | join => exact h.elim
    | table name aliasName =>
      obtain ⟨hleft, htable, -, hon⟩ := h
      refine List.forall_mem_append.2 ⟨ihl hleft, ?_⟩
      cases on with
      | none => exact List.forall_mem_cons.2 ⟨trivial, writable_table htable⟩
      | some e =>
        have hcondition : ∀ t ∈ .keyword .on :: e.tokens .disjunction, t.Writable :=
          List.forall_mem_cons.2 ⟨trivial, Expression.writable_tokens (hon e rfl) _⟩
        exact List.forall_mem_append.2
          ⟨List.forall_mem_append.2 ⟨kind.writable_tokens, writable_table htable⟩, hcondition⟩

theorem letters_of_aggregate {name : String} (h : name ∈ Statement.aggregateNames) :
    ∀ c ∈ name.toList, c.isLower = true := by
  have hall : ∀ name ∈ Statement.aggregateNames, name.toList.all Char.isLower = true := by decide +kernel
  exact List.all_eq_true.1 (hall name h)

theorem isName_of_aggregate {function name : String} (hname : name ∈ Statement.aggregateNames)
    (hsame : Text.sameIgnoringCase function name = true) : IsName function := by
  have hnames : ∀ name ∈ Statement.aggregateNames, IsName name := by decide +kernel
  exact (hnames name hname).of_sameIgnoringCase (letters_of_aggregate hname) hsame

theorem Selection.writable_tokens {selection : Selection} (h : selection.Printable) :
    ∀ t ∈ selection.tokens, t.Writable := by
  cases selection with
  | all => exact List.forall_mem_singleton.2 trivial
  | fields refs =>
    refine writable_commas (List.forall_mem_map.2 fun ref href => ?_)
    exact FieldRef.writable_tokens (h.2 ref href)
  | aggregate function field =>
    obtain ⟨⟨name, hname, hsame⟩, -, hfield⟩ := h
    have hargument : ∀ t ∈ (field.map FieldRef.tokens).getD [.asterisk], t.Writable := by
      cases field with
      | none => exact List.forall_mem_singleton.2 trivial
      | some ref => exact FieldRef.writable_tokens (hfield ref rfl)
    have hclose : ∀ t ∈ [Token.closeParen], t.Writable := List.forall_mem_singleton.2 trivial
    refine List.forall_mem_append.2 ⟨List.forall_mem_append.2 ⟨?_, hargument⟩, hclose⟩
    exact List.forall_mem_cons.2 ⟨isName_of_aggregate hname hsame, List.forall_mem_singleton.2 trivial⟩

theorem writable_conditionTokens (h : ∀ e ∈ condition, e.Printable) :
    ∀ t ∈ conditionTokens condition, t.Writable := by
  cases condition with
  | none => simp [conditionTokens]
  | some e => exact List.forall_mem_cons.2 ⟨trivial, Expression.writable_tokens (h e rfl) _⟩

theorem Statement.writable_tupleTokens {tuple : List Expression} (h : ∀ e ∈ tuple, e.Printable) :
    ∀ t ∈ tupleTokens tuple, t.Writable := by
  have hitems : ∀ t ∈ commas (tuple.map (·.tokens .disjunction)), t.Writable :=
    writable_commas (List.forall_mem_map.2 fun e he => Expression.writable_tokens (h e he) _)
  exact List.forall_mem_cons.2 ⟨trivial, List.forall_mem_append.2 ⟨hitems, List.forall_mem_singleton.2 trivial⟩⟩

/-- The tokens of a statement that can be printed can be written. -/
theorem Statement.writable_tokens {s : Statement} (h : s.Printable) : ∀ t ∈ s.tokens style, t.Writable := by
  cases s with
  | createDatabase name | dropDatabase name | useDatabase name | dropTable name =>
    have hname : IsName name := h
    simp [tokens, Token.Writable, hname]
  | createTable name columns =>
    obtain ⟨hname, -, hcolumns⟩ := h
    have hitems : ∀ t ∈ commas (columns.map fun d => (Column.ofDescriptor d).tokens), t.Writable :=
      writable_commas (List.forall_mem_map.2 fun d hd => (hcolumns d hd).writable_tokens)
    refine List.forall_mem_append.2 ⟨List.forall_mem_append.2 ⟨?_, hitems⟩, List.forall_mem_singleton.2 trivial⟩
    simp [Token.Writable, hname]
  | alterTable name column =>
    refine List.forall_mem_append.2 ⟨?_, h.2.writable_tokens⟩
    simp [Token.Writable, h.1]
  | insert table tuples =>
    obtain ⟨hname, -, htuples⟩ := h
    have hitems : ∀ t ∈ commas (tuples.map tupleTokens), t.Writable :=
      writable_commas (List.forall_mem_map.2 fun tuple htuple => writable_tupleTokens (htuples tuple htuple).2)
    refine List.forall_mem_append.2 ⟨?_, hitems⟩
    simp [Token.Writable, hname]
  | select selection item condition =>
    obtain ⟨hselection, hitem, hcondition⟩ := h
    have hfrom : ∀ t ∈ .keyword .from :: item.tokens style, t.Writable :=
      List.forall_mem_cons.2 ⟨trivial, FromItem.writable_tokens hitem⟩
    refine List.forall_mem_append.2 ⟨List.forall_mem_append.2 ⟨?_, hfrom⟩, writable_conditionTokens hcondition⟩
    exact List.forall_mem_cons.2 ⟨trivial, Selection.writable_tokens hselection⟩
  | update table columns condition =>
    obtain ⟨hname, -, -, hcolumns, hcondition⟩ := h
    have hitems : ∀ t ∈ commas (columns.map assignmentTokens), t.Writable := by
      refine writable_commas (List.forall_mem_map.2 fun c hc => ?_)
      exact List.forall_mem_cons.2 ⟨(hcolumns c hc).1, List.forall_mem_cons.2
        ⟨trivial, Expression.writable_tokens (hcolumns c hc).2 _⟩⟩
    refine List.forall_mem_append.2 ⟨List.forall_mem_append.2 ⟨?_, hitems⟩, writable_conditionTokens hcondition⟩
    simp [Token.Writable, hname]
  | delete table condition =>
    refine List.forall_mem_append.2 ⟨?_, writable_conditionTokens h.2⟩
    simp [Token.Writable, h.1]
  | begin =>
    rw [tokens]
    split <;> simp [Token.Writable]
  | commit => simp [tokens, Token.Writable]

end Written

end TextTables
