import TextTables.Proofs.Store.Action
import TextTables.Proofs.Table
import TextTables.Relation.Join
/-!
# Left outer joins

A left outer join does not remember which records have matched: it looks among the rows so far, the padded
ones included, for one that starts as the record does. For records that can be told apart by comparing their
values this comes to the same (`keepLeft_eq`): the rows are those of the inner join, and then the records
that match none, each of them once (`Table.join_left_rows`).
-/

namespace TextTables

/-! ## Records without floats -/

/-- A record of integers and texts. Only a float may differ from itself. -/
def WithoutFloats (row : Row) : Prop := ∀ value ∈ row, value.type ≠ .float

theorem Value.beq_iff {v w : Value} (hw : w.type ≠ .float) : (v == w) = true ↔ v = w := by
  cases w with
  | float x => exact absurd rfl hw
  | integer n =>
    cases v with
    | integer m =>
      change (m == n) = true ↔ _
      simp
    | float x => exact iff_of_false nofun nofun
    | text s => exact iff_of_false nofun nofun
  | text s =>
    cases v with
    | text r =>
      change (r == s) = true ↔ _
      simp
    | integer n => exact iff_of_false nofun nofun
    | float x => exact iff_of_false nofun nofun

theorem Row.beq_iff {row left : Row} (hleft : WithoutFloats left) : (row == left) = true ↔ row = left := by
  induction left generalizing row with
  | nil => cases row <;> simp
  | cons w rest ih =>
    obtain ⟨hw, hrest⟩ := List.forall_mem_cons.1 hleft
    cases row with
    | nil => simp
    | cons v row => rw [List.cons_beq_cons, Bool.and_eq_true, Value.beq_iff hw, ih hrest, List.cons.injEq]

theorem Row.beq_eq_false_iff {row left : Row} (hleft : WithoutFloats left) :
    (row == left) = false ↔ row ≠ left := by
  rw [← Bool.not_eq_true, Row.beq_iff hleft]

/-- Erasing repetitions goes on with the elements that do not equal the first, of which there are fewer. -/
theorem eraseDups_induction {α : Type} [BEq α] {P : List α → Prop} (nil : P [])
    (cons : ∀ a rest, P (rest.filter fun b => !b == a) → P (a :: rest)) (l : List α) : P l := by
  induction hn : l.length using Nat.strongRecOn generalizing l with
  | ind n ih =>
    cases l with
    | nil => exact nil
    | cons a rest =>
      refine cons a rest (ih _ ?_ _ rfl)
      have hle := List.length_filter_le (fun b => !b == a) rest
      rw [List.length_cons] at hn
      omega

theorem eraseDups_sublist {α : Type} [BEq α] (l : List α) : l.eraseDups.Sublist l := by
  induction l using eraseDups_induction with
  | nil => exact .slnil
  | cons a rest ih =>
    rw [List.eraseDups_cons]
    exact (ih.trans List.filter_sublist).cons_cons a

/-- Of records that can be told apart, those of one value are kept once. -/
theorem filter_eraseDups {left : Row} (hleft : WithoutFloats left) {rows : List Row}
    (hrows : ∀ row ∈ rows, WithoutFloats row) :
    rows.eraseDups.filter (· == left) = if rows.any (· == left) then [left] else [] := by
  induction rows using eraseDups_induction with
  | nil => rfl
  | cons row rest ih =>
    obtain ⟨hrow, hrest⟩ := List.forall_mem_cons.1 hrows
    have hothers := ih fun b hb => hrest b (List.mem_filter.1 hb).1
    rw [List.eraseDups_cons, List.filter_cons, hothers, List.any_cons, List.any_filter]
    by_cases heq : row = left
    · subst heq
      have hself : (row == row) = true := (Row.beq_iff hrow).2 rfl
      simp [hself]
    · have hany : (rest.any fun b => !b == row && b == left) = rest.any (· == left) := by
        refine List.any_congr rfl fun b => ?_
        by_cases hb : b = left
        · have hne : b ≠ row := fun hsame => heq (hsame.symm.trans hb)
          rw [(Row.beq_eq_false_iff hrow).2 hne, Bool.not_false, Bool.true_and]
        · rw [(Row.beq_eq_false_iff hleft).2 hb, Bool.and_false]
      rw [(Row.beq_eq_false_iff hleft).2 heq, hany, Bool.false_or]
      rfl

/-! ## Inner joins -/

section Inner
variable {test : Row → Row → Except Error Bool} {left row : Row} {lefts rights rows : List Row}

theorem passes_iff {result : Except Error Bool} : result.toOption.getD false = true ↔ result = .ok true := by
  cases result with
  | error e => simp [Except.toOption]
  | ok truth => simp [Except.toOption]

theorem pairRows_eq_ok :
    pairRows test left rights = .ok rows ↔ (∀ right ∈ rights, ∃ truth, test left right = .ok truth) ∧
      (rights.filter fun right => (test left right).toOption.getD false).map (left ++ ·) = rows := by
  induction rights generalizing rows with
  | nil => simp [pairRows]
  | cons right rest ih =>
    rw [pairRows, List.forall_mem_cons]
    constructor
    · intro h
      obtain ⟨truth, htruth, h⟩ := Except.bind_eq_ok.1 h
      obtain ⟨paired, hpaired, h⟩ := Except.bind_eq_ok.1 h
      obtain ⟨hrest, rfl⟩ := ih.1 hpaired
      refine ⟨⟨⟨truth, htruth⟩, hrest⟩, ?_⟩
      rw [List.filter_cons, htruth]
      cases truth <;> exact Except.ok.inj h
    · rintro ⟨⟨⟨truth, htruth⟩, hrest⟩, rfl⟩
      rw [htruth, ih.2 ⟨hrest, rfl⟩, List.filter_cons, htruth]
      cases truth <;> rfl

/-- An inner join needs a truth value for every pair, and its rows come in the order of the left records. -/
theorem innerRows_eq_ok :
    innerRows test rights lefts = .ok rows ↔
      (∀ left ∈ lefts, ∀ right ∈ rights, ∃ truth, test left right = .ok truth) ∧
      (lefts.flatMap fun left =>
        (rights.filter fun right => (test left right).toOption.getD false).map (left ++ ·)) = rows := by
  induction lefts generalizing rows with
  | nil => simp [innerRows]
  | cons left rest ih =>
    rw [innerRows, List.forall_mem_cons, List.flatMap_cons]
    constructor
    · intro h
      obtain ⟨paired, hpaired, h⟩ := Except.bind_eq_ok.1 h
      obtain ⟨others, hothers, h⟩ := Except.bind_eq_ok.1 h
      obtain ⟨hleft, rfl⟩ := pairRows_eq_ok.1 hpaired
      obtain ⟨hrest, rfl⟩ := ih.1 hothers
      exact ⟨⟨hleft, hrest⟩, Except.ok.inj h⟩
    · rintro ⟨⟨hleft, hrest⟩, rfl⟩
      rw [pairRows_eq_ok.2 ⟨hleft, rfl⟩, ih.2 ⟨hrest, rfl⟩]
      rfl

/-- The rows of an inner join are the accepted pairs. -/
theorem mem_innerRows (h : innerRows test rights lefts = .ok rows) :
    row ∈ rows ↔ ∃ left ∈ lefts, ∃ right ∈ rights, test left right = .ok true ∧ left ++ right = row := by
  obtain ⟨-, rfl⟩ := innerRows_eq_ok.1 h
  simp only [List.mem_flatMap, List.mem_map, List.mem_filter, passes_iff, and_assoc]

end Inner

/-! ## Padded records -/

/-- Whether a row starts with a record. -/
def startsWith (width : Nat) (left row : Row) : Bool := row.take width == left

theorem startsWith_append {width : Nat} {left left' right : Row} (hlength : left'.length = width)
    (hleft : WithoutFloats left) : startsWith width left (left' ++ right) = true ↔ left' = left := by
  rw [startsWith, List.take_left' hlength, Row.beq_iff hleft]

theorem keepLeft_cons (width padding : Nat) (rows : List Row) (left : Row) (rest : List Row) :
    keepLeft width padding rows (left :: rest) =
      keepLeft width padding
        (if rows.any (startsWith width left) then rows else rows ++ [left ++ emptyRow padding]) rest := rfl

/-- The records that start no row are added in order, each of them once. -/
theorem keepLeft_eq {width : Nat} {lefts : List Row}
    (hlefts : ∀ left ∈ lefts, left.length = width ∧ WithoutFloats left) (padding : Nat) (rows : List Row) :
    keepLeft width padding rows lefts =
      rows ++ (lefts.filter fun left => !rows.any (startsWith width left)).eraseDups.map
        (· ++ emptyRow padding) := by
  induction lefts generalizing rows with
  | nil => simp [keepLeft]
  | cons left rest ih =>
    obtain ⟨⟨hlength, hexact⟩, hrest⟩ := List.forall_mem_cons.1 hlefts
    rw [keepLeft_cons, ih hrest, List.filter_cons]
    cases hany : rows.any (startsWith width left) with
    | true => rw [if_pos rfl, Bool.not_true, if_neg Bool.false_ne_true]
    | false =>
      -- The row that is added is one that its equals among the later records start.
      have hlater : (rest.filter fun other =>
            !(rows ++ [left ++ emptyRow padding]).any (startsWith width other)) =
          (rest.filter fun other => !rows.any (startsWith width other)).filter fun other => !other == left := by
        rw [List.filter_filter]
        refine List.filter_congr fun other hother => ?_
        have hsame : startsWith width other (left ++ emptyRow padding) = (other == left) := by
          rw [Bool.eq_iff_iff, startsWith_append hlength (hrest other hother).2, Row.beq_iff hexact, eq_comm]
        rw [List.any_append, List.any_cons, List.any_nil, Bool.or_false, hsame, Bool.not_or, Bool.and_comm]
      rw [if_neg Bool.false_ne_true, Bool.not_false, if_pos rfl, hlater, List.eraseDups_cons, List.map_cons,
        List.append_assoc, List.singleton_append]

/-! ## Left outer joins -/

/-- Whether a condition accepts a left record with some record of the right table. -/
def Table.matched (left right : Table) (on : Option Expression) (l : Row) : Bool :=
  right.rows.any fun r => (accepts on [(left.schema, l), (right.schema, r)]).toOption.getD false

theorem Table.matched_iff {left right : Table} {on : Option Expression} {l : Row} :
    left.matched right on l = true ↔
      ∃ r ∈ right.rows, accepts on [(left.schema, l), (right.schema, r)] = .ok true := by
  simp only [matched, List.any_eq_true, passes_iff]

namespace Table

variable {left right : Table} {on : Option Expression} {rows : List Row} {l : Row}

/-- The rows that a kind of join makes of those of the inner join. -/
def keptRows (left right : Table) (kind : JoinKind) (rows : List Row) : List Row :=
  match kind with
  | .inner => rows
  | .left => keepLeft left.schema.width right.schema.width rows left.rows
  | .right => keepRight left.schema.width rows right.rows

/-- All kinds of joins make the accepted pairs first. -/
theorem join_apply (left right : Table) (on : Option Expression) (kind : JoinKind) :
    left.join right on kind =
      (innerRows (fun l r => accepts on [(left.schema, l), (right.schema, r)]) right.rows left.rows).map
        fun rows => ⟨left.id, left.schema ++ right.schema, left.keptRows right kind rows⟩ := by
  unfold join
  dsimp only
  cases innerRows (fun l r => accepts on [(left.schema, l), (right.schema, r)]) right.rows left.rows with
  | error e => rfl
  | ok rows => cases kind <;> rfl

theorem join_eq_ok {joined : Table} {kind : JoinKind} :
    left.join right on kind = .ok joined ↔ ∃ rows,
      innerRows (fun l r => accepts on [(left.schema, l), (right.schema, r)]) right.rows left.rows = .ok rows ∧
      joined = ⟨left.id, left.schema ++ right.schema, left.keptRows right kind rows⟩ := by
  rw [join_apply]
  cases innerRows (fun l r => accepts on [(left.schema, l), (right.schema, r)]) right.rows left.rows with
  | error e => simp [Except.map]
  | ok rows => simp [Except.map, eq_comm]

/-- A left record starts some row of the inner join exactly if it is matched. -/
theorem any_startsWith (hrows : left.Rectangular) (hexact : ∀ row ∈ left.rows, WithoutFloats row)
    (hinner : innerRows (fun l r => accepts on [(left.schema, l), (right.schema, r)]) right.rows left.rows =
      .ok rows) (hl : l ∈ left.rows) :
    rows.any (startsWith left.schema.width l) = left.matched right on l := by
  rw [Bool.eq_iff_iff, List.any_eq_true, matched_iff]
  constructor
  · rintro ⟨row, hrow, hstarts⟩
    obtain ⟨l', hl', r, hr, haccepts, rfl⟩ := (mem_innerRows hinner).1 hrow
    obtain rfl := (startsWith_append (hrows l' hl') (hexact l hl)).1 hstarts
    exact ⟨r, hr, haccepts⟩
  · rintro ⟨r, hr, haccepts⟩
    exact ⟨l ++ r, (mem_innerRows hinner).2 ⟨l, hl, r, hr, haccepts, rfl⟩,
      (startsWith_append (hrows l hl) (hexact l hl)).2 rfl⟩

/-- Of the padded records, those that a left record starts are one or none. -/
theorem filter_padded (hrows : left.Rectangular) (hexact : ∀ row ∈ left.rows, WithoutFloats row)
    (hl : l ∈ left.rows) (unmatched : Row → Bool) (padding : Nat) :
    (((left.rows.filter unmatched).eraseDups.map (· ++ emptyRow padding)).filter
        (startsWith left.schema.width l)) =
      if unmatched l then [l ++ emptyRow padding] else [] := by
  have hmem : ∀ row ∈ (left.rows.filter unmatched).eraseDups, row ∈ left.rows := fun row hrow =>
    (List.mem_filter.1 ((eraseDups_sublist _).subset hrow)).1
  have hstarts : (left.rows.filter unmatched).eraseDups.filter
      (startsWith left.schema.width l ∘ (· ++ emptyRow padding)) =
        (left.rows.filter unmatched).eraseDups.filter (· == l) := by
    refine List.filter_congr fun row hrow => ?_
    rw [Function.comp_apply, Bool.eq_iff_iff, startsWith_append (hrows row (hmem row hrow)) (hexact l hl),
      Row.beq_iff (hexact l hl)]
  have hany : (left.rows.filter unmatched).any (· == l) = unmatched l := by
    rw [Bool.eq_iff_iff, List.any_eq_true]
    constructor
    · rintro ⟨row, hrow, heq⟩
      obtain rfl := (Row.beq_iff (hexact l hl)).1 heq
      exact (List.mem_filter.1 hrow).2
    · intro hunmatched
      exact ⟨l, List.mem_filter.2 ⟨hl, hunmatched⟩, (Row.beq_iff (hexact l hl)).2 rfl⟩
  rw [List.filter_map, hstarts,
    filter_eraseDups (hexact l hl) fun row hrow => hexact row (List.mem_filter.1 hrow).1, hany]
  cases unmatched l <;> rfl

/-- A left outer join succeeds exactly if the inner join does. Its rows are those of the inner join and then,
in the order of the left table, one row for each value of a left record that matches no right record, padded
with empty texts. So the rows that a matched record starts are those of the inner join, of which there are
some, and an unmatched one starts exactly one row. -/
theorem join_left_rows {left right : Table} (hrows : left.Rectangular)
    (hexact : ∀ row ∈ left.rows, WithoutFloats row) (on : Option Expression) :
    ((∃ joined, left.join right on .left = .ok joined) ↔ ∃ inner, left.join right on .inner = .ok inner) ∧
    ∀ inner, left.join right on .inner = .ok inner →
      let unmatched := left.rows.filter fun l => !left.matched right on l
      let joined := inner.rows ++ unmatched.eraseDups.map (· ++ emptyRow right.schema.width)
      left.join right on .left = .ok { inner with rows := joined } ∧
      ∀ l ∈ left.rows,
        (left.matched right on l = true →
          joined.filter (startsWith left.schema.width l) = inner.rows.filter (startsWith left.schema.width l) ∧
          inner.rows.any (startsWith left.schema.width l) = true) ∧
        (left.matched right on l = false →
          joined.filter (startsWith left.schema.width l) = [l ++ emptyRow right.schema.width]) := by
  rw [join_apply, join_apply]
  cases hinner : innerRows (fun l r => accepts on [(left.schema, l), (right.schema, r)]) right.rows
      left.rows with
  | error e => exact ⟨iff_of_false nofun nofun, nofun⟩
  | ok rows =>
    refine ⟨iff_of_true ⟨_, rfl⟩ ⟨_, rfl⟩, fun inner h => ?_⟩
    obtain rfl := Except.ok.inj h
    intro unmatched joined
    have hmatched {l : Row} (hl : l ∈ left.rows) :
        rows.any (startsWith left.schema.width l) = left.matched right on l :=
      any_startsWith hrows hexact hinner hl
    have hunmatched : unmatched = left.rows.filter fun l => !rows.any (startsWith left.schema.width l) :=
      List.filter_congr fun l hl => by rw [hmatched hl]
    refine ⟨?_, fun l hl => ⟨fun hm => ?_, fun hm => ?_⟩⟩
    · have hkeep := keepLeft_eq (fun l hl => ⟨hrows l hl, hexact l hl⟩) right.schema.width rows
      simp only [Except.map, keptRows, hkeep, joined, hunmatched]
    · refine ⟨?_, (hmatched hl).trans hm⟩
      rw [List.filter_append, filter_padded hrows hexact hl, hm, Bool.not_true, if_neg Bool.false_ne_true,
        List.append_nil]
    · have hnone : rows.filter (startsWith left.schema.width l) = [] := by
        rw [List.filter_eq_nil_iff, ← List.any_eq_false, hmatched hl]
        exact hm
      rw [List.filter_append, filter_padded hrows hexact hl, hm, Bool.not_false, if_pos rfl]
      exact congrArg (· ++ [l ++ emptyRow right.schema.width]) hnone

/-- A table of one field of texts. -/
def named (name : String) (texts : List String) : Table where
  id := ⟨"d", name⟩
  schema := ⟨[⟨"name", "text", .text, some name⟩]⟩
  rows := texts.map fun text => [.text text]

/-- Of the four records one is matched, two are equal, and one is padded already. -/
theorem join_left_rows_named :
    let left := named "l" ["ann", "bob", "", "bob"]
    let right := named "r" ["ann"]
    let on := some (Expression.binary (.compare .equal) (.field ⟨some "l", "name"⟩) (.field ⟨some "r", "name"⟩))
    ∃ inner, left.join right on .inner = .ok inner ∧ inner.rows = [[.text "ann", .text "ann"]] ∧
      left.join right on .left =
        .ok { inner with rows := inner.rows ++ [[.text "bob", .text ""], [.text "", .text ""]] } := by
  intro left right on
  have hrows : left.Rectangular := by
    simp [Rectangular, left, named, Schema.width]
  have hexact : ∀ row ∈ left.rows, WithoutFloats row := by
    simp [WithoutFloats, left, named, Value.type]
  have hinner : left.join right on .inner =
      .ok ⟨⟨"d", "l"⟩, left.schema ++ right.schema, [[.text "ann", .text "ann"]]⟩ := by
    rfl
  obtain ⟨-, hjoin⟩ := join_left_rows hrows hexact on
  obtain ⟨hleft, -⟩ := hjoin _ hinner
  have hunmatched : ((left.rows.filter fun l => !left.matched right on l).eraseDups.map
      (· ++ emptyRow right.schema.width)) = [[.text "bob", .text ""], [.text "", .text ""]] := by
    rfl
  rw [hunmatched] at hleft
  exact ⟨_, hinner, rfl, hleft⟩

end Table

end TextTables
