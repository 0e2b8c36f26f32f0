import TextTables.Proofs.Store.Action
import TextTables.Relation.Selection
/-!
# Filters

A filter succeeds exactly if its condition has a truth value for every record. It then keeps the records of
which the condition holds, in order, and otherwise fails as the condition does for the first record without
a truth value.
-/

namespace TextTables

variable {condition : Option Expression} {schema : Schema} {rows rows' : List Row} {row : Row}

variable (condition schema) in
/-- Whether a condition gives a truth value for a record. -/
def Decides (row : Row) : Prop := ∃ truth, accepts condition [(schema, row)] = .ok truth

variable (condition schema) in
/-- The records of which a condition holds. -/
def satisfying (rows : List Row) : List Row :=
  rows.filter fun row => (accepts condition [(schema, row)]).toOption.getD false

theorem acceptedRows_append (rows rows' : List Row) :
    acceptedRows condition schema (rows ++ rows') = do
      let kept ← acceptedRows condition schema rows
      return kept ++ (← acceptedRows condition schema rows') := by
  induction rows with
  | nil => cases h : acceptedRows condition schema rows' <;> simp only [List.nil_append, acceptedRows, h] <;> rfl
  | cons row rest ih =>
    simp only [List.cons_append, acceptedRows, ih, bind_assoc, pure_bind]
    refine bind_congr fun accepted => bind_congr fun kept => bind_congr fun kept' => ?_
    cases accepted <;> rfl

theorem acceptedRows_none (schema : Schema) (rows : List Row) : acceptedRows none schema rows = .ok rows := by
  induction rows with
  | nil => rfl
  | cons row rest ih =>
    rw [acceptedRows, ih]
    rfl

/-- A filter that succeeds has a truth value for every record and keeps those of which its condition
holds. -/
theorem acceptedRows_eq_ok :
    acceptedRows condition schema rows = .ok rows' ↔
      (∀ row ∈ rows, Decides condition schema row) ∧ satisfying condition schema rows = rows' := by
  induction rows generalizing rows' with
  | nil => simp [acceptedRows, satisfying]
  | cons row rest ih =>
    rw [acceptedRows, List.forall_mem_cons, Decides]
    constructor
    · intro h
      obtain ⟨truth, htruth, h⟩ := Except.bind_eq_ok.1 h
      obtain ⟨kept, hkept, h⟩ := Except.bind_eq_ok.1 h
      obtain ⟨hrest, rfl⟩ := ih.1 hkept
      refine ⟨⟨⟨truth, htruth⟩, hrest⟩, ?_⟩
      rw [satisfying, List.filter_cons, htruth]
      exact Except.ok.inj h
    · rintro ⟨⟨⟨truth, htruth⟩, hrest⟩, rfl⟩
      rw [htruth, ih.2 ⟨hrest, rfl⟩, satisfying, satisfying, List.filter_cons, htruth]
      rfl

theorem satisfying_none (schema : Schema) (rows : List Row) : satisfying none schema rows = rows :=
  (acceptedRows_eq_ok.1 (acceptedRows_none schema rows)).2

/-- A filter that fails does so at the first record for which its condition gives no truth value. -/
theorem failing_of_acceptedRows {e : Error} (h : acceptedRows condition schema rows = .error e) :
    ∃ before row after, rows = before ++ row :: after ∧ (∀ row ∈ before, Decides condition schema row) ∧
      accepts condition [(schema, row)] = .error e := by
  induction rows with
  | nil => cases h
  | cons first rest ih =>
    rw [acceptedRows] at h
    cases htruth : accepts condition [(schema, first)] with
    | error e' =>
      rw [htruth] at h
      cases h
      exact ⟨[], first, rest, rfl, by simp, htruth⟩
    | ok truth =>
      cases hrest : acceptedRows condition schema rest with
      | ok kept =>
        rw [htruth, hrest] at h
        cases h
      | error e' =>
        rw [htruth, hrest] at h
        cases h
        obtain ⟨before, row, after, rfl, hbefore, he⟩ := ih hrest
        exact ⟨first :: before, row, after, rfl, List.forall_mem_cons.2 ⟨⟨truth, htruth⟩, hbefore⟩, he⟩

theorem Table.select_none (table : Table) : table.select none none = .ok table := by
  rw [select, acceptedRows_none]
  rfl

theorem Table.select_eq_ok {table table' : Table} :
    table.select none condition = .ok table' ↔ (∀ row ∈ table.rows, Decides condition table.schema row) ∧
      table' = { table with rows := satisfying condition table.schema table.rows } := by
  rw [select, Except.bind_eq_ok]
  constructor
  · rintro ⟨kept, hkept, h⟩
    obtain ⟨hall, rfl⟩ := acceptedRows_eq_ok.1 hkept
    exact ⟨hall, (Except.ok.inj h).symm⟩
  · rintro ⟨hall, rfl⟩
    exact ⟨_, acceptedRows_eq_ok.2 ⟨hall, rfl⟩, rfl⟩

theorem Table.failing_of_select {table : Table} {e : Error} (h : table.select none condition = .error e) :
    ∃ before row after, table.rows = before ++ row :: after ∧
      (∀ row ∈ before, Decides condition table.schema row) ∧ accepts condition [(table.schema, row)] = .error e := by
  refine failing_of_acceptedRows ?_
  rw [select] at h
  cases hkept : acceptedRows condition table.schema table.rows <;> rw [hkept] at h <;> cases h
  rfl

end TextTables
