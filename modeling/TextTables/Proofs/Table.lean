import TextTables.Proofs.Schema
import TextTables.Table
/-!
# Tables and their records

Tables with one value for each field in every record, and what a table is after records or a field are
added to it. Its identity stays what it was.
-/

namespace TextTables.Table

/-- A table whose records have one value for each field. -/
def Rectangular (table : Table) : Prop := ∀ row ∈ table.rows, row.length = table.schema.width

variable {table table' : Table} {field : Field} {rows : List Row}

theorem addField_eq_ok :
    table.addField field = .ok table' ↔ ∃ schema, table.schema.add field = .ok schema ∧
      table' = { table with schema, rows := table.rows.map (· ++ [field.type.zero]) } := by
  constructor
  · intro h
    obtain ⟨schema, hschema, h⟩ := Except.bind_eq_ok.1 h
    cases h
    exact ⟨schema, hschema, rfl⟩
  · rintro ⟨schema, hschema, rfl⟩
    exact Except.bind_eq_ok.2 ⟨schema, hschema, rfl⟩

/-- A table has a field of a name. -/
def Names (table : Table) (name : String) : Prop := ∃ field ∈ table.schema.fields, field.name = name

theorem names_iff {name : String} : table.Names name ↔ name ∈ table.schema.fields.map (·.name) :=
  List.mem_map.symm

theorem addField_names (h : table.Names field.name) :
    table.addField field = .error (.duplicateField field.name) := by
  have hany : table.schema.fields.any (·.name == field.name) = true := by
    simpa [List.any_eq_true, Names] using h
  rw [addField, Schema.add, if_pos hany]
  rfl

theorem addField_of_not_names (h : ¬ table.Names field.name) :
    table.addField field = .ok { table with
      schema := ⟨table.schema.fields ++ [field]⟩, rows := table.rows.map (· ++ [field.type.zero]) } :=
  addField_eq_ok.2 ⟨_, Schema.add_eq_ok.2 ⟨mt names_iff.2 h, rfl⟩, rfl⟩

theorem addField_ne (h : table.addField field = .ok table') : table' ≠ table := by
  obtain ⟨schema, hschema, rfl⟩ := addField_eq_ok.1 h
  obtain ⟨-, rfl⟩ := Schema.add_eq_ok.1 hschema
  intro heq
  simpa using congrArg (·.schema.fields.length) heq

theorem pushAll_eq (h : table.pushAll rows = .ok table') :
    table' = { table with rows := table.rows ++ rows } := by
  induction rows generalizing table with
  | nil => cases h; simp
  | cons row rest ih =>
    obtain ⟨pushed, hpush, h⟩ := Except.bind_eq_ok.1 h
    simp only [push] at hpush
    split at hpush
    · cases hpush
    · cases hpush
      rw [ih h]
      simp

theorem pushAll_of_length (h : ∀ row ∈ rows, row.length = table.schema.width) :
    table.pushAll rows = .ok { table with rows := table.rows ++ rows } := by
  induction rows generalizing table with
  | nil => simp [pushAll]
  | cons row rest ih =>
    obtain ⟨hrow, hrest⟩ := List.forall_mem_cons.1 h
    have hpush : table.push row = .ok { table with rows := table.rows ++ [row] } := by
      rw [push, if_neg (not_not.2 hrow)]
    have hpushed := @ih { table with rows := table.rows ++ [row] } hrest
    rw [List.append_assoc, List.singleton_append] at hpushed
    exact Except.bind_eq_ok.2 ⟨_, hpush, hpushed⟩

theorem addField_id (h : table.addField field = .ok table') : table'.id = table.id := by
  obtain ⟨schema, -, rfl⟩ := addField_eq_ok.1 h
  rfl

theorem pushAll_id (h : table.pushAll rows = .ok table') : table'.id = table.id := by
  rw [pushAll_eq h]

end TextTables.Table
