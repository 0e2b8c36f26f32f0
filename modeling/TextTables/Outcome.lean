import TextTables.Table
/-!
Outcomes of statements, and the texts that show them: a status line for a change, columns and rows
for a query.
-/

namespace TextTables

/-- What a statement has done or found. -/
inductive Outcome where
  | databaseCreated (name : String)
  | databaseDropped (name : String)
  | databaseUsed (name : String)
  | tableCreated (name : String)
  | tableDropped (name : String)
  | tableAltered (name : String)
  | inserted (count : Nat)
  | table (table : Table)
  | aggregate (label : String) (value : Value)
  | updated (count : Nat)
  | deleted (count : Nat)
  | begun
  | committed (tables : Nat)

/-- How many records a change touched. -/
def countLine (count : Nat) (verb : String) : String :=
  match count with
  | 0 => "No records " ++ verb ++ "."
  | 1 => "1 record " ++ verb ++ "."
  | n => toString n ++ " records " ++ verb ++ "."

namespace Outcome

/-- The status line of a change; a query has none. -/
def message : Outcome → Option String
  | .databaseCreated name => some ("Database " ++ name ++ " created.")
  | .databaseDropped name => some ("Database " ++ name ++ " deleted.")
  | .databaseUsed name => some ("Using database " ++ name ++ ".")
  | .tableCreated name => some ("Table " ++ name ++ " created.")
  | .tableDropped name => some ("Table " ++ name ++ " deleted.")
  | .tableAltered name => some ("Table " ++ name ++ " modified.")
  | .inserted 1 => some "1 new record inserted."
  | .inserted count => some (toString count ++ " new records inserted.")
  | .updated count => some (countLine count "modified")
  | .deleted count => some (countLine count "deleted")
  | .begun => some "Transaction starts."
  | .committed _ => some "Transaction committed."
  | .table _ | .aggregate _ _ => none

/-- The heads of the columns of a query. -/
def columns : Outcome → List String
  | .table t => t.schema.fields.map Field.descriptor
  | .aggregate label _ => [label]
  | _ => []

/-- The rows of a query, with bars between the values. -/
def rows : Outcome → List String
  | .table t => t.rows.map fun row => String.intercalate "|" (row.map Value.render)
  | .aggregate _ value => [value.render]
  | _ => []

/-- The number of records that a change touched. -/
def modified : Outcome → Nat
  | .inserted count | .updated count | .deleted count => count
  | _ => 0

/-- The lines that show an outcome. -/
def lines (outcome : Outcome) : List String :=
  match outcome.message with
  | some message => [message]
  | none => String.intercalate "|" outcome.columns :: outcome.rows

end Outcome

end TextTables
