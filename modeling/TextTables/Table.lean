import TextTables.Schema
/-!
Tables: an identity, a schema and the records in order. A table derived from others keeps the
identity of the first of them.
-/

namespace TextTables

/-! ## Identities -/

/-- The identity of a table: its name, and the database that holds it. -/
structure TableId where
  database : String
  name : String
deriving Repr, DecidableEq

/-- The written form of an identity. -/
def TableId.render (id : TableId) : String := id.database ++ "." ++ id.name

/-- The order of identities: by database, then by name. -/
def TableId.before (a b : TableId) : Bool :=
  decide (a.database < b.database) || (a.database == b.database && decide (a.name < b.name))

/-! ## Tables -/

/-- A table in memory. -/
structure Table where
  id : TableId
  schema : Schema
  rows : List Row

/-- The table with a record at the end, which has one value per field. -/
def Table.push (table : Table) (row : Row) : Except Error Table :=
  if row.length ≠ table.schema.width then
    .error (.recordConversion (.tableWidth table.id.name table.schema.width row.length))
  else .ok { table with rows := table.rows ++ [row] }

/-- The table with some records at the end. -/
def Table.pushAll (table : Table) : List Row → Except Error Table
  | [] => .ok table
  | row :: rest => do (← table.push row).pushAll rest

/-- The table with a field at the end, which holds the zero of its type in every record. -/
def Table.addField (table : Table) (field : Field) : Except Error Table := do
  let schema ← table.schema.add field
  return { table with schema, rows := table.rows.map (· ++ [field.type.zero]) }

end TextTables
