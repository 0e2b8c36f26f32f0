import TextTables.Evaluation
/-!
Selection: the records of a table that a condition accepts, with all fields or some of them.
-/

namespace TextTables

/-- The records that a condition accepts, in order. -/
def acceptedRows (condition : Option Expression) (schema : Schema) :
    List Row → Except Error (List Row)
  | [] => .ok []
  | row :: rest => do
    let accepted ← accepts condition [(schema, row)]
    let kept ← acceptedRows condition schema rest
    return if accepted then row :: kept else kept

/-- The fields at some positions, in the order of the positions. -/
def Schema.pick (schema : Schema) (positions : List Nat) : Schema :=
  ⟨positions.filterMap (schema.fields[·]?)⟩

/-- The values at some positions, in the order of the positions. -/
def pickValues (row : Row) (positions : List Nat) : Row :=
  positions.map (row.getD · default)

/-- The records that a condition accepts, restricted to some fields; without a list of fields all of
them are kept. Fields are resolved first, so that an unknown one fails on an empty table too. -/
def Table.select (table : Table) (fields : Option (List FieldRef))
    (condition : Option Expression) : Except Error Table := do
  match fields with
  | none => return { table with rows := ← acceptedRows condition table.schema table.rows }
  | some refs =>
    let positions ← refs.mapM table.schema.resolve
    let rows ← acceptedRows condition table.schema table.rows
    return ⟨table.id, table.schema.pick positions, rows.map (pickValues · positions)⟩

end TextTables
