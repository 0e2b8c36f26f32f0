import TextTables.Outcome
import TextTables.Plan
import TextTables.Relation.Aggregate
import TextTables.Relation.Join
import TextTables.Relation.Selection
import TextTables.Session
/-!
Execution of plans on a connection. A relation is read and changes nothing. Records are updated and
deleted under the lock of their table, which is given back if it was taken for nothing.
-/

namespace TextTables

variable {σ : Type} [Storage σ] (files : Catalog)

/-! ## Queries -/

/-- The table that a relation gives. The fields of a scanned table answer to its alias, or to its
name as written. -/
def Relation.table (c : Connection σ) : Relation → Except Error Table
  | .scan name aliasName => do
    let table ← Connection.table files name c
    return { table with schema := table.schema.qualify (aliasName.getD name) }
  | .join kind left right on => do
    let l ← left.table c
    let r ← right.table c
    l.join r on kind
  | .select source fields condition => do
    let table ← source.table c
    table.select fields condition

/-! ## New records -/

/-- The values of a tuple, each cast to the type of its field. -/
def tupleValues : List Field → List Expression → Except Error Row
  | field :: fields, e :: rest => do
    let value ← (← e.evaluate []).cast field.type
    return value :: (← tupleValues fields rest)
  | _, _ => .ok []

/-- The record of a tuple. -/
def tupleRow (schema : Schema) (tuple : List Expression) : Except Error Row :=
  if tuple.length ≠ schema.width then
    .error (.recordConversion (.tupleWidth schema.width tuple.length))
  else tupleValues schema.fields tuple

/-- The records of some tuples. -/
def tupleRows (schema : Schema) : List (List Expression) → Except Error (List Row)
  | [] => .ok []
  | tuple :: rest => do return (← tupleRow schema tuple) :: (← tupleRows schema rest)

/-! ## Changed records -/

/-- The positions of the assigned columns, with their expressions. -/
def resolveColumns (schema : Schema) :
    List (String × Expression) → Except Error (List (Nat × Expression))
  | [] => .ok []
  | (name, e) :: rest => do
    let position ← schema.resolve ⟨none, name⟩
    return (position, e) :: (← resolveColumns schema rest)

/-- The records after an update, and how many it changed. A changed record that a line cannot hold
is refused. -/
def updatedRows (schema : Schema) (assignments : List (Nat × Expression))
    (condition : Option Expression) : List Row → Except Error (List Row × Nat)
  | [] => .ok ([], 0)
  | row :: rest => do
    if ← accepts condition [(schema, row)] then
      let updated ← assign schema row assignments
      checkRow updated
      let (rows, count) ← updatedRows schema assignments condition rest
      return (updated :: rows, count + 1)
    else
      let (rows, count) ← updatedRows schema assignments condition rest
      return (row :: rows, count)

/-- The records that a deletion leaves, and how many it takes away. -/
def remainingRows (schema : Schema) (condition : Option Expression) :
    List Row → Except Error (List Row × Nat)
  | [] => .ok ([], 0)
  | row :: rest => do
    let accepted ← accepts condition [(schema, row)]
    let (rows, count) ← remainingRows schema condition rest
    if accepted then return (rows, count + 1) else return (row :: rows, count)

namespace Connection

/-- Gives a lock back that was taken just now. -/
def releaseNew (id : TableId) : Acquisition → Action (Connection σ) Unit
  | .acquired => release files id
  | .alreadyHeld => return ()

/-- Changes the records of a table under its lock, stages the result and tells how many records it
changed. A lock taken for a change that fails or changes nothing is given back. -/
def change (table : Table) (rows : Except Error (List Row × Nat)) :
    Action (Connection σ) Nat := do
  let acquisition ← lock files table.id
  match rows with
  | .error e =>
    releaseNew files table.id acquisition
    throw e
  | .ok (rows, count) =>
    if 0 < count then stage { table with rows } else releaseNew files table.id acquisition
    return count

/-- Updates the records that a condition accepts. -/
def update (name : String) (columns : List (String × Expression))
    (condition : Option Expression) : Action (Connection σ) Nat := do
  let _ ← activeTransaction
  let table ← Action.ask (table files name)
  let assignments ← Action.of (resolveColumns table.schema columns)
  change files table (updatedRows table.schema assignments condition table.rows)

/-- Deletes the records that a condition accepts. -/
def delete (name : String) (condition : Option Expression) : Action (Connection σ) Nat := do
  let _ ← activeTransaction
  let table ← Action.ask (table files name)
  change files table (remainingRows table.schema condition table.rows)

/-- Adds the records of some tuples. All are made before the first is written. -/
def insert (name : String) (tuples : List (List Expression)) : Action (Connection σ) Nat := do
  let (id, schema) ← Action.ask (schema files name)
  let rows ← Action.of (tupleRows schema tuples)
  appendRows files id rows
  return rows.length

/-! ## Statements -/

/-- Does what a plan says. A transaction that it starts takes the given ticket. -/
def run (ticket : Ticket) : Plan → Action (Connection σ) Outcome
  | .createDatabase name => do
    createDatabase files name
    return .databaseCreated name
  | .dropDatabase name => do
    dropDatabase files name
    return .databaseDropped name
  | .useDatabase name => do
    useDatabase files name
    return .databaseUsed name
  | .createTable name schema => do
    createTable files name schema
    return .tableCreated name
  | .dropTable name => do
    dropTable files name
    return .tableDropped name
  | .alterTable name field => do
    alterTable files name field
    return .tableAltered name
  | .insert name tuples => do return .inserted (← insert files name tuples)
  | .query relation => do return .table (← Action.ask (relation.table files))
  | .aggregate source function field => do
    let table ← Action.ask (source.table files)
    let (label, value) ← Action.of (table.aggregate function field)
    return .aggregate label value
  | .update name columns condition => do return .updated (← update files name columns condition)
  | .delete name condition => do return .deleted (← delete files name condition)
  | .begin => do
    begin ticket
    return .begun
  | .commit => do return .committed (← commit files)

/-- Does what the statement says that a text writes. -/
def execute (ticket : Ticket) (text : String) : Action (Connection σ) Outcome := do
  run files ticket (← Action.of (Plan.ofString text))

end Connection

end TextTables
