import TextTables.Syntax.ExpressionReading
import TextTables.Syntax.Statement
/-!
Reading statements. Faults inside an expression make it malformed, faults inside a column make the
metadata invalid, and all others are faults of the statement.
-/

namespace TextTables

/-- A fault outside expressions and columns is one of the statement. -/
instance : MonadLift (Reading SyntaxFault) (Reading Error) := ⟨Reading.mapError .parse⟩

namespace Statement

/-- Reads an expression inside a statement. -/
def expression : Reading Error Expression := readExpression.mapError .malformedExpression

/-- Reads what belongs to the columns of a table. -/
def metadata {α : Type} (read : Reading SyntaxFault α) : Reading Error α :=
  read.mapError fun fault => .invalidMetadata (.statement fault)

/-- As many rounds as lexemes are left, and one. -/
def rounds {ε : Type} : Reading ε Nat := fun input => .ok (input.length + 1, input)

/-! ## Tables and databases -/

/-- Reads the hints behind a type word, glued to it. -/
def hints : Nat → String → Reading SyntaxFault String
  | 0, _ => throw .unexpectedEnd
  | n + 1, type => do
    if ← Reading.accept .openParen then
      let hint ← match ← Reading.next with
        | .number digits => pure digits
        | .name word => pure word
        | t => throw (.unexpectedToken t)
      Reading.expect .closeParen
      hints n (type ++ "(" ++ hint ++ ")")
    else return type

/-- Reads a column as a descriptor: its name and its type. -/
def column : Reading SyntaxFault String := do
  let name ← Reading.name
  let type ← Reading.name
  return name ++ " " ++ (← hints (← rounds) type)

/-- Reads a table definition after `CREATE TABLE`. -/
def createTableRest : Reading Error Statement := do
  let name ← Reading.name
  Reading.expect .openParen
  let columns ← metadata (do Reading.commaSeparated column (← rounds))
  metadata (Reading.expect .closeParen)
  return .createTable name columns

/-- Reads what follows `CREATE`. -/
def createRest : Reading Error Statement := do
  match ← Reading.next with
  | .keyword .database => return .createDatabase (← Reading.name)
  | .keyword .table => createTableRest
  | t => throw (.parse (.unexpectedToken t))

/-- Reads what follows `DROP`. -/
def dropRest : Reading Error Statement := do
  match ← Reading.next with
  | .keyword .database => return .dropDatabase (← Reading.name)
  | .keyword .table => return .dropTable (← Reading.name)
  | t => throw (.parse (.unexpectedToken t))

/-- Reads what follows `ALTER`. -/
def alterRest : Reading Error Statement := do
  Reading.expect (.keyword .table)
  let name ← Reading.name
  Reading.expect (.keyword .add)
  return .alterTable name (← metadata column)

/-! ## Queries -/

/-- The names that an aggregate is called by. -/
def aggregateNames : List String := ["count", "max", "min", "avg"]

/-- Reads the argument of an aggregate: a star, for the count only, or a field. -/
def aggregateArgument (function : String) : Reading SyntaxFault (Option FieldRef) := do
  if ← Reading.accept .asterisk then
    if Text.sameIgnoringCase function "count" then return none
    else throw (.starArgument function)
  else return some (← Reading.fieldFrom (← Reading.name))

/-- Reads the fields of a query whose first name is taken already. -/
def selectedFields (first : String) : Reading SyntaxFault (List FieldRef) := do
  let ref ← Reading.fieldFrom first
  if ← Reading.accept .comma then
    return ref ::
      (← Reading.commaSeparated (do Reading.fieldFrom (← Reading.name)) (← rounds))
  else return [ref]

/-- Reads what a query returns. -/
def selection : Reading SyntaxFault Selection := do
  if ← Reading.accept .asterisk then return .all
  let first ← Reading.name
  if Text.lowerCase first ∈ aggregateNames then
    if ← Reading.accept .openParen then
      let field ← aggregateArgument first
      Reading.expect .closeParen
      return .aggregate first field
    else return .fields (← selectedFields first)
  else return .fields (← selectedFields first)

/-- Reads a table of a query and its alias. -/
def fromTable : Reading SyntaxFault FromItem := do
  let name ← Reading.name
  match ← Reading.peek? with
  | some (.name aliasName) =>
    let _ ← Reading.next
    return .table name (some aliasName)
  | _ => return .table name none

/-- How the next table of a query is joined: not at all, by a comma or by a join of some kind. -/
inductive Joint where
  | none
  | comma
  | join (kind : JoinKind)
deriving Repr, DecidableEq

/-- Reads how the next table is joined. -/
def joint : Reading SyntaxFault Joint := do
  if ← Reading.accept .comma then return .comma
  if ← Reading.accept (.keyword .join) then return .join .inner
  if ← Reading.accept (.keyword .inner) then
    Reading.expect (.keyword .join)
    return .join .inner
  if ← Reading.accept (.keyword .left) then
    let _ ← Reading.accept (.keyword .outer)
    Reading.expect (.keyword .join)
    return .join .left
  if ← Reading.accept (.keyword .right) then
    let _ ← Reading.accept (.keyword .outer)
    Reading.expect (.keyword .join)
    return .join .right
  return .none

/-- Reads the tables joined to a first item, from left to right. -/
def joinedTo : Nat → FromItem → Reading Error FromItem
  | 0, _ => throw (.parse .unexpectedEnd)
  | n + 1, item => do
    match ← joint with
    | .none => return item
    | .comma =>
      let right ← fromTable
      joinedTo n (.join .inner item right none)
    | .join kind =>
      let right ← fromTable
      Reading.expect (.keyword .on)
      let condition ← expression
      joinedTo n (.join kind item right (some condition))

/-- Reads a condition, which may be absent. -/
def condition : Reading Error (Option Expression) := do
  if ← Reading.accept (.keyword .where) then return some (← expression) else return none

/-- Reads what follows `SELECT`. -/
def selectRest : Reading Error Statement := do
  let selection ← selection
  Reading.expect (.keyword .from)
  let first ← fromTable
  let item ← joinedTo (← rounds) first
  return .select selection item (← condition)

/-! ## Records -/

/-- Reads the rest of a tuple after its opening parenthesis. -/
def tupleRest : Nat → Reading Error (List Expression)
  | 0 => throw (.parse .unexpectedEnd)
  | n + 1 => do
    let first ← expression
    match ← Reading.next with
    | .closeParen => return [first]
    | .comma => return first :: (← tupleRest n)
    | t => throw (.parse (.unexpectedToken t))

/-- Reads tuples with commas between them. -/
def tuples : Nat → Reading Error (List (List Expression))
  | 0 => throw (.parse .unexpectedEnd)
  | n + 1 => do
    Reading.expect .openParen
    let first ← tupleRest (← rounds)
    if ← Reading.accept .comma then return first :: (← tuples n) else return [first]

/-- Reads what follows `INSERT`. -/
def insertRest : Reading Error Statement := do
  Reading.expect (.keyword .into)
  let table ← Reading.name
  Reading.expect (.keyword .values)
  return .insert table (← tuples (← rounds))

/-- An assignment put among others in the order of the names. -/
def insertColumn (name : String) (e : Expression) :
    List (String × Expression) → List (String × Expression)
  | [] => [(name, e)]
  | (other, f) :: rest =>
    if name < other then (name, e) :: (other, f) :: rest
    else (other, f) :: insertColumn name e rest

/-- Reads assignments with commas between them, and adds them to those already read. -/
def assignments : Nat → List (String × Expression) → Reading Error (List (String × Expression))
  | 0, _ => throw (.parse .unexpectedEnd)
  | n + 1, columns => do
    let name ← Reading.name
    Reading.expect .equal
    let value ← expression
    if columns.any (·.1 == name) then throw (.parse (.duplicateColumn name))
    let columns := insertColumn name value columns
    if ← Reading.accept .comma then assignments n columns else return columns

/-- Reads what follows `UPDATE`. -/
def updateRest : Reading Error Statement := do
  let table ← Reading.name
  Reading.expect (.keyword .set)
  let columns ← assignments (← rounds) []
  return .update table columns (← condition)

/-- Reads what follows `DELETE`. -/
def deleteRest : Reading Error Statement := do
  Reading.expect (.keyword .from)
  let table ← Reading.name
  return .delete table (← condition)

/-! ## Statements -/

/-- Reads what follows `BEGIN`. -/
def beginRest : Reading Error Statement := do
  let _ ← Reading.accept (.keyword .transaction)
  return .begin

/-- Reads a statement. -/
def read : Reading Error Statement := do
  match ← Reading.next with
  | .keyword .create => createRest
  | .keyword .drop => dropRest
  | .keyword .use => return .useDatabase (← Reading.name)
  | .keyword .alter => alterRest
  | .keyword .select => selectRest
  | .keyword .insert => insertRest
  | .keyword .update => updateRest
  | .keyword .delete => deleteRest
  | .keyword .begin => beginRest
  | .keyword .commit => return .commit
  | t => throw (.parse (.unexpectedToken t))

/-- The statement that a whole text writes. A semicolon may end it. -/
def ofString (text : String) : Except Error Statement := do
  let reading : Reading Error Statement := do
    let statement ← read
    let _ ← Reading.accept .semicolon
    match ← Reading.peek? with
    | none => return statement
    | some t => throw (.parse (.unexpectedToken t))
  return (← reading.run (lex text)).1

end Statement

end TextTables
