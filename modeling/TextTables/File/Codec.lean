import TextTables.File.Lock
import TextTables.Table
/-!
Table files as lines: a lock line that may be absent, the schema line, and one line per record with
bars between the values. `decodeTable` reads them, and `encodeTable` writes all but the lock line;
texts that would break the lines are refused.
-/

namespace TextTables

/-! ## Writing -/

/-- Whether a text holds a character that ends a field or a line. -/
def hasSeparator (text : String) : Bool :=
  text.toList.any fun c => c == '|' || c == '\n' || c == '\r'

/-- Refuses a value that a record cannot hold, at the start of the record or further on. -/
def checkValue (first : Bool) : Value → Except Error Unit
  | .text s =>
    if hasSeparator s then .error (.recordConversion (.separatorInText s))
    else if first && isLockLine s then .error (.recordConversion (.sentinelInText s))
    else .ok ()
  | _ => .ok ()

/-- Refuses values that the rest of a record cannot hold. -/
def checkValues : Row → Except Error Unit
  | [] => .ok ()
  | value :: rest => do
    checkValue false value
    checkValues rest

/-- Refuses a record that a line cannot hold. -/
def checkRow : Row → Except Error Unit
  | [] => .ok ()
  | value :: rest => do
    checkValue true value
    checkValues rest

/-- The values of a record with bars between them. -/
def renderRow (row : Row) : String := String.intercalate "|" (row.map Value.render)

/-- The line of a record. -/
def encodeRow (row : Row) : Except Error String := do
  checkRow row
  return renderRow row

/-- The lines of some records. -/
def encodeRows : List Row → Except Error (List String)
  | [] => .ok []
  | row :: rest => do return (← encodeRow row) :: (← encodeRows rest)

/-- The lines of a table. -/
def encodeTable (table : Table) : Except Error (List String) := do
  return table.schema.encode :: (← encodeRows table.rows)

/-! ## Reading -/

/-- The lines with the ticket of the lock line taken off. -/
def splitLock (lines : List String) : Option Ticket × List String :=
  match holder? lines with
  | some ticket => (some ticket, lines.tail)
  | none => (none, lines)

/-- The value of a type that a piece of a line writes. -/
def decodeValue (type : FieldType) (raw : String) : Except Error Value :=
  match Value.read? type raw with
  | some value => .ok value
  | none => .error (.recordConversion (.notOfType raw type))

/-- The values of some fields, one piece each. -/
def decodeValues : List Field → List String → Except Error Row
  | field :: fields, raw :: raws => do
    let value ← decodeValue field.type raw
    return value :: (← decodeValues fields raws)
  | _, _ => .ok []

/-- The pieces of a line between bars. -/
def pieces (line : String) : List String := (line.toList.splitOn '|').map String.ofList

/-- The record that a line of a table writes. -/
def decodeRow (table : String) (schema : Schema) (line : String) : Except Error Row :=
  let raws := pieces line
  if raws.length ≠ schema.width then
    .error (.recordConversion (.recordWidth line table schema.width raws.length))
  else decodeValues schema.fields raws

/-- The records that some lines of a table write. -/
def decodeRows (table : String) (schema : Schema) : List String → Except Error (List Row)
  | [] => .ok []
  | line :: rest => do
    let row ← decodeRow table schema line
    return row :: (← decodeRows table schema rest)

/-- The ticket and the schema of a table file. -/
def decodeHeader (table : String) (lines : List String) :
    Except Error (Option Ticket × Schema) := do
  let (ticket, rest) := splitLock lines
  match rest with
  | [] => throw (.invalidMetadata (.noSchemaLine table))
  | schemaLine :: _ => return (ticket, ← Schema.decode schemaLine)

/-- The ticket and the table of a table file. Lock lines between the records are passed over, and a
record that does not convert fails the whole. -/
def decodeTable (id : TableId) (lines : List String) : Except Error (Option Ticket × Table) := do
  let (ticket, rest) := splitLock lines
  match rest with
  | [] => throw (.invalidMetadata (.noSchemaLine id.name))
  | schemaLine :: records =>
    let schema := (← Schema.decode schemaLine).qualify id.name
    let rows ← decodeRows id.name schema (records.filter fun line => !isLockLine line)
    return (ticket, ⟨id, schema, rows⟩)

end TextTables
