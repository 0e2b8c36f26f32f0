import TextTables.File.Codec
import TextTables.Store.Basic
/-!
The catalog: where databases and tables are kept in a store. A database is a directory below the root
and a table is a file in it; their names are in lower case there, so that names that differ in case
only mean the same database or table.
-/

namespace TextTables

/-- The action whose result is known. -/
def Action.of {σ α : Type} (result : Except Error α) : Action σ α := Action.ask fun _ => result

/-- Where a store keeps databases and tables. -/
structure Catalog where
  root : Path
  extension : String
deriving Repr, DecidableEq

namespace Catalog

variable {σ : Type} [Storage σ] (files : Catalog)

/-- The directory of a database. -/
def databasePath (database : String) : Path := files.root.join (Text.lowerCase database)

/-- The file of a table. -/
def tablePath (id : TableId) : Path :=
  (files.databasePath id.database).join (Text.lowerCase id.name ++ "." ++ files.extension)

/-! ## Questions -/

/-- Whether a database exists. -/
def databaseExists (database : String) (store : σ) : Bool :=
  Storage.directoryExists (files.databasePath database) store

/-- Whether a table exists. -/
def tableExists (id : TableId) (store : σ) : Bool :=
  Storage.fileExists (files.tablePath id) store

/-- The lines of a table's file. -/
def lines (id : TableId) (store : σ) : Except Error (List String) := do
  match ← Storage.read? (files.tablePath id) store with
  | some lines => return lines
  | none => throw (.tableNotFound id.name)

/-- A table as its file has it. -/
def load (id : TableId) (store : σ) : Except Error Table := do
  return (← decodeTable id (← files.lines id store)).2

/-- The ticket at the top of a table's file, and the schema. -/
def header (id : TableId) (store : σ) : Except Error (Option Ticket × Schema) := do
  decodeHeader id.name (← files.lines id store)

/-- The ticket of the transaction that holds a table. -/
def holder? (id : TableId) (store : σ) : Except Error (Option Ticket) := do
  return TextTables.holder? (← files.lines id store)

/-! ## Actions -/

/-- Creates the root directory if it is missing. -/
def init : Action σ Unit := do
  let _ ← Storage.createDirectory files.root

/-- Deletes the root directory with every database in it. -/
def reset : Action σ Unit := do
  let _ ← Storage.deleteDirectory files.root

/-- Creates a database; false if it exists. -/
def createDatabase (database : String) : Action σ Bool :=
  Storage.createDirectory (files.databasePath database)

/-- Deletes a database with its tables; false if it does not exist. -/
def dropDatabase (database : String) : Action σ Bool :=
  Storage.deleteDirectory (files.databasePath database)

/-- Creates a table without records; false if it exists. -/
def createTable (id : TableId) (schema : Schema) : Action σ Bool := do
  if ← Storage.createFile (files.tablePath id) then
    Storage.write (files.tablePath id) [schema.encode]
    return true
  else return false

/-- Deletes a table; false if it does not exist. -/
def dropTable (id : TableId) : Action σ Bool := Storage.deleteFile (files.tablePath id)

/-- Replaces the lines of a table's file. -/
def writeLines (id : TableId) (lines : List String) : Action σ Unit :=
  Storage.write (files.tablePath id) lines

/-- Writes a table to its file, without a lock line. -/
def persist (table : Table) : Action σ Unit := do
  files.writeLines table.id (← Action.of (encodeTable table))

/-- Puts a record at the end of a table's file. -/
def appendRow (id : TableId) (row : Row) : Action σ Unit := do
  let line ← Action.of (encodeRow row)
  if files.tableExists id (← get) then Storage.append (files.tablePath id) line
  else throw (.tableNotFound id.name)

/-- Puts records at the end of a table's file, in order. -/
def appendRows (id : TableId) : List Row → Action σ Unit
  | [] => return ()
  | row :: rest => do
    files.appendRow id row
    appendRows id rest

/-- The lines of a table's file with a field added to the table; a lock line stays in place. -/
def alteredLines (id : TableId) (field : Field) (lines : List String) :
    Except Error (List String) := do
  let (ticket, table) ← decodeTable id lines
  let lines ← encodeTable (← table.addField field)
  match ticket with
  | some ticket => return ticket.lockLine :: lines
  | none => return lines

/-- Adds a field to a table's file. -/
def addField (id : TableId) (field : Field) : Action σ Unit := do
  let lines ← Action.ask (files.lines id)
  files.writeLines id (← Action.of (alteredLines id field lines))

/-- Puts a ticket's lock line at the top of a table's file. -/
def writeLock (id : TableId) (ticket : Ticket) : Action σ Unit := do
  let lines ← Action.ask (files.lines id)
  files.writeLines id (putLock ticket lines)

/-- Takes the lock line off a table's file, whosever it is. -/
def clearLock (id : TableId) : Action σ Unit := do
  let lines ← Action.ask (files.lines id)
  if (lines.head?.map isLockLine).getD false then files.writeLines id (dropLock lines)

end Catalog

end TextTables
