import TextTables.Transaction
/-!
Sessions. A session has a database in use and a transaction that may be active; a connection is a
session together with the store that it shares with others. Reading prefers the staged copy of a
table, changes of records are staged under a lock, and new records go to the file unless the table
is staged.
-/

namespace TextTables

/-- The state of a session. -/
structure Session where
  transaction : Option Transaction
  database : Option String

/-- The session that has done nothing yet. -/
def Session.start : Session := ⟨none, none⟩

/-- A session and the store that it works on. -/
structure Connection (σ : Type) extends Session where
  store : σ

/-- How a lock came to be held. -/
inductive Acquisition where
  /-- its lock line was written just now -/
  | acquired
  | alreadyHeld
deriving Repr, DecidableEq

namespace Connection

variable {σ : Type}

/-- An action on the store alone. -/
def onStore {α : Type} (action : Action σ α) : Action (Connection σ) α := fun c =>
  match action c.store with
  | .ok a store => .ok a { c with store }
  | .error e store => .error e { c with store }

/-- A question about the store alone. -/
def askStore {α : Type} (question : σ → Except Error α) : Action (Connection σ) α :=
  Action.ask fun c => question c.store

/-! ## Transactions -/

/-- Whether a transaction is active. -/
def isActive (c : Connection σ) : Bool := c.transaction.isSome

/-- The ticket of the active transaction. -/
def ticket? (c : Connection σ) : Option Ticket := c.transaction.map (·.ticket)

/-- The staged copy of a table. -/
def staged? (c : Connection σ) (id : TableId) : Option Table :=
  c.transaction.bind (·.staged? id)

/-- The active transaction. -/
def activeTransaction : Action (Connection σ) Transaction := Action.ask fun c =>
  match c.transaction with
  | some t => .ok t
  | none => .error .noActiveTransaction

/-- Changes the active transaction, if there is one. -/
def onTransaction (f : Transaction → Transaction) : Action (Connection σ) Unit :=
  modify fun c => { c with transaction := c.transaction.map f }

/-- Starts a transaction. -/
def begin (ticket : Ticket) : Action (Connection σ) Unit := fun c =>
  if c.isActive then .error .transactionAlreadyActive c
  else .ok () { c with transaction := some (.start ticket) }

/-- Keeps a changed table until the transaction is committed. -/
def stage (table : Table) : Action (Connection σ) Unit := do
  let _ ← activeTransaction
  onTransaction (·.stage table)

variable [Storage σ] (files : Catalog)

/-- Takes the lock of a table for the active transaction. -/
def acquire (id : TableId) : Action (Connection σ) Acquisition := do
  let t ← activeTransaction
  match ← askStore (files.holder? id) with
  | some holder =>
    if holder = t.ticket then
      onTransaction (·.hold id)
      return .alreadyHeld
    else throw (.tableLocked id.name)
  | none =>
    onStore (files.writeLock id t.ticket)
    onTransaction (·.hold id)
    return .acquired

/-- Gives the lock of a table back. -/
def release (id : TableId) : Action (Connection σ) Unit := do
  let t ← activeTransaction
  if (← askStore (files.holder? id)) = some t.ticket then onStore (files.clearLock id)
  onTransaction (·.letGo id)

/-- Ends the active transaction and writes its tables back. -/
def commit : Action (Connection σ) Nat := do
  let t ← activeTransaction
  modify fun c => { c with transaction := none }
  onStore (t.commit files)

/-- Ends the active transaction and forgets its tables. -/
def abort : Action (Connection σ) Unit := do
  let t ← activeTransaction
  modify fun c => { c with transaction := none }
  onStore (t.abort files)

/-- Takes the lock of a table. A table that another transaction holds ends the active one. -/
def lock (id : TableId) : Action (Connection σ) Acquisition := fun c =>
  match acquire files id c with
  | .error (.tableLocked name) c =>
    match abort files c with
    | .error e c => .error e c
    | .ok _ c => .error (.tableLocked name) c
  | result => result

/-- Ends the session. An active transaction does not outlive it. -/
def close (c : Connection σ) : σ :=
  match abort files c with
  | .ok _ c => c.store
  | .error _ c => c.store

/-! ## Databases -/

/-- Creates a database. -/
def createDatabase (name : String) : Action (Connection σ) Unit := do
  if !(← onStore (files.createDatabase name)) then throw (.databaseAlreadyExists name)

/-- Deletes a database, with what the session knows of it. -/
def dropDatabase (name : String) : Action (Connection σ) Unit := do
  if !(← onStore (files.dropDatabase name)) then throw (.databaseNotFound name)
  onTransaction (·.forgetDatabase name)
  modify fun c =>
    if c.database.any (Text.sameIgnoringCase · name) then { c with database := none } else c

/-- Uses a database from now on. -/
def useDatabase (name : String) : Action (Connection σ) Unit := do
  if files.databaseExists name (← get).store then
    modify fun c => { c with database := some name }
  else throw (.databaseNotFound name)

/-! ## Tables -/

/-- The identity of a table of the database in use. -/
def tableId (name : String) (c : Connection σ) : Except Error TableId :=
  match c.database with
  | some database => .ok ⟨database, name⟩
  | none => .error .noDatabaseSelected

/-- Fails if another transaction holds a table. -/
def requireNotForeign (id : TableId) (c : Connection σ) : Except Error Unit := do
  match ← files.holder? id c.store with
  | some holder => if some holder ≠ c.ticket? then throw (.tableLocked id.name)
  | none => return ()

/-- Fails if a table does not exist. -/
def requireTable (id : TableId) (c : Connection σ) : Except Error Unit :=
  if files.tableExists id c.store then .ok () else .error (.tableNotFound id.name)

/-- Creates a table. -/
def createTable (name : String) (schema : Schema) : Action (Connection σ) Unit := do
  let id ← Action.ask (tableId name)
  if !(← onStore (files.createTable id schema)) then throw (.tableAlreadyExists name)

/-- Deletes a table. -/
def dropTable (name : String) : Action (Connection σ) Unit := do
  let id ← Action.ask (tableId name)
  Action.ask (requireTable files id)
  Action.ask (requireNotForeign files id)
  let _ ← onStore (files.dropTable id)
  onTransaction (·.forgetTable id)

/-- Adds a field to the staged copy of a table, if there is one. -/
def addStagedField (id : TableId) (field : Field) : Action (Connection σ) Unit := do
  match (← get).staged? id with
  | none => return ()
  | some table =>
    let table ← Action.of (table.addField field)
    onTransaction (·.stage table)

/-- Adds a field to a table. -/
def alterTable (name : String) (field : Field) : Action (Connection σ) Unit := do
  let id ← Action.ask (tableId name)
  Action.ask (requireTable files id)
  Action.ask (requireNotForeign files id)
  addStagedField id field
  onStore (files.addField id field)

/-- A table, its staged copy if there is one; none if it does not exist. -/
def table? (name : String) (c : Connection σ) : Except Error (Option Table) := do
  let id ← tableId name c
  match c.staged? id with
  | some table => return some table
  | none => if files.tableExists id c.store then return some (← files.load id c.store) else return none

/-- A table that has to exist. -/
def table (name : String) (c : Connection σ) : Except Error Table := do
  match ← table? files name c with
  | some table => return table
  | none => throw (.tableNotFound name)

/-- The identity and the schema of a table. -/
def schema (name : String) (c : Connection σ) : Except Error (TableId × Schema) := do
  let id ← tableId name c
  match c.staged? id with
  | some table => return (id, table.schema)
  | none => return (id, (← files.header id c.store).2)

/-- Fails if a line cannot hold one of some records. -/
def requireEncodable : List Row → Except Error Unit
  | [] => .ok ()
  | row :: rest => do
    checkRow row
    requireEncodable rest

/-- Puts records at the end of a table, of its staged copy if there is one. -/
def appendRows (id : TableId) (rows : List Row) : Action (Connection σ) Unit := do
  Action.of (requireEncodable rows)
  match (← get).staged? id with
  | some table =>
    let table ← Action.of (table.pushAll rows)
    onTransaction (·.stage table)
  | none =>
    Action.ask (requireNotForeign files id)
    onStore (files.appendRows id rows)

end Connection

end TextTables
