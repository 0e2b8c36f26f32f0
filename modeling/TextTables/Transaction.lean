import TextTables.Catalog
/-!
Transactions. A transaction stages changed tables until it is committed and holds the tables whose
lock line it wrote; both are kept in the order of the identities. Committing writes the staged tables
back, and in the end of every transaction its lock lines are taken off.
-/

namespace TextTables

/-- An active transaction. -/
structure Transaction where
  ticket : Ticket
  /-- The changed tables, by identity. -/
  staged : List Table
  /-- The tables whose lock line this transaction wrote. -/
  locked : List TableId

/-- The tables with another in its place in the order, for any of the same identity. -/
def insertTable (table : Table) : List Table → List Table
  | [] => [table]
  | other :: rest =>
    if table.id = other.id then table :: rest
    else if table.id.before other.id then table :: other :: rest
    else other :: insertTable table rest

/-- The identities with another in its place in the order. -/
def insertId (id : TableId) : List TableId → List TableId
  | [] => [id]
  | other :: rest =>
    if id = other then other :: rest
    else if id.before other then id :: other :: rest
    else other :: insertId id rest

namespace Transaction

/-- The transaction that has done nothing yet. -/
def start (ticket : Ticket) : Transaction := ⟨ticket, [], []⟩

/-- The staged copy of a table, if the transaction changed it. -/
def staged? (t : Transaction) (id : TableId) : Option Table := t.staged.find? (·.id == id)

/-- The transaction with a table staged, for any earlier copy. -/
def stage (t : Transaction) (table : Table) : Transaction :=
  { t with staged := insertTable table t.staged }

/-- The transaction with a table held. -/
def hold (t : Transaction) (id : TableId) : Transaction :=
  { t with locked := insertId id t.locked }

/-- The transaction with a table no longer held. -/
def letGo (t : Transaction) (id : TableId) : Transaction :=
  { t with locked := t.locked.filter (· != id) }

/-- The transaction without a table that no longer exists. -/
def forgetTable (t : Transaction) (id : TableId) : Transaction :=
  { t with staged := t.staged.filter (·.id != id), locked := t.locked.filter (· != id) }

/-- The transaction without the tables of a database that no longer exists. -/
def forgetDatabase (t : Transaction) (database : String) : Transaction :=
  { t with
    staged := t.staged.filter fun table => !Text.sameIgnoringCase table.id.database database
    locked := t.locked.filter fun id => !Text.sameIgnoringCase id.database database }

/-! ## The end of a transaction -/

variable {σ : Type} [Storage σ] (files : Catalog)

/-- Takes the lock line off a table's file if it carries a ticket. -/
def releaseFile (ticket : Ticket) (id : TableId) : Action σ Unit := do
  if files.tableExists id (← get) then
    if (← Action.ask (files.holder? id)) = some ticket then files.clearLock id

/-- Takes a ticket's lock lines off some tables' files, up to the first that fails. -/
def releaseFiles (ticket : Ticket) : List TableId → Action σ Unit
  | [] => return ()
  | id :: rest => do
    releaseFile files ticket id
    releaseFiles ticket rest

/-- The store after a ticket's lock lines are taken off those of some tables' files that can be. -/
def releaseWhatCan (ticket : Ticket) (ids : List TableId) (store : σ) : σ :=
  ids.foldl (fun store id =>
    match releaseFile files ticket id store with
    | .ok _ store => store
    | .error _ store => store) store

/-- The identities and lines of some tables. -/
def encodeAll : List Table → Except Error (List (TableId × List String))
  | [] => .ok []
  | table :: rest => do return (table.id, ← encodeTable table) :: (← encodeAll rest)

/-- Replaces the lines of some tables' files, in order. -/
def writeAll : List (TableId × List String) → Action σ Unit
  | [] => return ()
  | (id, lines) :: rest => do
    files.writeLines id lines
    writeAll rest

/-- Writes the staged tables back. All are encoded before the first is written. -/
def writeStaged (t : Transaction) : Action σ Unit := do
  writeAll files (← Action.of (encodeAll t.staged))

/-- The held tables that are not staged. -/
def unchanged (t : Transaction) : List TableId :=
  t.locked.filter fun id => (t.staged? id).isNone

/-- Writes the staged tables back, takes the remaining lock lines off and tells how many tables were
written. -/
def commit (t : Transaction) : Action σ Nat := fun store =>
  match writeStaged files t store with
  | .error e store => .error e (releaseWhatCan files t.ticket t.locked store)
  | .ok _ store =>
    match releaseFiles files t.ticket t.unchanged store with
    | .error e store => .error e store
    | .ok _ store => .ok t.staged.length store

/-- Takes the lock lines off. -/
def abort (t : Transaction) : Action σ Unit := releaseFiles files t.ticket t.locked

end Transaction

end TextTables
