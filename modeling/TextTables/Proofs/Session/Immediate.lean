import TextTables.Proofs.Session.Settled
/-!
# A session that writes every change at once

`Immediate` does what a session does, but keeps nothing back: an update or a deletion is written when
it is made, and whether a transaction is active decides only which statements are taken. `Shows` says
that it is in the state of a session whose staged tables were written; every table reads the same from
both then.
-/

namespace TextTables

/-- The state of a session that writes every change at once. -/
structure Immediate where
  active : Bool
  database : Option String
  store : Memory

namespace Immediate

variable {α : Type} (files : Catalog)

/-- The session as one outside of transactions. -/
def connection (s : Immediate) : Connection Memory := ⟨⟨none, s.database⟩, s.store⟩

/-- What a session does outside of transactions. -/
def lift (action : Action (Connection Memory) α) : Action Immediate α := fun s =>
  match action s.connection with
  | .ok a c => .ok a { s with database := c.database, store := c.store }
  | .error e c => .error e { s with database := c.database, store := c.store }

/-- Fails outside of transactions. -/
def requireActive : Action Immediate Unit :=
  Action.ask fun s => if s.active then .ok () else .error .noActiveTransaction

/-- Changes the records of a table, writes the result and tells how many records it changed. -/
def change (table : Table) (rows : Except Error (List Row × Nat)) : Action Immediate Nat := do
  let (rows, count) ← Action.of rows
  if 0 < count then lift (Connection.onStore (files.persist { table with rows }))
  return count

/-- Updates the records that a condition accepts. -/
def update (name : String) (columns : List (String × Expression)) (condition : Option Expression) :
    Action Immediate Nat := do
  requireActive
  let table ← lift (Action.ask (Connection.table files name))
  let assignments ← Action.of (resolveColumns table.schema columns)
  change files table (updatedRows table.schema assignments condition table.rows)

/-- Deletes the records that a condition accepts. -/
def delete (name : String) (condition : Option Expression) : Action Immediate Nat := do
  requireActive
  let table ← lift (Action.ask (Connection.table files name))
  change files table (remainingRows table.schema condition table.rows)

/-- Starts a transaction. -/
def begin : Action Immediate Unit := fun s =>
  if s.active then .error .transactionAlreadyActive s else .ok () { s with active := true }

/-- Ends the active transaction, of which nothing is left to be written. -/
def commit : Action Immediate Nat := do
  requireActive
  modify fun s => { s with active := false }
  return 0

/-- Does what a plan says. -/
def run : Plan → Action Immediate Outcome
  | .update name columns condition => do return .updated (← update files name columns condition)
  | .delete name condition => do return .deleted (← delete files name condition)
  | .begin => do
    begin
    return .begun
  | .commit => do return .committed (← commit)
  | plan => lift (Connection.run files ⟨""⟩ plan)

/-- Does what the statement says that a text writes. -/
def execute (text : String) : Action Immediate Outcome := do
  run files (← Action.of (Plan.ofString text))

section Lift
variable {files : Catalog} {β : Type} {s : Immediate} {c : Connection Memory}

theorem lift_bind_pure (x : Action (Connection Memory) α) (f : α → β) :
    lift (x >>= fun a => pure (f a)) = lift x >>= fun a => pure (f a) := by
  funext s
  rw [Action.bind_apply, lift, lift, Action.bind_apply]
  cases x s.connection <;> rfl

theorem lift_ok {x : Action (Connection Memory) α} {a : α} (h : x s.connection = .ok a c) :
    lift x s = .ok a { s with database := c.database, store := c.store } := by
  rw [lift, h]

theorem lift_error {x : Action (Connection Memory) α} {e : Error}
    (h : x s.connection = .error e c) :
    lift x s = .error e { s with database := c.database, store := c.store } := by
  rw [lift, h]

end Lift

end Immediate

/-- The outcome without the number of tables that a commit has written. -/
def Outcome.uncounted : Outcome → Outcome
  | .committed _ => .committed 0
  | outcome => outcome

/-- The active transaction, or one that has done nothing. -/
def Session.work (session : Session) : Transaction := session.transaction.getD (.start ⟨""⟩)

namespace Connection

/-! ## Lookups -/

variable {files : Catalog} {c c' : Connection Memory} {s s' : Immediate} {t : Transaction}
  {id : TableId} {name : String} {table : Table} {tuples : List (List Expression)}

theorem staged?_eq_work (c : Connection Memory) (id : TableId) : c.staged? id = c.work.staged? id := by
  rw [staged?, Session.work]
  cases c.transaction <;> rfl

/-- The second session is the first as it is if every change is written at once. -/
structure Shows (files : Catalog) (c : Connection Memory) (s : Immediate) : Prop where
  active : s.active = c.transaction.isSome
  database : s.database = c.database
  plain : ∀ name, c.database = some name → PlainName name
  sound : s.store.Sound
  settled : Settled files c.work c.store s.store

namespace Shows

theorem requireActive_ok (h : Shows files c s) (ht : c.transaction = some t) :
    Immediate.requireActive s = .ok () s := by
  rw [Immediate.requireActive, Action.ask_apply, h.active, ht]
  rfl

theorem requireActive_idle (h : Shows files c s) (ht : c.transaction = none) :
    Immediate.requireActive s = .error .noActiveTransaction s := by
  rw [Immediate.requireActive, Action.ask_apply, h.active, ht]
  rfl

theorem settled_active (h : Shows files c s) (ht : c.transaction = some t) :
    Settled files t c.store s.store := by
  have hsettled := h.settled
  rwa [Session.work, ht] at hsettled

/-- Outside of transactions the two stores are the same. -/
theorem same (h : Shows files c s) (ht : c.transaction = none) : Memory.Same c.store s.store := by
  have hsettled := h.settled
  rw [Session.work, ht] at hsettled
  exact settled_start.1 hsettled

theorem tableId_eq (h : Shows files c s) (name : String) : tableId name s.connection = tableId name c := by
  rw [tableId, tableId, Immediate.connection, h.database]

theorem plain_of_tableId (h : Shows files c s) (hname : PlainName name) (hid : tableId name c = .ok id) :
    id.Plain := by
  obtain ⟨hd, rfl⟩ := tableId_eq_ok hid
  exact ⟨h.plain _ hd, hname⟩

theorem table?_eq (h : Shows files c s) (hname : PlainName name) :
    table? files name s.connection = table? files name c := by
  rw [table?, table?, h.tableId_eq]
  cases hid : tableId name c with
  | error e => rfl
  | ok id =>
    have hplain := h.plain_of_tableId hname hid
    have hidle : s.connection.staged? id = none := rfl
    simp only [bind, Except.bind, hidle]
    cases hs : c.staged? id with
    | some table =>
      rw [staged?_eq_work] at hs
      obtain ⟨hm, rfl⟩ := Transaction.staged?_eq_some hs
      have hl := h.settled.staged table hm
      have hloaded := h.settled.loaded table hm
      have hload : files.load table.id s.connection.store = .ok table := by
        rw [Catalog.load_eq, show files.lines? table.id s.connection.store = _ from hl]
        simp only [hloaded.decodeTable_lines, Except.map]
      have hexists : files.tableExists table.id s.connection.store = true := by
        rw [Catalog.tableExists_eq, show files.lines? table.id s.connection.store = _ from hl]
        rfl
      simp only [hexists, if_true, hload]
    | none =>
      rw [staged?_eq_work] at hs
      have hl : files.lines? id s.connection.store = files.lines? id c.store :=
        h.settled.lines?_eq hplain hs
      simp only [Catalog.tableExists_eq, Catalog.load_eq, hl]

theorem table_eq (h : Shows files c s) (hname : PlainName name) :
    Connection.table files name s.connection = Connection.table files name c := by
  rw [Connection.table, Connection.table, h.table?_eq hname]

/-- The file of a table that is found is there, and the table is as loading gives it. -/
theorem loaded (h : Shows files c s) (hname : PlainName name)
    (htable : Connection.table files name c = .ok table) :
    table.Loaded ∧ ∃ ls, files.lines? table.id s.store = some ls := by
  rw [← h.table_eq hname] at htable
  obtain ⟨hid, hs | ⟨-, ls, holder, hl, hd⟩⟩ := table_eq_ok htable
  · cases hs
  · rw [h.tableId_eq] at hid
    exact ⟨Table.loaded_of_decodeTable (h.plain_of_tableId hname hid) (h.sound.written hl) hd, ls, hl⟩

/-- A relation reads the same from both. -/
theorem relation_eq (h : Shows files c s) {relation : Relation}
    (hnames : ∀ name ∈ relation.names, PlainName name) :
    relation.table files s.connection = relation.table files c := by
  induction relation with
  | scan name aliasName =>
    rw [Relation.table, Relation.table, h.table_eq (hnames name (List.mem_singleton_self _))]
  | join kind left right on ihl ihr =>
    rw [Relation.table, Relation.table, ihl fun name hname => hnames name (List.mem_append_left _ hname),
      ihr fun name hname => hnames name (List.mem_append_right _ hname)]
  | select source fields condition ih => rw [Relation.table, Relation.table, ih hnames]

end Shows

/-! ## Answers -/

/-- Two ways of doing something that end alike: in related results or in the same error, and in states
of which the second shows the first. -/
inductive Alike (files : Catalog) {α β : Type} (R : α → β → Prop) :
    EStateM.Result Error (Connection Memory) α → EStateM.Result Error Immediate β → Prop
  | ok {a : α} {b : β} {c : Connection Memory} {s : Immediate} : R a b → Shows files c s →
      Alike files R (.ok a c) (.ok b s)
  | error {e : Error} {c : Connection Memory} {s : Immediate} : Shows files c s →
      Alike files R (.error e c) (.error e s)

section Alike
variable {α β γ δ : Type} {R : α → β → Prop} {Q : γ → δ → Prop}

theorem Alike.bind_pure {x : Action (Connection Memory) α} {y : Action Immediate β} {f : α → γ}
    {g : β → δ} (h : Alike files R (x c) (y s)) (hR : ∀ a b, R a b → Q (f a) (g b)) :
    Alike files Q ((x >>= fun a => pure (f a)) c) ((y >>= fun b => pure (g b)) s) := by
  rw [Action.bind_apply, Action.bind_apply]
  generalize x c = r at h
  generalize y s = r' at h
  cases h with
  | ok hab hs => exact .ok (hR _ _ hab) hs
  | error hs => exact .error hs

end Alike

end Connection

end TextTables
