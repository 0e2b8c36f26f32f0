import TextTables.Proofs.Session.Applying
/-!
# What a statement does

`Effect files ticket c plan c'` lists every way in which executing a plan can take a connection over
the store in memory from `c` to `c'`, with what the code has checked before. `run_effect` says that
there are no others, in success and in failure, so theorems about statements are case analyses over
`Effect` and do not look at the code again.
-/

namespace TextTables.Connection

variable (files : Catalog)

/-- The records that an update or a deletion makes of a table, and how many it touches. -/
inductive NewRows (table : Table) : Plan → List Row → Nat → Prop
  | update {name : String} {columns : List (String × Expression)} {condition : Option Expression}
      {assignments : List (Nat × Expression)} {rows : List Row} {count : Nat} :
      resolveColumns table.schema columns = .ok assignments →
      updatedRows table.schema assignments condition table.rows = .ok (rows, count) →
      NewRows table (.update name columns condition) rows count
  | delete {name : String} {condition : Option Expression} {rows : List Row} {count : Nat} :
      remainingRows table.schema condition table.rows = .ok (rows, count) →
      NewRows table (.delete name condition) rows count

/-- The table whose records a plan changes. -/
def changedTable? : Plan → Option String
  | .update name _ _ => some name
  | .delete name _ => some name
  | _ => none

/-- What a plan can do to a connection. -/
inductive Effect (ticket : Ticket) (c : Connection Memory) : Plan → Connection Memory → Prop
  /-- nothing, as queries and most failures do -/
  | nothing (plan : Plan) : Effect ticket c plan c
  | databaseCreated {name : String} :
      Effect ticket c (.createDatabase name)
        { c with store := c.store.addDirectory (files.databasePath name).place }
  | databaseDropped {name : String} :
      Effect ticket c (.dropDatabase name)
        { transaction := c.transaction.map (·.forgetDatabase name)
          database := if c.database.any (Text.sameIgnoringCase · name) then none else c.database
          store := c.store.removeDirectory (files.databasePath name).place }
  | databaseUsed {name : String} :
      Effect ticket c (.useDatabase name) { c with database := some name }
  | tableCreated {name : String} {schema : Schema} {id : TableId} :
      tableId name c = .ok id → files.lines? id c.store = none →
      Effect ticket c (.createTable name schema)
        { c with store := c.store.put (files.place id) [schema.encode] }
  | tableDropped {name : String} {id : TableId} {ls : List String} :
      tableId name c = .ok id → files.lines? id c.store = some ls → Free c ls →
      Effect ticket c (.dropTable name)
        { c with
          transaction := c.transaction.map (·.forgetTable id)
          store := c.store.erase (files.place id) }
  /-- the file has refused the field after the staged copy has taken it -/
  | copyAltered {name : String} {field : Field} {id : TableId} {transaction : Option Transaction} :
      tableId name c = .ok id → AddsField c id field transaction →
      Effect ticket c (.alterTable name field) { c with transaction }
  | fileAltered {name : String} {field : Field} {id : TableId} {ls ls' : List String}
      {transaction : Option Transaction} :
      tableId name c = .ok id → files.lines? id c.store = some ls → Free c ls →
      AddsField c id field transaction → Catalog.alteredLines id field ls = .ok ls' →
      Effect ticket c (.alterTable name field)
        { c with transaction, store := c.store.put (files.place id) ls' }
  | copyExtended {name : String} {tuples : List (List Expression)} {id : TableId} {t : Transaction}
      {table table' : Table} {rows : List Row} :
      tableId name c = .ok id → c.transaction = some t → t.staged? id = some table →
      tupleRows table.schema tuples = .ok rows → requireEncodable rows = .ok () →
      table.pushAll rows = .ok table' →
      Effect ticket c (.insert name tuples) { c with transaction := some (t.stage table') }
  | fileExtended {name : String} {tuples : List (List Expression)} {id : TableId} {ls : List String}
      {holder : Option Ticket} {schema : Schema} {rows : List Row} :
      tableId name c = .ok id → c.staged? id = none → files.lines? id c.store = some ls → Free c ls →
      decodeHeader id.name ls = .ok (holder, schema) → tupleRows schema tuples = .ok rows →
      requireEncodable rows = .ok () →
      Effect ticket c (.insert name tuples)
        { c with store := c.store.put (files.place id) (ls ++ rows.map renderRow) }
  /-- another transaction holds the table, which ends the active one -/
  | aborted {plan : Plan} {name : String} {t : Transaction} {table : Table} {ls : List String}
      {holder : Ticket} :
      changedTable? plan = some name → c.transaction = some t →
      Connection.table files name c = .ok table → files.lines? table.id c.store = some ls →
      holder? ls = some holder → holder ≠ t.ticket →
      Effect ticket c plan
        { c with transaction := none, store := Action.after (t.abort files) c.store }
  /-- no record is changed of a table that the transaction holds already -/
  | heldForNothing {plan : Plan} {name : String} {t : Transaction} {table : Table}
      {ls : List String} :
      changedTable? plan = some name → c.transaction = some t →
      Connection.table files name c = .ok table → files.lines? table.id c.store = some ls →
      holder? ls = some t.ticket →
      Effect ticket c plan { c with transaction := some (t.hold table.id) }
  /-- no record is changed, and the lock taken for it is given back -/
  | takenForNothing {plan : Plan} {name : String} {t : Transaction} {table : Table}
      {ls : List String} :
      changedTable? plan = some name → c.transaction = some t →
      Connection.table files name c = .ok table → files.lines? table.id c.store = some ls →
      holder? ls = none →
      Effect ticket c plan
        { c with
          transaction := some ((t.hold table.id).letGo table.id)
          store := c.store.put (files.place table.id) ls }
  | changed {plan : Plan} {name : String} {t : Transaction} {table : Table} {rows : List Row}
      {count : Nat} {store : Memory} :
      changedTable? plan = some name → c.transaction = some t →
      Connection.table files name c = .ok table → NewRows table plan rows count → 0 < count →
      Locks files t.ticket table.id c.store store →
      Effect ticket c plan
        { c with transaction := some ((t.hold table.id).stage { table with rows }), store }
  | begun : c.transaction = none →
      Effect ticket c .begin { c with transaction := some (.start ticket) }
  | committed {t : Transaction} : c.transaction = some t →
      Effect ticket c .commit
        { c with transaction := none, store := Action.after (t.commit files) c.store }

variable (ticket : Ticket) {files}

/-! ## Databases -/

theorem createDatabase_effect (name : String) (c : Connection Memory) :
    Effect files ticket c (.createDatabase name) (Action.after (createDatabase files name) c) := by
  rw [Action.after, createDatabase_apply]
  cases c.store.directories.contains (files.databasePath name).place with
  | true => exact .nothing _
  | false => exact .databaseCreated

theorem dropDatabase_effect (name : String) (c : Connection Memory) :
    Effect files ticket c (.dropDatabase name) (Action.after (dropDatabase files name) c) := by
  rw [Action.after, dropDatabase_apply]
  cases c.store.directories.contains (files.databasePath name).place with
  | false => exact .nothing _
  | true => exact .databaseDropped

theorem useDatabase_effect (name : String) (c : Connection Memory) :
    Effect files ticket c (.useDatabase name) (Action.after (useDatabase files name) c) := by
  rw [Action.after, useDatabase_apply]
  cases c.store.directories.contains (files.databasePath name).place with
  | false => exact .nothing _
  | true => exact .databaseUsed

/-! ## Tables -/

theorem createTable_effect (name : String) (schema : Schema) (c : Connection Memory) :
    Effect files ticket c (.createTable name schema)
      (Action.after (createTable files name schema) c) := by
  cases hid : tableId name c with
  | error e =>
    rw [createTable, Action.after_bind_error (Action.ask_error hid)]
    exact .nothing _
  | ok id =>
    rw [Action.after, createTable_apply files name schema hid]
    cases files.hasDirectory id c.store with
    | false => exact .nothing _
    | true =>
      cases hl : files.lines? id c.store with
      | some ls => exact .nothing _
      | none => exact .tableCreated hid hl

theorem dropTable_effect (name : String) (c : Connection Memory) :
    Effect files ticket c (.dropTable name) (Action.after (dropTable files name) c) := by
  cases hid : tableId name c with
  | error e =>
    rw [dropTable, Action.after_bind_error (Action.ask_error hid)]
    exact .nothing _
  | ok id =>
    rw [Action.after, dropTable_apply files name hid]
    cases requireTable files id c with
    | error e => exact .nothing _
    | ok _ =>
      cases hf : requireNotForeign files id c with
      | error e => exact .nothing _
      | ok _ =>
        obtain ⟨ls, hl, hfree⟩ := requireNotForeign_eq_ok.1 hf
        exact .tableDropped hid hl hfree

theorem alterTable_effect (name : String) (field : Field) (c : Connection Memory) :
    Effect files ticket c (.alterTable name field)
      (Action.after (alterTable files name field) c) := by
  simp only [alterTable, Action.after_bind, Action.ask_apply]
  cases hid : tableId name c with
  | error e => exact .nothing _
  | ok id =>
    cases he : requireTable files id c with
    | error e => simp only [he]; exact .nothing _
    | ok _ =>
      cases hf : requireNotForeign files id c with
      | error e => simp only [he, hf]; exact .nothing _
      | ok _ =>
        obtain ⟨ls, hl, hfree⟩ := requireNotForeign_eq_ok.1 hf
        simp only [he, hf]
        -- The staged copy takes the field first, and keeps it if the file refuses it.
        rcases addStagedField_apply id field c with ⟨transaction, hadds, hadd⟩ | ⟨e, hadd⟩
        · simp only [hadd, Action.after, onStore_apply]
          cases ha : Catalog.alteredLines id field ls with
          | error e =>
            simp only [files.addField_error hl ha]
            exact .copyAltered hid hadds
          | ok ls' =>
            simp only [files.addField_apply id c.store field hl ha]
            cases hd : files.hasDirectory id c.store with
            | false => exact .copyAltered hid hadds
            | true => exact .fileAltered hid hl hfree hadds ha
        · simp only [hadd]
          exact .nothing _

/-! ## New records -/

theorem insert_effect (name : String) (tuples : List (List Expression)) (c : Connection Memory) :
    Effect files ticket c (.insert name tuples) (Action.after (insert files name tuples) c) := by
  cases hsch : schema files name c with
  | error e =>
    rw [insert, Action.after_bind_error (Action.ask_error hsch)]
    exact .nothing _
  | ok found =>
    obtain ⟨id, sch⟩ := found
    obtain ⟨hid, ⟨table, hs, rfl⟩ | ⟨hs, ls, holder, hl, hh⟩⟩ := schema_eq_ok hsch
    · obtain ⟨t, ht, hst⟩ := staged?_eq_some.1 hs
      rw [Action.after, insert_staged files hid ht hst]
      cases hrows : tupleRows table.schema tuples with
      | error e => exact .nothing _
      | ok rows =>
        dsimp only
        cases henc : requireEncodable rows with
        | error e => exact .nothing _
        | ok _ =>
          cases hpush : table.pushAll rows with
          | error e => exact .nothing _
          | ok table' => exact .copyExtended hid ht hst hrows henc hpush
    · rw [Action.after, insert_unstaged hid hs hl hh]
      cases hrows : tupleRows sch tuples with
      | error e => exact .nothing _
      | ok rows =>
        dsimp only
        cases henc : requireEncodable rows with
        | error e => exact .nothing _
        | ok _ =>
          cases hf : requireNotForeign files id c with
          | error e => exact .nothing _
          | ok _ =>
            obtain ⟨ls', hl', hfree⟩ := requireNotForeign_eq_ok.1 hf
            obtain rfl : ls = ls' := Option.some.inj (hl.symm.trans hl')
            cases rows with
            | nil => exact .nothing _
            | cons row rest => exact .fileExtended hid hs hl hfree hh hrows henc

/-! ## Changed records -/

theorem LockedInVain.effect {plan : Plan} {name : String} {c again : Connection Memory}
    {t : Transaction} {table : Table} (h : LockedInVain files c t table.id again)
    (hname : changedTable? plan = some name) (ht : c.transaction = some t)
    (htable : Connection.table files name c = .ok table) : Effect files ticket c plan again := by
  cases h with
  | kept hl hh => exact .heldForNothing hname ht htable hl hh
  | givenBack hl hh => exact .takenForNothing hname ht htable hl hh

theorem change_effect {plan : Plan} {name : String} {c : Connection Memory} {t : Transaction}
    {table : Table} {rows : Except Error (List Row × Nat)} (hname : changedTable? plan = some name)
    (ht : c.transaction = some t) (htable : Connection.table files name c = .ok table)
    (hrows : ∀ rs count, rows = .ok (rs, count) → NewRows table plan rs count) :
    Effect files ticket c plan (Action.after (change files table rows) c) := by
  rcases change_apply files table rows ht with ⟨-, e, hchange⟩ | ⟨ls, holder, e, hl, hh, hk, hchange⟩ |
    ⟨store, again, hlocks, hvain, hchange⟩
  · rw [Action.after_error hchange]
    exact .nothing _
  · rw [Action.after_error hchange]
    exact .aborted hname ht htable hl hh hk
  · rcases rows with e | ⟨rs, count⟩
    · rw [Action.after_error hchange]
      exact hvain.effect ticket hname ht htable
    · by_cases hc : 0 < count
      · rw [Action.after_ok (hchange.trans (if_pos hc))]
        exact .changed hname ht htable (hrows rs count rfl) hc hlocks
      · rw [Action.after_ok (hchange.trans (if_neg hc))]
        exact hvain.effect ticket hname ht htable

theorem update_effect (name : String) (columns : List (String × Expression))
    (condition : Option Expression) (c : Connection Memory) :
    Effect files ticket c (.update name columns condition)
      (Action.after (update files name columns condition) c) := by
  cases ht : c.transaction with
  | none =>
    rw [update, Action.after_bind_error (activeTransaction_idle ht)]
    exact .nothing _
  | some t =>
    have happly := update_apply files name columns condition ht
    cases htable : Connection.table files name c with
    | error e =>
      rw [htable] at happly
      rw [Action.after_error happly]
      exact .nothing _
    | ok table =>
      rw [htable] at happly
      cases hcolumns : resolveColumns table.schema columns with
      | error e =>
        simp only [hcolumns] at happly
        rw [Action.after_error happly]
        exact .nothing _
      | ok assignments =>
        simp only [hcolumns] at happly
        rw [Action.after_congr happly]
        exact change_effect ticket rfl ht htable fun rows count hrows => .update hcolumns hrows

theorem delete_effect (name : String) (condition : Option Expression) (c : Connection Memory) :
    Effect files ticket c (.delete name condition)
      (Action.after (delete files name condition) c) := by
  cases ht : c.transaction with
  | none =>
    rw [delete, Action.after_bind_error (activeTransaction_idle ht)]
    exact .nothing _
  | some t =>
    have happly := delete_apply files name condition ht
    cases htable : Connection.table files name c with
    | error e =>
      rw [htable] at happly
      rw [Action.after_error happly]
      exact .nothing _
    | ok table =>
      simp only [htable] at happly
      rw [Action.after_congr happly]
      exact change_effect ticket rfl ht htable fun rows count hrows => .delete hrows

/-! ## Transactions -/

theorem begin_effect (c : Connection Memory) :
    Effect files ticket c .begin (Action.after (begin ticket) c) := by
  cases ht : c.transaction with
  | some t =>
    have h : begin ticket c = .error .transactionAlreadyActive c := by simp [begin, isActive, ht]
    rw [Action.after_error h]
    exact .nothing _
  | none =>
    rw [Action.after_ok (begin_idle ticket ht)]
    exact .begun ht

theorem commit_effect (c : Connection Memory) :
    Effect files ticket c .commit (Action.after (commit files) c) := by
  cases ht : c.transaction with
  | none =>
    rw [commit, Action.after_bind_error (activeTransaction_idle ht)]
    exact .nothing _
  | some t =>
    rw [after_commit files ht]
    exact .committed ht

/-! ## Statements -/

/-- Every plan, in success and in failure, does one of the things that `Effect` lists. -/
theorem run_effect (plan : Plan) (c : Connection Memory) :
    Effect files ticket c plan (Action.after (run files ticket plan) c) := by
  cases plan with
  | createDatabase name =>
    rw [run, Action.after_bind_pure]
    exact createDatabase_effect ticket name c
  | dropDatabase name =>
    rw [run, Action.after_bind_pure]
    exact dropDatabase_effect ticket name c
  | useDatabase name =>
    rw [run, Action.after_bind_pure]
    exact useDatabase_effect ticket name c
  | createTable name schema =>
    rw [run, Action.after_bind_pure]
    exact createTable_effect ticket name schema c
  | dropTable name =>
    rw [run, Action.after_bind_pure]
    exact dropTable_effect ticket name c
  | alterTable name field =>
    rw [run, Action.after_bind_pure]
    exact alterTable_effect ticket name field c
  | insert name tuples =>
    rw [run, Action.after_bind_pure]
    exact insert_effect ticket name tuples c
  | query relation =>
    rw [run, Action.after_bind_pure]
    simp only [Action.after, Action.ask_apply]
    cases relation.table files c <;> exact .nothing _
  | aggregate source function field =>
    simp only [run, Action.after_bind, Action.ask_apply]
    cases Relation.table files c source with
    | error e => exact .nothing _
    | ok table =>
      simp only [Action.of_apply]
      cases table.aggregate function field <;> exact .nothing _
  | update name columns condition =>
    rw [run, Action.after_bind_pure]
    exact update_effect ticket name columns condition c
  | delete name condition =>
    rw [run, Action.after_bind_pure]
    exact delete_effect ticket name condition c
  | begin =>
    rw [run, Action.after_bind_pure]
    exact begin_effect ticket c
  | commit =>
    rw [run, Action.after_bind_pure]
    exact commit_effect ticket c

/-- A text that cannot be read does nothing, and one that can does what its plan does. -/
theorem execute_effect (text : String) (c : Connection Memory) :
    ((∃ e, Plan.ofString text = .error e) ∧ Action.after (execute files ticket text) c = c) ∨
    ∃ plan, Plan.ofString text = .ok plan ∧
      Effect files ticket c plan (Action.after (execute files ticket text) c) := by
  rw [execute]
  cases hplan : Plan.ofString text with
  | error e => exact .inl ⟨⟨e, rfl⟩, Action.after_bind_error (Action.of_error rfl c)⟩
  | ok plan =>
    rw [Action.after_bind_ok (Action.of_ok rfl c)]
    exact .inr ⟨plan, rfl, run_effect ticket plan c⟩

/-- A statement that begins a transaction starts it with the ticket. -/
theorem execute_begin {text : String} {c : Connection Memory}
    (hplan : Plan.ofString text = .ok .begin) (ht : c.transaction = none) :
    execute files ticket text c = .ok .begun { c with transaction := some (.start ticket) } := by
  rw [execute, Action.bind_ok (Action.of_ok hplan c), run, Action.bind_ok (begin_idle ticket ht), Action.pure_apply]

/-- A statement that commits commits the active transaction. -/
theorem execute_commit {text : String} {c : Connection Memory} {t : Transaction}
    (hplan : Plan.ofString text = .ok .commit) (ht : c.transaction = some t) :
    execute files ticket text c =
      match t.commit files c.store with
      | .ok n store => .ok (.committed n) { c with transaction := none, store }
      | .error e store => .error e { c with transaction := none, store } := by
  rw [execute, Action.bind_ok (Action.of_ok hplan c), run, Action.bind_apply, commit_apply files ht]
  cases t.commit files c.store <;> rfl

theorem execute_commit_idle {text : String} {c : Connection Memory}
    (hplan : Plan.ofString text = .ok .commit) (ht : c.transaction = none) :
    execute files ticket text c = .error .noActiveTransaction c := by
  rw [execute, Action.bind_ok (Action.of_ok hplan c), run]
  exact Action.bind_error (Action.bind_error (activeTransaction_idle ht))

end TextTables.Connection
