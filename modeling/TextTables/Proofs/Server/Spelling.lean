import TextTables.Proofs.Server.WellFormed
import TextTables.Proofs.Session.Editing
/-!
# Reading and writing under another spelling

Names that differ in case stand for one file, but a transaction keeps its staged copies by the names as
they are written. A session reads and writes what it has staged, then commits it, as if the case did not
matter, exactly if the transaction has no copy of the file under another spelling:
`readsOwnWrites_iff`.
-/

namespace TextTables

/-- Identities that differ at most in the case of their names, so they stand for the same file. -/
def TableId.SpelledAlike (id id' : TableId) : Prop :=
  Text.lowerCase id.database = Text.lowerCase id'.database ∧ Text.lowerCase id.name = Text.lowerCase id'.name

theorem TableId.SpelledAlike.place_eq {id id' : TableId} (h : id.SpelledAlike id') (files : Catalog) :
    files.place id = files.place id' := by
  rw [Catalog.place, Catalog.tablePath, Catalog.databasePath, h.1, h.2]
  rfl

/-- The transaction has staged the table of a file under one spelling only. -/
def Transaction.OnlySpelled (files : Catalog) (t : Transaction) (id : TableId) : Prop :=
  ∀ other ∈ t.staged, files.place other.id = files.place id → other.id = id

namespace Transaction

variable {files : Catalog} {t : Transaction} {table : Table} {m m' : Memory} {p : Place} {count : Nat}

/-! ## The files after a commit -/

/-- The one staged table of a file is in the file. -/
theorem lines?_commit (h : t.WellFormed) (hcommit : t.commit files m = .ok count m') (hm : table ∈ t.staged)
    (hone : ∀ other ∈ t.staged, files.place other.id = files.place table.id → other = table) :
    files.lines? table.id m' = some table.lines := by
  refine (commit_ok files h.encodeAll_eq hcommit).lines?_eq ?_ (by rw [(h table hm).holder?_lines]; nofun)
  rw [lines?_putAll]
  cases hlast : lastAt files t.entries (files.place table.id) with
  | none =>
    have hne := (lastAt_eq_none files).1 hlast (table.id, table.lines) (mem_entries.2 ⟨table, hm, rfl⟩)
    exact absurd rfl hne
  | some entry =>
    obtain ⟨hmem, hplace⟩ := lastAt_eq_some files hlast
    obtain ⟨other, hother, rfl⟩ := mem_entries.1 hmem
    rw [hone other hother hplace]

/-- A file that is not there is there after the commit if a table of it is staged, and only then. -/
theorem lines?_commit_of_none (h : t.WellFormed) (hcommit : t.commit files m = .ok count m')
    (hnone : m.lines? p = none) :
    m'.lines? p = none ↔ ∀ other ∈ t.staged, files.place other.id ≠ p := by
  have hr := commit_ok files h.encodeAll_eq hcommit
  constructor
  · intro hl' other hother hplace
    have hlines := lines?_putAll files m t.entries p
    cases hlast : lastAt files t.entries p with
    | none => exact (lastAt_eq_none files).1 hlast _ (mem_entries.2 ⟨other, hother, rfl⟩) hplace
    | some entry =>
      rw [hlast] at hlines
      obtain ⟨ls', hls', -⟩ := hr.lines?_of_some hlines
      rw [hl'] at hls'
      cases hls'
  · intro hothers
    refine hr.lines?_of_none ((lines?_putAll_of_ne files m fun entry hentry => ?_).trans hnone)
    obtain ⟨other, hother, rfl⟩ := mem_entries.1 hentry
    exact hothers other hother

end Transaction

namespace Server

variable {files : Catalog} {server server' : Server Memory} {events : List Event} {event : Event}
  {n text : String} {ticket : Ticket} {t : Transaction} {table : Table} {id : TableId} {outcome : Outcome}

/-! ## Staged tables stay in order -/

/-- The staged tables of every transaction are in order. -/
def Ordered (server : Server Memory) : Prop := ∀ n t, server.transaction? n = some t → t.Ordered

theorem ordered_start {m : Memory} : (start m).Ordered := fun _ _ ht => nomatch ht

theorem Ordered.step (h : server.Ordered) (event : Event) : (step files server event).Ordered := by
  have hstep := step_stepped files server event
  generalize Server.step files server event = server' at hstep
  have hopened (name : String) : ∀ t, (server.opened files name).transaction = some t → t.Ordered :=
    fun t ht => h name t (opened_transaction.symm.trans ht)
  cases hstep with
  | planned _ he => exact forall_transaction?_leave h (he.ordered (hopened _))
  | unread => exact forall_transaction?_leave h (hopened _)
  | closed | closedIdle => exact forall_transaction?_remove h

theorem Ordered.run (h : server.Ordered) (events : List Event) : (run files server events).Ordered :=
  run_inv (fun _ event h => h.step event) h events

/-! ## Edited tables -/

/-- The table with the records that an event makes of it: those of a statement of the session, if it
succeeds. -/
def editedBy (files : Catalog) (n : String) (server : Server Memory) (table : Table) : Event → Table
  | .close _ => table
  | .statement name text ticket =>
    if name = n then
      match Plan.ofString text, execute files name text ticket server with
      | .ok plan, .ok _ _ =>
        match plan.editedRows table with
        | .ok rows => { table with rows }
        | .error _ => table
      | _, _ => table
    else table

/-- The table as the statements of a session edit it, one after the other. -/
def edited (files : Catalog) (n : String) (server : Server Memory) (table : Table) : List Event → Table
  | [] => table
  | event :: rest => edited files n (step files server event) (editedBy files n server table event) rest

theorem editedBy_id : (editedBy files n server table event).id = table.id := by
  cases event with
  | close => rfl
  | statement name text ticket =>
    simp only [editedBy]
    repeat' split
    all_goals rfl

/-- The table is the one that the session has staged of its file, if it is inside a transaction. -/
def OnlyStaged (files : Catalog) (server : Server Memory) (n : String) (table : Table) : Prop :=
  ∀ t, server.transaction? n = some t →
    table ∈ t.staged ∧ ∀ other ∈ t.staged, files.place other.id = files.place table.id → other = table

theorem OnlyStaged.replaced {t' : Transaction} {rows : List Row} (h : OnlyStaged files server n table)
    (ht : server.transaction? n = some t) (hreplaced : t.Replaced { table with rows } t') :
    { table with rows } ∈ t'.staged ∧
      ∀ other ∈ t'.staged, files.place other.id = files.place table.id → other = { table with rows } := by
  refine ⟨(hreplaced _).2 (.inl rfl), fun other hother hplace => ?_⟩
  rcases (hreplaced other).1 hother with heq | ⟨hother, hid⟩
  · exact heq
  · exact absurd (congrArg Table.id ((h t ht).2 other hother hplace)) hid

/-- A statement of the session that edits the table edits its staged copy. -/
theorem OnlyStaged.own {plan : Plan} (h : OnlyStaged files server n table) (hordered : server.Ordered)
    (hdatabase : server.database? n = some table.id.database) (hplan : Plan.ofString text = .ok plan)
    (hname : plan.editedTable? = some table.id.name) :
    OnlyStaged files (step files server (.statement n text ticket)) n
        (editedBy files n server table (.statement n text ticket)) ∧
      (step files server (.statement n text ticket)).database? n = some table.id.database := by
  have hrun : Connection.execute files ticket text (server.opened files n) =
      Connection.run files ticket plan (server.opened files n) :=
    Action.bind_ok (Action.of_ok hplan _)
  obtain ⟨hkept, hidle⟩ := (Connection.run_effect ticket plan (server.opened files n)).editing hname
  rw [step_statement, database?_leave, if_pos rfl, Action.after, hrun, ← Action.after, hkept, opened_database]
  refine ⟨fun t' ht' => ?_, hdatabase⟩
  rw [transaction?_leave, if_pos rfl] at ht'
  cases ht : server.transaction? n with
  | none =>
    -- Outside of transactions nothing is staged, and no edit starts one.
    rw [hidle (opened_transaction.trans ht)] at ht'
    cases ht'
  | some t =>
    have hid : Connection.tableId table.id.name (server.opened files n) = .ok table.id := by
      rw [Connection.tableId, opened_database, hdatabase]
    have hedits : Connection.Edits (server.opened files n) t table (plan.editedRows table)
        (Connection.run files ticket plan (server.opened files n)) :=
      Connection.run_edits (opened_transaction.trans ht) (hordered n t ht) (h t ht).1 hid hname
    rw [editedBy, if_pos rfl, hplan, execute_apply, hrun]
    rw [Action.after] at ht'
    generalize Connection.run files ticket plan (server.opened files n) = result at hedits ht'
    cases hedits with
    | edited hrows hreplaced =>
      cases ht'
      simp only [hrows]
      exact h.replaced ht hreplaced
    | failed hstaged =>
      cases ht'
      simp only [hstaged]
      exact h t ht
    | aborted => cases ht'

theorem OnlyStaged.other (h : OnlyStaged files server n table) (hother : event.session ≠ n) :
    OnlyStaged files (step files server event) n (editedBy files n server table event) := by
  have hsame : editedBy files n server table event = table := by
    cases event with
    | close => rfl
    | statement name text ticket => exact if_neg hother
  intro t ht
  rw [transaction?_step_of_ne hother] at ht
  rw [hsame]
  exact h t ht

/-- Events of which the session's are statements that edit a table. -/
def EditsOnly (n name : String) (events : List Event) : Prop :=
  ∀ event ∈ events, event.session = n → ∃ plan, event.plan? = some plan ∧ plan.editedTable? = some name

theorem OnlyStaged.run {name : String} (h : OnlyStaged files server n table) (hordered : server.Ordered)
    (hdatabase : server.database? n = some table.id.database) (hname : table.id.name = name)
    (hevents : EditsOnly n name events) :
    OnlyStaged files (run files server events) n (edited files n server table events) ∧
      (edited files n server table events).id = table.id := by
  induction events generalizing server table with
  | nil => exact ⟨h, rfl⟩
  | cons event rest ih =>
    obtain ⟨hevent, hrest⟩ := List.forall_mem_cons.1 hevents
    obtain ⟨hstep, hdatabase'⟩ : OnlyStaged files (step files server event) n
        (editedBy files n server table event) ∧
        (step files server event).database? n = some table.id.database := by
      by_cases hn : event.session = n
      · obtain ⟨plan, hplan, hedits⟩ := hevent hn
        cases event with
        | close => cases hplan
        | statement session text ticket =>
          obtain rfl : session = n := hn
          exact h.own hordered hdatabase (Event.plan?_eq_some.1 hplan) (hname ▸ hedits)
      · exact ⟨h.other hn, (database?_step_of_ne hn).trans hdatabase⟩
    have hid : (editedBy files n server table event).id = table.id := editedBy_id
    obtain ⟨hrun, hid'⟩ := ih hstep (hordered.step event) (by rw [hid]; exact hdatabase')
      (by rw [hid]; exact hname) hrest
    exact ⟨hrun, hid'.trans hid⟩

/-! ## Reading and writing what is staged -/

/-- A query of a whole table finds its records, whatever alias it is given. -/
theorem rows_scan (c : Connection Memory) (name : String)
    (aliasName : Option String) :
    ((Relation.scan name aliasName).table files c).map (·.rows) =
      (Connection.table files name c).map (·.rows) := by
  rw [Relation.table]
  cases Connection.table files name c <;> rfl

/-- What a session reads and writes under a spelling is what it has staged: a query finds the records of
the staged copy, the edits that it makes are in the file after a commit, and a table that it drops has no
file after a commit. -/
structure ReadsOwnWrites (files : Catalog) (server : Server Memory) (n : String) (table : Table)
    (id : TableId) : Prop where
  query : ∀ aliasName aliasName',
    ((Relation.scan id.name aliasName).table files
      { server.opened files n with database := some id.database }).map (·.rows) =
    ((Relation.scan table.id.name aliasName').table files
      { server.opened files n with database := some table.id.database }).map (·.rows)
  edit : ∀ events, EditsOnly n id.name events → ∀ text ticket outcome server',
    Plan.ofString text = .ok .commit →
    execute files n text ticket (run files server events) = .ok outcome server' →
    files.lines? id server'.store = some (edited files n server table events).lines
  drop : ∀ text ticket outcome server' text' ticket' outcome' server'',
    Plan.ofString text = .ok (.dropTable id.name) → execute files n text ticket server = .ok outcome server' →
    Plan.ofString text' = .ok .commit → execute files n text' ticket' server' = .ok outcome' server'' →
    files.lines? id server''.store = none

/-- Dropping a table forgets its staged copy under the one spelling, and removes its file. -/
theorem execute_dropTable (ht : server.transaction? n = some t)
    (hdatabase : server.database? n = some id.database) (hplan : Plan.ofString text = .ok (.dropTable id.name))
    (h : execute files n text ticket server = .ok outcome server') :
    server'.transaction? n = some (t.forgetTable id) ∧ files.lines? id server'.store = none := by
  obtain ⟨c, hc, rfl⟩ := execute_eq_ok h
  have hid : Connection.tableId id.name (server.opened files n) = .ok id := by
    rw [Connection.tableId, opened_database, hdatabase]
  rw [Connection.execute, Action.bind_ok (Action.of_ok hplan _), Connection.run, Action.bind_apply,
    Connection.dropTable_apply files id.name hid] at hc
  cases htable : Connection.requireTable files id (server.opened files n) with
  | error e =>
    rw [htable] at hc
    cases hc
  | ok _ =>
    rw [htable] at hc
    cases hforeign : Connection.requireNotForeign files id (server.opened files n) with
    | error e =>
      rw [hforeign] at hc
      cases hc
    | ok _ =>
      rw [hforeign] at hc
      cases hc
      rw [transaction?_leave, if_pos rfl, opened_transaction, ht]
      exact ⟨rfl, Memory.lines?_erase.trans (if_pos rfl)⟩

theorem WellFormed.commit_lines (h : server.WellFormed) (hplan : Plan.ofString text = .ok .commit)
    (hone : OnlyStaged files server n table)
    (hexecute : execute files n text ticket server = .ok outcome server') :
    files.lines? table.id server'.store = some table.lines := by
  obtain ⟨t, count, ht, hcommit⟩ := execute_commit_ok hplan hexecute
  obtain ⟨hm, hone⟩ := hone t ht
  exact Transaction.lines?_commit (h.transaction n t ht) hcommit hm hone

/-- After dropping a table and committing its file is there if the transaction has staged it under
another spelling, and only then. -/
theorem WellFormed.drop_lines (h : server.WellFormed) (ht : server.transaction? n = some t)
    (hdatabase : server.database? n = some id.database) {text' : String} {ticket' : Ticket}
    {outcome' : Outcome} {server'' : Server Memory} (hplan : Plan.ofString text = .ok (.dropTable id.name))
    (hdrop : execute files n text ticket server = .ok outcome server')
    (hplan' : Plan.ofString text' = .ok .commit)
    (hcommit : execute files n text' ticket' server' = .ok outcome' server'') :
    files.lines? id server''.store = none ↔ t.OnlySpelled files id := by
  have h' : server'.WellFormed := step_of_execute hdrop ▸ h.step _
  obtain ⟨ht', hnone⟩ := execute_dropTable ht hdatabase hplan hdrop
  obtain ⟨t', count, ht'', hcommitted⟩ := execute_commit_ok hplan' hcommit
  obtain rfl := Option.some.inj (ht''.symm.trans ht')
  refine (Transaction.lines?_commit_of_none (h'.transaction n _ ht') hcommitted hnone).trans ?_
  constructor
  · intro hothers other hother hplace
    by_contra hid
    exact hothers other (Transaction.mem_staged_forgetTable.2 ⟨hother, hid⟩) hplace
  · intro honly other hother hplace
    obtain ⟨hother, hid⟩ := Transaction.mem_staged_forgetTable.1 hother
    exact hid (honly other hother hplace)

/-- In every reachable state a session reads and writes what it has staged under a spelling if that is
the only one under which it has staged the table, and not otherwise if it could drop the table under the
spelling and commit that. -/
theorem readsOwnWrites_iff (files : Catalog) (events : List Event) (n : String) (t : Transaction)
    (table : Table) (id : TableId) :
    let server := run files (start .empty) events
    server.transaction? n = some t → table ∈ t.staged → server.database? n = some id.database →
    table.id.SpelledAlike id →
    (t.OnlySpelled files id → ReadsOwnWrites files server n table id) ∧
    ((∃ text ticket outcome server' text' ticket' outcome' server'',
      Plan.ofString text = .ok (.dropTable id.name) ∧ execute files n text ticket server = .ok outcome server' ∧
      Plan.ofString text' = .ok .commit ∧ execute files n text' ticket' server' = .ok outcome' server'') →
      ReadsOwnWrites files server n table id → t.OnlySpelled files id) := by
  intro server ht hm hdatabase halike
  have hwell : server.WellFormed := wellFormed_start.run events
  have hordered : server.Ordered := ordered_start.run events
  refine ⟨fun honly => ?_, ?_⟩
  · -- The one spelling is the table's own, so both lookups are the same.
    obtain rfl : table.id = id := honly table hm (halike.place_eq files)
    have hone : OnlyStaged files server n table := by
      intro t' ht'
      obtain rfl := Option.some.inj (ht.symm.trans ht')
      exact ⟨hm, fun other hother hplace =>
        (hordered n t ht).eq_of_id hother hm (honly other hother hplace)⟩
    refine ⟨fun aliasName aliasName' => ?_, fun events hevents text ticket outcome server' hplan hcommit => ?_,
      fun text ticket outcome server' text' ticket' outcome' server'' hplan hdrop hplan' hcommit => ?_⟩
    · rw [rows_scan, rows_scan]
    · obtain ⟨hone', hid⟩ := hone.run hordered hdatabase rfl hevents
      have hlines := (hwell.run events).commit_lines hplan hone' hcommit
      rwa [hid] at hlines
    · exact (hwell.drop_lines ht hdatabase hplan hdrop hplan' hcommit).2 honly
  · rintro ⟨text, ticket, outcome, server', text', ticket', outcome', server'', hplan, hdrop, hplan', hcommit⟩
      hreads
    exact (hwell.drop_lines ht hdatabase hplan hdrop hplan' hcommit).1
      (hreads.drop _ _ _ _ _ _ _ _ hplan hdrop hplan' hcommit)

/-- A session updates a table inside a transaction. -/
def updatedOnce : List Event :=
  [.statement "a" "CREATE DATABASE d" ⟨"1"⟩, .statement "a" "USE d" ⟨"2"⟩,
   .statement "a" "CREATE TABLE t (n int)" ⟨"3"⟩, .statement "a" "INSERT INTO t VALUES (1)" ⟨"4"⟩,
   .statement "a" "BEGIN" ⟨"5"⟩, .statement "a" "UPDATE t SET n = 2" ⟨"6"⟩]

theorem exists_staged {id : TableId}
    (h : ((server.transaction? n).map fun t => t.staged.map (·.id)) = some [id]) :
    ∃ t table, server.transaction? n = some t ∧ table.id = id ∧ t.staged = [table] := by
  obtain ⟨t, ht, hids⟩ := Option.map_eq_some_iff.1 h
  obtain ⟨table, hstaged, hid⟩ := List.map_eq_singleton_iff.1 hids
  exact ⟨t, table, ht, hid, hstaged⟩

set_option maxRecDepth 100000 in
/-- It reads and writes what it has staged under the name as it was written, and not under the name in
the other case. -/
theorem readsOwnWrites_iff_updatedOnce :
    let files : Catalog := ⟨⟨"Databases"⟩, "tbl"⟩
    let server := run files (start .empty) updatedOnce
    ∃ t table, server.transaction? "a" = some t ∧ table ∈ t.staged ∧
      ReadsOwnWrites files server "a" table ⟨"d", "t"⟩ ∧
      ¬ ReadsOwnWrites files server "a" table ⟨"d", "T"⟩ := by
  intro files server
  have hdatabase : server.database? "a" = some "d" := by decide +kernel
  have hids : ((server.transaction? "a").map fun t => t.staged.map (·.id)) = some [⟨"d", "t"⟩] := by
    decide +kernel
  have hdrops : (Action.result? (execute files "a" "DROP TABLE T" ⟨"7"⟩) server).isSome = true := by decide +kernel
  have hcommits : (Action.result? (execute files "a" "COMMIT" ⟨"8"⟩)
      (step files server (.statement "a" "DROP TABLE T" ⟨"7"⟩))).isSome = true := by
    decide +kernel
  obtain ⟨t, table, ht, hid, hstaged⟩ := exists_staged hids
  have hm : table ∈ t.staged := by simp [hstaged]
  refine ⟨t, table, ht, hm, ?_, fun hreads => ?_⟩
  · refine (readsOwnWrites_iff files updatedOnce "a" t table ⟨"d", "t"⟩ ht hm hdatabase ?_).1 ?_
    · rw [hid]
      exact ⟨rfl, rfl⟩
    · rintro other hother -
      obtain rfl : other = table := by simpa [hstaged] using hother
      exact hid
  · have honly := (readsOwnWrites_iff files updatedOnce "a" t table ⟨"d", "T"⟩ ht hm hdatabase
      (by rw [hid]; exact ⟨rfl, rfl⟩)).2 ?_ hreads table hm (by rw [hid]; decide)
    · rw [hid] at honly
      exact absurd (congrArg TableId.name honly) (by decide)
    · obtain ⟨outcome, server', hdrop⟩ := Action.exists_ok hdrops
      rw [step_of_execute hdrop] at hcommits
      obtain ⟨outcome', server'', hcommit⟩ := Action.exists_ok hcommits
      exact ⟨_, _, _, _, _, _, _, _, rfl, hdrop, rfl, hcommit⟩

set_option maxRecDepth 100000 in
/-- Under the name in the other case the session finds the record of the file, which it has changed. -/
theorem other_spelling_reads_file :
    let files : Catalog := ⟨⟨"Databases"⟩, "tbl"⟩
    let server := run files (start .empty) updatedOnce
    let c : Connection Memory := { server.opened files "a" with database := some "d" }
    (((Relation.scan "t" none).table files c).map (·.rows)).toOption.map (·.map renderRow) = some ["2"] ∧
    (((Relation.scan "T" none).table files c).map (·.rows)).toOption.map (·.map renderRow) = some ["1"] ∧
    ∃ t table, server.transaction? "a" = some t ∧ table ∈ t.staged ∧ server.database? "a" = some "d" ∧
      table.id.SpelledAlike ⟨"d", "T"⟩ ∧ ¬ ReadsOwnWrites files server "a" table ⟨"d", "T"⟩ := by
  intro files server c
  have hrows :
      (((Relation.scan "t" none).table files c).map (·.rows)).toOption.map (·.map renderRow) = some ["2"] ∧
      (((Relation.scan "T" none).table files c).map (·.rows)).toOption.map (·.map renderRow) = some ["1"] ∧
      server.database? "a" = some "d" := by
    decide +kernel
  have hids : ((server.transaction? "a").map fun t => t.staged.map (·.id)) = some [⟨"d", "t"⟩] := by
    decide +kernel
  clear_value server
  obtain ⟨t, table, ht, hid, hstaged⟩ := exists_staged hids
  obtain ⟨hstagedRows, hfileRows, hdatabase⟩ := hrows
  refine ⟨hstagedRows, hfileRows, t, table, ht, by simp [hstaged], hdatabase, by rw [hid]; exact ⟨rfl, rfl⟩,
    fun hreads => ?_⟩
  have hquery : ((Relation.scan "T" none).table files c).map (·.rows) =
      ((Relation.scan "t" none).table files c).map (·.rows) :=
    (hreads.query none none).trans (by rw [hid])
  rw [hquery, hstagedRows] at hfileRows
  exact absurd hfileRows (by decide)

end Server

end TextTables
