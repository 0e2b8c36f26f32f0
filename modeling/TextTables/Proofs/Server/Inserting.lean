import TextTables.Proofs.Server.Reloading
import TextTables.Proofs.Session.Inserting
/-!
# Insertions at a server

Whatever sessions have done over a store that was empty at first, an insertion puts the records of all
its tuples at the end of the table that the session reads, or it leaves every file and every staged copy
as it was: `insert_allOrNothing`.
-/

namespace TextTables.Server

variable {files : Catalog} {server : Server Memory} {n name text : String} {ticket : Ticket}
  {c : Connection Memory} {table : Table} {rows : List Row}

variable (files) in
/-- A session does what a plan says. -/
def perform (n : String) (plan : Plan) (ticket : Ticket) : Action (Server Memory) Outcome := fun server =>
  match Connection.run files ticket plan (server.opened files n) with
  | .ok outcome c => .ok outcome (server.leave n c)
  | .error e c => .error e (server.leave n c)

/-- The table that a session reads under a name, its staged copy or else the file. -/
def tableRead (files : Catalog) (server : Server Memory) (n name : String) : Except Error Table :=
  Connection.table files name (server.opened files n)

theorem execute_eq_perform {plan : Plan} (hplan : Plan.ofString text = .ok plan) (n : String)
    (ticket : Ticket) (server : Server Memory) :
    execute files n text ticket server = perform files n plan ticket server := by
  have hrun : Connection.execute files ticket text (server.opened files n) =
      Connection.run files ticket plan (server.opened files n) := by
    rw [Connection.execute, Action.bind_ok (Action.of_ok hplan _)]
  rw [execute_apply, hrun]
  cases h : Connection.run files ticket plan (server.opened files n) <;> simp only [perform, h]

/-! ## What else an insertion changes -/

section Appended
variable {p : Place} {other : String} {id : TableId}

/-- Records at the end of a table leave every other file as it was, and every file if a copy is staged. -/
theorem lines?_of_appended (h : Connection.Appended files (server.opened files n) table rows c)
    (hp : p ≠ files.place table.id ∨ server.staged? n table.id ≠ none) :
    (server.leave n c).store.lines? p = server.store.lines? p := by
  have hopened : (server.opened files n).store.lines? p = server.store.lines? p := lines?_opened
  rw [← hopened]
  cases h with
  | staged => rfl
  | stored hs hl =>
    rw [staged?_opened] at hs
    exact (Connection.lines?_extend hl).trans (if_neg (hp.resolve_right (not_not.2 hs)))

/-- They leave every other staged copy as it was, and every staged copy if there is none of the table. -/
theorem staged?_of_appended (h : Connection.Appended files (server.opened files n) table rows c)
    (hid : (other, id) ≠ (n, table.id) ∨ server.staged? n table.id = none) :
    (server.leave n c).staged? other id = server.staged? other id := by
  cases h with
  | @staged t ht hs =>
    have hcopy : server.staged? n table.id = some table := by
      rw [← staged?_opened]
      exact Connection.staged?_eq_some.2 ⟨t, ht, hs⟩
    have hne : (other, id) ≠ (n, table.id) := hid.resolve_right (by rw [hcopy]; exact Option.some_ne_none _)
    rw [staged?_leave]
    split
    · next hother =>
      subst hother
      have hid : table.id ≠ id := fun h => hne (by rw [h])
      rw [← staged?_opened, Connection.staged?, Connection.staged?, ht, Option.bind_some, Option.bind_some,
        Transaction.staged?_stage, if_neg hid]
    · rfl
  | stored => exact staged?_leave_of_transaction rfl

end Appended

/-- In every state that sessions reach over a store that was empty at first, an insertion that succeeds
puts one record for each tuple, its values cast to the types of the fields, at the end of the table that
the session reads, in order, and tells how many. Every other file and staged copy stays as it was. An
insertion that fails leaves all of them as they were; it fails only if there is no such table, if the
tuples do not stand for records that a line can hold, or if the table is not staged and another
transaction holds its file. -/
theorem insert_allOrNothing (files : Catalog) (events : List Event) (n name : String)
    (tuples : List (List Expression)) (ticket : Ticket) :
    let server := run files (start Memory.empty) events
    (∀ text, Plan.ofString text = .ok (.insert name tuples) →
      execute files n text ticket server = perform files n (.insert name tuples) ticket server) ∧
    (∀ outcome server', perform files n (.insert name tuples) ticket server = .ok outcome server' →
      outcome = .inserted tuples.length ∧
      ∃ table rows, server.tableRead files n name = .ok table ∧
        List.Forall₂ (TupleRow table.schema.fields) tuples rows ∧
        server'.tableRead files n name = .ok { table with rows := table.rows ++ rows } ∧
        (∀ p, p ≠ files.place table.id ∨ server.staged? n table.id ≠ none →
          server'.store.lines? p = server.store.lines? p) ∧
        ∀ other id, (other, id) ≠ (n, table.id) ∨ server.staged? n table.id = none →
          server'.staged? other id = server.staged? other id) ∧
    ∀ e server', perform files n (.insert name tuples) ticket server = .error e server' →
      (∀ p, server'.store.lines? p = server.store.lines? p) ∧
      (∀ other id, server'.staged? other id = server.staged? other id) ∧
      ∀ table rows, server.tableRead files n name = .ok table →
        List.Forall₂ (TupleRow table.schema.fields) tuples rows → (∀ row ∈ rows, checkRow row = .ok ()) →
        server.staged? n table.id = none ∧
          ∃ ls holder, files.lines? table.id server.store = some ls ∧ holder? ls = some holder ∧
            (server.transaction? n).map (·.ticket) ≠ some holder := by
  intro server
  have hwell : server.WellFormed := wellFormed_start.run events
  have hc : (server.opened files n).WellFormed := hwell.opened n
  clear_value server
  refine ⟨fun text hplan => execute_eq_perform hplan n ticket server, ?_⟩
  rcases Connection.insert_cases hc name tuples with ⟨table, rows, c, htable, hins, happended, hinsert⟩ |
    ⟨e, hinsert, hnot⟩
  · have hperform : perform files n (.insert name tuples) ticket server =
        .ok (.inserted tuples.length) (server.leave n c) := by
      rw [perform, Connection.run, Action.bind_ok hinsert, Action.pure_apply]
    rw [hperform]
    refine ⟨?_, fun _ _ h => by cases h⟩
    rintro _ _ ⟨⟩
    refine ⟨rfl, table, rows, htable, hins.tuples, ?_, fun p => lines?_of_appended happended,
      fun other id => staged?_of_appended happended⟩
    rw [tableRead, opened_leave]
    exact happended.reads hc htable hins.rowFits
  · have hperform : perform files n (.insert name tuples) ticket server =
        .error e (server.leave n (server.opened files n)) := by
      rw [perform, Connection.run, Action.bind_error hinsert]
    rw [hperform]
    refine ⟨fun _ _ h => (by cases h), ?_⟩
    rintro _ _ ⟨⟩
    refine ⟨fun p => lines?_opened, fun other id => staged?_leave_of_transaction rfl,
      fun table rows htable htuples hcheck => ?_⟩
    by_contra hfree
    refine hnot table rows htable ⟨htuples, hcheck, fun hs ls hl holder hh => ?_⟩
    by_contra hne
    have hl' : files.lines? table.id server.store = some ls := lines?_opened.symm.trans hl
    rw [Connection.ticket?, opened_transaction] at hne
    exact hfree ⟨staged?_opened.symm.trans hs, ls, holder, hl', hh, hne⟩

/-- A session updates a table of labels inside a transaction. -/
def labelledOnce : List Event :=
  [.statement "a" "CREATE DATABASE d" ⟨"1"⟩, .statement "a" "USE d" ⟨"2"⟩,
   .statement "a" "CREATE TABLE t (label text)" ⟨"3"⟩, .statement "a" "INSERT INTO t VALUES ('a')" ⟨"4"⟩,
   .statement "a" "BEGIN" ⟨"5"⟩, .statement "a" "UPDATE t SET label = 'b'" ⟨"6"⟩]

set_option maxRecDepth 100000 in
/-- Two records are put at the end of a staged copy, and no file is touched. -/
theorem insert_allOrNothing_labelledOnce :
    let files : Catalog := ⟨⟨"Databases"⟩, "tbl"⟩
    let server := run files (start Memory.empty) labelledOnce
    ∃ server' table rows,
      execute files "a" "INSERT INTO t VALUES ('c'), ('d' + 'e')" ⟨"7"⟩ server = .ok (.inserted 2) server' ∧
      server.tableRead files "a" "t" = .ok table ∧
      List.Forall₂ (TupleRow table.schema.fields)
        [[.constant (.text "c")],
          [.binary (.compute .add) (.constant (.text "d")) (.constant (.text "e"))]] rows ∧
      server'.tableRead files "a" "t" = .ok { table with rows := table.rows ++ rows } ∧
      (table.rows ++ rows).map renderRow = ["b", "c", "de"] ∧
      ∀ p, server'.store.lines? p = server.store.lines? p := by
  intro files server
  have hdone : (Action.result? (execute files "a" "INSERT INTO t VALUES ('c'), ('d' + 'e')" ⟨"7"⟩) server).isSome = true := by
    decide +kernel
  have hrows : ((step files server (.statement "a" "INSERT INTO t VALUES ('c'), ('d' + 'e')" ⟨"7"⟩)).tableRead
      files "a" "t").toOption.map (·.rows.map renderRow) = some ["b", "c", "de"] := by
    decide +kernel
  have hstaged : ((server.tableRead files "a" "t").toOption.map fun table =>
      (server.staged? "a" table.id).isSome) = some true := by
    decide +kernel
  have hserver : server = run files (start Memory.empty) labelledOnce := rfl
  clear_value server
  have hplan : Plan.ofString "INSERT INTO t VALUES ('c'), ('d' + 'e')" =
      .ok (.insert "t" [[.constant (.text "c")],
        [.binary (.compute .add) (.constant (.text "d")) (.constant (.text "e"))]]) := by
    cbv
  obtain ⟨htext, hok, -⟩ := insert_allOrNothing files labelledOnce "a" "t" [[.constant (.text "c")],
    [.binary (.compute .add) (.constant (.text "d")) (.constant (.text "e"))]] ⟨"7"⟩
  rw [← hserver] at htext hok
  obtain ⟨outcome, server', hexecute⟩ := Action.exists_ok hdone
  obtain ⟨rfl, table, rows, htable, htuples, hreads, hfiles, -⟩ :=
    hok outcome server' ((htext _ hplan).symm.trans hexecute)
  rw [step_of_execute hexecute, hreads] at hrows
  rw [htable] at hstaged
  refine ⟨server', table, rows, hexecute, htable, htuples, hreads, Option.some.inj hrows,
    fun p => hfiles p (.inr ?_)⟩
  exact Option.isSome_iff_ne_none.1 (Option.some.inj hstaged)

end TextTables.Server
