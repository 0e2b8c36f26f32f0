import TextTables.Proofs.Server.Inserting
import TextTables.Proofs.Syntax.WrittenIntegers
/-!
# Integers written back

The text that a query prints for an integer can be put back into a table of integers, by an expression or by an
insertion, unless the integer is the least one (`integer_writtenBack`). That one can be computed, stored and
printed, but no literal stands for it.
-/

namespace TextTables.Server

variable {files : Catalog} {server : Server Memory} {n name : String} {ticket : Ticket} {table : Table} {i : Int64}

variable (files) in
/-- No transaction but that of the session holds the file of a table which the session has not staged. -/
def FreeFor (server : Server Memory) (n : String) (id : TableId) : Prop :=
  server.staged? n id = none → ∀ ls holder, files.lines? id server.store = some ls → holder? ls = some holder →
    (server.transaction? n).map (·.ticket) = some holder

/-- A tuple of one expression stands for a record of one integer. -/
theorem tupleRow_integer {fields : List Field} (hfields : fields.map (·.type) = [.integer]) (hmin : i ≠ Int64.minValue)
    {row : Row} : TupleRow fields [integerExpression i] row ↔ row = [.integer i] := by
  obtain ⟨field, rfl, htype⟩ := List.map_eq_singleton_iff.1 hfields
  have hcast : (Value.integer i).cast field.type = .ok (.integer i) := by
    rw [htype]
    rfl
  constructor
  · rintro (_ | ⟨hvalue, hstored, ⟨⟩⟩)
    rw [evaluate_integerExpression hmin] at hvalue
    cases hvalue
    rw [hcast] at hstored
    cases hstored
    rfl
  · rintro rfl
    exact .cons (evaluate_integerExpression hmin) hcast .nil

theorem execute_integerInsertion (h : server.WellFormed) (hname : IsName name)
    (htable : server.tableRead files n name = .ok table) (hfields : table.schema.fields.map (·.type) = [.integer])
    (hfree : FreeFor files server n table.id) (hmin : i ≠ Int64.minValue) :
    ∃ server', execute files n (integerInsertion name i) ticket server = .ok (.inserted 1) server' ∧
      server'.tableRead files n name = .ok { table with rows := table.rows ++ [[.integer i]] } := by
  have hplan := ofString_integerInsertion hname hmin
  have hins : Connection.Insertable files (server.opened files n) table [[integerExpression i]] [[.integer i]] := by
    refine ⟨.cons ((tupleRow_integer hfields hmin).2 rfl) .nil, ?_, fun hs ls hl holder hh => ?_⟩
    · rintro row hrow
      rw [List.mem_singleton.1 hrow]
      rfl
    · rw [staged?_opened] at hs
      have hlines : files.lines? table.id server.store = some ls := lines?_opened.symm.trans hl
      rw [Connection.ticket?, opened_transaction]
      exact hfree hs ls holder hlines hh
  rcases Connection.insert_cases (h.opened n) name [[integerExpression i]] with
    ⟨table', rows, c, htable', hins', happended, hinsert⟩ | ⟨e, -, hnot⟩
  · obtain rfl := Except.ok.inj (htable.symm.trans htable')
    obtain rfl : rows = [[.integer i]] := by
      obtain ⟨row, _, hrow, hrest, rfl⟩ := List.forall₂_cons_left_iff.1 hins'.tuples
      rw [List.forall₂_nil_left_iff.1 hrest, (tupleRow_integer hfields hmin).1 hrow]
    have hperform : perform files n (.insert name [[integerExpression i]]) ticket server =
        .ok (.inserted 1) (server.leave n c) := by
      rw [perform, Connection.run, Action.bind_ok hinsert, Action.pure_apply]
      rfl
    refine ⟨server.leave n c, (execute_eq_perform hplan n ticket server).trans hperform, ?_⟩
    rw [tableRead, opened_leave]
    exact happended.reads (h.opened n) htable hins'.rowFits
  · exact absurd hins (hnot table _ htable)

theorem execute_of_plan_error {text : String} {e : Error} (h : Plan.ofString text = .error e) :
    execute files n text ticket server = .error e (server.leave n (server.opened files n)) := by
  have hrun : Connection.execute files ticket text (server.opened files n) = .error e (server.opened files n) := by
    rw [Connection.execute, Action.bind_error (Action.of_error h _)]
  rw [execute_apply, hrun]

/-- Every integer but the least one can be written back: the text that a query prints for it is an expression with
its value, and in every state that sessions reach over a store that was empty at first, inserting the text into a
table of integers that is free for the session puts the same integer at its end. The text of the least integer is
malformed in both places. -/
theorem integer_writtenBack (files : Catalog) (i : Int64) :
    (i ≠ Int64.minValue →
      ∃ e, Expression.ofString (Value.integer i).render = .ok e ∧ e.evaluate [] = .ok (.integer i)) ∧
    (i = Int64.minValue →
      Expression.ofString (Value.integer i).render = .error (.malformedExpression .integerTooLarge)) ∧
    ∀ events n name ticket table,
      let server := run files (start Memory.empty) events
      IsName name → server.tableRead files n name = .ok table → table.schema.fields.map (·.type) = [.integer] →
      FreeFor files server n table.id →
      (i ≠ Int64.minValue → ∃ server',
        execute files n (integerInsertion name i) ticket server = .ok (.inserted 1) server' ∧
        server'.tableRead files n name = .ok { table with rows := table.rows ++ [[.integer i]] }) ∧
      (i = Int64.minValue → ∃ server',
        execute files n (integerInsertion name i) ticket server =
          .error (.malformedExpression .integerTooLarge) server' ∧
        server'.tableRead files n name = .ok table) := by
  refine ⟨fun hmin => ⟨_, ofString_render_integer hmin, evaluate_integerExpression hmin⟩, ?_, ?_⟩
  · rintro rfl
    cbv
  · intro events n name ticket table server hname htable hfields hfree
    have hwell : server.WellFormed := wellFormed_start.run events
    refine ⟨execute_integerInsertion hwell hname htable hfields hfree, ?_⟩
    rintro rfl
    refine ⟨_, execute_of_plan_error (ofString_integerInsertion_minValue hname), ?_⟩
    rw [tableRead, opened_leave]
    exact htable

/-- The least integer is computed and stored. -/
def leastStored : List Event :=
  [.statement "a" "CREATE DATABASE d" ⟨"1"⟩, .statement "a" "USE d" ⟨"2"⟩,
   .statement "a" "CREATE TABLE t (n int)" ⟨"3"⟩,
   .statement "a" "INSERT INTO t VALUES (-9223372036854775807 - 1)" ⟨"4"⟩]

set_option maxRecDepth 100000 in
/-- The integer above the least one is put behind it. -/
theorem integer_writtenBack_leastStored :
    let files : Catalog := ⟨⟨"Databases"⟩, "tbl"⟩
    let server := run files (start Memory.empty) leastStored
    ∃ server' table, server.tableRead files "a" "t" = .ok table ∧
      execute files "a" "INSERT INTO t VALUES (-9223372036854775807)" ⟨"5"⟩ server = .ok (.inserted 1) server' ∧
      server'.tableRead files "a" "t" =
        .ok { table with rows := table.rows ++ [[.integer (-9223372036854775807)]] } := by
  intro files server
  have hread : ((server.tableRead files "a" "t").toOption.map fun table =>
      (table.schema.fields.map (·.type), (files.lines? table.id server.store).bind holder?)) =
        some ([.integer], none) := by
    decide +kernel
  have hserver : server = run files (start Memory.empty) leastStored := rfl
  clear_value server
  cases htable : server.tableRead files "a" "t" with
  | error e =>
    rw [htable] at hread
    cases hread
  | ok table =>
    rw [htable] at hread
    obtain ⟨hfields, hholder⟩ := Prod.mk.inj (Option.some.inj hread)
    have hfree : FreeFor files server "a" table.id := by
      intro _ ls holder hl hh
      rw [hl] at hholder
      cases hh.symm.trans hholder
    have hname : IsName "t" := by decide +kernel
    obtain ⟨-, -, hinsert⟩ := integer_writtenBack files (-9223372036854775807)
    rw [hserver] at htable hfree
    obtain ⟨server', hexecute, hafter⟩ :=
      (hinsert leastStored "a" "t" ⟨"5"⟩ table hname htable hfields hfree).1 (by decide)
    have htext : integerInsertion "t" (-9223372036854775807) = "INSERT INTO t VALUES (-9223372036854775807)" := by
      decide +kernel
    rw [htext, ← hserver] at hexecute
    exact ⟨server', table, rfl, hexecute, hafter⟩

set_option maxRecDepth 100000 in
/-- The least integer is stored and printed, and its text can neither be read nor be inserted. -/
theorem least_integer_notWrittenBack :
    let files : Catalog := ⟨⟨"Databases"⟩, "tbl"⟩
    let server := run files (start Memory.empty) leastStored
    ((server.tableRead files "a" "t").toOption.map (·.rows.map renderRow)) = some ["-9223372036854775808"] ∧
      (¬ ∃ e, Expression.ofString (Value.integer Int64.minValue).render = .ok e) ∧
      ∃ e server',
        execute files "a" "INSERT INTO t VALUES (-9223372036854775808)" ⟨"5"⟩ server = .error e server' := by
  intro files server
  have hrows : ((server.tableRead files "a" "t").toOption.map (·.rows.map renderRow)) =
      some ["-9223372036854775808"] := by
    decide +kernel
  have hfails : (Action.result?
      (execute files "a" "INSERT INTO t VALUES (-9223372036854775808)" ⟨"5"⟩) server).isNone = true := by
    decide +kernel
  have hmalformed : Expression.ofString (Value.integer Int64.minValue).render =
      .error (.malformedExpression .integerTooLarge) := by
    cbv
  refine ⟨hrows, ?_, Action.exists_error hfails⟩
  rintro ⟨e, he⟩
  rw [hmalformed] at he
  cases he

end TextTables.Server
