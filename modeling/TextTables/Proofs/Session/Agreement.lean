import TextTables.Proofs.Relation.Aggregate
import TextTables.Proofs.Session.Content
import TextTables.Proofs.Session.Updating
/-!
# What a condition means

Queries, deletions and updates evaluate the conditions of statements each in a loop of their own, over a
schema that is read through the name of the table as the loop finds it. They mean the same records by a
condition: a deletion takes away what a query with the condition would have returned (`remainingRows_eq`),
and an update counts it (`updatedRows_eq_ok`). So the statements fail alike and agree on what they count
(`condition_agreement`).
-/

namespace TextTables

variable {condition : Option Expression} {schema : Schema} {rows : List Row}

/-! ## Filters and deletions -/

variable (condition schema) in
/-- The records of which a condition does not hold. -/
def rejected (rows : List Row) : List Row :=
  rows.filter fun row => !(accepts condition [(schema, row)]).toOption.getD false

/-- A deletion leaves the records that a filter drops and counts those that it keeps, and it fails as the
filter does. -/
theorem remainingRows_eq (condition : Option Expression) (schema : Schema) (rows : List Row) :
    remainingRows schema condition rows =
      (acceptedRows condition schema rows).map fun kept => (rejected condition schema rows, kept.length) := by
  induction rows with
  | nil => rfl
  | cons row rest ih =>
    have hcons : rejected condition schema (row :: rest) =
        if !(accepts condition [(schema, row)]).toOption.getD false then row :: rejected condition schema rest
        else rejected condition schema rest :=
      List.filter_cons
    rw [remainingRows, acceptedRows, ih, hcons]
    cases accepts condition [(schema, row)] with
    | error e => rfl
    | ok accepted =>
      cases acceptedRows condition schema rest with
      | error e => rfl
      | ok kept => cases accepted <;> rfl

/-- Where a condition has truth values, it divides the records. -/
theorem exists_accepted (h : ∀ row ∈ rows, Decides condition schema row) :
    ∃ accepted : Row → Bool, (∀ row ∈ rows, accepts condition [(schema, row)] = .ok (accepted row)) ∧
      satisfying condition schema rows = rows.filter accepted ∧
      rejected condition schema rows = rows.filter fun row => !accepted row := by
  refine ⟨fun row => (accepts condition [(schema, row)]).toOption.getD false, fun row hrow => ?_, rfl, rfl⟩
  obtain ⟨truth, htruth⟩ := h row hrow
  dsimp only
  rw [htruth]
  rfl

namespace Connection

variable {files : Catalog} {ticket : Ticket} {c c' : Connection Memory} {t : Transaction} {table : Table}
  {name : String}

/-! ## Tables that are read from their files -/

/-- A scan of a table reads it as a change does. -/
theorem scan_eq (htable : Connection.table files name c = .ok table) (hstaged : c.staged? table.id = none) :
    Relation.table files c (.scan name none) = .ok table := by
  obtain ⟨hid, hs | ⟨-, ls, holder, -, hd⟩⟩ := table_eq_ok htable
  · rw [hstaged] at hs
    cases hs
  · have hname : name = table.id.name := (tableId_eq_ok hid).2
    have hschema : table.schema.qualify name = table.schema := by
      rw [hname, Schema.qualify_eq_under]
      exact (Table.typed_of_decodeTable hd).under_name
    refine Except.bind_eq_ok.2 ⟨table, htable, ?_⟩
    change Except.ok { table with schema := table.schema.qualify name } = _
    rw [hschema]

theorem select_scan (htable : Connection.table files name c = .ok table) (hstaged : c.staged? table.id = none)
    (condition : Option Expression) :
    Relation.table files c (.select (.scan name none) none condition) = table.select none condition := by
  rw [Relation.table, scan_eq htable hstaged]
  rfl

/-- The count of an update is the number of records that its condition accepts, whatever it assigns. -/
theorem update_count (ht : c.transaction = some t) (htable : Connection.table files name c = .ok table)
    {columns : List (String × Expression)} {n : Nat} (h : update files name columns condition c = .ok n c') :
    n = (satisfying condition table.schema table.rows).length := by
  rw [update_apply files name columns condition ht, htable] at h
  dsimp only at h
  cases hcolumns : resolveColumns table.schema columns with
  | error e =>
    rw [hcolumns] at h
    cases h
  | ok assignments =>
    rw [hcolumns] at h
    obtain ⟨rs, -, hrs, -⟩ := change_eq_ok ht h
    exact ((updatedRows_eq_ok fun _ _ _ => Iff.rfl).1 hrs).2

/-! ## Filters of tables -/

section Filtering
variable {p : Expression} {e : Error} {kept : List Row} {store : Memory}

theorem select_filtered (htable : Connection.table files name c = .ok table)
    (hstaged : c.staged? table.id = none) (hrows : acceptedRows (some p) table.schema table.rows = .ok kept) :
    Relation.table files c (.select (.scan name none) none (some p)) = .ok { table with rows := kept } := by
  rw [select_scan htable hstaged, Table.select, hrows]
  rfl

theorem select_failing (htable : Connection.table files name c = .ok table)
    (hstaged : c.staged? table.id = none) (hrows : acceptedRows (some p) table.schema table.rows = .error e) :
    Relation.table files c (.select (.scan name none) none (some p)) = .error e := by
  rw [select_scan htable hstaged, Table.select, hrows]
  rfl

theorem select_unreadable (htable : Connection.table files name c = .error e) :
    Relation.table files c (.select (.scan name none) none condition) = .error e := by
  simp only [Relation.table, htable]
  rfl

theorem delete_change (ht : c.transaction = some t) (htable : Connection.table files name c = .ok table) :
    Connection.delete files name condition c =
      change files table (remainingRows table.schema condition table.rows) c := by
  rw [delete_apply files name condition ht, htable]

/-- A deletion under the lock of its table takes away what a filter keeps. -/
theorem delete_filtered (ht : c.transaction = some t) (htable : Connection.table files name c = .ok table)
    (hlocks : Locks files t.ticket table.id c.store store)
    (hrows : acceptedRows condition table.schema table.rows = .ok kept) :
    ∃ c', Connection.delete files name condition c = .ok kept.length c' ∧
      Connection.table files name c' =
        .ok { table with rows := rejected condition table.schema table.rows } := by
  have hremaining : remainingRows table.schema condition table.rows =
      .ok (rejected condition table.schema table.rows, kept.length) := by
    rw [remainingRows_eq, hrows]
    rfl
  obtain ⟨c', hchange⟩ := change_of_locks ht hlocks
    (.ok (rejected condition table.schema table.rows, kept.length))
  rw [← hremaining] at hchange
  obtain ⟨rs, hrs, hreads, -⟩ := change_reads ht htable (fun rs => remainingRows_zero) hchange
  cases hremaining.symm.trans hrs
  exact ⟨c', (delete_change ht htable).trans hchange, hreads⟩

/-- A deletion under the lock of its table fails at the record at which a filter does. -/
theorem delete_failing (ht : c.transaction = some t) (htable : Connection.table files name c = .ok table)
    (hlocks : Locks files t.ticket table.id c.store store)
    (hrows : acceptedRows condition table.schema table.rows = .error e) :
    ∃ c', Connection.delete files name condition c = .error e c' := by
  have hremaining : remainingRows table.schema condition table.rows = .error e := by
    rw [remainingRows_eq, hrows]
    rfl
  obtain ⟨c', hchange⟩ := change_of_locks ht hlocks (.error e)
  rw [← hremaining] at hchange
  exact ⟨c', (delete_change ht htable).trans hchange⟩

theorem delete_unreadable (ht : c.transaction = some t) (htable : Connection.table files name c = .error e) :
    Connection.delete files name condition c = .error e c := by
  rw [delete_apply files name condition ht, htable]

end Filtering

/-! ## Statements -/

/-- Does what a statement says. -/
def carryOut (files : Catalog) (ticket : Ticket) (statement : Statement) :
    Action (Connection Memory) Outcome := do
  run files ticket (← Action.of (Plan.ofStatement statement))

theorem carryOut_eq {statement : Statement} {plan : Plan} (h : Plan.ofStatement statement = .ok plan) :
    carryOut files ticket statement c = run files ticket plan c := by
  rw [carryOut, Action.bind_ok (Action.of_ok h c)]

theorem execute_eq_carryOut {text : String} {statement : Statement}
    (h : Statement.ofString text = .ok statement) :
    execute files ticket text c = carryOut files ticket statement c := by
  rw [execute, carryOut, Plan.ofString_eq h]

/-- On a table that is read from its file and can be locked, a condition means the same records to the
statements that have it. A query and a deletion fail with the same error, or else the query returns the
records that are accepted and the deletion keeps the others, both in the order of the table, and what the
deletion counts, a count counts too, and any update that succeeds. -/
theorem condition_agreement (files : Catalog) (ticket : Ticket) (c : Connection Memory) {t : Transaction}
    (ht : c.transaction = some t) {name : String} {id : TableId} (hid : tableId name c = .ok id)
    (hstaged : c.staged? id = none) {store : Memory} (hlocks : Locks files t.ticket id c.store store)
    (p : Expression) :
    let select := carryOut files ticket (.select .all (.table name none) (some p))
    let delete := carryOut files ticket (.delete name (some p))
    (∃ e c', select c = .error e c ∧ delete c = .error e c') ∨
    ∃ (table : Table) (accepted : Row → Bool) (c' : Connection Memory),
      let found := table.rows.filter accepted
      Connection.table files name c = .ok table ∧
      (∀ row ∈ table.rows, accepts (some p) [(table.schema, row)] = .ok (accepted row)) ∧
      select c = .ok (.table { table with rows := found }) c ∧
      delete c = .ok (.deleted found.length) c' ∧
      Connection.table files name c' = .ok { table with rows := table.rows.filter fun row => !accepted row } ∧
      (∀ function, Aggregate.ofName? function = some .count →
        carryOut files ticket (.select (.aggregate function none) (.table name none) (some p)) c =
          .ok (.aggregate (aggregateLabel function none) (.integer (Int64.ofInt found.length))) c) ∧
      ∀ columns outcome c'',
        carryOut files ticket (.update name columns (some p)) c = .ok outcome c'' →
          outcome = .updated found.length := by
  intro select delete
  have hselect : select c = run files ticket (.query (.select (.scan name none) none (some p))) c :=
    carryOut_eq rfl
  have hdelete : delete c = run files ticket (.delete name (some p)) c := carryOut_eq rfl
  rw [hselect, hdelete]
  cases htable : Connection.table files name c with
  | error e =>
    exact .inl ⟨e, c, run_query_error (select_unreadable htable), Action.bind_error (delete_unreadable ht htable)⟩
  | ok table =>
    obtain rfl : table.id = id := Except.ok.inj ((table_eq_ok htable).1.symm.trans hid)
    cases hrows : acceptedRows (some p) table.schema table.rows with
    | error e =>
      obtain ⟨c', hfails⟩ := delete_failing ht htable hlocks hrows
      exact .inl ⟨e, c', run_query_error (select_failing htable hstaged hrows), Action.bind_error hfails⟩
    | ok kept =>
      obtain ⟨c', hdeleted, hreads⟩ := delete_filtered ht htable hlocks hrows
      obtain ⟨hdecides, hkept⟩ := acceptedRows_eq_ok.1 hrows
      obtain ⟨accepted, haccepted, hfound, hothers⟩ := exists_accepted hdecides
      rw [hothers] at hreads
      rw [hfound] at hkept
      subst hkept
      have hfilter := select_filtered htable hstaged hrows
      refine .inr ⟨table, accepted, c', rfl, haccepted, run_query_ok hfilter, Action.bind_ok hdeleted, hreads,
        fun function hcount => ?_, fun columns outcome c'' h => ?_⟩
      · have hplan : Plan.ofStatement (.select (.aggregate function none) (.table name none) (some p)) =
            .ok (.aggregate (.select (.scan name none) none (some p)) function none) := rfl
        rw [carryOut_eq hplan, run_aggregate_ok hfilter (Table.aggregate_count hcount _)]
      · have hplan : Plan.ofStatement (.update name columns (some p)) =
            .ok (.update name columns (some p)) := rfl
        rw [carryOut_eq hplan] at h
        obtain ⟨n, hupdate, rfl⟩ := run_update_eq_ok.1 h
        rw [update_count ht htable hupdate, hfound]

/-- A table of three amounts. -/
def amounts : Memory where
  files := [(["Databases", "d", "t.tbl"], ["n int", "1", "2", "3"])]
  directories := [["Databases"], ["Databases", "d"]]

set_option maxRecDepth 100000 in
/-- Two of the amounts are above one. -/
theorem condition_agreement_amounts :
    let files : Catalog := ⟨⟨"Databases"⟩, "tbl"⟩
    let c : Connection Memory := ⟨⟨some (.start ⟨"1"⟩), some "d"⟩, amounts⟩
    ∃ (selected left : Table) (c' : Connection Memory),
      execute files ⟨"2"⟩ "SELECT * FROM t WHERE n > 1" c = .ok (.table selected) c ∧
      selected.rows.map renderRow = ["2", "3"] ∧
      execute files ⟨"2"⟩ "DELETE FROM t WHERE n > 1" c = .ok (.deleted 2) c' ∧
      Connection.table files "t" c' = .ok left ∧ left.rows.map renderRow = ["1"] ∧
      execute files ⟨"2"⟩ "SELECT count(*) FROM t WHERE n > 1" c =
        .ok (.aggregate "COUNT(*)" (.integer 2)) c := by
  intro files c
  let p : Expression := .binary (.compare .greater) (.field ⟨none, "n"⟩) (.constant (.integer 1))
  have hselect : Statement.ofString "SELECT * FROM t WHERE n > 1" =
      .ok (.select .all (.table "t" none) (some p)) := by
    cbv
  have hdelete : Statement.ofString "DELETE FROM t WHERE n > 1" = .ok (.delete "t" (some p)) := by
    cbv
  have hcount : Statement.ofString "SELECT count(*) FROM t WHERE n > 1" =
      .ok (.select (.aggregate "count" none) (.table "t" none) (some p)) := by
    cbv
  have hdone : ((carryOut files ⟨"2"⟩ (.delete "t" (some p))).result? c).isSome = true := by
    decide +kernel
  have hselected : ((carryOut files ⟨"2"⟩ (.select .all (.table "t" none) (some p))).result? c).map Outcome.rows =
      some ["2", "3"] := by
    decide +kernel
  have hleft : (Connection.table files "t"
      (Action.after (carryOut files ⟨"2"⟩ (.delete "t" (some p))) c)).toOption.map (·.rows.map renderRow) =
        some ["1"] := by
    decide +kernel
  have hlocks : Locks files ⟨"1"⟩ ⟨"d", "t"⟩ c.store _ :=
    .taken (by decide +kernel : _ = some ["n int", "1", "2", "3"]) (by decide +kernel) (by decide +kernel)
  obtain ⟨outcome, c', hdeletes⟩ := Action.exists_ok hdone
  rw [execute_eq_carryOut hselect, execute_eq_carryOut hdelete, execute_eq_carryOut hcount]
  rcases condition_agreement files ⟨"2"⟩ c rfl rfl rfl hlocks p with
    ⟨e, c'', -, hfails⟩ | ⟨table, accepted, c'', -, -, hselects, hdeletes', hreads, hcounts, -⟩
  · cases hdeletes.symm.trans hfails
  · rw [Action.result?_eq_some.2 ⟨c, hselects⟩] at hselected
    have hfound : (table.rows.filter accepted).map renderRow = ["2", "3"] := Option.some.inj hselected
    rw [Action.after_ok hdeletes', hreads] at hleft
    have htwo : (table.rows.filter accepted).length = 2 := by
      rw [← List.length_map renderRow, hfound]
      rfl
    rw [htwo] at hdeletes' hcounts
    exact ⟨_, _, c'', hselects, hfound, hdeletes', hreads, Option.some.inj hleft,
      hcounts "count" (by decide +kernel)⟩

end Connection

end TextTables
