import TextTables.Proofs.Session.Effect
import TextTables.Proofs.Table
/-!
# Where staged tables come from

A table that is staged after a statement was staged before, as it is or without what the statement
has added, or the statement has changed its records: `Effect.stagedFrom`. What holds of all staged
tables is kept by every statement if these three ways of making a table keep it.
-/

namespace TextTables.Connection

variable {files : Catalog} {ticket : Ticket} {c c' : Connection Memory} {plan : Plan}

/-- How a plan makes a table that is staged then, with what was staged in the transaction before. -/
inductive StagedFrom (files : Catalog) (c : Connection Memory) (t : Transaction) :
    Plan → Table → Prop
  | kept {plan : Plan} {table : Table} : table ∈ t.staged → StagedFrom files c t plan table
  | altered {name : String} {field : Field} {table table' : Table} : table ∈ t.staged →
      table.addField field = .ok table' → StagedFrom files c t (.alterTable name field) table'
  | extended {name : String} {tuples : List (List Expression)} {table table' : Table}
      {rows : List Row} : table ∈ t.staged → tupleRows table.schema tuples = .ok rows →
      requireEncodable rows = .ok () → table.pushAll rows = .ok table' →
      StagedFrom files c t (.insert name tuples) table'
  | changed {plan : Plan} {name : String} {table : Table} {rows : List Row} {count : Nat} :
      changedTable? plan = some name → Connection.table files name c = .ok table →
      NewRows table plan rows count → StagedFrom files c t plan { table with rows }

variable (files) in
theorem AddsField.stagedFrom {name : String} {id : TableId} {field : Field}
    {transaction : Option Transaction} {t' : Transaction} {table : Table}
    (h : AddsField c id field transaction) (ht : transaction = some t') (hm : table ∈ t'.staged) :
    ∃ t, c.transaction = some t ∧ t.ticket = t'.ticket ∧
      StagedFrom files c t (.alterTable name field) table := by
  cases h with
  | unstaged => exact ⟨t', ht, rfl, .kept hm⟩
  | @staged t old new hc hs hadd =>
    cases ht
    refine ⟨t, hc, rfl, ?_⟩
    rcases Transaction.mem_staged_stage hm with rfl | hm
    · exact .altered (Transaction.staged?_eq_some hs).1 hadd
    · exact .kept hm

theorem Effect.stagedFrom (he : Effect files ticket c plan c') {t' : Transaction}
    (ht' : c'.transaction = some t') {table : Table} (hm : table ∈ t'.staged) :
    ∃ t, c.transaction = some t ∧ t.ticket = t'.ticket ∧ StagedFrom files c t plan table := by
  cases he with
  | nothing | databaseCreated | databaseUsed | tableCreated | fileExtended =>
    exact ⟨t', ht', rfl, .kept hm⟩
  | databaseDropped =>
    obtain ⟨t, ht, rfl⟩ := Option.map_eq_some_iff.1 ht'
    exact ⟨t, ht, rfl, .kept (Transaction.mem_staged_forgetDatabase.1 hm).1⟩
  | tableDropped =>
    obtain ⟨t, ht, rfl⟩ := Option.map_eq_some_iff.1 ht'
    exact ⟨t, ht, rfl, .kept (Transaction.mem_staged_forgetTable.1 hm).1⟩
  | copyAltered _ hadds | fileAltered _ _ _ hadds => exact hadds.stagedFrom files ht' hm
  | copyExtended _ ht hs hrows hcheck hpush =>
    cases ht'
    refine ⟨_, ht, rfl, ?_⟩
    rcases Transaction.mem_staged_stage hm with rfl | hm
    · exact .extended (Transaction.staged?_eq_some hs).1 hrows hcheck hpush
    · exact .kept hm
  | heldForNothing _ ht | takenForNothing _ ht =>
    cases ht'
    exact ⟨_, ht, rfl, .kept hm⟩
  | changed hname ht htable hrows =>
    cases ht'
    refine ⟨_, ht, rfl, ?_⟩
    rcases Transaction.mem_staged_stage hm with rfl | hm
    · exact .changed hname htable hrows
    · exact .kept hm
  | aborted | committed => cases ht'
  | begun => cases ht'; cases hm

/-- A staged table was staged before, or its records were changed by the statement. -/
theorem StagedFrom.id_eq {t : Transaction} {table : Table} (h : StagedFrom files c t plan table) :
    (∃ staged ∈ t.staged, staged.id = table.id) ∨
      ∃ name, changedTable? plan = some name ∧ tableId name c = .ok table.id := by
  cases h with
  | kept hm => exact .inl ⟨_, hm, rfl⟩
  | altered hm hadd => exact .inl ⟨_, hm, (Table.addField_id hadd).symm⟩
  | extended hm _ _ hpush => exact .inl ⟨_, hm, (Table.pushAll_id hpush).symm⟩
  | changed hname htable => exact .inr ⟨_, hname, (table_eq_ok htable).1⟩

/-- The staged tables stay in order. -/
theorem Effect.ordered (he : Effect files ticket c plan c')
    (h : ∀ t, c.transaction = some t → t.Ordered) : ∀ t, c'.transaction = some t → t.Ordered := by
  have hadded {id : TableId} {field : Field} {transaction : Option Transaction}
      (hadds : AddsField c id field transaction) : ∀ t, transaction = some t → t.Ordered := by
    cases hadds with
    | unstaged => exact h
    | staged ht => rintro _ ⟨⟩; exact (h _ ht).stage
  cases he with
  | nothing | databaseCreated | databaseUsed | tableCreated | fileExtended => exact h
  | databaseDropped =>
    intro t' ht'
    obtain ⟨t, ht, rfl⟩ := Option.map_eq_some_iff.1 ht'
    exact (h t ht).forgetDatabase
  | tableDropped =>
    intro t' ht'
    obtain ⟨t, ht, rfl⟩ := Option.map_eq_some_iff.1 ht'
    exact (h t ht).forgetTable
  | copyAltered _ hadds | fileAltered _ _ _ hadds => exact hadded hadds
  | copyExtended _ ht => rintro _ ⟨⟩; exact (h _ ht).stage
  | heldForNothing _ ht => rintro _ ⟨⟩; exact (h _ ht).hold
  | takenForNothing _ ht => rintro _ ⟨⟩; exact (h _ ht).hold.letGo
  | changed _ ht => rintro _ ⟨⟩; exact (h _ ht).hold.stage
  | aborted | committed => nofun
  | begun => rintro _ ⟨⟩; exact .nil

end TextTables.Connection
