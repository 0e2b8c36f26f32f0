import TextTables.Proofs.Session.Content
/-!
# What a session knows

A session knows the tables that its transaction has staged or holds, and the database that it uses. What
it knows after a statement it knew before, or the statement itself has named it: `Effect.knows` and
`Effect.database_eq`.
-/

namespace TextTables.Connection

variable {files : Catalog} {ticket : Ticket} {c c' : Connection Memory} {plan : Plan} {id : TableId}

theorem AddsField.knows {field : Field} {transaction : Option Transaction} {t' : Transaction} {other : TableId}
    (h : AddsField c other field transaction) (ht : transaction = some t') (hknows : t'.Knows id) :
    ∃ t, c.transaction = some t ∧ t.Knows id := by
  cases h with
  | unstaged => exact ⟨t', ht, hknows⟩
  | @staged t table table' hc hs hadd =>
    cases ht
    refine ⟨t, hc, ?_⟩
    rcases Transaction.knows_of_stage hknows with rfl | hknows
    · rw [Table.addField_id hadd]
      exact .staged (Transaction.staged?_eq_some hs).1
    · exact hknows

/-- A table that is staged or held after a statement was so before, or the statement names it in the
database in use. -/
theorem Effect.knows (he : Effect files ticket c plan c') {t' : Transaction} (ht' : c'.transaction = some t')
    (h : t'.Knows id) :
    (∃ t, c.transaction = some t ∧ t.Knows id) ∨ plan.target? = some id.name ∧ c.database = some id.database := by
  -- A statement that changes records holds the table that it has read.
  have hread {name : String} {table : Table} (hname : changedTable? plan = some name)
      (htable : Connection.table files name c = .ok table) :
      plan.target? = some table.id.name ∧ c.database = some table.id.database := by
    obtain ⟨hdatabase, rfl⟩ := tableId_eq_ok (table_eq_ok htable).1
    exact ⟨target?_of_changedTable? hname, hdatabase⟩
  cases he with
  | nothing | databaseCreated | databaseUsed | tableCreated | fileExtended => exact .inl ⟨t', ht', h⟩
  | databaseDropped =>
    obtain ⟨t, ht, rfl⟩ := Option.map_eq_some_iff.1 ht'
    exact .inl ⟨t, ht, (Transaction.knows_forgetDatabase.1 h).1⟩
  | tableDropped =>
    obtain ⟨t, ht, rfl⟩ := Option.map_eq_some_iff.1 ht'
    exact .inl ⟨t, ht, Transaction.knows_of_forgetTable h⟩
  | copyAltered _ hadds | fileAltered _ _ _ hadds => exact .inl (hadds.knows ht' h)
  | copyExtended _ ht hs _ _ hpush =>
    cases ht'
    refine .inl ⟨_, ht, ?_⟩
    rcases Transaction.knows_of_stage h with rfl | h
    · rw [Table.pushAll_id hpush]
      exact .staged (Transaction.staged?_eq_some hs).1
    · exact h
  | heldForNothing hname ht htable =>
    cases ht'
    rcases Transaction.knows_of_hold h with rfl | h
    · exact .inr (hread hname htable)
    · exact .inl ⟨_, ht, h⟩
  | takenForNothing hname ht htable =>
    cases ht'
    rcases Transaction.knows_of_hold (Transaction.knows_of_letGo h) with rfl | h
    · exact .inr (hread hname htable)
    · exact .inl ⟨_, ht, h⟩
  | changed hname ht htable =>
    cases ht'
    have hnamed := hread hname htable
    rcases Transaction.knows_of_stage h with rfl | h
    · exact .inr hnamed
    · rcases Transaction.knows_of_hold h with rfl | h
      · exact .inr hnamed
      · exact .inl ⟨_, ht, h⟩
  | aborted | committed => cases ht'
  | begun =>
    cases ht'
    exact absurd h Transaction.not_knows_start

/-- A database that is in use after a statement was so before, or the statement uses it. -/
theorem Effect.database_eq (he : Effect files ticket c plan c') {name : String} (h : c'.database = some name) :
    c.database = some name ∨ plan = .useDatabase name := by
  cases he with
  | databaseDropped =>
    dsimp only at h
    split at h
    · cases h
    · exact .inl h
  | databaseUsed =>
    cases h
    exact .inr rfl
  | _ => exact .inl h

end TextTables.Connection
