import TextTables.Proofs.Session.Holding
import TextTables.Proofs.Store.Place
import TextTables.Proofs.Syntax.Names
/-!
# What a transaction has seen of its staged tables

If names are in lower case, different tables have different files, so the holder's statements change
the file of a staged table in one way only: by adding a field to it. `Effect.content` says that its
content is what it was before the statement, or what the statement has read or written itself.
-/

namespace TextTables

/-- An identity whose names are words in lower case. -/
structure TableId.Plain (id : TableId) : Prop where
  database : PlainName id.database
  name : PlainName id.name

/-- The staged tables have plain names. -/
def Transaction.Plain (t : Transaction) : Prop := ∀ table ∈ t.staged, table.id.Plain

namespace Connection

variable {files : Catalog} {ticket : Ticket} {c c' : Connection Memory} {plan : Plan}
  {name : String} {id : TableId}

/-- The database in use and the staged tables have plain names. -/
structure Plain (c : Connection Memory) : Prop where
  database : ∀ name, c.database = some name → PlainName name
  transaction : ∀ t, c.transaction = some t → t.Plain

/-! ## Plain names stay plain -/

theorem tableId_eq_ok (h : tableId name c = .ok id) :
    c.database = some id.database ∧ name = id.name := by
  unfold tableId at h
  split at h
  · next database hd => cases h; exact ⟨hd, rfl⟩
  · cases h

theorem Plain.tableId (h : c.Plain) (hname : PlainName name)
    (hid : tableId name c = .ok id) : id.Plain := by
  obtain ⟨hd, rfl⟩ := tableId_eq_ok hid
  exact ⟨h.database _ hd, hname⟩

theorem target?_of_changedTable? (h : changedTable? plan = some name) : plan.target? = some name := by
  cases plan <;> first | exact h | cases h

theorem Effect.plain (he : Effect files ticket c plan c') (hc : c.Plain)
    (hplan : ∀ name, plan.target? = some name → PlainName name) : c'.Plain := by
  constructor
  · intro name hname
    cases he with
    | databaseDropped =>
      dsimp only at hname
      split at hname
      · cases hname
      · exact hc.database name hname
    | databaseUsed =>
      cases hname
      exact hplan name rfl
    | _ => exact hc.database name hname
  · intro t' ht' table hm
    obtain ⟨t, ht, -, hfrom⟩ := he.stagedFrom ht' hm
    rcases hfrom.id_eq with ⟨staged, hstaged, hid⟩ | ⟨name, hname, hid⟩
    · rw [← hid]
      exact hc.transaction t ht staged hstaged
    · exact hc.tableId (hplan name (target?_of_changedTable? hname)) hid

/-! ## The content of a staged table's file -/

/-- A statement that reads the file of a table to change its records, or that adds a field to it.
The file has some content then, its lock line aside. -/
inductive Sees (files : Catalog) (c : Connection Memory) (id : TableId) (content : List String) :
    Plan → Prop
  | read {plan : Plan} {ls : List String} {holder : Option Ticket} {table : Table} :
      changedTable? plan = some id.name → Connection.table files id.name c = .ok table →
      files.lines? id c.store = some ls → decodeTable id ls = .ok (holder, table) →
      dropLock ls = content → Sees files c id content plan
  | altered {field : Field} {ls ls' : List String} : tableId id.name c = .ok id →
      files.lines? id c.store = some ls → Catalog.alteredLines id field ls = .ok ls' →
      dropLock ls' = content → Sees files c id content (.alterTable id.name field)

theorem Locks.lines?_of_holds {m m' : Memory} {p : Place} (h : Locks files ticket id m m')
    (hp : Holds ticket m p) : m'.lines? p = m.lines? p := by
  cases h with
  | held => rfl
  | taken hl hh =>
    refine Memory.lines?_put_of_ne fun heq => ?_
    have hholder := hp.holder? ((congrArg m.lines? heq).trans hl)
    rw [hh] at hholder
    cases hholder

/-- A file whose table is locked has the lock line and the content that it had. -/
theorem Locks.lines?_self {m m' : Memory} (h : Locks files ticket id m m') :
    ∃ ls, files.lines? id m = some ls ∧
      files.lines? id m' = some (ticket.lockLine :: dropLock ls) := by
  cases h with
  | held hl hh =>
    obtain ⟨content, rfl⟩ := holder?_eq_some.1 hh
    exact ⟨_, hl, by rw [hl, dropLock_lockLine_cons]⟩
  | taken hl hh =>
    refine ⟨_, hl, Memory.lines?_put_self.trans ?_⟩
    rw [putLock_of_holder?_none hh, dropLock_of_holder?_none hh]

/-- A table whose records are changed is staged with its file as it was, or it was read from the file. -/
theorem sees_of_changed {t : Transaction} {table : Table} {rows : List Row} {m : Memory}
    (hname : changedTable? plan = some name) (ht : c.transaction = some t) (hheld : t.Held files c.store)
    (htable : Connection.table files name c = .ok table) (hlocks : Locks files t.ticket table.id c.store m)
    {staged : Table} (hm : staged ∈ ((t.hold table.id).stage { table with rows }).staged) :
    ((∃ before ∈ t.staged, before.id = staged.id) ∧
      files.lines? staged.id m = files.lines? staged.id c.store) ∨
    ∃ content, Sees files c staged.id content plan ∧
      files.lines? staged.id m = some (t.ticket.lockLine :: content) := by
  rcases Transaction.mem_staged_stage hm with rfl | hm
  · obtain ⟨hid, hs | ⟨-, ls, holder, hl, hd⟩⟩ := table_eq_ok htable
    · obtain ⟨t', ht', hs⟩ := staged?_eq_some.1 hs
      obtain rfl := Option.some.inj (ht.symm.trans ht')
      obtain ⟨hbefore, -⟩ := Transaction.staged?_eq_some hs
      exact .inl ⟨⟨table, hbefore, rfl⟩, hlocks.lines?_of_holds (hheld table hbefore)⟩
    · obtain ⟨-, rfl⟩ := tableId_eq_ok hid
      obtain ⟨ls', hl', hfile⟩ := hlocks.lines?_self
      obtain rfl := Option.some.inj (hl.symm.trans hl')
      exact .inr ⟨dropLock ls, .read hname htable hl hd rfl, hfile⟩
  · exact .inl ⟨⟨staged, hm, rfl⟩, hlocks.lines?_of_holds (hheld staged hm)⟩

/-- After a statement, a staged table was staged before and its file has not changed, or the
statement has seen the content of the file. -/
theorem Effect.content (he : Effect files ticket c plan c') (hc : c.Plain)
    (hplan : ∀ name, plan.target? = some name → PlainName name)
    (hdrop : ∀ name, plan ≠ .dropDatabase name)
    (hheld : ∀ t, c.transaction = some t → t.Held files c.store) {t' : Transaction}
    (ht' : c'.transaction = some t') {table : Table} (hm : table ∈ t'.staged) :
    ∃ t, c.transaction = some t ∧ t.ticket = t'.ticket ∧
      (((∃ staged ∈ t.staged, staged.id = table.id) ∧
        files.lines? table.id c'.store = files.lines? table.id c.store) ∨
      ∃ content, Sees files c table.id content plan ∧
        files.lines? table.id c'.store = some (t'.ticket.lockLine :: content)) := by
  -- Which other files the statement writes does not matter: names are plain, so they are not this one.
  have hid' : table.id.Plain := (he.plain hc hplan).transaction t' ht' table hm
  have hne {id : TableId} (hid : id.Plain) (h : table.id ≠ id) :
      files.place table.id ≠ files.place id := fun hp =>
    h (Catalog.place_injective hid'.database hid'.name hid.database hid.name hp)
  obtain ⟨t, ht, hticket, hfrom⟩ := he.stagedFrom ht' hm
  refine ⟨t, ht, hticket, ?_⟩
  -- A statement that changes no records has not staged the table.
  have hstaged (hplan : changedTable? plan = none) : ∃ staged ∈ t.staged, staged.id = table.id := by
    rcases hfrom.id_eq with h | ⟨name, hname, -⟩
    · exact h
    · rw [hplan] at hname
      cases hname
  have hholds (hplan : changedTable? plan = none) : Holds t.ticket c.store (files.place table.id) := by
    obtain ⟨staged, hm, hid⟩ := hstaged hplan
    rw [← hid]
    exact hheld t ht staged hm
  cases he with
  | nothing =>
    obtain rfl := Option.some.inj (ht.symm.trans ht')
    exact .inl ⟨⟨table, hm, rfl⟩, rfl⟩
  | databaseUsed | copyAltered | copyExtended => exact .inl ⟨hstaged rfl, rfl⟩
  | databaseCreated => exact .inl ⟨hstaged rfl, Memory.lines?_addDirectory⟩
  | databaseDropped => exact absurd rfl (hdrop _)
  | @tableCreated name schema id _ hl =>
    have hp : files.place table.id ≠ files.place id := fun hp =>
      (hholds rfl).isSome ((congrArg c.store.lines? hp).trans hl)
    exact .inl ⟨hstaged rfl, Memory.lines?_put_of_ne hp⟩
  | @tableDropped name id ls hid =>
    obtain ⟨t, -, rfl⟩ := Option.map_eq_some_iff.1 ht'
    have hp := hne (hc.tableId (hplan name rfl) hid) (Transaction.mem_staged_forgetTable.1 hm).2
    exact .inl ⟨hstaged rfl, Memory.lines?_erase.trans (if_neg hp)⟩
  | @fileAltered name field id ls ls' transaction hid hl _ _ halter =>
    by_cases hi : table.id = id
    · subst hi
      obtain ⟨-, rfl⟩ := tableId_eq_ok hid
      have hholder := Catalog.alteredLines_holder? halter ((hholds rfl).holder? hl)
      obtain ⟨content, rfl⟩ := holder?_eq_some.1 hholder
      refine .inr ⟨content, .altered hid hl halter dropLock_lockLine_cons, ?_⟩
      rw [← hticket]
      exact Memory.lines?_put_self
    · have hp := hne (hc.tableId (hplan name rfl) hid) hi
      exact .inl ⟨hstaged rfl, Memory.lines?_put_of_ne hp⟩
  | @fileExtended name tuples id ls holder schema rows hid hs =>
    have hi : table.id ≠ id := by
      rintro rfl
      obtain ⟨staged, hm, hid⟩ := hstaged rfl
      have hsome := Transaction.isSome_staged? hm
      rw [staged?, ht, Option.bind_some] at hs
      simp [hid, hs] at hsome
    have hp := hne (hc.tableId (hplan name rfl) hid) hi
    exact .inl ⟨hstaged rfl, Memory.lines?_put_of_ne hp⟩
  | aborted | committed => cases ht'
  | heldForNothing _ hc' =>
    obtain rfl := Option.some.inj (ht.symm.trans hc')
    cases ht'
    exact .inl ⟨⟨table, hm, rfl⟩, rfl⟩
  | takenForNothing _ hc' _ hl =>
    obtain rfl := Option.some.inj (ht.symm.trans hc')
    cases ht'
    exact .inl ⟨⟨table, hm, rfl⟩, Memory.lines?_put_of_lines? hl⟩
  | changed hname hc' htable _ _ hlocks =>
    obtain rfl := Option.some.inj (ht.symm.trans hc')
    cases ht'
    exact sees_of_changed hname ht (hheld t ht) htable hlocks hm
  | begun => cases ht'; cases hm

end Connection

end TextTables
