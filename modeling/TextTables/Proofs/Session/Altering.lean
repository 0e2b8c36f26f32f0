import TextTables.Proofs.Session.WellFormed
/-!
# What an alteration leaves behind

An alteration changes the staged copy of a table before its file. `alterTable_cases`: over files that can
be read, in directories that are there, one that fails leaves everything as it was, or else it leaves the
new field in the staged copy, because the copy lacked a field that the file has.
-/

namespace TextTables

namespace Connection

variable {files : Catalog} {ticket : Ticket} {c c' : Connection Memory} {plan : Plan} {name : String}
  {field : Field}

/-! ## Files in directories -/

/-- A statement keeps files in directories, if it creates no table. -/
theorem Effect.rooted (he : Effect files ticket c plan c') (hplan : ∀ name schema, plan ≠ .createTable name schema)
    (h : c.store.Rooted) : c'.store.Rooted := by
  cases he with
  | nothing | databaseUsed | copyAltered | copyExtended | heldForNothing | begun => exact h
  | databaseCreated => exact h.addDirectory _
  | databaseDropped => exact h.removeDirectory _
  | tableCreated => exact absurd rfl (hplan _ _)
  | tableDropped => exact h.erase _
  | fileAltered _ hl => exact h.put_of_lines? hl
  | fileExtended _ _ hl => exact h.put_of_lines? hl
  | takenForNothing _ _ _ hl => exact h.put_of_lines? hl
  | aborted => exact (Transaction.abort_released files _ _).rooted h
  | changed _ _ _ _ _ hlocks =>
    cases hlocks with
    | held => exact h
    | taken hl => exact h.put_of_lines? hl
  | committed =>
    exact (Transaction.commit_released files _ _).rooted (Transaction.rooted_putAll files _ h fun entry hentry =>
      (Transaction.mem_written files _ hentry).2)

/-- A table is created in the directory of its database. -/
theorem createTable_rooted (name : String) (schema : Schema) (h : c.store.Rooted) :
    (Action.after (createTable files name schema) c).store.Rooted := by
  cases hid : tableId name c with
  | error e =>
    rw [createTable, Action.after_bind_error (Action.ask_error hid)]
    exact h
  | ok id =>
    rw [Action.after, createTable_apply files name schema hid]
    cases hd : files.hasDirectory id c.store with
    | false => exact h
    | true =>
      cases (files.lines? id c.store).isSome with
      | true => exact h
      | false => exact h.put (Catalog.hasDirectory_iff.1 hd)

variable (ticket) in
/-- Every statement keeps files in directories. -/
theorem run_rooted (plan : Plan) (h : c.store.Rooted) :
    (Action.after (run files ticket plan) c).store.Rooted := by
  by_cases hplan : ∃ name schema, plan = .createTable name schema
  · obtain ⟨name, schema, rfl⟩ := hplan
    rw [run, Action.after_bind_pure]
    exact createTable_rooted name schema h
  · exact (run_effect ticket plan c).rooted (fun name schema heq => hplan ⟨name, schema, heq⟩) h

/-! ## Alterations -/

variable (files) in
/-- The session has staged a copy of a table that lacks a field of its file, which no other transaction
holds. -/
def LacksFieldOfFile (c : Connection Memory) (id : TableId) (fieldName : String) : Prop :=
  ∃ copy ls holder table, c.staged? id = some copy ∧ files.lines? id c.store = some ls ∧ Free c ls ∧
    decodeTable id ls = .ok (holder, table) ∧ ¬ copy.Names fieldName ∧ table.Names fieldName

/-- The staged copy of a table takes a field unless it has one of the name. -/
theorem addStagedField_cases (id : TableId) (field : Field) (c : Connection Memory) :
    (c.staged? id = none ∧ addStagedField id field c = .ok () c) ∨
    (∃ copy, c.staged? id = some copy ∧ copy.Names field.name ∧
      addStagedField id field c = .error (.duplicateField field.name) c) ∨
    ∃ t copy copy', c.transaction = some t ∧ c.staged? id = some copy ∧ ¬ copy.Names field.name ∧
      copy.addField field = .ok copy' ∧
      addStagedField id field c = .ok () { c with transaction := some (t.stage copy') } := by
  rw [addStagedField, Action.bind_ok (Action.get_apply c)]
  cases hs : c.staged? id with
  | none => exact .inl ⟨rfl, rfl⟩
  | some copy =>
    dsimp only
    by_cases hnames : copy.Names field.name
    · rw [Action.bind_error (Action.of_error (Table.addField_names hnames) c)]
      exact .inr (.inl ⟨copy, rfl, hnames, rfl⟩)
    · have hadd := Table.addField_of_not_names hnames
      obtain ⟨t, ht, -⟩ := staged?_eq_some.1 hs
      rw [Action.bind_ok (Action.of_ok hadd c), onTransaction_apply, ht]
      exact .inr (.inr ⟨t, copy, _, rfl, rfl, hnames, hadd, rfl⟩)

theorem alterTable_of_free {id : TableId} {ls : List String} (hid : tableId name c = .ok id)
    (hl : files.lines? id c.store = some ls) (hfree : Free c ls) :
    alterTable files name field c =
      (do addStagedField id field; onStore (files.addField id field)) c := by
  have htable : requireTable files id c = .ok () := by
    rw [requireTable, Catalog.tableExists_eq, hl]
    rfl
  have hforeign : requireNotForeign files id c = .ok () := requireNotForeign_eq_ok.2 ⟨ls, hl, hfree⟩
  rw [alterTable, Action.bind_ok (Action.ask_ok hid), Action.bind_ok (Action.ask_ok htable),
    Action.bind_ok (Action.ask_ok hforeign)]

/-- A table that is not there, or is held by another transaction, is not altered at all. -/
theorem alterTable_of_not_free (field : Field) {id : TableId} (hid : tableId name c = .ok id)
    (hfree : ∀ ls, files.lines? id c.store = some ls → ¬ Free c ls) :
    ∃ e, alterTable files name field c = .error e c := by
  rw [alterTable, Action.bind_ok (Action.ask_ok hid)]
  cases htable : requireTable files id c with
  | error e => exact ⟨e, Action.bind_error (Action.ask_error htable)⟩
  | ok _ =>
    cases hforeign : requireNotForeign files id c with
    | error e => exact ⟨e, by rw [Action.bind_ok (Action.ask_ok htable), Action.bind_error (Action.ask_error hforeign)]⟩
    | ok _ =>
      obtain ⟨ls, hl, hls⟩ := requireNotForeign_eq_ok.1 hforeign
      exact absurd hls (hfree ls hl)

/-- An alteration is done, or fails and changes nothing, or fails and leaves the field in the staged copy,
which lacked it while the file had it. -/
theorem alterTable_cases (hc : c.WellFormed) (hrooted : c.store.Rooted) (hfield : field.WellFormed)
    (name : String) :
    (∃ c', alterTable files name field c = .ok () c') ∨
    (∃ e, alterTable files name field c = .error e c ∧
      ∀ id, tableId name c = .ok id → ¬ LacksFieldOfFile files c id field.name) ∨
    ∃ id t copy copy', tableId name c = .ok id ∧ LacksFieldOfFile files c id field.name ∧
      c.transaction = some t ∧ c.staged? id = some copy ∧ copy.addField field = .ok copy' ∧
      alterTable files name field c =
        .error (.duplicateField field.name) { c with transaction := some (t.stage copy') } := by
  cases hid : tableId name c with
  | error e =>
    refine .inr (.inl ⟨e, by rw [alterTable, Action.bind_error (Action.ask_error hid)], fun id hid' => ?_⟩)
    cases hid'
  | ok id =>
    by_cases hfree : ∃ ls, files.lines? id c.store = some ls ∧ Free c ls
    · obtain ⟨ls, hl, hfree⟩ := hfree
      obtain ⟨table, hd, htable⟩ := (hc.store _ ls hl).decodeTable_eq id
      -- Which fields the file has decides what it does, after the copy as before.
      have hlacks (h : LacksFieldOfFile files c id field.name) : table.Names field.name ∧
          ∃ copy, c.staged? id = some copy ∧ ¬ copy.Names field.name := by
        obtain ⟨copy, ls', holder, table', hs, hl', -, hd', hcopy, hfile⟩ := h
        obtain rfl := Option.some.inj (hl'.symm.trans hl)
        obtain ⟨-, rfl⟩ := Prod.mk.inj (Except.ok.inj (hd'.symm.trans hd))
        exact ⟨hfile, copy, hs, hcopy⟩
      rw [alterTable_of_free hid hl hfree]
      rcases addStagedField_cases id field c with ⟨hs, hadd⟩ | ⟨copy, hs, hnames, hadd⟩ |
        ⟨t, copy, copy', ht, hs, hnames, hcopy, hadd⟩
      · rw [Action.bind_ok hadd, onStore_apply]
        by_cases hfile : table.Names field.name
        · rw [Catalog.addField_names hl hd hfile]
          refine .inr (.inl ⟨_, rfl, ?_⟩)
          rintro _ ⟨⟩ h
          obtain ⟨-, copy, hs', -⟩ := hlacks h
          rw [hs] at hs'
          cases hs'
        · obtain ⟨ls', hadded, -⟩ :=
            Catalog.exists_addField hfield hl (Catalog.hasDirectory_of_rooted hrooted hl) hd htable hfile
          rw [hadded]
          exact .inl ⟨_, rfl⟩
      · rw [Action.bind_error hadd]
        refine .inr (.inl ⟨_, rfl, ?_⟩)
        rintro _ ⟨⟩ h
        obtain ⟨-, copy', hs', hcopy⟩ := hlacks h
        obtain rfl := Option.some.inj (hs.symm.trans hs')
        exact hcopy hnames
      · rw [Action.bind_ok hadd, onStore_apply]
        by_cases hfile : table.Names field.name
        · dsimp only
          rw [Catalog.addField_names hl hd hfile]
          exact .inr (.inr ⟨id, t, copy, copy', rfl, ⟨copy, ls, _, table, hs, hl, hfree, hd, hnames, hfile⟩,
            ht, hs, hcopy, rfl⟩)
        · obtain ⟨ls', hadded, -⟩ :=
            Catalog.exists_addField hfield hl (Catalog.hasDirectory_of_rooted hrooted hl) hd htable hfile
          dsimp only
          rw [hadded]
          exact .inl ⟨_, rfl⟩
    · obtain ⟨e, halter⟩ := alterTable_of_not_free field hid fun ls hl hls => hfree ⟨ls, hl, hls⟩
      refine .inr (.inl ⟨e, halter, ?_⟩)
      rintro _ ⟨⟩ ⟨_, ls, _, _, -, hl, hls, -⟩
      exact hfree ⟨ls, hl, hls⟩

end Connection

end TextTables
