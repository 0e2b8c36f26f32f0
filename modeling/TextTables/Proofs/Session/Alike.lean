import TextTables.Proofs.Session.Immediate
/-!
# Statements that are answered alike

A session and the one that writes every change at once answer every statement but `ALTER TABLE` alike,
and the second shows the first after it as before: `Shows.execute`. Staging a table is writing it,
committing is doing nothing, and everything else changes both stores in the same way.
-/

namespace TextTables.Connection

variable {files : Catalog} {c c' : Connection Memory} {s s' : Immediate} {t : Transaction}
  {id : TableId} {name : String} {table : Table} {tuples : List (List Expression)}

namespace Shows

/-! ## Databases -/

theorem createDatabase (h : Shows files c s) (name : String) :
    Alike files Eq (createDatabase files name c)
      (Immediate.lift (Connection.createDatabase files name) s) := by
  rw [Immediate.lift, createDatabase_apply, createDatabase_apply,
    show s.connection.store.directories = c.store.directories from h.settled.directories]
  by_cases hd : c.store.directories.contains (files.databasePath name).place = true
  · rw [if_pos hd, if_pos hd]
    exact .error h
  · rw [if_neg hd, if_neg hd]
    exact .ok rfl ⟨h.active, h.database, h.plain, h.sound.addDirectory _, h.settled.addDirectory _⟩

theorem useDatabase (h : Shows files c s) (hname : PlainName name) :
    Alike files Eq (useDatabase files name c)
      (Immediate.lift (Connection.useDatabase files name) s) := by
  rw [Immediate.lift, useDatabase_apply, useDatabase_apply,
    show s.connection.store.directories = c.store.directories from h.settled.directories]
  by_cases hd : c.store.directories.contains (files.databasePath name).place = true
  · rw [if_pos hd, if_pos hd]
    exact .ok rfl ⟨h.active, rfl, fun _ hn => Option.some.inj hn ▸ hname, h.sound, h.settled⟩
  · rw [if_neg hd, if_neg hd]
    exact .error h

theorem work_map {f : Transaction → Transaction} (hf : f (.start ⟨""⟩) = .start ⟨""⟩)
    (database : Option String) : Session.work ⟨c.transaction.map f, database⟩ = f c.work := by
  rw [Session.work, Session.work]
  cases c.transaction with
  | none => exact hf.symm
  | some t => rfl

theorem dropDatabase (h : Shows files c s) (hname : PlainName name) :
    Alike files Eq (dropDatabase files name c)
      (Immediate.lift (Connection.dropDatabase files name) s) := by
  rw [Immediate.lift, dropDatabase_apply, dropDatabase_apply,
    show s.connection.store.directories = c.store.directories from h.settled.directories]
  by_cases hd : c.store.directories.contains (files.databasePath name).place = true
  · rw [if_pos hd, if_pos hd]
    refine .ok rfl ⟨h.active.trans ?_, ?_, fun other hother => ?_, h.sound.removeDirectory _, ?_⟩
    · rw [Option.isSome_map]
    · rw [show s.connection.database = c.database from h.database]
    · dsimp only at hother
      split at hother
      · cases hother
      · exact h.plain other hother
    · rw [work_map rfl]
      exact h.settled.removeDirectory hname
  · rw [if_neg hd, if_neg hd]
    exact .error h

/-! ## Tables -/

theorem isSome_lines? (h : Shows files c s) (id : TableId) :
    (files.lines? id s.store).isSome = (files.lines? id c.store).isSome :=
  h.settled.isSome_lines? id

theorem requireTable_of_some {ls : List String} (hl : files.lines? id c.store = some ls) :
    requireTable files id c = .ok () := by
  rw [requireTable, Catalog.tableExists_eq, hl]
  rfl

theorem requireTable_of_none (hl : files.lines? id c.store = none) :
    requireTable files id c = .error (.tableNotFound id.name) := by
  rw [requireTable, Catalog.tableExists_eq, hl]
  rfl

theorem requireNotForeign_of_free {ls : List String} (hl : files.lines? id c.store = some ls)
    (hfree : Free c ls) : requireNotForeign files id c = .ok () :=
  requireNotForeign_eq_ok.2 ⟨ls, hl, hfree⟩

/-- A session that has staged a table is inside a transaction. -/
theorem transaction_eq {session : Session} (hm : table ∈ session.work.staged) :
    session.transaction = some session.work := by
  rw [Session.work] at hm ⊢
  cases ht : session.transaction with
  | none =>
    rw [ht] at hm
    cases hm
  | some t => rfl

/-- No file is held by another transaction. -/
theorem free (h : Shows files c s) {ls : List String} (hl : files.lines? id c.store = some ls) :
    Free c ls := by
  intro holder hh
  obtain ⟨rfl, table, hm, -⟩ := h.settled.holder?_eq_some h.sound hl hh
  rw [ticket?, transaction_eq hm]
  rfl

theorem createTable (h : Shows files c s) {schema : Schema} (hschema : schema.WellFormed) :
    Alike files Eq (createTable files name schema c)
      (Immediate.lift (Connection.createTable files name schema) s) := by
  cases hid : tableId name c with
  | error e =>
    rw [Connection.createTable, Action.bind_error (Action.ask_error hid), Immediate.lift_error
      (Action.bind_error (Action.ask_error ((h.tableId_eq name).trans hid)))]
    exact .error h
  | ok id =>
    rw [Immediate.lift, createTable_apply files name schema hid,
      createTable_apply files name schema ((h.tableId_eq name).trans hid),
      show files.hasDirectory id s.connection.store = files.hasDirectory id c.store from
        h.settled.hasDirectory,
      show (files.lines? id s.connection.store).isSome = (files.lines? id c.store).isSome from
        h.isSome_lines? id]
    by_cases hd : files.hasDirectory id c.store = true
    · rw [if_pos hd, if_pos hd]
      by_cases hl : (files.lines? id c.store).isSome = true
      · rw [if_pos hl, if_pos hl]
        exact .error h
      · rw [if_neg hl, if_neg hl]
        -- The file is new, so no table is staged that has it.
        have hnew : ∀ table ∈ c.work.staged, files.place table.id ≠ files.place id := by
          intro table hm hp
          have hheld := h.settled.held table hm
          rw [hp] at hheld
          exact hl (Option.isSome_iff_ne_none.2 hheld.isSome)
        have htable : Table.WellFormed ⟨id, schema, []⟩ := ⟨hschema, by simp⟩
        exact .ok rfl ⟨h.active, h.database, h.plain,
          h.sound.put (h.settled.hasDirectory.trans hd) htable, h.settled.put hnew _⟩
    · rw [if_neg hd, if_neg hd]
      exact .error h

theorem dropTable (h : Shows files c s) (hname : PlainName name) :
    Alike files Eq (dropTable files name c) (Immediate.lift (Connection.dropTable files name) s) := by
  cases hid : tableId name c with
  | error e =>
    rw [Connection.dropTable, Action.bind_error (Action.ask_error hid), Immediate.lift_error
      (Action.bind_error (Action.ask_error ((h.tableId_eq name).trans hid)))]
    exact .error h
  | ok id =>
    have hplain := h.plain_of_tableId hname hid
    have hsome := h.isSome_lines? id
    rw [Immediate.lift, dropTable_apply files name hid,
      dropTable_apply files name ((h.tableId_eq name).trans hid)]
    cases hl : files.lines? id c.store with
    | none =>
      rw [hl, Option.isSome_none, Option.isSome_eq_false_iff, Option.isNone_iff_eq_none] at hsome
      have hl' : files.lines? id s.connection.store = none := hsome
      simp only [requireTable_of_none hl, requireTable_of_none hl']
      exact .error h
    | some ls =>
      rw [hl] at hsome
      obtain ⟨ls', hl'⟩ := Option.isSome_iff_exists.1 hsome
      have hfree' : requireNotForeign files id s.connection = .ok () :=
        requireNotForeign_of_free hl' (.of_none (h.sound.holder? hl'))
      have hthere' : requireTable files id s.connection = .ok () := requireTable_of_some hl'
      simp only [requireTable_of_some hl, hthere', requireNotForeign_of_free hl (h.free hl), hfree']
      refine .ok rfl ⟨h.active.trans Option.isSome_map.symm, h.database, h.plain, h.sound.erase _, ?_⟩
      rw [work_map rfl]
      exact h.settled.erase hplain

/-! ## New records -/

theorem insert_error {e : Error} (hschema : schema files name c = .error e) :
    insert files name tuples c = .error e c := by
  rw [insert, Action.bind_error (Action.ask_error hschema)]

theorem tupleRows_congr {schema schema' : Schema}
    (h : schema.fields.map (·.type) = schema'.fields.map (·.type)) (tuples : List (List Expression)) :
    tupleRows schema tuples = tupleRows schema' tuples := by
  have hvalues {fields fields' : List Field} (h : fields.map (·.type) = fields'.map (·.type))
      (tuple : List Expression) : tupleValues fields tuple = tupleValues fields' tuple := by
    induction fields generalizing fields' tuple with
    | nil =>
      obtain rfl : fields' = [] := by simpa using h.symm
      rfl
    | cons field fields ih =>
      obtain ⟨field', fields', rfl⟩ : ∃ field' rest, fields' = field' :: rest :=
        List.exists_cons_of_ne_nil (by rintro rfl; cases h)
      rw [List.map_cons, List.map_cons, List.cons.injEq] at h
      cases tuple with
      | nil => rfl
      | cons e rest => rw [tupleValues, tupleValues, h.1, ih h.2]
  have hwidth : schema.width = schema'.width := by simpa [Schema.width] using congrArg List.length h
  induction tuples with
  | nil => rfl
  | cons tuple rest ih => rw [tupleRows, tupleRows, ih, tupleRow, tupleRow, hwidth, hvalues h]

theorem same_extend {m : Memory} {p : Place} {ls : List String} (hl : m.lines? p = some ls)
    (rows : List Row) : Memory.Same (m.put p (ls ++ rows.map renderRow)) (extend m p ls rows) := by
  cases rows with
  | nil =>
    rw [List.map_nil, List.append_nil]
    exact ⟨rfl, fun q => (Memory.lines?_put_of_lines? hl).symm⟩
  | cons row rest => exact ⟨rfl, fun q => rfl⟩

theorem schema_missing (hid : tableId name c = .ok id) (hs : c.staged? id = none)
    (hl : files.lines? id c.store = none) : schema files name c = .error (.tableNotFound id.name) := by
  rw [schema, hid]
  simp only [bind, Except.bind, hs, Catalog.header_eq, hl]

/-- Records for a staged table: the longer copy is written as the file with the records at its end. -/
theorem insert_copy (h : Shows files c s) (hid : tableId name c = .ok table.id) (hm : table ∈ c.work.staged)
    (hs : c.work.staged? table.id = some table) (tuples : List (List Expression)) :
    Alike files Eq (insert files name tuples c)
      (Immediate.lift (Connection.insert files name tuples) s) := by
  have ht : c.transaction = some c.work := transaction_eq hm
  have htable := h.settled.loaded table hm
  have hl : files.lines? table.id s.connection.store = some table.lines := h.settled.staged table hm
  have htypes := tupleRows_congr (table.schema.types_under none) tuples
  rw [insert_staged files hid ht hs, Immediate.lift, insert_unstaged ((h.tableId_eq name).trans hid) rfl hl
    (htable.decodeHeader_lines table.id.name), htypes]
  cases hrows : tupleRows table.schema tuples with
  | error e => exact .error h
  | ok rows =>
    dsimp only
    cases henc : requireEncodable rows with
    | error e => exact .error h
    | ok _ =>
      have hpush : table.pushAll rows = .ok { table with rows := table.rows ++ rows } :=
        Table.pushAll_of_length fun row hrow => (tupleRows_types hrows row hrow).length_eq
      simp only [hpush, requireNotForeign_of_free hl (.of_none htable.holder?_lines)]
      have hnew := htable.append (rowFits_of_tupleRows hrows henc)
      have hstage := h.settled.stage hnew (h.settled.held table hm) rfl fun _ _ => rfl
      have hput := h.sound.put (h.sound.hasDirectory hl) hnew.toWellFormed
      rw [Table.lines_append] at hstage hput
      have hsame := same_extend hl rows
      exact .ok rfl ⟨h.active.trans (by rw [ht]; rfl), h.database, h.plain, hput.congr hsame,
        hstage.congr ⟨rfl, fun _ => rfl⟩ hsame⟩

/-- Records for any other table: its file is longer in both stores. -/
theorem insert_file (h : Shows files c s) (hplain : id.Plain) (hid : tableId name c = .ok id)
    (hs : c.work.staged? id = none) (tuples : List (List Expression)) :
    Alike files Eq (insert files name tuples c)
      (Immediate.lift (Connection.insert files name tuples) s) := by
  have hid' : tableId name s.connection = .ok id := (h.tableId_eq name).trans hid
  have hsame : files.lines? id s.connection.store = files.lines? id c.store := h.settled.lines?_eq hplain hs
  have hunstaged := h.settled.place_ne hplain hs
  rw [← staged?_eq_work] at hs
  cases hl : files.lines? id c.store with
  | none =>
    rw [insert_error (schema_missing hid hs hl),
      Immediate.lift_error (insert_error (schema_missing hid' rfl (hsame.trans hl)))]
    exact .error h
  | some ls =>
    have hl' : files.lines? id s.connection.store = some ls := hsame.trans hl
    obtain ⟨table, htable, rfl⟩ := h.sound.tables _ _ hl'
    have hheader := htable.decodeHeader_lines id.name
    rw [insert_unstaged hid hs hl hheader, Immediate.lift, insert_unstaged hid' rfl hl' hheader]
    cases hrows : tupleRows (table.schema.under none) tuples with
    | error e => exact .error h
    | ok rows =>
      dsimp only
      cases henc : requireEncodable rows with
      | error e => exact .error h
      | ok _ =>
        simp only [requireNotForeign_of_free hl (h.free hl),
          requireNotForeign_of_free hl' (.of_none htable.holder?_lines)]
        have hnew := htable.append fun row hrow =>
          (rowFits_of_tupleRows hrows henc row hrow).of_types (table.schema.types_under none)
        have hput := h.sound.put (h.sound.hasDirectory hl') hnew
        rw [Table.lines_append] at hput
        exact .ok rfl ⟨h.active, h.database, h.plain, hput.congr (same_extend hl' rows),
          (h.settled.put hunstaged _).congr (same_extend hl rows) (same_extend hl' rows)⟩

theorem insert (h : Shows files c s) (hname : PlainName name) (tuples : List (List Expression)) :
    Alike files Eq (insert files name tuples c)
      (Immediate.lift (Connection.insert files name tuples) s) := by
  cases hid : tableId name c with
  | error e =>
    have hschema : schema files name c = .error e := by rw [schema, hid]; rfl
    have hschema' : schema files name s.connection = .error e := by
      rw [schema, (h.tableId_eq name).trans hid]
      rfl
    rw [insert_error hschema, Immediate.lift_error (insert_error hschema')]
    exact .error h
  | ok id =>
    cases hs : c.work.staged? id with
    | some table =>
      obtain ⟨hm, rfl⟩ := Transaction.staged?_eq_some hs
      exact h.insert_copy hid hm hs tuples
    | none => exact h.insert_file (h.plain_of_tableId hname hid) hid hs tuples

/-! ## Changed records -/

theorem lockedInVain (h : Shows files c s) (ht : c.transaction = some t) (hid : id.Plain)
    (hvain : LockedInVain files c t id c') : Shows files c' s := by
  have hsettled := h.settled_active ht
  have hactive : s.active = true := by rw [h.active, ht]; rfl
  cases hvain with
  | kept hl hh =>
    obtain ⟨-, table, hm, hp⟩ := hsettled.holder?_eq_some h.sound hl hh
    have hplain := (hsettled.loaded table hm).plain
    have heq := Catalog.place_injective hplain.database hplain.name hid.database hid.name hp
    exact ⟨hactive, h.database, h.plain, h.sound, hsettled.hold ⟨table, hm, heq⟩⟩
  | givenBack hl => exact ⟨hactive, h.database, h.plain, h.sound, hsettled.given_back hl⟩

theorem persist_apply {files : Catalog} {table : Table} {m : Memory} (htable : table.WellFormed)
    (hd : files.hasDirectory table.id m = true) :
    files.persist table m = .ok () (m.put (files.place table.id) table.lines) := by
  rw [Catalog.persist, Action.bind_ok (Action.of_ok htable.encodeTable m), Catalog.writeLines_apply,
    if_pos hd]

theorem change (h : Shows files c s) (ht : c.transaction = some t) (htable : table.Loaded)
    (hthere : ∃ ls, files.lines? table.id s.store = some ls) {rows : Except Error (List Row × Nat)}
    (hrows : ∀ rs count, rows = .ok (rs, count) → ∀ row ∈ rs, RowFits table.schema row) :
    Alike files Eq (change files table rows c) (Immediate.change files table rows s) := by
  obtain ⟨ls, hl⟩ := hthere
  have hd := h.sound.hasDirectory hl
  have hsettled := h.settled_active ht
  have hactive : s.active = true := by rw [h.active, ht]; rfl
  rcases change_apply files table rows ht with ⟨hmissing, -⟩ | ⟨ls', holder, e, hl', hh, hne, -⟩ |
    ⟨store, again, hlocks, hvain, hchange⟩
  · -- The file and its directory are there.
    have hsome := h.isSome_lines? table.id
    rw [hl] at hsome
    cases hmissing with
    | missing hmissing =>
      rw [hmissing] at hsome
      cases hsome
    | unwritable _ _ hmissing =>
      rw [← h.settled.hasDirectory, hd] at hmissing
      cases hmissing
  · exact absurd (hsettled.holder?_eq_some h.sound hl' hh).1 hne
  · have hagain := h.lockedInVain ht htable.plain hvain
    rw [hchange, Immediate.change]
    rcases rows with e | ⟨rs, count⟩
    · exact .error hagain
    · rw [Action.bind_ok (Action.of_ok rfl s)]
      by_cases hcount : 0 < count
      · have hnew := htable.with_rows (hrows rs count rfl)
        have hpersist : Immediate.lift (onStore (files.persist { table with rows := rs })) s = .ok ()
            { s with store := s.store.put (files.place table.id) (Table.lines { table with rows := rs }) } := by
          have hwrite := persist_apply (m := s.store) hnew.toWellFormed hd
          rw [Immediate.lift, onStore_apply, show s.connection.store = s.store from rfl, hwrite]
          rfl
        dsimp only
        rw [if_pos hcount, if_pos hcount, Action.bind_ok hpersist, Action.pure_apply]
        exact .ok rfl ⟨hactive, h.database, h.plain, h.sound.put hd hnew.toWellFormed,
          hsettled.stage_locked hnew hlocks⟩
      · dsimp only
        rw [if_neg hcount, if_neg hcount]
        exact .ok rfl hagain

/-- The parts of a change of records that come before the change. -/
theorem changed (h : Shows files c s) (hname : PlainName name)
    {f : Table → Action (Connection Memory) Nat} {g : Table → Action Immediate Nat}
    (hfg : ∀ t table, c.transaction = some t → Connection.table files name c = .ok table →
      Alike files Eq (f table c) (g table s)) :
    Alike files Eq ((do let _ ← activeTransaction; f (← Action.ask (Connection.table files name))) c)
      ((do Immediate.requireActive; g (← Immediate.lift (Action.ask (Connection.table files name)))) s) := by
  cases ht : c.transaction with
  | none =>
    rw [Action.bind_error (activeTransaction_idle ht), Action.bind_error (h.requireActive_idle ht)]
    exact .error h
  | some t =>
    rw [Action.bind_ok (activeTransaction_ok ht), Action.bind_ok (h.requireActive_ok ht)]
    cases htable : Connection.table files name c with
    | error e =>
      have htable' : Connection.table files name s.connection = .error e := (h.table_eq hname).trans htable
      rw [Action.bind_error (Action.ask_error htable),
        Action.bind_error (Immediate.lift_error (Action.ask_error htable'))]
      exact .error h
    | ok table =>
      have htable' : Connection.table files name s.connection = .ok table := (h.table_eq hname).trans htable
      rw [Action.bind_ok (Action.ask_ok htable),
        Action.bind_ok (Immediate.lift_ok (Action.ask_ok htable'))]
      exact hfg t table ht htable

theorem update (h : Shows files c s) (hname : PlainName name) (columns : List (String × Expression))
    (condition : Option Expression) :
    Alike files Eq (update files name columns condition c)
      (Immediate.update files name columns condition s) := by
  refine h.changed hname fun t table ht htable => ?_
  cases hcolumns : resolveColumns table.schema columns with
  | error e => exact .error h
  | ok assignments =>
    obtain ⟨hloaded, hthere⟩ := h.loaded hname htable
    refine h.change ht hloaded hthere fun rs count hrows => ?_
    have hnew : NewRows table (.update name columns condition) rs count := .update hcolumns hrows
    exact hnew.rowFits hloaded.toWellFormed

theorem delete (h : Shows files c s) (hname : PlainName name) (condition : Option Expression) :
    Alike files Eq (delete files name condition c) (Immediate.delete files name condition s) := by
  refine h.changed hname fun t table ht htable => ?_
  obtain ⟨hloaded, hthere⟩ := h.loaded hname htable
  refine h.change ht hloaded hthere fun rs count hrows => ?_
  have hnew : NewRows table (.delete name condition) rs count := .delete hrows
  exact hnew.rowFits hloaded.toWellFormed

/-! ## Transactions -/

theorem begin (h : Shows files c s) (ticket : Ticket) :
    Alike files Eq (begin ticket c) (Immediate.begin s) := by
  rw [Connection.begin, Immediate.begin, h.active, isActive]
  cases ht : c.transaction with
  | some t => exact .error h
  | none => exact .ok rfl ⟨rfl, h.database, h.plain, h.sound, settled_start.2 (h.same ht)⟩

/-- Committing is answered alike but for the number of tables that it has written. -/
theorem commit (h : Shows files c s) :
    Alike files (fun _ _ => True) (commit files c) (Immediate.commit s) := by
  cases ht : c.transaction with
  | none =>
    rw [Connection.commit, Immediate.commit, Action.bind_error (activeTransaction_idle ht),
      Action.bind_error (h.requireActive_idle ht)]
    exact .error h
  | some t =>
    obtain ⟨m', hcommit, hsame⟩ := (h.settled_active ht).commit h.sound
    rw [commit_apply files ht, show t.commit files c.store = _ from hcommit, Immediate.commit,
      Action.bind_ok (h.requireActive_ok ht)]
    exact .ok trivial ⟨rfl, h.database, h.plain, h.sound, settled_start.2 hsame⟩

/-! ## Statements -/

theorem aggregate_apply (ticket : Ticket) (source : Relation) (function : String)
    (field : Option FieldRef) (c : Connection Memory) :
    Connection.run files ticket (.aggregate source function field) c =
      match source.table files c with
      | .error e => .error e c
      | .ok table => match table.aggregate function field with
        | .error e => .error e c
        | .ok (label, value) => .ok (.aggregate label value) c := by
  rw [Connection.run, Action.bind_apply, Action.ask_apply]
  cases source.table files c with
  | error e => rfl
  | ok table =>
    dsimp only
    rw [Action.bind_apply, Action.of_apply]
    cases table.aggregate function field <;> rfl

/-- Every plan but one that adds a field is done alike, the number of written tables aside. -/
theorem run (h : Shows files c s) {plan : Plan} (hproper : plan.Proper)
    (hnames : ∀ name ∈ plan.names, PlainName name) (halters : plan.alters = false) (ticket : Ticket) :
    Alike files (fun a b => a.uncounted = b.uncounted) (run files ticket plan c)
      (Immediate.run files plan s) := by
  have hlift {α : Type} {x : Action (Connection Memory) α} {f : α → Outcome}
      (hx : Alike files Eq (x c) (Immediate.lift x s)) :
      Alike files (fun a b => a.uncounted = b.uncounted) ((x >>= fun a => pure (f a)) c)
        (Immediate.lift (x >>= fun a => pure (f a)) s) := by
    rw [Immediate.lift_bind_pure]
    exact hx.bind_pure fun _ _ hab => by rw [hab]
  cases plan with
  | createDatabase name => exact hlift (h.createDatabase name)
  | dropDatabase name => exact hlift (h.dropDatabase (hnames name (List.mem_singleton_self _)))
  | useDatabase name => exact hlift (h.useDatabase (hnames name (List.mem_singleton_self _)))
  | createTable name schema => exact hlift (h.createTable hproper)
  | dropTable name => exact hlift (h.dropTable (hnames name (List.mem_singleton_self _)))
  | alterTable => cases halters
  | insert name tuples => exact hlift (h.insert (hnames name (List.mem_singleton_self _)) tuples)
  | query relation =>
    have hrelation := h.relation_eq hnames
    refine hlift ?_
    rw [Immediate.lift, Action.ask_apply, Action.ask_apply, hrelation]
    cases relation.table files c with
    | error e => exact .error h
    | ok table => exact .ok rfl h
  | aggregate source function field =>
    have hrelation := h.relation_eq hnames
    change Alike files _ _ (Immediate.lift (Connection.run files ⟨""⟩ (.aggregate source function field)) s)
    rw [Immediate.lift, aggregate_apply, aggregate_apply, hrelation]
    cases source.table files c with
    | error e => exact .error h
    | ok table =>
      dsimp only
      cases table.aggregate function field with
      | error e => exact .error h
      | ok found => exact .ok rfl h
  | update name columns condition =>
    exact (h.update (hnames name (List.mem_singleton_self _)) columns condition).bind_pure
      fun _ _ hab => by rw [hab]
  | delete name condition =>
    exact (h.delete (hnames name (List.mem_singleton_self _)) condition).bind_pure
      fun _ _ hab => by rw [hab]
  | begin => exact (h.begin ticket).bind_pure fun _ _ _ => rfl
  | commit => exact h.commit.bind_pure fun _ _ _ => rfl

end Shows

/-- A text in which the names of databases and tables are in lower case, and which adds no field to a
table. -/
def Lower (text : String) : Prop :=
  ∀ plan, Plan.ofString text = .ok plan →
    plan.alters = false ∧ ∀ name ∈ plan.names, Text.lowerCase name = name

/-- Every statement but one that adds a field is answered alike. -/
theorem Shows.execute (h : Shows files c s) {text : String} (htext : Lower text) (ticket : Ticket) :
    Alike files (fun a b => a.uncounted = b.uncounted) (execute files ticket text c)
      (Immediate.execute files text s) := by
  rw [Connection.execute, Immediate.execute]
  cases hplan : Plan.ofString text with
  | error e =>
    rw [Action.bind_error (Action.of_error rfl c), Action.bind_error (Action.of_error rfl s)]
    exact .error h
  | ok plan =>
    obtain ⟨halters, hlower⟩ := htext plan hplan
    rw [Action.bind_ok (Action.of_ok rfl c), Action.bind_ok (Action.of_ok rfl s)]
    exact h.run (Plan.proper_of_ofString hplan)
      (fun name hname => ⟨Plan.isWord_name hplan hname, hlower name hname⟩) halters ticket

end TextTables.Connection
