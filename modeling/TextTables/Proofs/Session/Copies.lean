import TextTables.Proofs.File.Unbroken
import TextTables.Proofs.Reference
import TextTables.Proofs.Session.WellFormed
/-!
# Staged copies of tables

A staged copy is a table of its file but for one thing: a field that was added to the copy itself is
read through no name, where loading would read it through the name of the table. `Table.Copy` is what
statements keep of the copies, `Table.reloaded` is what loading the written copy would give, and a
condition finds fields in the one that it does not find in the other exactly if a field was added.
-/

namespace TextTables

/-! ## Copies -/

section Copies
variable {table table' : Table} {rows : List Row}

/-- A table as a transaction keeps it. A field is read through the name of the table or through none, and
all records fit in lines if `writable` says so. -/
structure Table.Copy (writable : Prop) (table : Table) : Prop where
  schema : table.schema.WellFormed
  types : ∀ row ∈ table.rows, HasTypes table.schema.fields row
  sources : ∀ field ∈ table.schema.fields, field.source = none ∨ field.source = some table.id.name
  fits : writable → ∀ row ∈ table.rows, checkRow row = .ok ()

/-- The table that loading a written copy gives. -/
def Table.reloaded (table : Table) : Table := { table with schema := table.schema.qualify table.id.name }

namespace Table.Copy

variable {writable : Prop} {lines : List String}

theorem of_decodeTable {id : TableId} {ls : List String} {ticket : Option Ticket}
    (h : decodeTable id ls = .ok (ticket, table)) (hls : writable → Unbroken ls) : table.Copy writable where
  schema := (typed_of_decodeTable h).wellFormed_schema
  types := (typed_of_decodeTable h).rows
  sources := fun field hfield => by
    obtain ⟨_, described, -, rfl⟩ := (typed_of_decodeTable h).described field hfield
    exact .inr rfl
  fits := fun hw => checkRow_of_decodeTable h (hls hw)

theorem addField (h : table.Copy writable) {field : Field} (hfield : field.WellFormed)
    (hsource : field.source = none) (hadd : table.addField field = .ok table') : table'.Copy writable := by
  obtain ⟨schema, hschema, rfl⟩ := addField_eq_ok.1 hadd
  have hschema' := h.schema.add hfield hschema
  obtain ⟨-, rfl⟩ := Schema.add_eq_ok.1 hschema
  refine ⟨hschema', fun row hrow => ?_, fun other hother => ?_, fun hw row hrow => ?_⟩
  · obtain ⟨old, hold, rfl⟩ := List.mem_map.1 hrow
    rw [HasTypes, List.map_append, h.types old hold, List.map_append, List.map_singleton,
      List.map_singleton, FieldType.type_zero]
  · rcases List.mem_append.1 hother with hother | hother
    · exact h.sources other hother
    · exact .inl (List.mem_singleton.1 hother ▸ hsource)
  · obtain ⟨old, hold, rfl⟩ := List.mem_map.1 hrow
    exact checkRow_append (h.fits hw old hold) (field.type.checkValue_zero true)

/-- Other records of the types of the fields, each of them there before or fit for a line. -/
theorem withRows (h : table.Copy writable)
    (hrows : ∀ row ∈ rows, row ∈ table.rows ∨ RowFits table.schema row) :
    Copy writable { table with rows } where
  schema := h.schema
  types := fun row hrow => (hrows row hrow).elim (h.types row) RowFits.types
  sources := h.sources
  fits := fun hw row hrow => (hrows row hrow).elim (h.fits hw row) RowFits.check

theorem pushAll (h : table.Copy writable) (hrows : ∀ row ∈ rows, RowFits table.schema row)
    (hpush : table.pushAll rows = .ok table') : table'.Copy writable := by
  rw [pushAll_eq hpush]
  exact h.withRows fun row hrow => (List.mem_append.1 hrow).imp_right (hrows row)

theorem exists_encodeTable (h : table.Copy writable) (hw : writable) : ∃ lines, encodeTable table = .ok lines :=
  ⟨_, Table.WellFormed.encodeTable ⟨h.schema, fun row hrow => ⟨h.types row hrow, h.fits hw row hrow⟩⟩⟩

/-- What a copy is written to decodes to the reloaded copy. -/
theorem decodeTable_eq (h : table.Copy writable) (he : encodeTable table = .ok lines) :
    decodeTable table.id lines = .ok (none, table.reloaded) := by
  obtain ⟨hrows, rfl⟩ := encodeTable_eq_ok.1 he
  have htable : table.WellFormed := ⟨h.schema, fun row hrow => ⟨h.types row hrow, hrows row hrow⟩⟩
  rw [htable.decodeTable_lines]
  rfl

theorem reloaded_eq_iff (h : table.Copy writable) :
    table.reloaded = table ↔ ∀ field ∈ table.schema.fields, field.source ≠ none := by
  constructor
  · intro heq field hfield hsource
    rw [← heq] at hfield
    obtain ⟨other, -, rfl⟩ := List.mem_map.1 hfield
    cases hsource
  · intro hsources
    have hschema : table.schema.qualify table.id.name = table.schema := by
      rw [Schema.qualify, Schema.mk.injEq]
      refine (List.map_congr_left fun field hfield => ?_).trans (List.map_id _)
      rw [← (h.sources field hfield).resolve_left (hsources field hfield)]
      rfl
    rw [reloaded, hschema]

/-- Every condition holds of the same records on a copy and on the reloaded copy exactly if the two are
the same. -/
theorem accepts_reloaded_iff (h : table.Copy writable) :
    (∀ condition row, accepts condition [(table.schema, row)] =
      accepts condition [(table.reloaded.schema, row)]) ↔ table.reloaded = table := by
  constructor
  · intro hsame
    refine h.reloaded_eq_iff.2 fun field hfield hsource => ?_
    obtain ⟨condition, row, hne⟩ :=
      Schema.accepts_ne_qualify table.id.name hfield h.schema.distinct hsource
    exact hne (hsame condition row)
  · intro heq condition row
    rw [heq]

end Table.Copy

end Copies

/-! ## Plans -/

theorem Plan.source_of_ofString {text name : String} {field : Field}
    (h : Plan.ofString text = .ok (.alterTable name field)) : field.source = none := by
  obtain ⟨statement, -, h⟩ := Except.bind_eq_ok.1 h
  cases statement with
  | alterTable table column =>
    obtain ⟨field', hfield, h⟩ := Except.bind_eq_ok.1 h
    cases h
    exact (Field.wellFormed_of_ofDescriptor hfield).2
  | createTable =>
    obtain ⟨_, -, h⟩ := Except.bind_eq_ok.1 h
    cases h
  | select selection item condition =>
    obtain ⟨⟨_, left⟩, -, h⟩ := Except.bind_eq_ok.1 h
    cases selection with
    | all | fields => cases h
    | aggregate => cases left <;> cases h
  | _ => cases h

/-! ## What statements keep -/

/-- A store whose files have no line breaks but in lock lines. -/
def Memory.Unbroken (m : Memory) : Prop := ∀ p ls, m.lines? p = some ls → TextTables.Unbroken ls

section Unbroken
variable {ls ls' : List String} {m m' : Memory} {p : Place} {ticket : Ticket}

theorem Memory.Unbroken.released (h : m.Unbroken) (hr : Released ticket m m') : m'.Unbroken := by
  refine hr.each h fun ls ls' hls hu line hline => ?_
  rw [hu.contents_eq] at hline
  exact hls line hline

theorem Memory.Unbroken.commit (files : Catalog) {t : Transaction} (h : m.Unbroken)
    (hstaged : ∀ table ∈ t.staged, table.schema.WellFormed) :
    (Action.after (t.commit files) m).Unbroken := by
  refine Memory.Unbroken.released ?_ (Transaction.commit_released files m t)
  refine Transaction.each_putAll files m h fun entry hentry => ?_
  obtain ⟨⟨table, hm, -, he⟩, -⟩ := Transaction.mem_written files m hentry
  exact unbroken_of_lined (lined_of_encodeTable (hstaged table hm) he)

end Unbroken

namespace Connection

variable {files : Catalog} {ticket : Ticket} {c c' : Connection Memory} {plan : Plan} {writable : Prop}
  {t : Transaction} {table : Table}

theorem StagedFrom.copy (h : StagedFrom files c t plan table) (hplan : plan.Proper)
    (hsource : ∀ name field, plan = .alterTable name field → field.source = none)
    (hstore : writable → c.store.Unbroken) (ht : c.transaction = some t)
    (hstaged : ∀ copy ∈ t.staged, copy.Copy writable) : table.Copy writable := by
  cases h with
  | kept hm => exact hstaged table hm
  | altered hm hadd => exact (hstaged _ hm).addField hplan (hsource _ _ rfl) hadd
  | extended hm hrows hcheck hpush =>
    exact (hstaged _ hm).pushAll (rowFits_of_tupleRows hrows hcheck) hpush
  | changed _ htable hrows =>
    -- The records are changed of the staged copy, or of the table as its file has it.
    suffices hcopy : Table.Copy writable _ from hcopy.withRows (hrows.mem hcopy.types)
    obtain ⟨-, hs | ⟨-, ls, holder, hl, hd⟩⟩ := table_eq_ok htable
    · obtain ⟨t', ht', hst⟩ := staged?_eq_some.1 hs
      obtain rfl := Option.some.inj (ht.symm.trans ht')
      exact hstaged _ (Transaction.staged?_eq_some hst).1
    · exact .of_decodeTable hd fun hw => hstore hw _ ls hl

/-- The fields of a staged table are those of the copy staged before, or one more that was added to it,
or the table was loaded. -/
theorem StagedFrom.schema (h : StagedFrom files c t plan table) (ht : c.transaction = some t) :
    (∃ copy ∈ t.staged, copy.id = table.id ∧ copy.schema = table.schema) ∨
      (∃ name field, plan = .alterTable name field ∧
        ∃ copy ∈ t.staged, copy.id = table.id ∧ copy.addField field = .ok table) ∨
      (t.staged? table.id = none ∧ ∀ field ∈ table.schema.fields, field.source ≠ none) := by
  cases h with
  | kept hm => exact .inl ⟨table, hm, rfl, rfl⟩
  | altered hm hadd => exact .inr (.inl ⟨_, _, rfl, _, hm, (Table.addField_id hadd).symm, hadd⟩)
  | extended hm _ _ hpush =>
    rw [Table.pushAll_eq hpush]
    exact .inl ⟨_, hm, rfl, rfl⟩
  | changed _ htable =>
    obtain ⟨-, hs | ⟨hs, ls, holder, -, hd⟩⟩ := table_eq_ok htable
    · obtain ⟨t', ht', hst⟩ := staged?_eq_some.1 hs
      obtain rfl := Option.some.inj (ht.symm.trans ht')
      exact .inl ⟨_, (Transaction.staged?_eq_some hst).1, rfl, rfl⟩
    · refine .inr (.inr ⟨?_, fun field hfield => ?_⟩)
      · simpa [Connection.staged?, ht] using hs
      · obtain ⟨_, described, -, rfl⟩ := (Table.typed_of_decodeTable hd).described field hfield
        nofun

/-- A statement writes no line breaks. -/
theorem Effect.unbroken (he : Effect files ticket c plan c') (hplan : plan.Proper)
    (hstaged : ∀ t, c.transaction = some t → ∀ table ∈ t.staged, table.schema.WellFormed)
    (h : c.store.Unbroken) : c'.store.Unbroken := by
  have hstore : c.store.Each TextTables.Unbroken := h
  cases he with
  | nothing | databaseUsed | copyAltered | copyExtended | heldForNothing | begun => exact h
  | databaseCreated => exact hstore.addDirectory
  | databaseDropped => exact hstore.removeDirectory
  | tableCreated =>
    exact hstore.put (unbroken_of_lined (List.forall_mem_singleton.2 (Schema.WellFormed.lined_encode hplan)))
  | tableDropped => exact hstore.erase
  | fileAltered _ _ _ _ halter => exact hstore.put (Catalog.alteredLines_unbroken hplan halter)
  | fileExtended _ _ hl _ _ hrows hcheck =>
    refine hstore.put ((h _ _ hl).append (unbroken_of_lined fun line hline => ?_))
    obtain ⟨row, hrow, rfl⟩ := List.mem_map.1 hline
    exact lined_renderRow (rowFits_of_tupleRows hrows hcheck row hrow).check
  | aborted => exact h.released (Transaction.abort_released files _ _)
  | takenForNothing _ _ _ hl => exact hstore.put (h _ _ hl)
  | changed _ _ _ _ _ hlocks =>
    cases hlocks with
    | held => exact h
    | taken hl hh =>
      rw [putLock_of_holder?_none hh]
      exact hstore.put ((h _ _ hl).lockLine_cons _)
  | committed ht => exact h.commit files (hstaged _ ht)

end Connection

end TextTables
