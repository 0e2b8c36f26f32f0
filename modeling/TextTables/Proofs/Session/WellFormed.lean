import TextTables.Proofs.Session.Staging
import TextTables.Proofs.Store.Altering
/-!
# Statements keep files readable

Every record that a statement makes has the types of its table's fields and fits in a line, and
every field and schema that it adds was read from descriptors. So each `Effect` keeps the files
`Written` and the staged tables well-formed.
-/

namespace TextTables

/-! ## New values -/

theorem Value.cast_type {value value' : Value} {type : FieldType}
    (h : value.cast type = .ok value') : value'.type = type := by
  simp only [Value.cast] at h
  split at h
  · cases h; rfl
  · split at h
    · next htype => cases h; exact htype
    · cases h

theorem tupleValues_types {fields : List Field} {tuple : List Expression} {row : Row}
    (hlength : tuple.length = fields.length) (h : tupleValues fields tuple = .ok row) :
    HasTypes fields row := by
  induction fields generalizing tuple row with
  | nil =>
    obtain rfl : tuple = [] := List.length_eq_zero_iff.1 hlength
    cases h
    rfl
  | cons field fields ih =>
    cases tuple with
    | nil => cases hlength
    | cons e rest =>
      obtain ⟨value, -, h⟩ := Except.bind_eq_ok.1 h
      obtain ⟨value', hcast, h⟩ := Except.bind_eq_ok.1 h
      obtain ⟨row', hrest, h⟩ := Except.bind_eq_ok.1 h
      cases h
      have htypes := ih (by simpa using hlength) hrest
      rw [HasTypes, List.map_cons, List.map_cons, Value.cast_type hcast, htypes]

theorem tupleRows_types {schema : Schema} {tuples : List (List Expression)} {rows : List Row}
    (h : tupleRows schema tuples = .ok rows) : ∀ row ∈ rows, HasTypes schema.fields row := by
  induction tuples generalizing rows with
  | nil => cases h; simp
  | cons tuple rest ih =>
    obtain ⟨row, hrow, h⟩ := Except.bind_eq_ok.1 h
    obtain ⟨rows', hrest, h⟩ := Except.bind_eq_ok.1 h
    cases h
    intro r hr
    rcases List.mem_cons.1 hr with rfl | hr
    · simp only [tupleRow] at hrow
      split at hrow
      · cases hrow
      · next hwidth => exact tupleValues_types (not_not.1 hwidth) hrow
    · exact ih hrest r hr

theorem checkRow_of_requireEncodable {rows : List Row}
    (h : Connection.requireEncodable rows = .ok ()) : ∀ row ∈ rows, checkRow row = .ok () := by
  induction rows with
  | nil => simp
  | cons row rest ih =>
    obtain ⟨hrow, hrest⟩ := Except.bind_unit_eq_ok.1 h
    intro r hr
    rcases List.mem_cons.1 hr with rfl | hr
    · exact hrow
    · exact ih hrest r hr

/-- The records that an insertion makes. -/
theorem rowFits_of_tupleRows {schema : Schema} {tuples : List (List Expression)} {rows : List Row}
    (h : tupleRows schema tuples = .ok rows) (hcheck : Connection.requireEncodable rows = .ok ()) :
    ∀ row ∈ rows, RowFits schema row :=
  fun row hrow => ⟨tupleRows_types h row hrow, checkRow_of_requireEncodable hcheck row hrow⟩

/-! ## Changed records -/

theorem assignInto_types {schema : Schema} {row updated result : Row}
    {assignments : List (Nat × Expression)} (hupdated : HasTypes schema.fields updated)
    (h : assignInto schema row updated assignments = .ok result) :
    HasTypes schema.fields result := by
  induction assignments generalizing updated with
  | nil => cases h; exact hupdated
  | cons assignment rest ih =>
    obtain ⟨position, e⟩ := assignment
    simp only [assignInto] at h
    split at h
    · cases h
    · next field hfield =>
      obtain ⟨value, -, h⟩ := Except.bind_eq_ok.1 h
      obtain ⟨value', hcast, h⟩ := Except.bind_eq_ok.1 h
      have htype : (schema.fields.map (·.type))[position]? = some field.type := by
        rw [List.getElem?_map, hfield, Option.map_some]
      obtain ⟨hlt, htype⟩ := List.getElem?_eq_some_iff.1 htype
      refine ih ?_ h
      rw [HasTypes, List.map_set, hupdated, Value.cast_type hcast, ← htype, List.set_getElem_self]

section Changed
variable {schema : Schema} {table : Table} {plan : Plan} {assignments : List (Nat × Expression)}
  {condition : Option Expression} {rows rows' : List Row} {count : Nat}

theorem mem_of_updatedRows (h : updatedRows schema assignments condition rows = .ok (rows', count)) :
    ∀ row ∈ rows', row ∈ rows ∨
      checkRow row = .ok () ∧ ∃ old ∈ rows, assign schema old assignments = .ok row := by
  induction rows generalizing rows' count with
  | nil => cases h; simp
  | cons row rest ih =>
    obtain ⟨accepted, -, h⟩ := Except.bind_eq_ok.1 h
    have hrest {rows' : List Row} {count : Nat}
        (h : updatedRows schema assignments condition rest = .ok (rows', count)) :
        ∀ r ∈ rows', r ∈ row :: rest ∨
          checkRow r = .ok () ∧ ∃ old ∈ row :: rest, assign schema old assignments = .ok r := by
      intro r hr
      refine (ih h r hr).imp (List.mem_cons_of_mem _) (And.imp_right ?_)
      exact fun ⟨old, hold, hassign⟩ => ⟨old, List.mem_cons_of_mem _ hold, hassign⟩
    cases accepted with
    | true =>
      obtain ⟨updated, hassign, h⟩ := Except.bind_eq_ok.1 h
      obtain ⟨hcheck, h⟩ := Except.bind_unit_eq_ok.1 h
      obtain ⟨⟨rest', n⟩, hrows, h⟩ := Except.bind_eq_ok.1 h
      cases h
      exact List.forall_mem_cons.2 ⟨.inr ⟨hcheck, row, List.mem_cons_self, hassign⟩, hrest hrows⟩
    | false =>
      obtain ⟨⟨rest', n⟩, hrows, h⟩ := Except.bind_eq_ok.1 h
      cases h
      exact List.forall_mem_cons.2 ⟨.inl List.mem_cons_self, hrest hrows⟩

theorem mem_of_remainingRows (h : remainingRows schema condition rows = .ok (rows', count)) :
    ∀ row ∈ rows', row ∈ rows := by
  induction rows generalizing rows' count with
  | nil => cases h; simp
  | cons row rest ih =>
    obtain ⟨accepted, -, h⟩ := Except.bind_eq_ok.1 h
    obtain ⟨⟨rest', n⟩, hrest, h⟩ := Except.bind_eq_ok.1 h
    have hmem := fun r hr => List.mem_cons_of_mem row (ih hrest r hr)
    cases accepted with
    | true => cases h; exact hmem
    | false => cases h; exact List.forall_mem_cons.2 ⟨List.mem_cons_self, hmem⟩

/-- A changed record was there before, or it has the types of the fields and fits in a line. -/
theorem Connection.NewRows.mem (h : NewRows table plan rows count)
    (htypes : ∀ row ∈ table.rows, HasTypes table.schema.fields row) :
    ∀ row ∈ rows, row ∈ table.rows ∨ RowFits table.schema row := by
  intro row hrow
  cases h with
  | update _ h =>
    refine (mem_of_updatedRows h row hrow).imp_right ?_
    rintro ⟨hcheck, old, hold, hassign⟩
    exact ⟨assignInto_types (htypes old hold) hassign, hcheck⟩
  | delete h => exact .inl (mem_of_remainingRows h row hrow)

theorem Connection.NewRows.rowFits (h : NewRows table plan rows count) (htable : table.WellFormed) :
    ∀ row ∈ rows, RowFits table.schema row := by
  intro row hrow
  rcases h.mem (fun row hrow => (htable.rows row hrow).types) row hrow with hmem | hfits
  · exact htable.rows row hmem
  · exact hfits

end Changed

/-! ## Plans -/

/-- A plan whose new schema or field was read from descriptors. -/
def Plan.Proper : Plan → Prop
  | .createTable _ schema => schema.WellFormed
  | .alterTable _ field => field.WellFormed
  | _ => True

/-- Whether a plan adds a field to a table. -/
def Plan.alters : Plan → Bool
  | .alterTable .. => true
  | _ => false

theorem Plan.proper_of_ofStatement {statement : Statement} {plan : Plan}
    (h : Plan.ofStatement statement = .ok plan) : plan.Proper := by
  cases statement with
  | createTable name columns =>
    obtain ⟨schema, hschema, h⟩ := Except.bind_eq_ok.1 h
    cases h
    exact Schema.wellFormed_of_ofDescriptors hschema
  | alterTable name column =>
    obtain ⟨field, hfield, h⟩ := Except.bind_eq_ok.1 h
    cases h
    exact (Field.wellFormed_of_ofDescriptor hfield).1
  | select selection item condition =>
    obtain ⟨⟨relation, left⟩, -, h⟩ := Except.bind_eq_ok.1 h
    cases h
    cases selection with
    | all | fields => trivial
    | aggregate function field => cases left <;> trivial
  | createDatabase | dropDatabase | useDatabase | dropTable | insert | update | delete | begin
  | commit => cases h; trivial

theorem Plan.proper_of_ofString {text : String} {plan : Plan} (h : Plan.ofString text = .ok plan) :
    plan.Proper := by
  obtain ⟨statement, -, h⟩ := Except.bind_eq_ok.1 h
  exact Plan.proper_of_ofStatement h

/-! ## Stores and transactions -/

/-- A store whose files can all be read. -/
def Memory.WellFormed (m : Memory) : Prop := ∀ p ls, m.lines? p = some ls → Written ls

/-- A transaction whose staged tables are well-formed. -/
def Transaction.WellFormed (t : Transaction) : Prop := ∀ table ∈ t.staged, table.WellFormed

section Stores
variable {m m' : Memory} {t : Transaction} {p : Place} {ls : List String}

theorem Memory.WellFormed.released {ticket : Ticket} (h : m.WellFormed) (hr : Released ticket m m') :
    m'.WellFormed :=
  hr.each h fun _ _ hls hu => hls.unlocked hu

/-- The staged tables with the lines that they are written to. -/
def Transaction.entries (t : Transaction) : List (TableId × List String) :=
  t.staged.map fun table => (table.id, table.lines)

theorem Transaction.mem_entries {entry : TableId × List String} :
    entry ∈ t.entries ↔ ∃ table ∈ t.staged, (table.id, table.lines) = entry := List.mem_map

theorem Transaction.encodeAll_eq_ok {entries : List (TableId × List String)} :
    encodeAll t.staged = .ok entries ↔
      (∀ table ∈ t.staged, ∃ ls, encodeTable table = .ok ls) ∧ t.entries = entries := by
  obtain ⟨ticket, staged, locked⟩ := t
  dsimp only [Transaction.entries]
  induction staged generalizing entries with
  | nil => simp [encodeAll]
  | cons table rest ih =>
    rw [encodeAll, Except.bind_eq_ok]
    constructor
    · rintro ⟨ls, hls, h⟩
      obtain ⟨entries', hrest, h⟩ := Except.bind_eq_ok.1 h
      obtain ⟨hall, rfl⟩ := ih.1 hrest
      obtain ⟨-, rfl⟩ := encodeTable_eq_ok.1 hls
      exact ⟨List.forall_mem_cons.2 ⟨⟨_, hls⟩, hall⟩, Except.ok.inj h⟩
    · rintro ⟨hall, rfl⟩
      obtain ⟨⟨ls, hls⟩, hrest⟩ := List.forall_mem_cons.1 hall
      obtain ⟨-, rfl⟩ := encodeTable_eq_ok.1 hls
      exact ⟨_, hls, Except.bind_eq_ok.2 ⟨_, ih.2 ⟨hrest, rfl⟩, rfl⟩⟩

theorem Transaction.WellFormed.encodeAll_eq (h : t.WellFormed) : encodeAll t.staged = .ok t.entries :=
  encodeAll_eq_ok.2 ⟨fun table htable => ⟨_, (h table htable).encodeTable⟩, rfl⟩

theorem Memory.WellFormed.commit (files : Catalog) (h : m.WellFormed) (ht : t.WellFormed) :
    (Action.after (t.commit files) m).WellFormed := by
  refine Memory.WellFormed.released ?_ (Transaction.commit_released files m t)
  refine Transaction.each_putAll files m h fun entry hentry => ?_
  rw [Transaction.written, ht.encodeAll_eq] at hentry
  obtain ⟨table, hm, rfl⟩ := Transaction.mem_entries.1 ((List.takeWhile_sublist _).subset hentry)
  exact (ht table hm).written (ht table hm).encodeTable

end Stores

namespace Connection

variable {files : Catalog} {ticket : Ticket} {c c' : Connection Memory} {plan : Plan}

/-- A connection whose files can be read and whose staged tables are well-formed. -/
structure WellFormed (c : Connection Memory) : Prop where
  store : c.store.WellFormed
  transaction : ∀ t, c.transaction = some t → t.WellFormed

theorem WellFormed.staged (h : c.WellFormed) {id : TableId} {table : Table}
    (hs : c.staged? id = some table) : table.WellFormed := by
  obtain ⟨t, ht, hst⟩ := staged?_eq_some.1 hs
  exact h.transaction t ht table (Transaction.staged?_eq_some hst).1

theorem WellFormed.table (h : c.WellFormed) {name : String} {table : Table}
    (htable : Connection.table files name c = .ok table) : table.WellFormed := by
  obtain ⟨-, hs | ⟨-, ls, holder, hl, hd⟩⟩ := table_eq_ok htable
  · exact h.staged hs
  · obtain ⟨table', hd', htable'⟩ := (h.store _ ls hl).decodeTable_eq table.id
    obtain ⟨-, rfl⟩ := Prod.mk.inj (Except.ok.inj (hd.symm.trans hd'))
    exact htable'

theorem StagedFrom.wellFormed {t : Transaction} {table : Table}
    (h : StagedFrom files c t plan table) (hplan : plan.Proper) (hc : c.WellFormed)
    (ht : c.transaction = some t) : table.WellFormed := by
  have hstaged := hc.transaction t ht
  cases h with
  | kept hm => exact hstaged table hm
  | altered hm hadd => exact (hstaged _ hm).addField hplan hadd
  | extended hm hrows hcheck hpush =>
    exact (hstaged _ hm).pushAll (rowFits_of_tupleRows hrows hcheck) hpush
  | changed _ htable hrows =>
    have htable := hc.table htable
    exact ⟨htable.schema, hrows.rowFits htable⟩

/-- A statement keeps its connection well-formed. -/
theorem Effect.wellFormed (he : Effect files ticket c plan c') (hplan : plan.Proper)
    (h : c.WellFormed) : c'.WellFormed := by
  constructor
  · have hstore : c.store.Each Written := h.store
    cases he with
    | nothing | databaseUsed | copyAltered | copyExtended | heldForNothing | begun => exact h.store
    | databaseCreated => exact hstore.addDirectory
    | databaseDropped => exact hstore.removeDirectory
    | tableCreated =>
      have hempty : Table.WellFormed ⟨⟨"", ""⟩, _, []⟩ := ⟨hplan, by simp⟩
      exact hstore.put (hempty.written hempty.encodeTable)
    | tableDropped => exact hstore.erase
    | fileAltered _ hl _ _ halter =>
      exact hstore.put (Catalog.alteredLines_written (h.store _ _ hl) hplan halter)
    | fileExtended _ _ hl _ hd hrows hcheck =>
      exact hstore.put ((h.store _ _ hl).append hd (rowFits_of_tupleRows hrows hcheck))
    | aborted => exact h.store.released (Transaction.abort_released files _ _)
    | takenForNothing _ _ _ hl => exact hstore.put (h.store _ _ hl)
    | changed _ _ _ _ _ hlocks =>
      cases hlocks with
      | held => exact h.store
      | taken hl hh => exact hstore.put ((h.store _ _ hl).putLock hh _)
    | committed ht => exact h.store.commit files (h.transaction _ ht)
  · intro t' ht' table hm
    obtain ⟨t, ht, -, hfrom⟩ := he.stagedFrom ht' hm
    exact hfrom.wellFormed hplan h ht

end Connection

end TextTables
