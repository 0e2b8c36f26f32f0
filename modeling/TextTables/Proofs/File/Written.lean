import TextTables.Proofs.Decimal.ReadBack
import TextTables.Proofs.File.Lock
import TextTables.Proofs.File.Reading
import TextTables.Proofs.Schema
import TextTables.Proofs.Table
/-!
# Files that can be read

A well-formed table has a schema that can be read from its line and records whose values have the
types of the fields and fit in a line. Its lines, with or without a lock line in front, are a
`Written` file: every written file decodes to the table it was written from, whose fields are read
through the name of the file's table.
-/

namespace TextTables

/-! ## Values -/

/-- A value is read back from its written form. -/
theorem Value.read?_render (value : Value) : Value.read? value.type value.render = some value := by
  cases value with
  | integer n =>
    simp only [Value.type, Value.render, Value.read?]
    rw [Text.trim_eq_self_of_isPlain (Decimal.plain_toString_int _), Decimal.readInteger?_toString]
    rfl
  | float x =>
    simp only [Value.type, Value.render, Value.read?]
    rw [Text.trim_eq_self_of_isPlain (Decimal.plain_write floatLayout x), Decimal.readFloat?_write]
    rfl
  | text s => rfl

theorem Value.bar_not_mem_render {value : Value} {first : Bool}
    (h : checkValue first value = .ok ()) : '|' ∉ value.render.toList := by
  cases value with
  | integer n =>
    exact fun hc => Text.ne_bar_of_isPlain (Decimal.plain_toString_int _ _ hc) rfl
  | float x =>
    exact fun hc => Text.ne_bar_of_isPlain (Decimal.plain_write floatLayout x _ hc) rfl
  | text s =>
    intro hc
    have hsep : hasSeparator s = true := List.any_eq_true.2 ⟨'|', hc, by decide⟩
    simp [checkValue, hsep] at h

theorem Value.head?_render {value : Value} (h : checkValue true value = .ok ()) :
    isLockLine value.render = false := by
  rw [isLockLine, beq_eq_false_iff_ne]
  intro hhead
  have hc := List.mem_of_mem_head? hhead
  cases value with
  | integer n => exact Text.ne_ampersand_of_isPlain (Decimal.plain_toString_int _ _ hc) rfl
  | float x => exact Text.ne_ampersand_of_isPlain (Decimal.plain_write floatLayout x _ hc) rfl
  | text s =>
    have hlock : isLockLine s = true := by
      rw [isLockLine, beq_iff_eq]
      exact hhead
    simp only [checkValue, hlock, Bool.and_true, if_true] at h
    split at h <;> cases h

/-! ## Records -/

/-- Values of the types of some fields, one each. -/
def HasTypes (fields : List Field) (row : Row) : Prop :=
  row.map Value.type = fields.map (·.type)

theorem HasTypes.length_eq {fields : List Field} {row : Row} (h : HasTypes fields row) :
    row.length = fields.length := by
  simpa using congrArg List.length h

/-- A record that a line of a table can hold. -/
structure RowFits (schema : Schema) (row : Row) : Prop where
  types : HasTypes schema.fields row
  check : checkRow row = .ok ()

section Rows
variable {row : Row} {fields : List Field} {value : Value}

theorem checkValues_eq_ok : checkValues row = .ok () ↔ ∀ value ∈ row, checkValue false value = .ok () := by
  induction row with
  | nil => simp [checkValues]
  | cons value rest ih =>
    rw [checkValues, Except.bind_unit_eq_ok, ih]
    simp

theorem checkValue_false (h : checkValue true value = .ok ()) : checkValue false value = .ok () := by
  cases value with
  | integer | float => rfl
  | text s =>
    simp only [checkValue] at h ⊢
    split at h
    · cases h
    · simp_all

theorem checkRow_cons {rest : Row} : checkRow (value :: rest) = .ok () ↔
    checkValue true value = .ok () ∧ checkValues rest = .ok () := by
  rw [checkRow, Except.bind_unit_eq_ok]

theorem checkValues_of_checkRow (h : checkRow row = .ok ()) : checkValues row = .ok () := by
  cases row with
  | nil => rfl
  | cons value rest =>
    obtain ⟨hv, hrest⟩ := checkRow_cons.1 h
    rw [checkValues_eq_ok] at hrest ⊢
    simpa [checkValue_false hv] using hrest

theorem pieces_renderRow (hne : row ≠ []) (h : checkRow row = .ok ()) :
    pieces (renderRow row) = row.map Value.render := by
  have hlist : (renderRow row).toList =
      List.intercalate ['|'] (row.map fun value => value.render.toList) := by
    simp [renderRow, String.toList_intercalate, Function.comp_def]
  rw [pieces, hlist, List.splitOn_intercalate]
  · simp [Function.comp_def]
  · intro l hl
    obtain ⟨value, hvalue, rfl⟩ := List.mem_map.1 hl
    exact Value.bar_not_mem_render (checkValues_eq_ok.1 (checkValues_of_checkRow h) value hvalue)
  · simpa using hne

theorem isLockLine_renderRow (h : checkRow row = .ok ()) : isLockLine (renderRow row) = false := by
  cases row with
  | nil => rfl
  | cons value rest =>
    have hvalue := Value.head?_render (checkRow_cons.1 h).1
    -- The line begins as its first value does, or with a bar if that is an empty text.
    cases rest with
    | nil => simpa [renderRow] using hvalue
    | cons second rest =>
      simp only [isLockLine, renderRow, List.map_cons, String.toList_intercalate,
        List.intercalate_cons_cons] at hvalue ⊢
      cases hr : value.render.toList with
      | nil => rfl
      | cons c tail => simpa [hr] using hvalue

/-- The values of a record are read from their written forms. -/
theorem decodeValues_render (htypes : HasTypes fields row) :
    decodeValues fields (row.map Value.render) = .ok row := by
  induction row generalizing fields with
  | nil =>
    obtain rfl : fields = [] := by simpa [HasTypes] using htypes.symm
    rfl
  | cons value rest ih =>
    cases fields with
    | nil => simp [HasTypes] at htypes
    | cons field fields =>
      simp only [HasTypes, List.map_cons, List.cons.injEq] at htypes
      obtain ⟨htype, htypes⟩ := htypes
      have hvalue : decodeValue field.type value.render = .ok value := by
        rw [decodeValue, ← htype, value.read?_render]
      exact Except.bind_eq_ok.2 ⟨value, hvalue, Except.bind_eq_ok.2 ⟨rest, ih htypes, rfl⟩⟩

theorem decodeRow_renderRow {schema : Schema} (name : String) (hne : schema.fields ≠ [])
    (h : RowFits schema row) : decodeRow name schema (renderRow row) = .ok row := by
  obtain ⟨htypes, hcheck⟩ := h
  have hlength := htypes.length_eq
  have hrow : row ≠ [] := by
    rintro rfl
    exact hne (List.length_eq_zero_iff.1 hlength.symm)
  simp only [decodeRow, pieces_renderRow hrow hcheck, List.length_map, Schema.width, hlength]
  rw [if_neg (by simp), decodeValues_render htypes]

end Rows

/-! ## Tables -/

/-- A table that can be written to a file and read from it. -/
structure Table.WellFormed (table : Table) : Prop where
  schema : table.schema.WellFormed
  rows : ∀ row ∈ table.rows, RowFits table.schema row

theorem encodeRows_eq {rows : List Row} (h : ∀ row ∈ rows, checkRow row = .ok ()) :
    encodeRows rows = .ok (rows.map renderRow) := by
  induction rows with
  | nil => rfl
  | cons row rest ih =>
    have hrow : encodeRow row = .ok (renderRow row) := by
      rw [encodeRow, h row List.mem_cons_self]
      rfl
    have hrest := ih fun r hr => h r (List.mem_cons_of_mem row hr)
    exact Except.bind_eq_ok.2 ⟨_, hrow, Except.bind_eq_ok.2 ⟨_, hrest, rfl⟩⟩

theorem checkRow_of_encodeRows {rows : List Row} {lines : List String} (h : encodeRows rows = .ok lines) :
    ∀ row ∈ rows, checkRow row = .ok () := by
  induction rows generalizing lines with
  | nil => simp
  | cons row rest ih =>
    obtain ⟨line, hline, h⟩ := Except.bind_eq_ok.1 h
    obtain ⟨lines', hrest, -⟩ := Except.bind_eq_ok.1 h
    obtain ⟨⟨⟩, hrow, -⟩ := Except.bind_eq_ok.1 hline
    exact List.forall_mem_cons.2 ⟨hrow, ih hrest⟩

/-- The lines that a table is written to. -/
def Table.lines (table : Table) : List String := table.schema.encode :: table.rows.map renderRow

theorem Table.lines_append (table : Table) (rows : List Row) :
    Table.lines { table with rows := table.rows ++ rows } = table.lines ++ rows.map renderRow := by
  simp [Table.lines]

theorem encodeTable_eq_ok {table : Table} {lines : List String} :
    encodeTable table = .ok lines ↔ (∀ row ∈ table.rows, checkRow row = .ok ()) ∧ table.lines = lines := by
  constructor
  · intro h
    obtain ⟨records, hrecords, h⟩ := Except.bind_eq_ok.1 h
    have hrows := checkRow_of_encodeRows hrecords
    rw [encodeRows_eq hrows] at hrecords
    cases hrecords
    exact ⟨hrows, Except.ok.inj h⟩
  · rintro ⟨hrows, rfl⟩
    exact Except.bind_eq_ok.2 ⟨_, encodeRows_eq hrows, rfl⟩

/-- A written table has no lock line, if its schema line is none. -/
theorem isLockLine_of_encodeTable {table : Table} {body : List String}
    (hschema : isLockLine table.schema.encode = false) (he : encodeTable table = .ok body) :
    ∀ line ∈ body, isLockLine line = false := by
  obtain ⟨hrows, rfl⟩ := encodeTable_eq_ok.1 he
  refine List.forall_mem_cons.2 ⟨hschema, fun line hline => ?_⟩
  obtain ⟨row, hrow, rfl⟩ := List.mem_map.1 hline
  exact isLockLine_renderRow (hrows row hrow)

theorem Table.WellFormed.encodeTable {table : Table} (h : table.WellFormed) :
    encodeTable table = .ok table.lines :=
  encodeTable_eq_ok.2 ⟨fun row hrow => (h.rows row hrow).check, rfl⟩

theorem Table.WellFormed.holder?_lines {table : Table} (h : table.WellFormed) :
    holder? table.lines = none :=
  holder?_cons_of_not h.schema.isLockLine_encode

/-- A file that holds a well-formed table, under a lock line or not. -/
def Written (ls : List String) : Prop :=
  ∃ table body, Table.WellFormed table ∧ encodeTable table = .ok body ∧
    (ls = body ∨ ∃ ticket : Ticket, ls = ticket.lockLine :: body)

theorem decodeRows_render {schema : Schema} (name : String) {rows : List Row}
    (hne : schema.fields ≠ []) (h : ∀ row ∈ rows, RowFits schema row) :
    decodeRows name schema (rows.map renderRow) = .ok rows := by
  induction rows with
  | nil => rfl
  | cons row rest ih =>
    have hrow := decodeRow_renderRow name hne (h row List.mem_cons_self)
    have hrest := ih fun r hr => h r (List.mem_cons_of_mem row hr)
    exact Except.bind_eq_ok.2 ⟨row, hrow, Except.bind_eq_ok.2 ⟨rest, hrest, rfl⟩⟩

theorem RowFits.of_types {schema schema' : Schema} {row : Row} (h : RowFits schema row)
    (htypes : schema.fields.map (·.type) = schema'.fields.map (·.type)) : RowFits schema' row :=
  ⟨h.types.trans htypes, h.check⟩

/-! ## Written files -/

section Files
variable {ls ls' : List String} {table : Table}

theorem Table.WellFormed.written (h : table.WellFormed) {body : List String}
    (he : TextTables.encodeTable table = .ok body) : Written body :=
  ⟨table, body, h, he, .inl rfl⟩

theorem Table.WellFormed.written_locked (h : table.WellFormed) {body : List String}
    (he : TextTables.encodeTable table = .ok body) (ticket : Ticket) :
    Written (ticket.lockLine :: body) :=
  ⟨table, body, h, he, .inr ⟨ticket, rfl⟩⟩

theorem Table.WellFormed.append (h : table.WellFormed) {rows : List Row}
    (hrows : ∀ row ∈ rows, RowFits table.schema row) :
    Table.WellFormed { table with rows := table.rows ++ rows } := by
  refine ⟨h.schema, fun row hrow => ?_⟩
  rcases List.mem_append.1 hrow with hrow | hrow
  · exact h.rows row hrow
  · exact hrows row hrow

theorem Table.WellFormed.splitLock_eq (h : table.WellFormed) {body : List String}
    (he : TextTables.encodeTable table = .ok body)
    (hls : ls = body ∨ ∃ ticket : Ticket, ls = ticket.lockLine :: body) :
    splitLock ls = (holder? ls, table.lines) := by
  rw [h.encodeTable] at he
  cases he
  rcases hls with rfl | ⟨ticket, rfl⟩
  · rw [splitLock, h.holder?_lines]
  · simp [splitLock]

theorem Table.WellFormed.isLockLine_of_mem (h : table.WellFormed) {line : String}
    (hline : line ∈ table.rows.map renderRow) : isLockLine line = false := by
  obtain ⟨row, hrow, rfl⟩ := List.mem_map.1 hline
  exact isLockLine_renderRow (h.rows row hrow).check

theorem Table.WellFormed.isLockLine_of_encodeTable (h : table.WellFormed) {body : List String}
    (he : TextTables.encodeTable table = .ok body) : ∀ line ∈ body, isLockLine line = false :=
  TextTables.isLockLine_of_encodeTable h.schema.isLockLine_encode he

/-- The lines of a well-formed table decode to its schema and records, the fields read through the name
that the table is read by. -/
theorem Table.WellFormed.decodeTable_eq (h : table.WellFormed) {body : List String}
    (he : TextTables.encodeTable table = .ok body)
    (hls : ls = body ∨ ∃ ticket : Ticket, ls = ticket.lockLine :: body) (id : TableId) :
    decodeTable id ls = .ok (holder? ls, ⟨id, table.schema.under (some id.name), table.rows⟩) := by
  have hsplit := h.splitLock_eq he hls
  have hschema := (h.schema.under none).under (some id.name)
  have hrows := decodeRows_render id.name hschema.nonempty fun row hrow =>
    (h.rows row hrow).of_types (by simp)
  -- No record looks like a lock line, so none is left out.
  have hrecords : (table.rows.map renderRow).filter (fun line => !isLockLine line) =
      table.rows.map renderRow :=
    List.filter_eq_self.2 fun line hline => by rw [h.isLockLine_of_mem hline]; rfl
  refine decodeTable_eq_ok.2 ⟨_, _, _, table.rows, hsplit, h.schema.decode_encode, ?_, ?_⟩
  · rw [hrecords, Schema.qualify_eq_under, hrows]
  · rw [Schema.qualify_eq_under, Schema.under_under]

theorem Table.WellFormed.decodeTable_lines (h : table.WellFormed) (id : TableId) :
    decodeTable id table.lines = .ok (none, ⟨id, table.schema.under (some id.name), table.rows⟩) := by
  rw [h.decodeTable_eq h.encodeTable (.inl rfl), h.holder?_lines]

/-- A written file decodes to a well-formed table. -/
theorem Written.decodeTable_eq (h : Written ls) (id : TableId) :
    ∃ table, decodeTable id ls = .ok (holder? ls, table) ∧ table.WellFormed := by
  obtain ⟨table, body, htable, he, hls⟩ := h
  exact ⟨_, htable.decodeTable_eq he hls id, htable.schema.under _, fun row hrow =>
    (htable.rows row hrow).of_types (by simp)⟩

/-- A record that fits the schema in a file's header can be put at the end of the file. -/
theorem Written.append (h : Written ls) {name : String} {holder : Option Ticket} {schema : Schema}
    (hheader : decodeHeader name ls = .ok (holder, schema)) {rows : List Row}
    (hrows : ∀ row ∈ rows, RowFits schema row) : Written (ls ++ rows.map renderRow) := by
  obtain ⟨table, body, htable, he, hls⟩ := h
  obtain ⟨line, records, hsplit, hdecode⟩ := decodeHeader_eq_ok.1 hheader
  rw [htable.splitLock_eq he hls] at hsplit
  cases hsplit
  obtain rfl := Except.ok.inj (htable.schema.decode_encode.symm.trans hdecode)
  -- The header is the schema of the table in the file, but for the name it is read through.
  have hlonger := htable.append fun row hrow => (hrows row hrow).of_types (by simp)
  rw [htable.encodeTable] at he
  cases he
  refine ⟨_, _, hlonger, hlonger.encodeTable, ?_⟩
  rcases hls with rfl | ⟨ticket, rfl⟩
  · exact .inl (by simp [Table.lines])
  · exact .inr ⟨ticket, by simp [Table.lines]⟩

/-! ## Locks -/

theorem Written.putLock (h : Written ls) (hnone : holder? ls = none) (ticket : Ticket) :
    Written (putLock ticket ls) := by
  obtain ⟨table, body, htable, he, rfl | ⟨holder, rfl⟩⟩ := h
  · rw [putLock_of_holder?_none hnone]
    exact htable.written_locked he ticket
  · simp at hnone

theorem Written.unlocked {ticket : Ticket} (h : Written ls) (hu : Unlocked ticket ls ls') :
    Written ls' := by
  induction hu with
  | refl => exact h
  | drop hh _ ih =>
    apply ih
    obtain ⟨table, body, htable, he, rfl | ⟨holder, rfl⟩⟩ := h
    · rw [htable.encodeTable] at he
      cases he
      rw [htable.holder?_lines] at hh
      cases hh
    · rw [dropLock_lockLine_cons]
      exact htable.written he

end Files

/-! ## Changes of tables -/

section Tables
variable {table table' : Table}

theorem FieldType.type_zero (type : FieldType) : type.zero.type = type := by
  cases type <;> rfl

theorem FieldType.checkValue_zero (type : FieldType) (first : Bool) :
    checkValue first type.zero = .ok () := by
  cases type with
  | integer | float => rfl
  | text => cases first <;> rfl

theorem checkRow_append {row : Row} {value : Value} (h : checkRow row = .ok ())
    (hvalue : checkValue true value = .ok ()) : checkRow (row ++ [value]) = .ok () := by
  cases row with
  | nil => exact checkRow_cons.2 ⟨hvalue, rfl⟩
  | cons first rest =>
    obtain ⟨hfirst, hrest⟩ := checkRow_cons.1 h
    refine checkRow_cons.2 ⟨hfirst, checkValues_eq_ok.2 fun v hv => ?_⟩
    rcases List.mem_append.1 hv with hv | hv
    · exact checkValues_eq_ok.1 hrest v hv
    · rw [List.mem_singleton.1 hv]
      exact checkValue_false hvalue

theorem Table.WellFormed.addField (h : table.WellFormed) {field : Field} (hfield : field.WellFormed)
    (hadd : table.addField field = .ok table') : table'.WellFormed := by
  obtain ⟨schema, hschema, rfl⟩ := Table.addField_eq_ok.1 hadd
  refine ⟨h.schema.add hfield hschema, fun row hrow => ?_⟩
  obtain ⟨old, hold, rfl⟩ := List.mem_map.1 hrow
  obtain ⟨-, rfl⟩ := Schema.add_eq_ok.1 hschema
  obtain ⟨htypes, hcheck⟩ := h.rows old hold
  refine ⟨?_, checkRow_append hcheck (field.type.checkValue_zero true)⟩
  rw [HasTypes, List.map_append, htypes, List.map_append, List.map_singleton, List.map_singleton,
    FieldType.type_zero]

theorem Table.WellFormed.pushAll (h : table.WellFormed) {rows : List Row}
    (hrows : ∀ row ∈ rows, RowFits table.schema row) (hpush : table.pushAll rows = .ok table') :
    table'.WellFormed := by
  rw [Table.pushAll_eq hpush]
  exact h.append hrows

end Tables

end TextTables
