import TextTables.Proofs.File.Written
/-!
# Tables survive being written and read

A table has a file form unless one of its texts would break the lines. The file form gives the table
back, under a lock line or not, and what any lines decode to is such a table again.
-/

namespace TextTables

/-! ## Texts that break a line -/

/-- A record with a text that would end a field or a line, or that starts with a text that would make
the line look like a lock line. -/
def BreaksLine (row : Row) : Prop :=
  (∃ s, Value.text s ∈ row ∧ ('|' ∈ s.toList ∨ '\n' ∈ s.toList ∨ '\r' ∈ s.toList)) ∨
    ∃ s, row.head? = some (Value.text s) ∧ s.toList.head? = some '&'

theorem hasSeparator_iff {s : String} :
    hasSeparator s = true ↔ '|' ∈ s.toList ∨ '\n' ∈ s.toList ∨ '\r' ∈ s.toList := by
  simp only [hasSeparator, List.any_eq_true, Bool.or_eq_true, beq_iff_eq]
  constructor
  · rintro ⟨c, hc, (rfl | rfl) | rfl⟩
    · exact .inl hc
    · exact .inr (.inl hc)
    · exact .inr (.inr hc)
  · rintro (h | h | h)
    · exact ⟨_, h, .inl (.inl rfl)⟩
    · exact ⟨_, h, .inl (.inr rfl)⟩
    · exact ⟨_, h, .inr rfl⟩

theorem isLockLine_iff {s : String} : isLockLine s = true ↔ s.toList.head? = some '&' := beq_iff_eq

section Checks
variable {value : Value} {row : Row}

theorem checkValue_ne_ok {first : Bool} : checkValue first value ≠ .ok () ↔
    ∃ s, value = .text s ∧ (hasSeparator s = true ∨ first = true ∧ isLockLine s = true) := by
  cases value with
  | integer | float => simp [checkValue]
  | text s =>
    simp only [checkValue, Value.text.injEq, exists_eq_left']
    split
    · next h => simp [h]
    · next h => split <;> simp_all

theorem checkValues_ne_ok :
    checkValues row ≠ .ok () ↔ ∃ s, Value.text s ∈ row ∧ hasSeparator s = true := by
  rw [Ne, checkValues_eq_ok]
  simp only [not_forall]
  constructor
  · rintro ⟨value, hmem, hvalue⟩
    obtain ⟨s, rfl, hs | ⟨hfirst, -⟩⟩ := checkValue_ne_ok.1 hvalue
    · exact ⟨s, hmem, hs⟩
    · cases hfirst
  · rintro ⟨s, hmem, hs⟩
    exact ⟨.text s, hmem, checkValue_ne_ok.2 ⟨s, rfl, .inl hs⟩⟩

theorem BreaksLine.append (h : BreaksLine row) (row' : Row) : BreaksLine (row ++ row') := by
  obtain ⟨s, hs, hsep⟩ | ⟨s, hs, hamp⟩ := h
  · exact .inl ⟨s, List.mem_append_left _ hs, hsep⟩
  · exact .inr ⟨s, by rw [List.head?_append, hs, Option.some_or], hamp⟩

theorem checkRow_ne_ok : checkRow row ≠ .ok () ↔ BreaksLine row := by
  simp only [BreaksLine, ← hasSeparator_iff, ← isLockLine_iff]
  cases row with
  | nil => simp [checkRow]
  | cons value rest =>
    rw [Ne, checkRow_cons, not_and_or, ← Ne, ← Ne, checkValue_ne_ok, checkValues_ne_ok]
    simp only [List.mem_cons, List.head?_cons, Option.some.injEq]
    constructor
    · rintro (⟨s, rfl, hs | ⟨-, hs⟩⟩ | ⟨s, hmem, hs⟩)
      · exact .inl ⟨s, .inl rfl, hs⟩
      · exact .inr ⟨s, rfl, hs⟩
      · exact .inl ⟨s, .inr hmem, hs⟩
    · rintro (⟨s, rfl | hmem, hs⟩ | ⟨s, rfl, hs⟩)
      · exact .inl ⟨s, rfl, .inl hs⟩
      · exact .inr ⟨s, hmem, hs⟩
      · exact .inl ⟨s, rfl, .inr ⟨trivial, hs⟩⟩

/-- A table has no file form exactly if a record of it breaks its line. -/
theorem encodeTable_eq_error {table : Table} :
    (∃ e, encodeTable table = .error e) ↔ ∃ row ∈ table.rows, BreaksLine row := by
  simp only [← checkRow_ne_ok]
  constructor
  · rintro ⟨e, he⟩
    by_contra hnone
    rw [not_exists] at hnone
    have hrows : ∀ row ∈ table.rows, checkRow row = .ok () := by simpa using hnone
    rw [encodeTable_eq_ok.2 ⟨hrows, rfl⟩] at he
    cases he
  · rintro ⟨row, hrow, hbreaks⟩
    cases he : encodeTable table with
    | error e => exact ⟨e, rfl⟩
    | ok lines => exact absurd ((encodeTable_eq_ok.1 he).1 row hrow) hbreaks

end Checks

/-! ## Tables of a schema -/

/-- A table with at least one field and distinct field names, whose fields were read from descriptors
and are read through the table's name, and whose records have one value of its type for every field. -/
structure Table.Typed (table : Table) : Prop where
  nonempty : table.schema.fields ≠ []
  distinct : (table.schema.fields.map (·.name)).Nodup
  described : ∀ field ∈ table.schema.fields, ∃ descriptor described,
    Field.ofDescriptor descriptor = .ok described ∧
      field = { described with source := some table.id.name }
  rows : ∀ row ∈ table.rows, HasTypes table.schema.fields row

namespace Table.Typed

variable {table : Table} {lines : List String}

theorem wellFormed_schema (h : table.Typed) : table.schema.WellFormed := by
  refine ⟨⟨h.distinct, fun field hfield => ?_⟩, h.nonempty⟩
  obtain ⟨descriptor, described, hdescribed, rfl⟩ := h.described field hfield
  obtain ⟨hname, hdeclared, hhints, htype⟩ := (Field.wellFormed_of_ofDescriptor hdescribed).1
  exact ⟨hname, hdeclared, hhints, htype⟩

theorem under_name (h : table.Typed) : table.schema.under (some table.id.name) = table.schema := by
  rw [Schema.under, Schema.mk.injEq]
  refine (List.map_congr_left fun field hfield => ?_).trans (List.map_id _)
  obtain ⟨descriptor, described, -, rfl⟩ := h.described field hfield
  rfl

theorem wellFormed (h : table.Typed) (he : encodeTable table = .ok lines) : table.WellFormed :=
  ⟨h.wellFormed_schema, fun row hrow => ⟨h.rows row hrow, (encodeTable_eq_ok.1 he).1 row hrow⟩⟩

/-- The lines of a table decode to the table. -/
theorem decodeTable_encodeTable (h : table.Typed) (he : encodeTable table = .ok lines) :
    decodeTable table.id lines = .ok (none, table) := by
  have htable := h.wellFormed he
  obtain ⟨-, rfl⟩ := encodeTable_eq_ok.1 he
  rw [htable.decodeTable_lines, h.under_name]

/-- Under a lock line they decode to the table and its holder. -/
theorem decodeTable_lockLine (h : table.Typed) (he : encodeTable table = .ok lines)
    (ticket : Ticket) :
    decodeTable table.id (ticket.lockLine :: lines) = .ok (some ticket, table) := by
  rw [(h.wellFormed he).decodeTable_eq he (.inr ⟨ticket, rfl⟩), h.under_name, holder?_lockLine_cons]

end Table.Typed

/-! ## Tables that were read -/

theorem Value.read?_type {type : FieldType} {raw : String} {value : Value}
    (h : Value.read? type raw = some value) : value.type = type := by
  cases type with
  | integer | float =>
    obtain ⟨_, -, rfl⟩ := Option.map_eq_some_iff.1 h
    rfl
  | text =>
    cases h
    rfl

theorem decodeValues_types {fields : List Field} {raws : List String} {row : Row}
    (hlength : raws.length = fields.length) (h : decodeValues fields raws = .ok row) :
    HasTypes fields row := by
  induction fields generalizing raws row with
  | nil =>
    cases h
    rfl
  | cons field fields ih =>
    cases raws with
    | nil => cases hlength
    | cons raw raws =>
      obtain ⟨value, hvalue, h⟩ := Except.bind_eq_ok.1 h
      obtain ⟨rest, hrest, h⟩ := Except.bind_eq_ok.1 h
      cases h
      have htype : value.type = field.type := by
        unfold decodeValue at hvalue
        split at hvalue
        · next hread => cases hvalue; exact Value.read?_type hread
        · cases hvalue
      have htypes := ih (Nat.succ.inj hlength) hrest
      rw [HasTypes, List.map_cons, List.map_cons, htype, htypes]

theorem decodeRows_types {name : String} {schema : Schema} {records : List String} {rows : List Row}
    (h : decodeRows name schema records = .ok rows) : ∀ row ∈ rows, HasTypes schema.fields row := by
  induction records generalizing rows with
  | nil => cases h; simp
  | cons line rest ih =>
    obtain ⟨row, hrow, h⟩ := Except.bind_eq_ok.1 h
    obtain ⟨rows', hrest, h⟩ := Except.bind_eq_ok.1 h
    cases h
    refine List.forall_mem_cons.2 ⟨?_, ih hrest⟩
    simp only [decodeRow] at hrow
    split at hrow
    · cases hrow
    · next hwidth => exact decodeValues_types (not_not.1 hwidth) hrow

/-- Whatever lines decode to is a table of a schema. -/
theorem Table.typed_of_decodeTable {id : TableId} {lines : List String} {ticket : Option Ticket}
    {table : Table} (h : decodeTable id lines = .ok (ticket, table)) : table.Typed := by
  obtain ⟨line, records, schema, rows, -, hschema, hrows, rfl⟩ := decodeTable_eq_ok.1 h
  have hwritten := Schema.wellFormed_of_ofDescriptors hschema
  have hread := hwritten.under (some id.name)
  refine ⟨hread.nonempty, hread.distinct, fun field hfield => ?_, decodeRows_types hrows⟩
  obtain ⟨written, hmem, rfl⟩ := List.mem_map.1 hfield
  exact ⟨_, _, (hwritten.fields written hmem).ofDescriptor, rfl⟩

/-! ## The round trip -/

/-- A table of a schema is written unless a record breaks its line, and read back from what was
written, with the holder of a lock line in front of it. A table that was read from any lines is read
back from the lines that it is written to. -/
theorem file_roundTrip :
    (∀ table : Table, table.Typed →
      ((∃ e, encodeTable table = .error e) ↔ ∃ row ∈ table.rows, BreaksLine row) ∧
      ∀ lines, encodeTable table = .ok lines →
        decodeTable table.id lines = .ok (none, table) ∧
        ∀ ticket : Ticket,
          decodeTable table.id (ticket.lockLine :: lines) = .ok (some ticket, table)) ∧
    ∀ (id : TableId) (lines : List String) (ticket : Option Ticket) (table : Table),
      decodeTable id lines = .ok (ticket, table) → ∀ lines', encodeTable table = .ok lines' →
        decodeTable id lines' = .ok (none, table) := by
  refine ⟨fun table htyped => ⟨encodeTable_eq_error, fun lines he => ?_⟩, ?_⟩
  · exact ⟨htyped.decodeTable_encodeTable he, htyped.decodeTable_lockLine he⟩
  · intro id lines ticket table hdecode lines' he
    rw [← decodeTable_id hdecode]
    exact (Table.typed_of_decodeTable hdecode).decodeTable_encodeTable he

section Readings

/-- Readings at some places: a text that starts with a blank, an empty one and one with an ampersand,
floats of both layouts and one that is not a number. -/
def readings : Table where
  id := ⟨"lab", "readings"⟩
  schema := ⟨[⟨"place", "varchar(8)", .text, some "readings"⟩,
    ⟨"level", "float", .float, some "readings"⟩, ⟨"count", "int", .integer, some "readings"⟩]⟩
  rows := [[.text " dock", .float 0.1, .integer (-3)], [.text "", .float 2.5e20, .integer 0],
    [.text "a & b", .float Decimal.notANumber, .integer 7]]

/-- The lines of `readings`. -/
def readingsLines : List String :=
  ["place varchar(8)|level float|count int", " dock|0.1|-3", "|2.5e20|0", "a & b|NaN|7"]

theorem readings_typed : readings.Typed where
  nonempty := by decide
  distinct := by decide
  described := by
    intro field hfield
    rcases List.mem_cons.1 hfield with rfl | hfield
    · exact ⟨"place varchar(8)", _, rfl, rfl⟩
    rcases List.mem_cons.1 hfield with rfl | hfield
    · exact ⟨"level float", _, rfl, rfl⟩
    · obtain rfl := List.mem_singleton.1 hfield
      exact ⟨"count int", _, rfl, rfl⟩
  rows := List.forall_mem_cons.2 ⟨rfl, List.forall_mem_cons.2 ⟨rfl, List.forall_mem_singleton.2 rfl⟩⟩

/-- The readings are read back, with a holder and without; so is what is read from lines with blanks
around the numbers, a plus sign and lock lines between the records. -/
theorem readings_roundTrip :
    decodeTable readings.id readingsLines = .ok (none, readings) ∧
      decodeTable readings.id ("&held" :: readingsLines) = .ok (some ⟨"held"⟩, readings) ∧
      ∃ table lines, decodeTable ⟨"lab", "levels"⟩
          ["&held", " place  text| level float ", "dock| +.5e1 ", "&left", "pier|-inf"] =
            .ok (some ⟨"held"⟩, table) ∧
        encodeTable table = .ok lines ∧ decodeTable ⟨"lab", "levels"⟩ lines = .ok (none, table) := by
  obtain ⟨hwritten, hread⟩ := file_roundTrip
  obtain ⟨hplain, hlocked⟩ := (hwritten readings readings_typed).2 readingsLines rfl
  exact ⟨hplain, hlocked ⟨"held"⟩, _, _, rfl, rfl, hread ⟨"lab", "levels"⟩
    ["&held", " place  text| level float ", "dock| +.5e1 ", "&left", "pier|-inf"] _ _ rfl _ rfl⟩

end Readings

end TextTables
