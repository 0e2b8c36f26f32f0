import TextTables.Proofs.File.Unbroken
import TextTables.Proofs.Store.Catalog
/-!
# Files with a field more

A file is altered as a whole: it is decoded, the field is added to the table, and the table is written
under the lock line that was there (`Catalog.alteredLines_eq_ok`). What is written decodes to the table
with the field, since every zero is read back, an empty text at the end of a line among them.
-/

namespace TextTables

variable {id : TableId} {field : Field} {ls ls' : List String} {table : Table}

/-! ## Altered lines -/

/-- Some lines under the lock line of the holder, if there is one. -/
def underLock (holder : Option Ticket) (lines : List String) : List String :=
  match holder with
  | some ticket => ticket.lockLine :: lines
  | none => lines

theorem underLock_eq (holder : Option Ticket) (lines : List String) :
    underLock holder lines = lines ∨ ∃ ticket : Ticket, underLock holder lines = ticket.lockLine :: lines := by
  cases holder with
  | none => exact .inl rfl
  | some ticket => exact .inr ⟨ticket, rfl⟩

theorem holder?_underLock {holder : Option Ticket} {lines : List String} (h : TextTables.holder? lines = none) :
    TextTables.holder? (underLock holder lines) = holder := by
  cases holder with
  | none => exact h
  | some ticket => exact holder?_lockLine_cons

namespace Catalog

theorem alteredLines_eq_ok :
    alteredLines id field ls = .ok ls' ↔ ∃ holder table altered lines,
      decodeTable id ls = .ok (holder, table) ∧ table.addField field = .ok altered ∧
      encodeTable altered = .ok lines ∧ ls' = underLock holder lines := by
  constructor
  · intro h
    obtain ⟨⟨holder, table⟩, hdecode, h⟩ := Except.bind_eq_ok.1 h
    obtain ⟨altered, hadd, h⟩ := Except.bind_eq_ok.1 h
    obtain ⟨lines, hencode, h⟩ := Except.bind_eq_ok.1 h
    refine ⟨holder, table, altered, lines, hdecode, hadd, hencode, ?_⟩
    cases holder <;> exact (Except.ok.inj h).symm
  · rintro ⟨holder, table, altered, lines, hdecode, hadd, hencode, rfl⟩
    refine Except.bind_eq_ok.2 ⟨_, hdecode, Except.bind_eq_ok.2 ⟨_, hadd, Except.bind_eq_ok.2 ⟨_, hencode, ?_⟩⟩⟩
    cases holder <;> rfl

/-- The lock line stays at the top. -/
theorem alteredLines_holder? {ticket : Ticket} (h : alteredLines id field ls = .ok ls')
    (hh : TextTables.holder? ls = some ticket) : TextTables.holder? ls' = some ticket := by
  obtain ⟨holder, table, altered, lines, hdecode, -, -, rfl⟩ := alteredLines_eq_ok.1 h
  obtain rfl := (decodeTable_ticket hdecode).trans hh
  exact holder?_lockLine_cons

theorem alteredLines_written (hls : Written ls) (hfield : field.WellFormed)
    (h : alteredLines id field ls = .ok ls') : Written ls' := by
  obtain ⟨table, hwritten, htable⟩ := hls.decodeTable_eq id
  obtain ⟨holder, table', altered, lines, hdecode, hadd, hencode, rfl⟩ := alteredLines_eq_ok.1 h
  obtain ⟨rfl, rfl⟩ := Prod.mk.inj (Except.ok.inj (hwritten.symm.trans hdecode))
  exact ⟨altered, lines, htable.addField hfield hadd, hencode, underLock_eq _ lines⟩

theorem alteredLines_unbroken (hfield : field.WellFormed) (h : alteredLines id field ls = .ok ls') :
    TextTables.Unbroken ls' := by
  obtain ⟨holder, table, altered, lines, hdecode, hadd, hencode, rfl⟩ := alteredLines_eq_ok.1 h
  obtain ⟨schema, hschema, rfl⟩ := Table.addField_eq_ok.1 hadd
  have hwritten := (Table.typed_of_decodeTable hdecode).wellFormed_schema.add hfield hschema
  have hlines := unbroken_of_lined (lined_of_encodeTable hwritten hencode)
  cases holder with
  | none => exact hlines
  | some ticket => exact hlines.lockLine_cons ticket

/-- Lines are altered if the table in them can be written and has no field of the name. They decode to
the table with the field then, and to the holder as before. -/
theorem exists_alteredLines {holder : Option Ticket} (hfield : field.WellFormed)
    (hdecode : decodeTable id ls = .ok (holder, table)) (htable : table.WellFormed)
    (h : ¬ table.Names field.name) : ∃ ls', alteredLines id field ls = .ok ls' ∧
      decodeTable id ls' = .ok (holder, ⟨id, ⟨table.schema.fields ++ [{ field with source := some id.name }]⟩,
        table.rows.map (· ++ [field.type.zero])⟩) := by
  have hadd := Table.addField_of_not_names h
  have haltered := htable.addField hfield hadd
  refine ⟨_, alteredLines_eq_ok.2 ⟨holder, table, _, _, hdecode, hadd, haltered.encodeTable, rfl⟩, ?_⟩
  -- The fields that were there are read through the name of the table already.
  have hunder := congrArg Schema.fields (Table.typed_of_decodeTable hdecode).under_name
  rw [decodeTable_id hdecode] at hunder
  simp only [Schema.under] at hunder
  rw [haltered.decodeTable_eq haltered.encodeTable (underLock_eq holder _), holder?_underLock haltered.holder?_lines]
  simp only [Schema.under, List.map_append, List.map_singleton, hunder]

/-- They are not if a record of the table breaks its line, which it does with a value more too. -/
theorem alteredLines_error {holder : Option Ticket} (hdecode : decodeTable id ls = .ok (holder, table))
    (h : ¬ table.Names field.name) (hbroken : ∃ e, encodeTable table = .error e) :
    ∃ e, alteredLines id field ls = .error e := by
  obtain ⟨altered, hadd, hrows⟩ : ∃ altered, table.addField field = .ok altered ∧
      altered.rows = table.rows.map (· ++ [field.type.zero]) := ⟨_, Table.addField_of_not_names h, rfl⟩
  obtain ⟨row, hrow, hbreaks⟩ := encodeTable_eq_error.1 hbroken
  have hrow' : row ++ [field.type.zero] ∈ altered.rows := by
    rw [hrows]
    exact List.mem_map_of_mem hrow
  obtain ⟨e, he⟩ := encodeTable_eq_error.2 ⟨_, hrow', hbreaks.append _⟩
  refine ⟨e, ?_⟩
  rw [alteredLines, hdecode]
  simp only [bind, Except.bind, hadd, he]

/-! ## Altered files -/

variable {files : Catalog} {m : Memory}

/-- Adding a field to a file writes the file, or else it fails and nothing has changed. -/
theorem addField_cases (files : Catalog) (id : TableId) (field : Field) (m : Memory) :
    (∃ e, files.addField id field m = .error e m) ∨
      ∃ ls, files.addField id field m = .ok () (m.put (files.place id) ls) := by
  cases hl : files.lines? id m with
  | none =>
    have hlines : files.lines id m = .error (.tableNotFound id.name) := by rw [lines_eq, hl]
    exact .inl ⟨_, Action.bind_error (Action.ask_error hlines)⟩
  | some ls =>
    cases ha : alteredLines id field ls with
    | error e => exact .inl ⟨e, files.addField_error hl ha⟩
    | ok ls' =>
      rw [files.addField_apply id m field hl ha]
      cases files.hasDirectory id m with
      | false => exact .inl ⟨_, rfl⟩
      | true => exact .inr ⟨ls', rfl⟩

/-- A file refuses a field of a name that it has. -/
theorem addField_names {holder : Option Ticket} (hl : files.lines? id m = some ls)
    (hdecode : decodeTable id ls = .ok (holder, table)) (h : table.Names field.name) :
    files.addField id field m = .error (.duplicateField field.name) m := by
  refine files.addField_error hl ?_
  rw [alteredLines, hdecode]
  simp only [bind, Except.bind, Table.addField_names h]

/-- It takes any other. -/
theorem exists_addField {holder : Option Ticket} (hfield : field.WellFormed) (hl : files.lines? id m = some ls)
    (hdir : files.hasDirectory id m = true) (hdecode : decodeTable id ls = .ok (holder, table))
    (htable : table.WellFormed) (h : ¬ table.Names field.name) :
    ∃ ls', files.addField id field m = .ok () (m.put (files.place id) ls') ∧
      decodeTable id ls' = .ok (holder, ⟨id, ⟨table.schema.fields ++ [{ field with source := some id.name }]⟩,
        table.rows.map (· ++ [field.type.zero])⟩) := by
  obtain ⟨ls', haltered, hdecode'⟩ := exists_alteredLines hfield hdecode htable h
  refine ⟨ls', ?_, hdecode'⟩
  rw [files.addField_apply id m field hl haltered, if_pos hdir]

/-- A file in a directory that is there takes a field that was read from a descriptor, if it decodes to a
table that can be written and has no field of the name. It decodes then to the same holder and to the table
with the field at the end, which holds the zero of its type in every record. A field of a name that the
table has is refused. A failure changes nothing, and no other file is changed in any case. -/
theorem file_altered (files : Catalog) {id : TableId} {descriptor : String} {field : Field}
    (hfield : Field.ofDescriptor descriptor = .ok field) {m : Memory} {ls : List String}
    (hl : files.lines? id m = some ls) (hdir : files.hasDirectory id m = true) :
    (∀ holder table, decodeTable id ls = .ok (holder, table) →
      (table.Names field.name → files.addField id field m = .error (.duplicateField field.name) m) ∧
      (¬ table.Names field.name → ∀ lines, encodeTable table = .ok lines → ∃ ls' m',
        files.addField id field m = .ok () m' ∧ files.lines? id m' = some ls' ∧
        decodeTable id ls' = .ok (holder,
          ⟨id, ⟨table.schema.fields ++ [{ field with source := some id.name }]⟩,
            table.rows.map (· ++ [field.type.zero])⟩)) ∧
      ((∃ e, encodeTable table = .error e) → ∃ e, files.addField id field m = .error e m)) ∧
    (∀ e, decodeTable id ls = .error e → files.addField id field m = .error e m) ∧
    (∀ e m', files.addField id field m = .error e m' → m' = m) ∧
    ∀ p, p ≠ files.place id → (Action.after (files.addField id field) m).lines? p = m.lines? p := by
  have hwell := (Field.wellFormed_of_ofDescriptor hfield).1
  refine ⟨fun holder table hdecode => ⟨?taken, ?added, ?unwritable⟩, ?unreadable, ?failed, ?others⟩
  case taken => exact addField_names hl hdecode
  case added =>
    intro hnames lines hencode
    have htable := (Table.typed_of_decodeTable hdecode).wellFormed hencode
    obtain ⟨ls', hadded, hdecode'⟩ := exists_addField hwell hl hdir hdecode htable hnames
    exact ⟨ls', _, hadded, Memory.lines?_put_self, hdecode'⟩
  case unwritable =>
    intro hbroken
    by_cases hnames : table.Names field.name
    · exact ⟨_, addField_names hl hdecode hnames⟩
    · obtain ⟨e, he⟩ := alteredLines_error hdecode hnames hbroken
      exact ⟨e, files.addField_error hl he⟩
  case unreadable =>
    intro e hdecode
    refine files.addField_error hl ?_
    rw [alteredLines, hdecode]
    rfl
  case failed =>
    intro e m' hfailed
    rcases addField_cases files id field m with ⟨e', h⟩ | ⟨ls', h⟩
    · rw [h] at hfailed
      cases hfailed
      rfl
    · rw [h] at hfailed
      cases hfailed
  case others =>
    intro p hp
    rcases addField_cases files id field m with ⟨e, h⟩ | ⟨ls', h⟩
    · rw [Action.after_error h]
    · rw [Action.after_ok h, Memory.lines?_put_of_ne hp]

/-- A held file takes a field of texts, which is empty in the records and last on their lines, and refuses
a field of a name that it has. -/
theorem file_altered_held :
    let files : Catalog := ⟨⟨"Databases"⟩, "tbl"⟩
    let id : TableId := ⟨"lab", "levels"⟩
    let m := (Memory.empty.addDirectory (files.databasePath "lab").place).put (files.place id)
      ["&held", " place  text| level int ", "dock| +5 ", "&left", "|-1"]
    (∃ ls m', files.addField id ⟨"note", "text(9)", .text, none⟩ m = .ok () m' ∧ files.lines? id m' = some ls ∧
      decodeTable id ls = .ok (some ⟨"held"⟩, ⟨id, ⟨[⟨"place", "text", .text, some "levels"⟩,
          ⟨"level", "int", .integer, some "levels"⟩, ⟨"note", "text(9)", .text, some "levels"⟩]⟩,
        [[.text "dock", .integer 5, .text ""], [.text "", .integer (-1), .text ""]]⟩)) ∧
    files.addField id ⟨"level", "text", .text, none⟩ m = .error (.duplicateField "level") m := by
  intro files id m
  have hl : files.lines? id m = some ["&held", " place  text| level int ", "dock| +5 ", "&left", "|-1"] :=
    Memory.lines?_put_self
  have hdir : files.hasDirectory id m = true := by decide +kernel
  let table : Table := ⟨id, ⟨[⟨"place", "text", .text, some "levels"⟩, ⟨"level", "int", .integer, some "levels"⟩]⟩,
    [[.text "dock", .integer 5], [.text "", .integer (-1)]]⟩
  have hdecode : decodeTable id ["&held", " place  text| level int ", "dock| +5 ", "&left", "|-1"] =
    .ok (some ⟨"held"⟩, table) := rfl
  have hnote : Field.ofDescriptor "note text(9)" = .ok ⟨"note", "text(9)", .text, none⟩ := rfl
  have hlevel : Field.ofDescriptor "level text" = .ok ⟨"level", "text", .text, none⟩ := rfl
  obtain ⟨-, hadded, -⟩ := (file_altered files hnote hl hdir).1 _ table hdecode
  obtain ⟨htaken, -⟩ := (file_altered files hlevel hl hdir).1 _ table hdecode
  exact ⟨hadded (by simp [Table.Names, table]) ["place text|level int", "dock|5", "|-1"] rfl,
    htaken ⟨⟨"level", "int", .integer, some "levels"⟩, by simp [table], rfl⟩⟩

end Catalog

end TextTables
