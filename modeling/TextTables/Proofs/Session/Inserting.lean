import Mathlib.Data.List.Forall2
import TextTables.Proofs.Session.Editing
/-!
# What an insertion adds

`insert_cases`: over files that can be read, an insertion puts the records of all its tuples at the end
of the table that the session reads, in its staged copy or else in its file, or it changes nothing. It
succeeds on both paths alike, exactly if every tuple stands for a record that a line can hold.
-/

namespace TextTables

/-! ## Tuples -/

/-- The record that a tuple stands for: its values one by one, each cast to the type of its field. -/
inductive TupleRow : List Field → List Expression → Row → Prop
  | nil : TupleRow [] [] []
  | cons {field : Field} {fields : List Field} {e : Expression} {tuple : List Expression}
      {value stored : Value} {row : Row} : e.evaluate [] = .ok value →
      value.cast field.type = .ok stored → TupleRow fields tuple row →
      TupleRow (field :: fields) (e :: tuple) (stored :: row)

section Tuples
variable {fields fields' : List Field} {tuple : List Expression} {row : Row} {schema : Schema}
  {tuples : List (List Expression)} {rows : List Row}

theorem TupleRow.length_eq (h : TupleRow fields tuple row) : tuple.length = fields.length := by
  induction h with
  | nil => rfl
  | cons _ _ _ ih => simp [ih]

/-- The record depends on the types of the fields only. -/
theorem TupleRow.of_types (h : TupleRow fields tuple row)
    (htypes : fields.map (·.type) = fields'.map (·.type)) : TupleRow fields' tuple row := by
  induction h generalizing fields' with
  | nil =>
    obtain rfl : fields' = [] := by simpa using htypes.symm
    exact .nil
  | cons hvalue hcast _ ih =>
    cases fields' with
    | nil => simp at htypes
    | cons field' fields' =>
      rw [List.map_cons, List.map_cons, List.cons.injEq] at htypes
      obtain ⟨htype, htypes⟩ := htypes
      exact .cons hvalue (by rwa [← htype]) (ih htypes)

theorem TupleRow.congr (htypes : fields.map (·.type) = fields'.map (·.type)) :
    TupleRow fields = TupleRow fields' := by
  ext tuple row
  exact ⟨fun h => h.of_types htypes, fun h => h.of_types htypes.symm⟩

theorem tupleValues_eq_ok (hlength : tuple.length = fields.length) :
    tupleValues fields tuple = .ok row ↔ TupleRow fields tuple row := by
  induction fields generalizing tuple row with
  | nil =>
    obtain rfl : tuple = [] := List.length_eq_zero_iff.1 hlength
    constructor
    · intro h
      cases h
      exact .nil
    · intro h
      cases h
      rfl
  | cons field fields ih =>
    cases tuple with
    | nil => cases hlength
    | cons e rest =>
      have hlength : rest.length = fields.length := by simpa using hlength
      constructor
      · intro h
        obtain ⟨value, hvalue, h⟩ := Except.bind_eq_ok.1 h
        obtain ⟨stored, hcast, h⟩ := Except.bind_eq_ok.1 h
        obtain ⟨row', hrest, h⟩ := Except.bind_eq_ok.1 h
        cases h
        exact .cons hvalue hcast ((ih hlength).1 hrest)
      · intro h
        cases h with
        | cons hvalue hcast hrest =>
          exact Except.bind_eq_ok.2 ⟨_, hvalue, Except.bind_eq_ok.2 ⟨_, hcast,
            Except.bind_eq_ok.2 ⟨_, (ih hlength).2 hrest, rfl⟩⟩⟩

theorem tupleRow_eq_ok : tupleRow schema tuple = .ok row ↔ TupleRow schema.fields tuple row := by
  by_cases hwidth : tuple.length = schema.width
  · rw [tupleRow, if_neg (not_not.2 hwidth), tupleValues_eq_ok hwidth]
  · rw [tupleRow, if_pos hwidth]
    exact iff_of_false (fun h => by cases h) fun h => hwidth h.length_eq

theorem tupleRows_eq_ok :
    tupleRows schema tuples = .ok rows ↔ List.Forall₂ (TupleRow schema.fields) tuples rows := by
  induction tuples generalizing rows with
  | nil =>
    rw [List.forall₂_nil_left_iff]
    exact ⟨fun h => (Except.ok.inj h).symm, fun h => h ▸ rfl⟩
  | cons tuple rest ih =>
    rw [List.forall₂_cons_left_iff]
    constructor
    · intro h
      obtain ⟨row, hrow, h⟩ := Except.bind_eq_ok.1 h
      obtain ⟨rows', hrest, h⟩ := Except.bind_eq_ok.1 h
      cases h
      exact ⟨row, rows', tupleRow_eq_ok.1 hrow, ih.1 hrest, rfl⟩
    · rintro ⟨row, rows', hrow, hrest, rfl⟩
      exact Except.bind_eq_ok.2 ⟨row, tupleRow_eq_ok.2 hrow,
        Except.bind_eq_ok.2 ⟨rows', ih.2 hrest, rfl⟩⟩

end Tuples

namespace Connection

variable {files : Catalog} {ticket : Ticket} {c c' : Connection Memory} {name : String}
  {table : Table} {tuples : List (List Expression)} {rows : List Row}

theorem requireEncodable_eq_ok :
    requireEncodable rows = .ok () ↔ ∀ row ∈ rows, checkRow row = .ok () := by
  induction rows with
  | nil => simp [requireEncodable]
  | cons row rest ih => rw [requireEncodable, Except.bind_unit_eq_ok, ih, List.forall_mem_cons]

/-- A session reads a table that is not staged from its file. -/
theorem table_stored {id : TableId} {ls : List String} {holder : Option Ticket}
    (hid : tableId name c = .ok id) (hs : c.staged? id = none) (hl : files.lines? id c.store = some ls)
    (hd : decodeTable id ls = .ok (holder, table)) : Connection.table files name c = .ok table := by
  have hload : files.load id c.store = .ok table := files.load_eq_ok.2 ⟨ls, holder, hl, hd⟩
  refine Except.bind_eq_ok.2 ⟨some table, Except.bind_eq_ok.2 ⟨id, hid, ?_⟩, rfl⟩
  simp only [hs, Catalog.tableExists_eq, hl, Option.isSome_some, if_true, hload]
  rfl

/-! ## Records at the end of a table -/

variable (files) in
/-- A connection with records at the end of a table: of its staged copy, or else of its file. -/
inductive Appended (c : Connection Memory) (table : Table) (rows : List Row) : Connection Memory → Prop
  | staged {t : Transaction} : c.transaction = some t → t.staged? table.id = some table →
      Appended c table rows
        { c with transaction := some (t.stage { table with rows := table.rows ++ rows }) }
  | stored {ls : List String} : c.staged? table.id = none → files.lines? table.id c.store = some ls →
      Appended c table rows { c with store := extend c.store (files.place table.id) ls rows }

theorem lines?_extend {m : Memory} {p q : Place} {ls : List String} (hl : m.lines? p = some ls) :
    (extend m p ls rows).lines? q = if q = p then some (ls ++ rows.map renderRow) else m.lines? q := by
  cases rows with
  | nil =>
    split
    · next h => simp [extend, h, hl]
    · rfl
  | cons row rest => exact Memory.lines?_put

/-- A written file with records at its end decodes to the table with the records at its end. -/
theorem decodeTable_append {id : TableId} {ls : List String} {holder : Option Ticket} (hls : Written ls)
    (hd : decodeTable id ls = .ok (holder, table)) (hrows : ∀ row ∈ rows, RowFits table.schema row) :
    decodeTable id (ls ++ rows.map renderRow) =
      .ok (holder, { table with rows := table.rows ++ rows }) := by
  obtain ⟨original, body, horiginal, he, hbody⟩ := hls
  obtain ⟨rfl, rfl⟩ := Prod.mk.inj (Except.ok.inj ((horiginal.decodeTable_eq he hbody id).symm.trans hd))
  have hlonger := horiginal.append fun row hrow => (hrows row hrow).of_types (by simp)
  have hholder : holder? (ls ++ rows.map renderRow) = holder? ls := by
    refine holder?_append_of_ne_nil ?_
    rintro rfl
    cases hd
  rw [horiginal.encodeTable] at he
  cases he
  rw [← hholder]
  refine hlonger.decodeTable_eq hlonger.encodeTable ?_ id
  rcases hbody with rfl | ⟨ticket, rfl⟩
  · exact .inl (Table.lines_append original rows).symm
  · exact .inr ⟨ticket, congrArg (ticket.lockLine :: ·) (Table.lines_append original rows).symm⟩

theorem Appended.reads (h : Appended files c table rows c') (hc : c.WellFormed)
    (htable : Connection.table files name c = .ok table)
    (hrows : ∀ row ∈ rows, RowFits table.schema row) :
    Connection.table files name c' = .ok { table with rows := table.rows ++ rows } := by
  obtain ⟨hid, hfound⟩ := table_eq_ok htable
  cases h with
  | staged ht hs =>
    refine table_staged hid (staged?_eq_some.2 ⟨_, rfl, ?_⟩)
    rw [Transaction.staged?_stage, if_pos rfl]
  | stored hs hl =>
    rcases hfound with hfound | ⟨-, ls, holder, hl', hd⟩
    · rw [hs] at hfound
      cases hfound
    · obtain rfl := Option.some.inj (hl'.symm.trans hl)
      refine table_stored hid hs ?_ (decodeTable_append (hc.store _ _ hl) hd hrows)
      exact (lines?_extend hl).trans (if_pos rfl)

/-! ## Insertions -/

variable (files) in
/-- Some tuples stand for records that can be put at the end of a table. -/
structure Insertable (c : Connection Memory) (table : Table) (tuples : List (List Expression))
    (rows : List Row) : Prop where
  tuples : List.Forall₂ (TupleRow table.schema.fields) tuples rows
  check : ∀ row ∈ rows, checkRow row = .ok ()
  free : c.staged? table.id = none → ∀ ls, files.lines? table.id c.store = some ls → Free c ls

theorem Insertable.rowFits (h : Insertable files c table tuples rows) :
    ∀ row ∈ rows, RowFits table.schema row :=
  fun row hrow => ⟨tupleRows_types (tupleRows_eq_ok.2 h.tuples) row hrow, h.check row hrow⟩

/-- Without a table to read there is no schema to insert by. -/
theorem schema_error (hc : c.WellFormed) (htable : ∀ table, Connection.table files name c ≠ .ok table) :
    ∃ e, schema files name c = .error e := by
  cases hsch : schema files name c with
  | error e => exact ⟨e, rfl⟩
  | ok found =>
    obtain ⟨id, sch⟩ := found
    obtain ⟨hid, ⟨table, hs, -⟩ | ⟨hs, ls, holder, hl, -⟩⟩ := schema_eq_ok hsch
    · exact absurd (table_staged hid hs) (htable table)
    · obtain ⟨table, hd, -⟩ := (hc.store _ ls hl).decodeTable_eq id
      exact absurd (table_stored hid hs hl hd) (htable table)

/-- Both paths of an insertion make the records, check them and put them at the end of the table; the
guard refuses a file that another transaction holds. -/
theorem insert_path (htable : Connection.table files name c = .ok table)
    (tuples : List (List Expression)) :
    ∃ (sch : Schema) (guard : Except Error Unit) (after : List Row → Connection Memory),
      TupleRow sch.fields = TupleRow table.schema.fields ∧
      (guard = .ok () ↔
        (c.staged? table.id = none → ∀ ls, files.lines? table.id c.store = some ls → Free c ls)) ∧
      (∀ rows, Appended files c table rows (after rows)) ∧
      insert files name tuples c = match tupleRows sch tuples with
        | .error e => .error e c
        | .ok rows => match requireEncodable rows, guard with
          | .error e, _ | .ok _, .error e => .error e c
          | .ok _, .ok _ => .ok rows.length (after rows) := by
  obtain ⟨hid, hs | ⟨hs, ls, holder, hl, hd⟩⟩ := table_eq_ok htable
  · obtain ⟨t, ht, hst⟩ := staged?_eq_some.1 hs
    refine ⟨table.schema, .ok (), _, rfl, by simp [hs], fun rows => .staged ht hst, ?_⟩
    rw [insert_staged files hid ht hst]
    cases hrows : tupleRows table.schema tuples with
    | error e => rfl
    | ok rows =>
      dsimp only
      rw [Table.pushAll_of_length fun row hrow => (tupleRows_types hrows row hrow).length_eq]
      cases requireEncodable rows <;> rfl
  · obtain ⟨sch, hheader, hschema⟩ := header_of_decodeTable hd
    refine ⟨sch, requireNotForeign files table.id c, _, ?_, ?_, fun rows => .stored hs hl,
      insert_unstaged hid hs hl hheader tuples⟩
    · rw [hschema, Schema.qualify_eq_under]
      exact TupleRow.congr (Schema.types_under sch _).symm
    · rw [requireNotForeign_eq_ok]
      simp [hs, hl]

/-- An insertion puts the records of all tuples at the end of the table that the session reads, or it
changes nothing, because they are not insertable. -/
theorem insert_cases (hc : c.WellFormed) (name : String) (tuples : List (List Expression)) :
    (∃ table rows c', Connection.table files name c = .ok table ∧
      Insertable files c table tuples rows ∧ Appended files c table rows c' ∧
      insert files name tuples c = .ok tuples.length c') ∨
    ∃ e, insert files name tuples c = .error e c ∧
      ∀ table rows, Connection.table files name c = .ok table → ¬ Insertable files c table tuples rows := by
  cases htable : Connection.table files name c with
  | error e =>
    obtain ⟨e', hsch⟩ := schema_error hc fun table h => Except.ne_error h e htable
    rw [insert, Action.bind_error (Action.ask_error hsch)]
    refine .inr ⟨e', rfl, fun table rows h => ?_⟩
    cases h
  | ok table =>
    obtain ⟨sch, guard, after, hfields, hguard, happended, hinsert⟩ := insert_path htable tuples
    have hmade {rows : List Row} : tupleRows sch tuples = .ok rows ↔
        List.Forall₂ (TupleRow table.schema.fields) tuples rows := by
      rw [tupleRows_eq_ok, hfields]
    rw [hinsert]
    cases hrows : tupleRows sch tuples with
    | error e =>
      refine .inr ⟨e, rfl, fun table' rows heq hins => ?_⟩
      cases heq
      exact Except.ne_error (hmade.2 hins.tuples) e hrows
    | ok rows =>
      -- The records are the only ones that the tuples stand for.
      have honly {table' : Table} {rows' : List Row} (heq : Except.ok (ε := Error) table = .ok table')
          (hins : Insertable files c table' tuples rows') : Insertable files c table tuples rows := by
        cases heq
        obtain rfl := Except.ok.inj (hrows.symm.trans (hmade.2 hins.tuples))
        exact hins
      dsimp only
      cases hcheck : requireEncodable rows with
      | error e =>
        exact .inr ⟨e, rfl, fun table' rows' heq hins =>
          Except.ne_error (requireEncodable_eq_ok.2 (honly heq hins).check) e hcheck⟩
      | ok _ =>
        cases hg : guard with
        | error e =>
          exact .inr ⟨e, rfl, fun table' rows' heq hins =>
            Except.ne_error (hguard.2 (honly heq hins).free) e hg⟩
        | ok _ =>
          have htuples := hmade.1 hrows
          rw [← htuples.length_eq]
          exact .inl ⟨table, rows, after rows, rfl,
            ⟨htuples, requireEncodable_eq_ok.1 hcheck, hguard.1 hg⟩, happended rows, rfl⟩

end Connection

end TextTables
