import Mathlib.Data.List.Forall2
import Mathlib.Data.List.Sigma
import TextTables.Proofs.Reference
import TextTables.Proofs.Relation.Selection
import TextTables.Proofs.Session.Changing
import TextTables.Proofs.Session.Copies
import TextTables.Proofs.Session.Inserting
/-!
# What an update makes of the records

The assignments of an update are simultaneous: every expression is evaluated on the record as it was, and
its value goes into the field that is assigned, cast to the type of the field (`Assigned`). An update does
this to the records that its condition accepts and keeps the others (`updatedRows_eq_ok`); it succeeds
exactly if that can be done to all of them under the lock of the table (`update_simultaneous`).
-/

namespace TextTables

variable {schema : Schema} {columns columns' : List (String × Expression)} {condition : Option Expression}
  {row start updated : Row} {rows rows' : List Row}

/-! ## Columns -/

section Columns
variable {ref : FieldRef} {name : String} {position position' : Nat} {field field' : Field}

/-- Where no two fields have a name, the one that has it is at one position. -/
theorem Schema.position_unique (hdistinct : (schema.fields.map (·.name)).Nodup)
    (h : schema.fields[position]? = some field) (h' : schema.fields[position']? = some field')
    (hname : field.name = field'.name) : position = position' := by
  have hlt : position < (schema.fields.map (·.name)).length := by
    rw [List.length_map]
    exact (List.getElem?_eq_some_iff.1 h).1
  refine (List.getElem?_inj hlt hdistinct).1 ?_
  rw [List.getElem?_map, List.getElem?_map, h, h', Option.map_some, Option.map_some, hname]

/-- A column means the field of its name. -/
theorem Schema.resolve_eq_ok (hdistinct : (schema.fields.map (·.name)).Nodup) :
    schema.resolve ⟨none, name⟩ = .ok position ↔
      ∃ field, schema.fields[position]? = some field ∧ field.name = name := by
  have hmem (p : Nat) : p ∈ schema.positions ⟨none, name⟩ ↔
      ∃ field, schema.fields[p]? = some field ∧ field.name = name := by
    simp [mem_positions, Field.answers]
  rw [resolve_eq_ok_iff_mem]
  constructor
  · exact fun h => (hmem position).1 ((h position).2 rfl)
  · rintro ⟨field, hfield, hname⟩ p
    rw [hmem]
    constructor
    · rintro ⟨other, hother, hsame⟩
      exact position_unique hdistinct hother hfield (hsame.trans hname.symm)
    · rintro rfl
      exact ⟨field, hfield, hname⟩

variable (schema) in
/-- An assignment to a position is that of a column. -/
def Resolves (column : String × Expression) (assignment : Nat × Expression) : Prop :=
  schema.resolve ⟨none, column.1⟩ = .ok assignment.1 ∧ assignment.2 = column.2

theorem resolveColumns_eq_ok {assignments : List (Nat × Expression)} :
    resolveColumns schema columns = .ok assignments ↔ List.Forall₂ (Resolves schema) columns assignments := by
  induction columns generalizing assignments with
  | nil =>
    rw [List.forall₂_nil_left_iff]
    exact ⟨fun h => (Except.ok.inj h).symm, fun h => h ▸ rfl⟩
  | cons column rest ih =>
    rw [List.forall₂_cons_left_iff]
    constructor
    · intro h
      obtain ⟨position, hposition, h⟩ := Except.bind_eq_ok.1 h
      obtain ⟨assignments', hrest, h⟩ := Except.bind_eq_ok.1 h
      cases h
      exact ⟨_, assignments', ⟨hposition, rfl⟩, ih.1 hrest, rfl⟩
    · rintro ⟨⟨position, e⟩, assignments', ⟨hposition, rfl⟩, hrest, rfl⟩
      exact Except.bind_eq_ok.2 ⟨position, hposition, Except.bind_eq_ok.2 ⟨assignments', ih.2 hrest, rfl⟩⟩

theorem exists_resolveColumns (hdistinct : (schema.fields.map (·.name)).Nodup) :
    (∃ assignments, resolveColumns schema columns = .ok assignments) ↔
      ∀ column ∈ columns, ∃ field ∈ schema.fields, field.name = column.1 := by
  simp only [resolveColumns_eq_ok]
  induction columns with
  | nil => simp
  | cons column rest ih =>
    rw [List.forall_mem_cons, ← ih]
    constructor
    · rintro ⟨assignments, h⟩
      obtain ⟨assignment, assignments', ⟨hposition, -⟩, hrest, -⟩ := List.forall₂_cons_left_iff.1 h
      obtain ⟨field, hfield, hname⟩ := (Schema.resolve_eq_ok hdistinct).1 hposition
      exact ⟨⟨field, List.mem_of_getElem? hfield, hname⟩, assignments', hrest⟩
    · rintro ⟨⟨field, hfield, hname⟩, assignments', hrest⟩
      obtain ⟨position, hposition⟩ := List.mem_iff_getElem?.1 hfield
      exact ⟨(position, column.2) :: assignments',
        .cons ⟨(Schema.resolve_eq_ok hdistinct).2 ⟨field, hposition, hname⟩, rfl⟩ hrest⟩

end Columns

/-! ## Assignments -/

/-- The record `start` with the values of some expressions in the fields of some names, each evaluated on
the record `row` and cast to the type of the field. -/
structure AssignedInto (schema : Schema) (columns : List (String × Expression)) (row start updated : Row) :
    Prop where
  length : updated.length = start.length
  assigned : ∀ column ∈ columns, ∃ (position : Nat) (field : Field) (value stored : Value),
    schema.fields[position]? = some field ∧ field.name = column.1 ∧
    column.2.evaluate [(schema, row)] = .ok value ∧ value.cast field.type = .ok stored ∧
    updated[position]? = some stored
  others : ∀ (position : Nat) (field : Field), schema.fields[position]? = some field →
    field.name ∉ columns.map (·.1) → updated[position]? = start[position]?

/-- The record `updated` is `row` with some fields assigned at once, every expression evaluated on `row`. -/
def Assigned (schema : Schema) (columns : List (String × Expression)) (row updated : Row) : Prop :=
  AssignedInto schema columns row row updated

theorem AssignedInto.perm (h : AssignedInto schema columns row start updated) (hperm : columns'.Perm columns) :
    AssignedInto schema columns' row start updated where
  length := h.length
  assigned column hcolumn := h.assigned column (hperm.mem_iff.1 hcolumn)
  others position field hfield hname :=
    h.others position field hfield fun hmem => hname ((hperm.map _).mem_iff.2 hmem)

/-- In which order the fields are assigned does not matter. -/
theorem Assigned.perm (hperm : columns'.Perm columns) : Assigned schema columns' = Assigned schema columns := by
  funext row updated
  exact propext ⟨fun h => AssignedInto.perm h hperm.symm, fun h => AssignedInto.perm h hperm⟩

/-- Several fields are assigned by assigning the first and then the others. -/
theorem assignedInto_cons (hdistinct : (schema.fields.map (·.name)).Nodup) {name : String} {e : Expression}
    (hnew : name ∉ columns.map (·.1)) {position : Nat} {field : Field}
    (hfield : schema.fields[position]? = some field) (hname : field.name = name) (hlt : position < start.length) :
    AssignedInto schema ((name, e) :: columns) row start updated ↔
      ∃ value stored, e.evaluate [(schema, row)] = .ok value ∧ value.cast field.type = .ok stored ∧
        AssignedInto schema columns row (start.set position stored) updated := by
  constructor
  · intro h
    obtain ⟨hhead, htail⟩ := List.forall_mem_cons.1 h.assigned
    obtain ⟨position', field', value, stored, hfield', hname', hvalue, hcast, hstored⟩ := hhead
    obtain rfl := Schema.position_unique hdistinct hfield hfield' (hname.trans hname'.symm)
    obtain rfl := Option.some.inj (hfield.symm.trans hfield')
    refine ⟨value, stored, hvalue, hcast, h.length.trans List.length_set.symm, htail,
      fun other field' hfield' hnot => ?_⟩
    by_cases hother : other = position
    · rw [hother, List.getElem?_set_self hlt, hstored]
    · rw [List.getElem?_set_ne (Ne.symm hother)]
      refine h.others other field' hfield' fun hmem => ?_
      rcases List.mem_cons.1 hmem with hsame | hmem
      · exact hother (Schema.position_unique hdistinct hfield' hfield (hsame.trans hname.symm))
      · exact hnot hmem
  · rintro ⟨value, stored, hvalue, hcast, h⟩
    refine ⟨h.length.trans List.length_set, ?_, fun other field' hfield' hnot => ?_⟩
    · -- The later assignments leave the field alone.
      have hstored := h.others position field hfield (hname ▸ hnew)
      rw [List.getElem?_set_self hlt] at hstored
      exact List.forall_mem_cons.2
        ⟨⟨position, field, value, stored, hfield, hname, hvalue, hcast, hstored⟩, h.assigned⟩
    · rw [List.map_cons, List.mem_cons, not_or] at hnot
      rw [h.others other field' hfield' hnot.2]
      refine List.getElem?_set_ne ?_
      rintro rfl
      obtain rfl := Option.some.inj (hfield.symm.trans hfield')
      exact hnot.1 hname

/-- Assigning one field after the other, all expressions evaluated on one record, assigns all of them. -/
theorem assignInto_eq_ok {assignments : List (Nat × Expression)}
    (hdistinct : (schema.fields.map (·.name)).Nodup) (hcolumns : (columns.map (·.1)).Nodup)
    (hresolves : List.Forall₂ (Resolves schema) columns assignments) (hstart : start.length = schema.width) :
    assignInto schema row start assignments = .ok updated ↔ AssignedInto schema columns row start updated := by
  induction hresolves generalizing start with
  | nil =>
    constructor
    · intro h
      cases h
      exact ⟨rfl, nofun, fun _ _ _ _ => rfl⟩
    · intro h
      refine congrArg Except.ok (List.ext_getElem? fun position => ?_)
      by_cases hlt : position < schema.fields.length
      · exact (h.others position _ (List.getElem?_eq_getElem hlt) List.not_mem_nil).symm
      · have hout : start.length ≤ position := by
          rw [hstart]
          exact Nat.le_of_not_lt hlt
        rw [List.getElem?_eq_none hout, List.getElem?_eq_none (h.length.trans_le hout)]
  | @cons column assignment rest assignments' hcolumn hrest ih =>
    obtain ⟨hposition, heq⟩ := hcolumn
    obtain ⟨name, e⟩ := column
    obtain ⟨position, e'⟩ := assignment
    obtain rfl : e' = e := heq
    obtain ⟨field, hfield, hname⟩ := (Schema.resolve_eq_ok hdistinct).1 hposition
    dsimp only at hfield hname
    obtain ⟨hnew, hcolumns⟩ := List.nodup_cons.1 hcolumns
    have hlt : position < start.length := by
      rw [hstart]
      exact (List.getElem?_eq_some_iff.1 hfield).1
    have hset (stored : Value) : (start.set position stored).length = schema.width := by
      rw [List.length_set, hstart]
    rw [assignedInto_cons hdistinct hnew hfield hname hlt]
    simp only [assignInto, hfield, Except.bind_eq_ok, ih hcolumns (hset _), exists_and_left]

/-! ## Records -/

/-- What an update makes of a record: it keeps one that its condition does not accept, and assigns the
fields of any other as `assigns` says, if a line can hold the result. -/
inductive Updates (schema : Schema) (assigns : Row → Row → Prop) (condition : Option Expression) (row : Row) :
    Row → Prop
  | kept : accepts condition [(schema, row)] = .ok false → Updates schema assigns condition row row
  | changed {updated : Row} : accepts condition [(schema, row)] = .ok true → assigns row updated →
      checkRow updated = .ok () → Updates schema assigns condition row updated

section Updates
variable {assigns : Row → Row → Prop}

/-- An update that accepts no record keeps all of them. -/
theorem eq_of_satisfying_nil (h : List.Forall₂ (Updates schema assigns condition) rows rows')
    (hnone : satisfying condition schema rows = []) : rows' = rows := by
  induction h with
  | nil => rfl
  | @cons row updated rest rest' hupdates hrest ih =>
    rw [satisfying, List.filter_cons] at hnone
    cases hupdates with
    | kept haccepts =>
      rw [haccepts] at hnone
      rw [ih hnone]
    | changed haccepts =>
      rw [haccepts] at hnone
      cases hnone

/-- An update that succeeds does what it does to every record, and counts those that it changes. -/
theorem updatedRows_eq_ok {assignments : List (Nat × Expression)} {n : Nat}
    (hassign : ∀ row ∈ rows, ∀ updated, assign schema row assignments = .ok updated ↔ assigns row updated) :
    updatedRows schema assignments condition rows = .ok (rows', n) ↔
      List.Forall₂ (Updates schema assigns condition) rows rows' ∧
        n = (satisfying condition schema rows).length := by
  induction rows generalizing rows' n with
  | nil =>
    rw [List.forall₂_nil_left_iff, updatedRows, Except.ok.injEq, Prod.mk.injEq]
    exact and_congr eq_comm eq_comm
  | cons row rest ih =>
    obtain ⟨hassign, hrest⟩ := List.forall_mem_cons.1 hassign
    rw [List.forall₂_cons_left_iff, satisfying, List.filter_cons]
    constructor
    · intro h
      obtain ⟨accepted, haccepts, h⟩ := Except.bind_eq_ok.1 h
      rw [haccepts]
      cases accepted with
      | true =>
        obtain ⟨updated, hupdated, h⟩ := Except.bind_eq_ok.1 h
        obtain ⟨hcheck, h⟩ := Except.bind_unit_eq_ok.1 h
        obtain ⟨⟨rs, m⟩, hrs, h⟩ := Except.bind_eq_ok.1 h
        cases h
        obtain ⟨hall, rfl⟩ := (ih hrest).1 hrs
        exact ⟨⟨updated, rs, .changed haccepts ((hassign updated).1 hupdated) hcheck, hall, rfl⟩, rfl⟩
      | false =>
        obtain ⟨⟨rs, m⟩, hrs, h⟩ := Except.bind_eq_ok.1 h
        cases h
        obtain ⟨hall, rfl⟩ := (ih hrest).1 hrs
        exact ⟨⟨row, rs, .kept haccepts, hall, rfl⟩, rfl⟩
    · rintro ⟨⟨updated, rs, hupdates, hall, rfl⟩, rfl⟩
      have hrs := (ih hrest).2 ⟨hall, rfl⟩
      refine Except.bind_eq_ok.2 ?_
      cases hupdates with
      | kept haccepts =>
        rw [haccepts]
        exact ⟨false, rfl, Except.bind_eq_ok.2 ⟨_, hrs, rfl⟩⟩
      | changed haccepts hassigns hcheck =>
        rw [haccepts]
        exact ⟨true, rfl, Except.bind_eq_ok.2 ⟨updated, (hassign updated).2 hassigns,
          Except.bind_unit_eq_ok.2 ⟨hcheck, Except.bind_eq_ok.2 ⟨_, hrs, rfl⟩⟩⟩⟩

end Updates

/-- Records can be related to others one by one if each of them can. -/
theorem exists_forall₂ {α β : Type} {R : α → β → Prop} {l : List α} :
    (∃ l', List.Forall₂ R l l') ↔ ∀ a ∈ l, ∃ b, R a b := by
  induction l with
  | nil => simp
  | cons a rest ih =>
    rw [List.forall_mem_cons, ← ih]
    constructor
    · rintro ⟨l', h⟩
      obtain ⟨b, l'', hb, hrest, -⟩ := List.forall₂_cons_left_iff.1 h
      exact ⟨⟨b, hb⟩, l'', hrest⟩
    · rintro ⟨⟨b, hb⟩, l', hrest⟩
      exact ⟨b :: l', .cons hb hrest⟩

/-! ## Updates -/

namespace Connection

variable {files : Catalog} {c c' : Connection Memory} {name : String} {table : Table} {n : Nat}

/-- An update that succeeds changes the table to the records that it makes of those before. -/
theorem update_eq_ok (htable : Connection.table files name c = .ok table) (hrows : table.Rectangular)
    (hdistinct : (table.schema.fields.map (·.name)).Nodup) (hcolumns : (columns.map (·.1)).Nodup) :
    update files name columns condition c = .ok n c' ↔
      ∃ t rs, c.transaction = some t ∧
        (∀ column ∈ columns, ∃ field ∈ table.schema.fields, field.name = column.1) ∧
        List.Forall₂ (Updates table.schema (Assigned table.schema columns) condition) table.rows rs ∧
        n = (satisfying condition table.schema table.rows).length ∧
        change files table (.ok (rs, n)) c = .ok n c' := by
  rw [← exists_resolveColumns hdistinct]
  cases ht : c.transaction with
  | none =>
    rw [update, Action.bind_error (activeTransaction_idle ht)]
    simp
  | some t =>
    rw [update_apply files name columns condition ht, htable]
    dsimp only
    cases hresolve : resolveColumns table.schema columns with
    | error e => simp
    | ok assignments =>
      dsimp only
      have hupdated {rs : List Row} {m : Nat} :
          updatedRows table.schema assignments condition table.rows = .ok (rs, m) ↔
            List.Forall₂ (Updates table.schema (Assigned table.schema columns) condition) table.rows rs ∧
              m = (satisfying condition table.schema table.rows).length :=
        updatedRows_eq_ok fun row hrow updated =>
          assignInto_eq_ok hdistinct hcolumns (resolveColumns_eq_ok.1 hresolve) (hrows row hrow)
      constructor
      · intro h
        obtain ⟨rs, -, hrs, -⟩ := change_eq_ok ht h
        obtain ⟨hall, hn⟩ := hupdated.1 hrs
        rw [hrs] at h
        exact ⟨t, rs, rfl, ⟨assignments, rfl⟩, hall, hn, h⟩
      · rintro ⟨t', rs, -, -, hall, hn, h⟩
        rwa [hupdated.2 ⟨hall, hn⟩]

theorem update_perm (htable : Connection.table files name c = .ok table) (hrows : table.Rectangular)
    (hdistinct : (table.schema.fields.map (·.name)).Nodup) (hcolumns : (columns.map (·.1)).Nodup)
    (hperm : columns'.Perm columns) : update files name columns' condition c = .ok n c' ↔
      update files name columns condition c = .ok n c' := by
  have hcolumns' : (columns'.map (·.1)).Nodup := (hperm.map _).nodup_iff.2 hcolumns
  rw [update_eq_ok htable hrows hdistinct hcolumns, update_eq_ok htable hrows hdistinct hcolumns',
    Assigned.perm hperm]
  simp only [hperm.mem_iff]

/-- An update succeeds exactly if every record can be updated under the lock of the table. -/
theorem exists_update_ok (htable : Connection.table files name c = .ok table) (hrows : table.Rectangular)
    (hdistinct : (table.schema.fields.map (·.name)).Nodup) (hcolumns : (columns.map (·.1)).Nodup) :
    (∃ n c', update files name columns condition c = .ok n c') ↔
      (∃ t store, c.transaction = some t ∧ Locks files t.ticket table.id c.store store) ∧
      (∀ column ∈ columns, ∃ field ∈ table.schema.fields, field.name = column.1) ∧
      ∀ row ∈ table.rows, ∃ updated,
        Updates table.schema (Assigned table.schema columns) condition row updated := by
  simp only [update_eq_ok htable hrows hdistinct hcolumns]
  constructor
  · rintro ⟨n, c', t, rs, ht, hnames, hall, -, hchange⟩
    obtain ⟨-, store, -, hlocks, -⟩ := change_eq_ok ht hchange
    exact ⟨⟨t, store, ht, hlocks⟩, hnames, exists_forall₂.1 ⟨rs, hall⟩⟩
  · rintro ⟨⟨t, store, ht, hlocks⟩, hnames, hall⟩
    obtain ⟨rs, hall⟩ := exists_forall₂.2 hall
    obtain ⟨c', hchange⟩ :=
      change_of_locks ht hlocks (.ok (rs, (satisfying condition table.schema table.rows).length))
    exact ⟨_, c', t, rs, ht, hnames, hall, rfl, hchange⟩

/-- After an update its table reads with the updated records, which are staged unless none was accepted. -/
theorem update_reads (htable : Connection.table files name c = .ok table) (hrows : table.Rectangular)
    (hdistinct : (table.schema.fields.map (·.name)).Nodup) (hcolumns : (columns.map (·.1)).Nodup)
    (h : update files name columns condition c = .ok n c') :
    n = (satisfying condition table.schema table.rows).length ∧
    ∃ rows, List.Forall₂ (Updates table.schema (Assigned table.schema columns) condition) table.rows rows ∧
      Connection.table files name c' = .ok { table with rows } ∧
      ∀ id, c'.staged? id = if 0 < n ∧ id = table.id then some { table with rows } else c.staged? id := by
  obtain ⟨t, rs, ht, -, hall, hcount, hchange⟩ := (update_eq_ok htable hrows hdistinct hcolumns).1 h
  -- Without an accepted record the records stay as they are.
  have hzero : ∀ rs', (Except.ok (rs, n) : Except Error (List Row × Nat)) = .ok (rs', 0) →
      rs' = table.rows := by
    intro rs' heq
    obtain ⟨rfl, rfl⟩ := Prod.mk.inj (Except.ok.inj heq)
    exact eq_of_satisfying_nil hall (List.length_eq_zero_iff.1 hcount.symm)
  obtain ⟨rs', heq, hreads, hstaged⟩ := change_reads ht htable hzero hchange
  cases heq
  exact ⟨hcount, rs, hall, hreads, hstaged⟩

/-- An update that fails stages nothing. -/
theorem staged?_of_update_error {e : Error} (h : update files name columns condition c = .error e c') :
    c'.transaction = none ∨ ∀ id, c'.staged? id = c.staged? id := by
  cases ht : c.transaction with
  | none =>
    have hidle : update files name columns condition c = .error .noActiveTransaction c :=
      Action.bind_error (activeTransaction_idle ht)
    cases hidle.symm.trans h
    exact .inl ht
  | some t =>
    have hattempt : Attempt c id (update files name columns condition c) := update_attempt ht _ _ _
    rw [h] at hattempt
    cases hattempt with
    | failed hno => exact .inr hno.staged?
    | ended hidle => exact .inl hidle

theorem run_update_eq_ok {ticket : Ticket} {outcome : Outcome} :
    run files ticket (.update name columns condition) c = .ok outcome c' ↔
      ∃ n, update files name columns condition c = .ok n c' ∧ outcome = .updated n := by
  rw [run, Action.bind_pure_eq_ok]
  simp only [eq_comm]

/-- An update is a simultaneous assignment. It succeeds exactly if the transaction can have the lock of the
table, the columns are fields of it, and every record can be updated: the condition has a truth value for
it, and if it accepts it, every expression has a value on the record as it was that its field can store, and
a line can hold the result. Then the table is read with the updated records in the places of those before,
and the count is the number of records that were accepted. The order of the assignments does not matter, and
an update that fails stages nothing. -/
theorem update_simultaneous (files : Catalog) (c : Connection Memory) (ticket : Ticket) {name : String}
    {table : Table} (htable : Connection.table files name c = .ok table) (hrows : table.Rectangular)
    (hdistinct : (table.schema.fields.map (·.name)).Nodup) {columns : List (String × Expression)}
    (hcolumns : (columns.map (·.1)).Nodup) (condition : Option Expression) :
    let result := run files ticket (.update name columns condition) c
    let count := (satisfying condition table.schema table.rows).length
    ((∃ outcome c', result = .ok outcome c') ↔
      (∃ t store, c.transaction = some t ∧ Locks files t.ticket table.id c.store store) ∧
      (∀ column ∈ columns, ∃ field ∈ table.schema.fields, field.name = column.1) ∧
      ∀ row ∈ table.rows, ∃ updated, Updates table.schema (Assigned table.schema columns) condition row updated) ∧
    (∀ outcome c', result = .ok outcome c' →
      outcome = .updated count ∧
      ∃ rows, List.Forall₂ (Updates table.schema (Assigned table.schema columns) condition) table.rows rows ∧
        Connection.table files name c' = .ok { table with rows } ∧
        ∀ id, c'.staged? id = if 0 < count ∧ id = table.id then some { table with rows } else c.staged? id) ∧
    (∀ columns', columns'.Perm columns → ∀ outcome c',
      run files ticket (.update name columns' condition) c = .ok outcome c' ↔ result = .ok outcome c') ∧
    ∀ e c', result = .error e c' → c'.transaction = none ∨ ∀ id, c'.staged? id = c.staged? id := by
  intro result count
  have hresult {outcome : Outcome} {c' : Connection Memory} : result = .ok outcome c' ↔
      ∃ n, update files name columns condition c = .ok n c' ∧ outcome = .updated n :=
    run_update_eq_ok
  refine ⟨?_, ?_, ?_, ?_⟩
  · rw [← exists_update_ok htable hrows hdistinct hcolumns]
    constructor
    · rintro ⟨outcome, c', h⟩
      obtain ⟨n, hdone, -⟩ := hresult.1 h
      exact ⟨n, c', hdone⟩
    · rintro ⟨n, c', hdone⟩
      exact ⟨.updated n, c', hresult.2 ⟨n, hdone, rfl⟩⟩
  · intro outcome c' h
    obtain ⟨n, hdone, rfl⟩ := hresult.1 h
    obtain ⟨rfl, rows, hall, hreads, hstaged⟩ := update_reads htable hrows hdistinct hcolumns hdone
    exact ⟨rfl, rows, hall, hreads, hstaged⟩
  · intro columns' hperm outcome c'
    rw [hresult, run_update_eq_ok]
    simp only [update_perm htable hrows hdistinct hcolumns hperm]
  · intro e c' h
    exact staged?_of_update_error (Action.bind_pure_eq_error.1 h)

/-- A table of pairs, the first in order. -/
def pairs : Memory where
  files := [(["Databases", "d", "pairs.tbl"], ["a int|b int", "1|2", "5|3"])]
  directories := [["Databases"], ["Databases", "d"]]

/-- The plan that exchanges the values of the pairs that are not in order. -/
def putInOrder : Plan :=
  .update "pairs" [("a", .field ⟨none, "b"⟩), ("b", .field ⟨none, "a"⟩)]
    (some (.binary (.compare .greater) (.field ⟨none, "a"⟩) (.field ⟨none, "b"⟩)))

set_option maxRecDepth 100000 in
/-- Both fields of the second pair get the value that the other had. -/
theorem update_simultaneous_pairs :
    let files : Catalog := ⟨⟨"Databases"⟩, "tbl"⟩
    let c : Connection Memory := ⟨⟨some (.start ⟨"1"⟩), some "d"⟩, pairs⟩
    ∃ (table : Table) (c' : Connection Memory) (rows : List Row),
      run files ⟨"2"⟩ putInOrder c = .ok (.updated 1) c' ∧
      Connection.table files "pairs" c = .ok table ∧
      Connection.table files "pairs" c' = .ok { table with rows } ∧
      table.rows.map renderRow = ["1|2", "5|3"] ∧ rows.map renderRow = ["1|2", "3|5"] := by
  intro files c
  let table : Table :=
    ⟨⟨"d", "pairs"⟩, ⟨[⟨"a", "int", .integer, some "pairs"⟩, ⟨"b", "int", .integer, some "pairs"⟩]⟩,
      [[.integer 1, .integer 2], [.integer 5, .integer 3]]⟩
  have htable : Connection.table files "pairs" c = .ok table :=
    table_stored rfl rfl (by decide +kernel : _ = some ["a int|b int", "1|2", "5|3"]) (by cbv)
  have hrows : table.Rectangular := by
    simp [Table.Rectangular, table, Schema.width]
  have hdistinct : (table.schema.fields.map (·.name)).Nodup := by
    decide +kernel
  have hcolumns : ([("a", Expression.field ⟨none, "b"⟩), ("b", Expression.field ⟨none, "a"⟩)].map (·.1)).Nodup := by
    decide +kernel
  have hdone : ((run files ⟨"2"⟩ putInOrder).result? c).isSome = true := by
    decide +kernel
  have hread : (Connection.table files "pairs" (Action.after (run files ⟨"2"⟩ putInOrder) c)).toOption.map
      (·.rows.map renderRow) = some ["1|2", "3|5"] := by
    decide +kernel
  obtain ⟨outcome, c', hrun⟩ := Action.exists_ok hdone
  rw [Action.after_ok hrun] at hread
  obtain ⟨-, hok, -⟩ := update_simultaneous files c ⟨"2"⟩ htable hrows hdistinct hcolumns
    (some (.binary (.compare .greater) (.field ⟨none, "a"⟩) (.field ⟨none, "b"⟩)))
  obtain ⟨rfl, rows, -, hreads, -⟩ := hok outcome c' hrun
  rw [hreads] at hread
  exact ⟨table, c', rows, hrun, htable, hreads, by decide +kernel, Option.some.inj hread⟩

end Connection

end TextTables
