import TextTables.Proofs.Session.WellFormed
/-!
# Editing a staged table

A statement that adds, updates or deletes records of a staged table puts a copy with the new records in
its place, if it succeeds; if it fails, the copies stay as they are, unless the transaction has ended.
`Edits` says so, and `run_edits` that nothing else happens.
-/

namespace TextTables

/-- The table to which a plan adds records or of which it changes some. -/
def Plan.editedTable? : Plan → Option String
  | .insert name _ | .update name _ _ | .delete name _ => some name
  | _ => none

/-- The records that a plan makes of those of a table, if it is done. -/
def Plan.editedRows (table : Table) : Plan → Except Error (List Row)
  | .insert _ tuples => do return table.rows ++ (← tupleRows table.schema tuples)
  | .update _ columns condition => do
    let assignments ← resolveColumns table.schema columns
    return (← updatedRows table.schema assignments condition table.rows).1
  | .delete _ condition => do return (← remainingRows table.schema condition table.rows).1
  | _ => .ok table.rows

/-! ## Changes of nothing -/

theorem updatedRows_zero {schema : Schema} {assignments : List (Nat × Expression)}
    {condition : Option Expression} {rows rows' : List Row}
    (h : updatedRows schema assignments condition rows = .ok (rows', 0)) : rows' = rows := by
  induction rows generalizing rows' with
  | nil => cases h; rfl
  | cons row rest ih =>
    obtain ⟨accepted, -, h⟩ := Except.bind_eq_ok.1 h
    cases accepted with
    | true =>
      obtain ⟨updated, -, h⟩ := Except.bind_eq_ok.1 h
      obtain ⟨-, h⟩ := Except.bind_unit_eq_ok.1 h
      obtain ⟨⟨rest', n⟩, -, h⟩ := Except.bind_eq_ok.1 h
      cases h
    | false =>
      obtain ⟨⟨rest', n⟩, hrest, h⟩ := Except.bind_eq_ok.1 h
      cases h
      rw [ih hrest]

theorem remainingRows_zero {schema : Schema} {condition : Option Expression} {rows rows' : List Row}
    (h : remainingRows schema condition rows = .ok (rows', 0)) : rows' = rows := by
  induction rows generalizing rows' with
  | nil => cases h; rfl
  | cons row rest ih =>
    obtain ⟨accepted, -, h⟩ := Except.bind_eq_ok.1 h
    obtain ⟨⟨rest', n⟩, hrest, h⟩ := Except.bind_eq_ok.1 h
    cases accepted with
    | true => cases h
    | false =>
      cases h
      rw [ih hrest]

/-! ## One table in the place of another -/

/-- The second transaction has a table staged in the place of one of the same identity. -/
def Transaction.Replaced (table : Table) (t t' : Transaction) : Prop :=
  ∀ other, other ∈ t'.staged ↔ other = table ∨ other ∈ t.staged ∧ other.id ≠ table.id

namespace Transaction

variable {t t' : Transaction} {table : Table}

theorem Ordered.replaced (h : t.Ordered) (hstaged : t'.staged = (t.stage table).staged) :
    t.Replaced table t' := by
  intro other
  rw [hstaged, h.mem_stage]

theorem Ordered.replaced_self (h : t.Ordered) (hm : table ∈ t.staged) (hstaged : t'.staged = t.staged) :
    t.Replaced table t' := by
  intro other
  rw [hstaged]
  constructor
  · intro hother
    by_cases hid : other.id = table.id
    · exact .inl (h.eq_of_id hother hm hid)
    · exact .inr ⟨hother, hid⟩
  · rintro (rfl | ⟨hother, -⟩)
    · exact hm
    · exact hother

end Transaction

namespace Connection

variable {files : Catalog} {ticket : Ticket} {c : Connection Memory} {t : Transaction} {table : Table}
  {name : String}

/-- How an attempt to edit a staged table ends. -/
inductive Edits (c : Connection Memory) (t : Transaction) (table : Table) (rows : Except Error (List Row))
    {α : Type} : EStateM.Result Error (Connection Memory) α → Prop
  | edited {a : α} {rs : List Row} {t' : Transaction} {store : Memory} : rows = .ok rs →
      t.Replaced { table with rows := rs } t' →
      Edits c t table rows (.ok a { c with transaction := some t', store })
  | failed {e : Error} {t' : Transaction} {store : Memory} : t'.staged = t.staged →
      Edits c t table rows (.error e { c with transaction := some t', store })
  | aborted {e : Error} {store : Memory} :
      Edits c t table rows (.error e { c with transaction := none, store })

section Edits
variable {α β : Type} {rows rows' : Except Error (List Row)}

theorem Edits.bind_pure {x : Action (Connection Memory) α} (h : Edits c t table rows (x c)) (f : α → β) :
    Edits c t table rows ((x >>= fun a => pure (f a)) c) := by
  rw [Action.bind_apply]
  generalize x c = r at h
  cases h with
  | edited hrows hreplaced => exact .edited hrows hreplaced
  | failed hstaged => exact .failed hstaged
  | aborted => exact .aborted

/-- A failure that leaves no trace. -/
theorem Edits.refused (ht : c.transaction = some t) (e : Error) :
    Edits c t table rows (.error e c : EStateM.Result Error (Connection Memory) α) := by
  obtain ⟨⟨transaction, database⟩, store⟩ := c
  obtain rfl : transaction = some t := ht
  exact .failed rfl

end Edits

theorem table_staged {id : TableId} (hid : tableId name c = .ok id) (hs : c.staged? id = some table) :
    Connection.table files name c = .ok table := by
  rw [Connection.table, table?, hid]
  simp only [bind, Except.bind, hs]
  rfl

theorem change_edits {rows : Except Error (List Row × Nat)} (ht : c.transaction = some t)
    (hordered : t.Ordered) (hm : table ∈ t.staged)
    (hzero : ∀ rs, rows = .ok (rs, 0) → rs = table.rows) :
    Edits c t table (rows.map Prod.fst) (change files table rows c) := by
  rcases change_apply files table rows ht with ⟨-, e, hchange⟩ | ⟨ls, holder, e, -, -, -, hchange⟩ |
    ⟨store, again, hlocks, hvain, hchange⟩
  · rw [hchange]
    exact .refused ht e
  · rw [hchange]
    exact .aborted
  · rw [hchange]
    rcases rows with e | ⟨rs, count⟩
    · cases hvain with
      | kept | givenBack => exact .failed rfl
    · by_cases hcount : 0 < count
      · dsimp only
        rw [if_pos hcount]
        exact .edited rfl (hordered.replaced rfl)
      · obtain rfl : count = 0 := by omega
        obtain rfl := hzero rs rfl
        cases hvain with
        | kept | givenBack => exact .edited rfl (hordered.replaced_self hm rfl)

theorem insert_edits (ht : c.transaction = some t) (hordered : t.Ordered) (hm : table ∈ t.staged)
    (hid : tableId name c = .ok table.id) (tuples : List (List Expression)) :
    Edits c t table (Plan.editedRows table (.insert name tuples)) (insert files name tuples c) := by
  rw [insert_staged files hid ht (hordered.staged?_eq hm), Plan.editedRows]
  cases hrows : tupleRows table.schema tuples with
  | error e => exact .refused ht e
  | ok rows =>
    dsimp only
    cases requireEncodable rows with
    | error e => exact .refused ht e
    | ok _ =>
      cases hpush : table.pushAll rows with
      | error e => exact .refused ht e
      | ok table' =>
        obtain rfl := Table.pushAll_eq hpush
        exact .edited rfl (hordered.replaced rfl)

theorem update_edits (ht : c.transaction = some t) (hordered : t.Ordered) (hm : table ∈ t.staged)
    (hid : tableId name c = .ok table.id) (columns : List (String × Expression))
    (condition : Option Expression) :
    Edits c t table (Plan.editedRows table (.update name columns condition))
      (update files name columns condition c) := by
  have htable : Connection.table files name c = .ok table :=
    table_staged hid (staged?_eq_some.2 ⟨t, ht, hordered.staged?_eq hm⟩)
  rw [update_apply files name columns condition ht, htable, Plan.editedRows]
  dsimp only
  cases hcolumns : resolveColumns table.schema columns with
  | error e => exact .refused ht e
  | ok assignments => exact change_edits ht hordered hm fun rs hrows => updatedRows_zero hrows

theorem delete_edits (ht : c.transaction = some t) (hordered : t.Ordered) (hm : table ∈ t.staged)
    (hid : tableId name c = .ok table.id) (condition : Option Expression) :
    Edits c t table (Plan.editedRows table (.delete name condition)) (delete files name condition c) := by
  have htable : Connection.table files name c = .ok table :=
    table_staged hid (staged?_eq_some.2 ⟨t, ht, hordered.staged?_eq hm⟩)
  rw [delete_apply files name condition ht, htable, Plan.editedRows]
  exact change_edits ht hordered hm fun rs hrows => remainingRows_zero hrows

/-- A plan that edits a staged table edits its staged copy. -/
theorem run_edits {plan : Plan} (ht : c.transaction = some t) (hordered : t.Ordered)
    (hm : table ∈ t.staged) (hid : tableId name c = .ok table.id) (hplan : plan.editedTable? = some name) :
    Edits c t table (plan.editedRows table) (run files ticket plan c) := by
  cases plan with
  | insert =>
    cases hplan
    exact (insert_edits ht hordered hm hid _).bind_pure _
  | update =>
    cases hplan
    exact (update_edits ht hordered hm hid _ _).bind_pure _
  | delete =>
    cases hplan
    exact (delete_edits ht hordered hm hid _).bind_pure _
  | _ => cases hplan

/-- A plan that edits a table leaves the database in use as it is, and starts no transaction. -/
theorem Effect.editing {c' : Connection Memory} {plan : Plan} (he : Effect files ticket c plan c')
    (hplan : plan.editedTable? = some name) :
    c'.database = c.database ∧ (c.transaction = none → c'.transaction = none) := by
  cases he with
  | nothing | fileExtended => exact ⟨rfl, id⟩
  | copyExtended _ ht | heldForNothing _ ht | takenForNothing _ ht | changed _ ht =>
    exact ⟨rfl, fun hidle => nomatch hidle.symm.trans ht⟩
  | aborted => exact ⟨rfl, fun _ => rfl⟩
  | databaseCreated | databaseDropped | databaseUsed | tableCreated | tableDropped | copyAltered
    | fileAltered | begun | committed => cases hplan

end Connection

end TextTables
