import TextTables.Execution
import TextTables.Proofs.File.Reading
import TextTables.Proofs.Transaction.Ending
import TextTables.Proofs.Transaction.Staging
/-!
# What the actions of a session do

What an action over the store in memory answers and leaves, in success and in failure. Theorems about
statements are put together from these lemmas.
-/

namespace TextTables.Connection

variable (files : Catalog)

/-- No other transaction holds the file with some lines. -/
def Free (c : Connection Memory) (ls : List String) : Prop :=
  ∀ holder, holder? ls = some holder → c.ticket? = some holder

/-- The store with a table locked: as it is if the transaction holds the table already. -/
inductive Locks (ticket : Ticket) (id : TableId) (m : Memory) : Memory → Prop
  | held {ls : List String} : files.lines? id m = some ls → holder? ls = some ticket →
      Locks ticket id m m
  | taken {ls : List String} : files.lines? id m = some ls → holder? ls = none →
      files.hasDirectory id m = true →
      Locks ticket id m (m.put (files.place id) (putLock ticket ls))

/-- The file of a table cannot be locked: it is missing, or nobody holds it and it cannot be written. -/
inductive Unlockable (id : TableId) (m : Memory) : Prop
  | missing : files.lines? id m = none → Unlockable id m
  | unwritable {ls : List String} : files.lines? id m = some ls → holder? ls = none →
      files.hasDirectory id m = false → Unlockable id m

/-- A connection after a table was locked for nothing: it keeps a lock that it held before, and gives
back one that it has taken just now. -/
inductive LockedInVain (c : Connection Memory) (t : Transaction) (id : TableId) :
    Connection Memory → Prop
  | kept {ls : List String} : files.lines? id c.store = some ls → holder? ls = some t.ticket →
      LockedInVain c t id { c with transaction := some (t.hold id) }
  | givenBack {ls : List String} : files.lines? id c.store = some ls → holder? ls = none →
      LockedInVain c t id
        { c with
          transaction := some ((t.hold id).letGo id)
          store := c.store.put (files.place id) ls }

/-- The transaction of a connection after a field is added to the staged copy of a table, if there
is one. -/
inductive AddsField (c : Connection Memory) (id : TableId) (field : Field) : Option Transaction → Prop
  | unstaged : c.staged? id = none → AddsField c id field c.transaction
  | staged {t : Transaction} {table table' : Table} : c.transaction = some t →
      t.staged? id = some table → table.addField field = .ok table' →
      AddsField c id field (some (t.stage table'))

/-! ## Opening the actions of a connection -/

section Opening
variable {σ α : Type}

theorem onStore_apply (action : Action σ α) (c : Connection σ) :
    onStore action c = match action c.store with
      | .ok a store => .ok a { c with store }
      | .error e store => .error e { c with store } := rfl

theorem askStore_apply (question : σ → Except Error α) (c : Connection σ) :
    askStore question c = match question c.store with
      | .ok a => .ok a c
      | .error e => .error e c := rfl

theorem onTransaction_apply (f : Transaction → Transaction) (c : Connection σ) :
    onTransaction f c = .ok () { c with transaction := c.transaction.map f } := rfl

theorem activeTransaction_apply (c : Connection σ) :
    activeTransaction c = match c.transaction with
      | some t => .ok t c
      | none => .error .noActiveTransaction c := by
  simp only [activeTransaction, Action.ask_apply]
  cases c.transaction <;> rfl

theorem activeTransaction_ok {c : Connection σ} {t : Transaction} (ht : c.transaction = some t) :
    activeTransaction c = .ok t c := by
  rw [activeTransaction_apply, ht]

theorem activeTransaction_idle {c : Connection σ} (ht : c.transaction = none) :
    activeTransaction c = .error .noActiveTransaction c := by
  rw [activeTransaction_apply, ht]

end Opening

variable {files}

/-! ## Databases -/

variable (files) in
theorem createDatabase_apply (name : String) (c : Connection Memory) :
    createDatabase files name c =
      if c.store.directories.contains (files.databasePath name).place then
        .error (.databaseAlreadyExists name) c
      else .ok () { c with store := c.store.addDirectory (files.databasePath name).place } := by
  simp only [createDatabase, Action.bind_apply, onStore_apply, Catalog.createDatabase_apply]
  cases c.store.directories.contains (files.databasePath name).place <;> rfl

variable (files) in
theorem dropDatabase_apply (name : String) (c : Connection Memory) :
    dropDatabase files name c =
      if c.store.directories.contains (files.databasePath name).place then
        .ok ()
          { transaction := c.transaction.map (·.forgetDatabase name)
            database := if c.database.any (Text.sameIgnoringCase · name) then none else c.database
            store := c.store.removeDirectory (files.databasePath name).place }
      else .error (.databaseNotFound name) c := by
  simp only [dropDatabase, Action.bind_apply, onStore_apply, Catalog.dropDatabase_apply]
  cases c.store.directories.contains (files.databasePath name).place with
  | false => rfl
  | true =>
    simp only [if_true, Bool.not_true, Bool.false_eq_true, if_false, Action.bind_apply,
      onTransaction_apply, Action.modify_apply]
    split <;> rfl

variable (files) in
theorem useDatabase_apply (name : String) (c : Connection Memory) :
    useDatabase files name c =
      if c.store.directories.contains (files.databasePath name).place then
        .ok () { c with database := some name }
      else .error (.databaseNotFound name) c := by
  have hexists : files.databaseExists name c.store =
      c.store.directories.contains (files.databasePath name).place := rfl
  simp only [useDatabase, Action.bind_apply, Action.get_apply, hexists]
  cases c.store.directories.contains (files.databasePath name).place <;> rfl

/-! ## Tables -/

variable (files) in
theorem createTable_apply (name : String) (schema : Schema) {c : Connection Memory} {id : TableId}
    (hid : tableId name c = .ok id) : createTable files name schema c =
      if files.hasDirectory id c.store then
        if (files.lines? id c.store).isSome then .error (.tableAlreadyExists name) c
        else .ok () { c with store := c.store.put (files.place id) [schema.encode] }
      else .error (files.missingDirectory id) c := by
  rw [createTable, Action.bind_ok (Action.ask_ok hid), Action.bind_apply, onStore_apply,
    Catalog.createTable_apply]
  cases files.hasDirectory id c.store with
  | false => rfl
  | true => cases (files.lines? id c.store).isSome <;> rfl

theorem requireNotForeign_eq_ok {id : TableId} {c : Connection Memory} :
    requireNotForeign files id c = .ok () ↔ ∃ ls, files.lines? id c.store = some ls ∧ Free c ls := by
  simp only [requireNotForeign, Catalog.holder?_eq]
  cases hl : files.lines? id c.store with
  | none => simp [bind, Except.bind]
  | some ls =>
    cases hh : holder? ls with
    | none => simp [bind, Except.bind, pure, Except.pure, Free, hh]
    | some holder =>
      by_cases ht : some holder = c.ticket?
      · simp [bind, Except.bind, pure, Except.pure, Free, hh, ← ht]
      · simp [bind, Except.bind, Free, hh, ht, Ne.symm ht]

variable (files) in
theorem dropTable_apply (name : String) {c : Connection Memory} {id : TableId}
    (hid : tableId name c = .ok id) : dropTable files name c =
      match requireTable files id c, requireNotForeign files id c with
      | .error e, _ | .ok _, .error e => .error e c
      | .ok _, .ok _ => .ok ()
          { c with
            transaction := c.transaction.map (·.forgetTable id)
            store := c.store.erase (files.place id) } := by
  rw [dropTable, Action.bind_ok (Action.ask_ok hid)]
  cases he : requireTable files id c with
  | error e => exact Action.bind_error (Action.ask_error he)
  | ok _ =>
    rw [Action.bind_ok (Action.ask_ok he)]
    cases hf : requireNotForeign files id c with
    | error e => exact Action.bind_error (Action.ask_error hf)
    | ok _ =>
      obtain ⟨ls, hl, -⟩ := requireNotForeign_eq_ok.1 hf
      have hdrop : onStore (files.dropTable id) c =
          .ok true { c with store := c.store.erase (files.place id) } := by
        simp only [onStore_apply, Catalog.dropTable_apply, hl, Option.isSome_some, if_true]
      rw [Action.bind_ok (Action.ask_ok hf), Action.bind_ok hdrop, onTransaction_apply]

theorem addStagedField_apply (id : TableId) (field : Field) (c : Connection Memory) :
    (∃ transaction, AddsField c id field transaction ∧
      addStagedField id field c = .ok () { c with transaction }) ∨
    ∃ e, addStagedField id field c = .error e c := by
  simp only [addStagedField, Action.bind_apply, Action.get_apply]
  cases hs : c.staged? id with
  | none => exact .inl ⟨c.transaction, .unstaged hs, rfl⟩
  | some table =>
    simp only [Action.bind_apply, Action.of_apply]
    cases hf : table.addField field with
    | error e => exact .inr ⟨e, rfl⟩
    | ok table' =>
      obtain ⟨t, ht, hst⟩ := Option.bind_eq_some_iff.1 hs
      exact .inl ⟨some (t.stage table'), .staged ht hst hf, by simp [onTransaction_apply, ht]⟩

/-! ## New records -/

theorem appendRows_apply {id : TableId} {rows : List Row} (hrows : requireEncodable rows = .ok ())
    {ls : List String} {m : Memory} (hl : files.lines? id m = some ls) (hne : rows ≠ []) :
    files.appendRows id rows m = .ok () (m.put (files.place id) (ls ++ rows.map renderRow)) := by
  induction rows generalizing ls m with
  | nil => exact absurd rfl hne
  | cons row rest ih =>
    obtain ⟨⟨⟩, hrow, hrest⟩ := Except.bind_eq_ok.1 hrows
    simp only [Catalog.appendRows, Action.bind_apply, files.appendRow_apply id m hrow hl]
    cases rest with
    | nil => rfl
    | cons row' rest =>
      have hl' : files.lines? id (m.put (files.place id) (ls ++ [renderRow row])) =
          some (ls ++ [renderRow row]) := Memory.lines?_put_self
      rw [ih hrest hl' (List.cons_ne_nil _ _), Memory.put_put]
      simp

theorem staged?_eq_some {id : TableId} {table : Table} {c : Connection Memory} :
    c.staged? id = some table ↔ ∃ t, c.transaction = some t ∧ t.staged? id = some table :=
  Option.bind_eq_some_iff

theorem schema_eq_ok {name : String} {c : Connection Memory} {id : TableId} {sch : Schema}
    (h : schema files name c = .ok (id, sch)) :
    tableId name c = .ok id ∧
      ((∃ table, c.staged? id = some table ∧ sch = table.schema) ∨
        (c.staged? id = none ∧ ∃ ls holder, files.lines? id c.store = some ls ∧
          decodeHeader id.name ls = .ok (holder, sch))) := by
  obtain ⟨id', hid, h⟩ := Except.bind_eq_ok.1 h
  cases hs : c.staged? id' with
  | some table =>
    simp only [hs] at h
    cases h
    exact ⟨hid, .inl ⟨table, hs, rfl⟩⟩
  | none =>
    simp only [hs] at h
    obtain ⟨⟨holder, sch'⟩, hh, h⟩ := Except.bind_eq_ok.1 h
    cases h
    rw [Catalog.header_eq] at hh
    cases hl : files.lines? id c.store with
    | none => rw [hl] at hh; cases hh
    | some ls => rw [hl] at hh; exact ⟨hid, .inr ⟨hs, ls, holder, rfl, hh⟩⟩

variable (files) in
/-- Records are read in the schema of their table, and all of them can be written or none is taken. They go to
the staged copy of the table, or else to its file. -/
theorem insert_apply {name : String} {c : Connection Memory} {id : TableId} {sch : Schema}
    (hschema : schema files name c = .ok (id, sch)) (tuples : List (List Expression)) :
    insert files name tuples c =
      match tupleRows sch tuples with
      | .error e => .error e c
      | .ok rows => match requireEncodable rows, c.staged? id with
        | .error e, _ => .error e c
        | .ok _, some table => match table.pushAll rows with
          | .error e => .error e c
          | .ok table' => .ok rows.length { c with transaction := c.transaction.map (·.stage table') }
        | .ok _, none => match requireNotForeign files id c, files.appendRows id rows c.store with
          | .error e, _ => .error e c
          | .ok _, .error e store => .error e { c with store }
          | .ok _, .ok _ store => .ok rows.length { c with store } := by
  rw [insert, Action.bind_ok (Action.ask_ok hschema)]
  dsimp only
  cases tupleRows sch tuples with
  | error e => rw [Action.bind_error (Action.of_error rfl c)]
  | ok rows =>
    rw [Action.bind_ok (Action.of_ok rfl c)]
    dsimp only
    cases henc : requireEncodable rows with
    | error e => rw [appendRows, Action.bind_error (Action.bind_error (Action.of_error henc c))]
    | ok _ =>
      rw [appendRows, Action.bind_apply, Action.bind_ok (Action.of_ok henc c),
        Action.bind_ok (Action.get_apply c)]
      cases c.staged? id with
      | some table =>
        dsimp only
        cases table.pushAll rows with
        | error e => rw [Action.bind_error (Action.of_error rfl c)]
        | ok table' => rw [Action.bind_ok (Action.of_ok rfl c), onTransaction_apply]; rfl
      | none =>
        dsimp only
        cases hforeign : requireNotForeign files id c with
        | error e => rw [Action.bind_error (Action.ask_error hforeign)]
        | ok _ =>
          rw [Action.bind_ok (Action.ask_ok hforeign), onStore_apply]
          cases files.appendRows id rows c.store <;> rfl

variable (files) in
/-- Records for a staged table go to its staged copy. -/
theorem insert_staged {name : String} {c : Connection Memory} {id : TableId} {t : Transaction}
    {table : Table} (hid : tableId name c = .ok id) (ht : c.transaction = some t)
    (hs : t.staged? id = some table) (tuples : List (List Expression)) :
    insert files name tuples c =
      match tupleRows table.schema tuples with
      | .error e => .error e c
      | .ok rows => match requireEncodable rows, table.pushAll rows with
        | .error e, _ | .ok _, .error e => .error e c
        | .ok _, .ok table' => .ok rows.length { c with transaction := some (t.stage table') } := by
  have hstaged : c.staged? id = some table := staged?_eq_some.2 ⟨t, ht, hs⟩
  have hschema : schema files name c = .ok (id, table.schema) := by
    rw [schema, hid]
    simp only [bind, Except.bind, hstaged]
    rfl
  rw [insert_apply files hschema, hstaged, ht]
  cases tupleRows table.schema tuples with
  | error e => rfl
  | ok rows =>
    dsimp only
    cases requireEncodable rows with
    | error e => rfl
    | ok _ =>
      dsimp only
      cases table.pushAll rows <;> rfl

/-- The store with records at the end of a file. Without records the file is not touched. -/
def extend (m : Memory) (p : Place) (ls : List String) (rows : List Row) : Memory :=
  if rows.isEmpty then m else m.put p (ls ++ rows.map renderRow)

/-- Records for any other table go to its file. -/
theorem insert_unstaged {name : String} {c : Connection Memory} {id : TableId} {ls : List String}
    {holder : Option Ticket} {sch : Schema} (hid : tableId name c = .ok id)
    (hs : c.staged? id = none) (hl : files.lines? id c.store = some ls)
    (hheader : decodeHeader id.name ls = .ok (holder, sch)) (tuples : List (List Expression)) :
    insert files name tuples c =
      match tupleRows sch tuples with
      | .error e => .error e c
      | .ok rows => match requireEncodable rows, requireNotForeign files id c with
        | .error e, _ | .ok _, .error e => .error e c
        | .ok _, .ok _ =>
          .ok rows.length { c with store := extend c.store (files.place id) ls rows } := by
  have hschema : schema files name c = .ok (id, sch) := by
    rw [schema, hid]
    simp only [bind, Except.bind, hs, Catalog.header_eq, hl, hheader]
    rfl
  rw [insert_apply files hschema, hs]
  cases tupleRows sch tuples with
  | error e => rfl
  | ok rows =>
    dsimp only
    cases henc : requireEncodable rows with
    | error e => rfl
    | ok _ =>
      cases requireNotForeign files id c with
      | error e => rfl
      | ok _ =>
        cases rows with
        | nil => rfl
        | cons row rest => simp only [appendRows_apply henc hl (List.cons_ne_nil _ _)]; rfl

/-! ## Changed records -/

theorem table_eq_ok {name : String} {c : Connection Memory} {table : Table}
    (h : Connection.table files name c = .ok table) :
    tableId name c = .ok table.id ∧
      (c.staged? table.id = some table ∨
        (c.staged? table.id = none ∧ ∃ ls holder, files.lines? table.id c.store = some ls ∧
          decodeTable table.id ls = .ok (holder, table))) := by
  obtain ⟨found, hfound, h⟩ := Except.bind_eq_ok.1 h
  cases found with
  | none => cases h
  | some table' =>
    cases h
    obtain ⟨id, hid, hfound⟩ := Except.bind_eq_ok.1 hfound
    cases hs : c.staged? id with
    | some table' =>
      simp only [hs] at hfound
      cases hfound
      obtain ⟨t, -, hst⟩ := staged?_eq_some.1 hs
      obtain rfl := (Transaction.staged?_eq_some hst).2
      exact ⟨hid, .inl hs⟩
    | none =>
      simp only [hs] at hfound
      split at hfound
      · obtain ⟨table', hload, hfound⟩ := Except.bind_eq_ok.1 hfound
        cases hfound
        obtain ⟨ls, holder, hl, hd⟩ := files.load_eq_ok.1 hload
        obtain rfl := decodeTable_id hd
        exact ⟨hid, .inr ⟨hs, ls, holder, hl, hd⟩⟩
      · cases hfound

variable (files) in
theorem abort_apply {σ : Type} [Storage σ] {c : Connection σ} {t : Transaction}
    (ht : c.transaction = some t) :
    (abort files c = .ok () { c with transaction := none, store := Action.after (t.abort files) c.store }) ∨
    ∃ e, abort files c =
      .error e { c with transaction := none, store := Action.after (t.abort files) c.store } := by
  rw [abort, Action.bind_ok (activeTransaction_ok ht), Action.bind_ok (Action.modify_apply _ c), onStore_apply]
  simp only [Action.after]
  cases t.abort files c.store with
  | ok _ store => exact .inl rfl
  | error e store => exact .inr ⟨e, rfl⟩

variable (files) in
theorem askStore_holder? (id : TableId) (c : Connection Memory) :
    askStore (files.holder? id) c = match files.lines? id c.store with
      | none => .error (.tableNotFound id.name) c
      | some ls => .ok (holder? ls) c := by
  simp only [askStore_apply, Catalog.holder?_eq]
  cases files.lines? id c.store <;> rfl

theorem stage_apply {c : Connection Memory} {t : Transaction}
    (ht : c.transaction = some t) (table : Table) :
    stage table c = .ok () { c with transaction := some (t.stage table) } := by
  rw [stage, Action.bind_ok (activeTransaction_ok ht), onTransaction_apply, ht]
  rfl

variable (files) in
/-- Taking the lock of a table, without ending the transaction where another holds the table. -/
theorem acquire_apply (id : TableId) {c : Connection Memory} {t : Transaction}
    (ht : c.transaction = some t) : acquire files id c =
      match files.lines? id c.store with
      | none => .error (.tableNotFound id.name) c
      | some ls => match holder? ls with
        | some holder =>
          if holder = t.ticket then .ok .alreadyHeld { c with transaction := some (t.hold id) }
          else .error (.tableLocked id.name) c
        | none =>
          if files.hasDirectory id c.store then
            .ok .acquired
              { c with
                transaction := some (t.hold id)
                store := c.store.put (files.place id) (putLock t.ticket ls) }
          else .error (files.missingDirectory id) c := by
  have hask := askStore_holder? files id c
  simp only [acquire, Action.bind_ok (activeTransaction_ok ht)]
  cases hl : files.lines? id c.store with
  | none =>
    rw [hl] at hask
    rw [Action.bind_error hask]
  | some ls =>
    rw [hl] at hask
    rw [Action.bind_ok hask]
    dsimp only
    cases holder? ls with
    | some holder =>
      dsimp only
      split
      · rw [Action.bind_ok (onTransaction_apply _ c), Action.pure_apply, ht]
        rfl
      · rw [Action.throw_apply]
    | none =>
      dsimp only
      cases hd : files.hasDirectory id c.store with
      | false =>
        have hw : onStore (files.writeLock id t.ticket) c = .error (files.missingDirectory id) c := by
          simp [onStore_apply, files.writeLock_apply id c.store t.ticket hl, hd]
        rw [Action.bind_error hw]
        rfl
      | true =>
        have hw : onStore (files.writeLock id t.ticket) c =
            .ok () { c with store := c.store.put (files.place id) (putLock t.ticket ls) } := by
          simp [onStore_apply, files.writeLock_apply id c.store t.ticket hl, hd]
        rw [Action.bind_ok hw, Action.bind_ok (onTransaction_apply _ _), Action.pure_apply, ht]
        rfl

variable (files) in
/-- Taking a lock: refused without a trace because the file or its directory is missing, refused because
another transaction holds the table, held already, or taken. -/
theorem lock_apply (id : TableId) {c : Connection Memory} {t : Transaction}
    (ht : c.transaction = some t) :
    (Unlockable files id c.store ∧ ∃ e, lock files id c = .error e c) ∨
    (∃ ls holder e, files.lines? id c.store = some ls ∧ holder? ls = some holder ∧ holder ≠ t.ticket ∧
      lock files id c =
        .error e { c with transaction := none, store := Action.after (t.abort files) c.store }) ∨
    (∃ ls, files.lines? id c.store = some ls ∧ holder? ls = some t.ticket ∧
      lock files id c = .ok .alreadyHeld { c with transaction := some (t.hold id) }) ∨
    (∃ ls, files.lines? id c.store = some ls ∧ holder? ls = none ∧ files.hasDirectory id c.store = true ∧
      lock files id c = .ok .acquired
        { c with
          transaction := some (t.hold id)
          store := c.store.put (files.place id) (putLock t.ticket ls) }) := by
  simp only [lock, acquire_apply files id ht]
  cases hl : files.lines? id c.store with
  | none => exact .inl ⟨.missing hl, .tableNotFound id.name, rfl⟩
  | some ls =>
    cases hh : holder? ls with
    | none =>
      cases hd : files.hasDirectory id c.store with
      | false =>
        exact .inl ⟨.unwritable hl hh hd, files.missingDirectory id, by simp [hh, Catalog.missingDirectory]⟩
      | true => exact .inr (.inr (.inr ⟨ls, rfl, hh, rfl, by simp [hh]⟩))
    | some holder =>
      by_cases hk : holder = t.ticket
      · exact .inr (.inr (.inl ⟨ls, rfl, hk ▸ hh, by simp [hh, hk]⟩))
      · rcases abort_apply files ht with ha | ⟨e, ha⟩
        · exact .inr (.inl ⟨ls, holder, .tableLocked id.name, rfl, hh, hk, by simp [hh, hk, ha]⟩)
        · exact .inr (.inl ⟨ls, holder, e, rfl, hh, hk, by simp [hh, hk, ha]⟩)

variable (files) in
/-- Giving the lock of a table back, whoever holds it. -/
theorem release_apply (id : TableId) {c : Connection Memory} {t : Transaction}
    (ht : c.transaction = some t) : release files id c =
      match files.lines? id c.store with
      | none => .error (.tableNotFound id.name) c
      | some ls =>
        if holder? ls = some t.ticket then
          if files.hasDirectory id c.store then
            .ok ()
              { c with
                transaction := some (t.letGo id)
                store := c.store.put (files.place id) (dropLock ls) }
          else .error (files.missingDirectory id) c
        else .ok () { c with transaction := some (t.letGo id) } := by
  have hask := askStore_holder? files id c
  simp only [release, Action.bind_ok (activeTransaction_ok ht)]
  cases hl : files.lines? id c.store with
  | none =>
    rw [hl] at hask
    rw [Action.bind_error hask]
  | some ls =>
    rw [hl] at hask
    rw [Action.bind_ok hask]
    dsimp only
    by_cases hh : holder? ls = some t.ticket
    · rw [if_pos hh, if_pos hh, Action.bind_apply, onStore_apply,
        files.clearLock_apply id c.store hl hh]
      cases files.hasDirectory id c.store with
      | false => rfl
      | true =>
        simp only [if_true, onTransaction_apply, ht]
        rfl
    · rw [if_neg hh, if_neg hh, onTransaction_apply, ht]
      rfl

/-- Giving back a lock that was taken just now. -/
theorem release_taken {id : TableId} {c : Connection Memory} {t : Transaction} {ls : List String}
    (ht : c.transaction = some t) (hl : files.lines? id c.store = some (putLock t.ticket ls))
    (hh : holder? ls = none) (hd : files.hasDirectory id c.store = true) :
    release files id c = .ok ()
      { c with
        transaction := some (t.letGo id)
        store := c.store.put (files.place id) ls } := by
  simp [release_apply files id ht, hl, hd, dropLock_putLock hh]

variable (files) in
/-- Changing records: refused as the lock is, or done under it. The lock of a change that fails or
changes nothing was taken in vain. -/
theorem change_apply (table : Table) (rows : Except Error (List Row × Nat)) {c : Connection Memory}
    {t : Transaction} (ht : c.transaction = some t) :
    (Unlockable files table.id c.store ∧ ∃ e, change files table rows c = .error e c) ∨
    (∃ ls holder e, files.lines? table.id c.store = some ls ∧ holder? ls = some holder ∧
      holder ≠ t.ticket ∧ change files table rows c =
        .error e { c with transaction := none, store := Action.after (t.abort files) c.store }) ∨
    ∃ store again, Locks files t.ticket table.id c.store store ∧
      LockedInVain files c t table.id again ∧
      change files table rows c = match rows with
        | .error e => .error e again
        | .ok (rs, count) =>
          if 0 < count then .ok count
            { c with transaction := some ((t.hold table.id).stage { table with rows := rs }), store }
          else .ok count again := by
  rw [change]
  rcases lock_apply files table.id ht with ⟨hmissing, e, hlock⟩ | ⟨ls, holder, e, hl, hh, hk, hlock⟩ |
    ⟨ls, hl, hh, hlock⟩ | ⟨ls, hl, hh, hd, hlock⟩
  · exact .inl ⟨hmissing, e, Action.bind_error hlock⟩
  · exact .inr (.inl ⟨ls, holder, e, hl, hh, hk, Action.bind_error hlock⟩)
  · -- The lock was held before, so it is kept whatever comes of the change.
    refine .inr (.inr ⟨_, _, .held hl hh, .kept hl hh, ?_⟩)
    rw [Action.bind_ok hlock]
    rcases rows with e | ⟨rs, count⟩
    · rfl
    · by_cases hc : 0 < count
      · dsimp only
        rw [if_pos hc, if_pos hc, Action.bind_ok (stage_apply rfl _), Action.pure_apply]
      · dsimp only
        rw [if_neg hc, if_neg hc]
        rfl
  · -- The lock was taken just now, and is given back unless something is staged.
    let locked : Connection Memory :=
      { c with
        transaction := some (t.hold table.id)
        store := c.store.put (files.place table.id) (putLock t.ticket ls) }
    have hlocked : files.lines? table.id locked.store = some (putLock t.ticket ls) :=
      Memory.lines?_put_self
    have hrelease : release files table.id locked = .ok ()
        { c with
          transaction := some ((t.hold table.id).letGo table.id)
          store := c.store.put (files.place table.id) ls } := by
      rw [release_taken (t := t.hold table.id) rfl hlocked hh hd, Memory.put_put]
    refine .inr (.inr ⟨_, _, .taken hl hh hd, .givenBack hl hh, ?_⟩)
    rw [Action.bind_ok hlock]
    rcases rows with e | ⟨rs, count⟩
    · dsimp only [releaseNew]
      rw [Action.bind_ok hrelease, Action.throw_apply]
    · by_cases hc : 0 < count
      · dsimp only
        rw [if_pos hc, if_pos hc, Action.bind_ok (stage_apply rfl _), Action.pure_apply]
      · dsimp only [releaseNew]
        rw [if_neg hc, if_neg hc, Action.bind_ok hrelease, Action.pure_apply]

variable (files) in
/-- An update is a change of the table that the session reads, once its columns are known. -/
theorem update_apply (name : String) (columns : List (String × Expression)) (condition : Option Expression)
    {c : Connection Memory} {t : Transaction} (ht : c.transaction = some t) :
    update files name columns condition c = match Connection.table files name c with
      | .error e => .error e c
      | .ok table => match resolveColumns table.schema columns with
        | .error e => .error e c
        | .ok assignments => change files table (updatedRows table.schema assignments condition table.rows) c := by
  rw [update, Action.bind_ok (activeTransaction_ok ht)]
  cases htable : Connection.table files name c with
  | error e => rw [Action.bind_error (Action.ask_error htable)]
  | ok table =>
    rw [Action.bind_ok (Action.ask_ok htable)]
    dsimp only
    cases hcolumns : resolveColumns table.schema columns with
    | error e => rw [Action.bind_error (Action.of_error rfl c)]
    | ok assignments => rw [Action.bind_ok (Action.of_ok rfl c)]

variable (files) in
/-- A deletion is a change of the table that the session reads. -/
theorem delete_apply (name : String) (condition : Option Expression) {c : Connection Memory}
    {t : Transaction} (ht : c.transaction = some t) :
    delete files name condition c = match Connection.table files name c with
      | .error e => .error e c
      | .ok table => change files table (remainingRows table.schema condition table.rows) c := by
  rw [delete, Action.bind_ok (activeTransaction_ok ht)]
  cases htable : Connection.table files name c with
  | error e => rw [Action.bind_error (Action.ask_error htable)]
  | ok table => rw [Action.bind_ok (Action.ask_ok htable)]

/-! ## Transactions -/

theorem begin_idle (ticket : Ticket) {c : Connection Memory} (ht : c.transaction = none) :
    begin ticket c = .ok () { c with transaction := some (.start ticket) } := by
  simp [begin, isActive, ht]

variable (files) in
theorem commit_apply {σ : Type} [Storage σ] {c : Connection σ} {t : Transaction}
    (ht : c.transaction = some t) :
    commit files c = match t.commit files c.store with
      | .ok n store => .ok n { c with transaction := none, store }
      | .error e store => .error e { c with transaction := none, store } := by
  rw [commit, Action.bind_ok (activeTransaction_ok ht), Action.bind_ok (Action.modify_apply _ c), onStore_apply]
  dsimp only
  cases t.commit files c.store <;> rfl

variable (files) in
theorem commit_eq_ok {σ : Type} [Storage σ] {c c' : Connection σ} {t : Transaction} {n : Nat}
    (ht : c.transaction = some t) : commit files c = .ok n c' ↔
      ∃ store, t.commit files c.store = .ok n store ∧ { c with transaction := none, store } = c' := by
  rw [commit_apply files ht]
  cases t.commit files c.store <;> simp

variable (files) in
theorem after_abort {σ : Type} [Storage σ] {c : Connection σ} {t : Transaction}
    (ht : c.transaction = some t) : Action.after (abort files) c =
      { c with transaction := none, store := Action.after (t.abort files) c.store } := by
  rcases abort_apply files ht with h | ⟨e, h⟩
  · exact Action.after_ok h
  · exact Action.after_error h

variable (files) in
theorem after_commit {σ : Type} [Storage σ] {c : Connection σ} {t : Transaction}
    (ht : c.transaction = some t) : Action.after (commit files) c =
      { c with transaction := none, store := Action.after (t.commit files) c.store } := by
  simp only [Action.after, commit_apply files ht]
  cases t.commit files c.store <;> rfl

end TextTables.Connection
