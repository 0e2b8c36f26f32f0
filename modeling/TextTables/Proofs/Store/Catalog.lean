import TextTables.Proofs.File.Lock
import TextTables.Proofs.Store.Action
import TextTables.Proofs.Store.Memory
/-!
# The catalog over the store in memory

Every question and action of the catalog, as one equation over `Memory.lines?`, `Memory.put` and the
like. Proofs about sessions use these equations and do not look at the store again.
-/

namespace TextTables.Catalog

variable (files : Catalog) (id : TableId) (m : Memory)

/-- The place of a table's file. -/
def place : Place := (files.tablePath id).place

/-- The lines of a table's file in memory, if there is one. -/
def lines? : Option (List String) := m.lines? (files.place id)

/-- Whether the directory of a table is there, without which its file cannot be written. -/
def hasDirectory : Bool := m.hasParent (files.tablePath id)

/-- The fault of writing a file whose directory is missing. -/
def missingDirectory : Error := .io (.directoryMissing (files.tablePath id).parent.text)

theorem hasDirectory_of_place {files : Catalog} {id id' : TableId} (m : Memory)
    (h : files.place id' = files.place id) : files.hasDirectory id' m = files.hasDirectory id m := by
  simp only [hasDirectory, Memory.hasParent]
  rw [show (files.tablePath id').place = (files.tablePath id).place from h]

theorem hasDirectory_congr {files : Catalog} {id : TableId} {m m' : Memory}
    (h : m'.directories = m.directories) : files.hasDirectory id m' = files.hasDirectory id m := by
  simp only [hasDirectory, Memory.hasParent, h]

theorem hasDirectory_iff {files : Catalog} {id : TableId} {m : Memory} :
    files.hasDirectory id m = true ↔
      (files.place id).parent = [] ∨ (files.place id).parent ∈ m.directories :=
  Memory.hasParent_iff

theorem hasDirectory_of_rooted {files : Catalog} {id : TableId} {m : Memory} (h : m.Rooted)
    {ls : List String} (hl : files.lines? id m = some ls) : files.hasDirectory id m = true :=
  hasDirectory_iff.2 (h _ ls hl)

/-! ## Questions -/

theorem tableExists_eq : files.tableExists id m = (files.lines? id m).isSome := rfl

theorem lines_eq :
    files.lines id m = match files.lines? id m with
      | some ls => .ok ls
      | none => .error (.tableNotFound id.name) := by
  change (do match ← Except.ok (files.lines? id m) with
    | some lines => return lines
    | none => throw (Error.tableNotFound id.name)) = _
  cases files.lines? id m <;> rfl

theorem holder?_eq :
    files.holder? id m = match files.lines? id m with
      | some ls => .ok (TextTables.holder? ls)
      | none => .error (.tableNotFound id.name) := by
  simp only [Catalog.holder?, lines_eq]
  cases files.lines? id m <;> rfl

theorem header_eq :
    files.header id m = match files.lines? id m with
      | some ls => decodeHeader id.name ls
      | none => .error (.tableNotFound id.name) := by
  simp only [header, lines_eq]
  cases files.lines? id m <;> rfl

theorem load_eq : files.load id m = match files.lines? id m with
      | some ls => (decodeTable id ls).map Prod.snd
      | none => .error (.tableNotFound id.name) := by
  simp only [load, lines_eq]
  cases files.lines? id m with
  | none => rfl
  | some ls => cases h : decodeTable id ls <;> simp [bind, Except.bind, pure, Except.pure, h, Except.map]

theorem load_eq_ok {id : TableId} {m : Memory} {table : Table} :
    files.load id m = .ok table ↔
      ∃ ls ticket, files.lines? id m = some ls ∧ decodeTable id ls = .ok (ticket, table) := by
  simp only [load, lines_eq]
  cases files.lines? id m with
  | none => simp [bind, Except.bind]
  | some ls => cases h : decodeTable id ls <;> simp [bind, Except.bind, pure, Except.pure, h, Prod.ext_iff]

/-! ## Actions -/

theorem write_apply (path : Path) (ls : List String) :
    Storage.write path ls m = if m.hasParent path then .ok () (m.put path.place ls)
      else .error (.io (.directoryMissing path.parent.text)) m := by
  change Memory.write path ls m = _
  simp only [Memory.write, Action.bind_apply, Memory.requireParent]
  cases m.hasParent path <;> rfl

theorem createFile_apply (path : Path) :
    Storage.createFile path m =
      if m.hasParent path then
        if (m.lines? path.place).isSome then .ok false m else .ok true (m.put path.place [])
      else .error (.io (.directoryMissing path.parent.text)) m := by
  change Memory.createFile path m = _
  simp only [Memory.createFile, Action.bind_apply, Memory.requireParent]
  cases m.hasParent path with
  | false => rfl
  | true =>
    simp only [if_true, Action.get_apply, Action.ite_apply]
    rfl

theorem writeLines_apply (ls : List String) :
    files.writeLines id ls m = if files.hasDirectory id m then .ok () (m.put (files.place id) ls)
      else .error (files.missingDirectory id) m :=
  write_apply m (files.tablePath id) ls

theorem createDatabase_apply (name : String) :
    files.createDatabase name m =
      if m.directories.contains (files.databasePath name).place then .ok false m
      else .ok true (m.addDirectory (files.databasePath name).place) := rfl

theorem dropDatabase_apply (name : String) :
    files.dropDatabase name m =
      if m.directories.contains (files.databasePath name).place then
        .ok true (m.removeDirectory (files.databasePath name).place)
      else .ok false m := rfl

theorem dropTable_apply :
    files.dropTable id m = if (files.lines? id m).isSome then .ok true (m.erase (files.place id))
      else .ok false m := rfl

theorem createTable_apply (schema : Schema) :
    files.createTable id schema m =
      if files.hasDirectory id m then
        if (files.lines? id m).isSome then .ok false m
        else .ok true (m.put (files.place id) [schema.encode])
      else .error (files.missingDirectory id) m := by
  simp only [createTable, Action.bind_apply, createFile_apply, hasDirectory, lines?, place]
  by_cases hp : m.hasParent (files.tablePath id) = true
  · by_cases hl : (m.lines? (files.tablePath id).place).isSome = true
    · simp only [hp, hl, if_true, Bool.false_eq_true, if_false, Action.pure_apply, Action.ite_apply]
    · rw [Bool.not_eq_true] at hl
      simp only [hp, hl, if_true, Bool.false_eq_true, if_false, Action.ite_apply,
        Action.bind_apply, write_apply, Memory.hasParent_put, Memory.put_put, Action.pure_apply]
  · rw [Bool.not_eq_true] at hp
    simp only [hp, Bool.false_eq_true, if_false, missingDirectory]

theorem init_apply :
    files.init m = .ok () (if m.directories.contains files.root.place then m
      else m.addDirectory files.root.place) := by
  have hcreate : (Storage.createDirectory files.root : Action Memory Bool) m =
      if m.directories.contains files.root.place then .ok false m
      else .ok true (m.addDirectory files.root.place) := rfl
  simp only [init, Action.bind_apply, hcreate]
  cases m.directories.contains files.root.place <;> rfl

theorem appendRow_apply {row : Row} (hr : checkRow row = .ok ()) {ls : List String}
    (hl : files.lines? id m = some ls) :
    files.appendRow id row m = .ok () (m.put (files.place id) (ls ++ [renderRow row])) := by
  have henc : encodeRow row = .ok (renderRow row) := by
    simp only [encodeRow, hr]
    rfl
  simp only [appendRow, Action.bind_apply, Action.of_apply, henc, Action.get_apply,
    Action.ite_apply]
  simp only [tableExists_eq, hl, Option.isSome_some, if_true]
  change Memory.append (files.tablePath id) (renderRow row) m = _
  simp only [Memory.append]
  rw [show m.lines? (files.tablePath id).place = some ls from hl]
  rfl

theorem addField_apply (field : Field) {ls ls' : List String} (hl : files.lines? id m = some ls)
    (ha : alteredLines id field ls = .ok ls') :
    files.addField id field m = if files.hasDirectory id m then .ok () (m.put (files.place id) ls')
      else .error (files.missingDirectory id) m := by
  simp only [addField, Action.bind_apply, Action.ask_apply, lines_eq, hl, Action.of_apply, ha]
  exact files.writeLines_apply id m ls'

theorem addField_error {id : TableId} {m : Memory} {field : Field} {ls : List String} {e : Error}
    (hl : files.lines? id m = some ls) (ha : alteredLines id field ls = .error e) :
    files.addField id field m = .error e m := by
  simp only [addField, Action.bind_apply, Action.ask_apply, lines_eq, hl, Action.of_apply, ha]

theorem writeLock_apply (ticket : Ticket) {ls : List String} (hl : files.lines? id m = some ls) :
    files.writeLock id ticket m =
      if files.hasDirectory id m then .ok () (m.put (files.place id) (putLock ticket ls))
      else .error (files.missingDirectory id) m := by
  simp only [writeLock, Action.bind_apply, Action.ask_apply, lines_eq, hl]
  exact files.writeLines_apply id m _

theorem clearLock_apply {ticket : Ticket} {ls : List String} (hl : files.lines? id m = some ls)
    (hh : TextTables.holder? ls = some ticket) :
    files.clearLock id m =
      if files.hasDirectory id m then .ok () (m.put (files.place id) (dropLock ls))
      else .error (files.missingDirectory id) m := by
  simp only [clearLock, Action.bind_apply, Action.ask_apply, lines_eq, hl, headIsLock_iff, hh,
    Option.isSome_some, if_true]
  exact files.writeLines_apply id m _

end TextTables.Catalog
