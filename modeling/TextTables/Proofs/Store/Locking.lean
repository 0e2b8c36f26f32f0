import TextTables.Proofs.File.Reading
import TextTables.Proofs.Schema.Lines
import TextTables.Proofs.Store.Catalog
/-!
# Lock lines on files

The lock line of a file is out of band: with it the table is read as before and the header names the holder, and
taking it off gives the file back (`Catalog.lock_outOfBand`). Insertions read the header of a file and all other
statements the whole table; the two agree on every file, since a table is read as its header and then its records
(`decodeTable_eq_bind`).
-/

namespace TextTables.Catalog

variable {files : Catalog} {id : TableId} {m : Memory} {ls : List String} {ticket : Ticket}

/-- A file without a lock line is locked by one in front of its lines. -/
theorem writeLock_of_unlocked (hl : files.lines? id m = some ls) (hdir : files.hasDirectory id m = true)
    (hh : TextTables.holder? ls = none) :
    files.writeLock id ticket m = .ok () (m.put (files.place id) (ticket.lockLine :: ls)) := by
  rw [files.writeLock_apply id m ticket hl, if_pos hdir, putLock_of_holder?_none hh]

theorem clearLock_of_locked (hl : files.lines? id m = some (ticket.lockLine :: ls))
    (hdir : files.hasDirectory id m = true) : files.clearLock id m = .ok () (m.put (files.place id) ls) := by
  rw [files.clearLock_apply id m hl holder?_lockLine_cons, if_pos hdir, dropLock_lockLine_cons]

/-- Where the whole of a file is read as a table, its header is read as the holder and the table's schema. -/
theorem header_of_decoded {holder : Option Ticket} {table : Table} (hl : files.lines? id m = some ls)
    (hdecode : decodeTable id ls = .ok (holder, table)) :
    files.header id m = .ok (holder, table.schema.under none) := by
  obtain ⟨schema, hheader, hschema⟩ := header_of_decodeTable hdecode
  obtain ⟨line, records, -, hline⟩ := decodeHeader_eq_ok.1 hheader
  have hunder := (Schema.Built.decode hline).under_none
  rw [files.header_eq, hl, hschema, Schema.qualify_eq_under, Schema.under_under, hunder]
  exact hheader

/-- A file in a directory that is there takes the lock line of any ticket, if it does not start with one. Then the
ticket is read from it, the table as before or with the same error, and the header as before but for the ticket;
taking the lock line off gives the store back as it was. If any file is read as a table, then its header is read
as the same holder and the schema of the table, without the name that this is read through; if the header cannot
be read, then neither can the table, for the same reason. -/
theorem lock_outOfBand (files : Catalog) (id : TableId) :
    (∀ (m : Memory) (ls : List String) (ticket : Ticket), files.lines? id m = some ls →
      files.hasDirectory id m = true → (∀ first ∈ ls.head?, isLockLine first = false) →
      ∃ m', files.writeLock id ticket m = .ok () m' ∧
        files.holder? id m' = .ok (some ticket) ∧
        files.load id m' = files.load id m ∧
        files.header id m' = (files.header id m).map (fun header => (some ticket, header.2)) ∧
        ∃ m'', files.clearLock id m' = .ok () m'' ∧ files.lines? id m'' = some ls ∧ Memory.Same m m'') ∧
    ∀ (m : Memory) (ls : List String), files.lines? id m = some ls →
      (∀ holder table, decodeTable id ls = .ok (holder, table) →
        files.header id m = .ok (holder, table.schema.under none)) ∧
      ∀ e, files.header id m = .error e → decodeTable id ls = .error e := by
  refine ⟨fun m ls ticket hl hdir hfirst => ?locked, fun m ls hl => ⟨?read, ?unread⟩⟩
  case locked =>
    have hh : TextTables.holder? ls = none := by
      cases ls with
      | nil => rfl
      | cons first rest => exact holder?_cons_of_not (hfirst first rfl)
    have hl' : files.lines? id (m.put (files.place id) (ticket.lockLine :: ls)) = some (ticket.lockLine :: ls) :=
      Memory.lines?_put_self
    refine ⟨_, writeLock_of_unlocked hl hdir hh, ?ticket, ?table, ?header, _, clearLock_of_locked hl' hdir,
      Memory.lines?_put_self, rfl, fun p => ?file⟩
    case ticket => rw [files.holder?_eq, hl']; exact congrArg Except.ok holder?_lockLine_cons
    case table => rw [files.load_eq, hl', files.load_eq, hl]; exact decodeTable_lockLine_cons hh
    case header => rw [files.header_eq, hl', files.header_eq, hl]; exact decodeHeader_lockLine_cons hh
    case file => rw [Memory.put_put]; exact Memory.lines?_put_of_lines? hl
  case read => exact fun holder table hdecode => header_of_decoded hl hdecode
  case unread =>
    intro e hheader
    rw [files.header_eq, hl] at hheader
    exact decodeTable_of_header_error hheader

/-- A file with a line among its records that looks like a lock line, and a held file whose schema cannot be
read. -/
theorem lock_outOfBand_strayLine :
    let files : Catalog := ⟨⟨"Databases"⟩, "tbl"⟩
    let id : TableId := ⟨"lab", "levels"⟩
    let ls := [" place  text| level int ", "dock| +5 ", "&left", "|-1"]
    let m := (Memory.empty.addDirectory (files.databasePath "lab").place).put (files.place id) ls
    let schema : Schema := ⟨[⟨"place", "text", .text, none⟩, ⟨"level", "int", .integer, none⟩]⟩
    let unreadable := m.put (files.place id) ["&held", "level whole", "5"]
    (∃ m', files.writeLock id ⟨"held"⟩ m = .ok () m' ∧ files.holder? id m' = .ok (some ⟨"held"⟩) ∧
      files.load id m' = .ok ⟨id, schema.qualify "levels", [[.text "dock", .integer 5], [.text "", .integer (-1)]]⟩ ∧
      files.header id m' = .ok (some ⟨"held"⟩, schema) ∧
      ∃ m'', files.clearLock id m' = .ok () m'' ∧ files.lines? id m'' = some ls) ∧
    files.header id m = .ok (none, schema) ∧
    ∃ e, files.header id unreadable = .error e ∧ decodeTable id ["&held", "level whole", "5"] = .error e := by
  intro files id ls m schema unreadable
  have hl : files.lines? id m = some ls := Memory.lines?_put_self
  have hl' : files.lines? id unreadable = some ["&held", "level whole", "5"] := Memory.lines?_put_self
  have hdir : files.hasDirectory id m = true := by decide +kernel
  have hdecode : decodeTable id ls =
    .ok (none, ⟨id, schema.qualify "levels", [[.text "dock", .integer 5], [.text "", .integer (-1)]]⟩) := rfl
  obtain ⟨hlocked, hread⟩ := lock_outOfBand files id
  obtain ⟨m', hwrite, hholder, hload, hheader, m'', hclear, hlines, -⟩ :=
    hlocked m ls ⟨"held"⟩ hl hdir (by decide)
  obtain ⟨hheader', -⟩ := hread m ls hl
  obtain ⟨-, herror⟩ := hread unreadable _ hl'
  obtain ⟨e, he⟩ : ∃ e, files.header id unreadable = .error e := by
    rw [files.header_eq, hl']
    exact ⟨_, rfl⟩
  refine ⟨⟨m', hwrite, hholder, ?_, ?_, m'', hclear, hlines⟩, hheader' _ _ hdecode, e, he, herror e he⟩
  · rw [hload]
    exact (load_eq_ok files).2 ⟨ls, none, hl, hdecode⟩
  · rw [hheader, hheader' _ _ hdecode]
    rfl

end TextTables.Catalog
