import TextTables.Proofs.Schema.Lines
import TextTables.Proofs.Store.Altering
import TextTables.Proofs.Store.Keeps
/-!
# Lines handed to a store

What the catalog hands to a store to be written has no line break: the lines of schemas and records, and lock
lines of tickets without one. Some of it was read from the store before, so what is said of the lines goes
together with what is said of the files (`Catalog.Call.preserves`). A file on disk therefore has exactly the lines
that it was given.
-/

namespace TextTables

variable {σ : Type}

/-! ## Lines without line breaks -/

section Lined
variable {line : String} {ls ls' : List String} {ticket : Ticket} {schema : Schema} {field : Field} {row : Row}

theorem Lined.whole (h : Lined line) : Text.Whole line :=
  ⟨fun hfeed => (h _ hfeed).1 rfl, fun hreturn => (h _ (List.mem_of_getLast? hreturn)).2 rfl⟩

theorem Ticket.lined_lockLine (h : Lined ticket.text) : Lined ticket.lockLine := by
  intro c hc
  rw [Ticket.lockLine, String.toList_append, List.mem_append] at hc
  rcases hc with hc | hc
  · obtain rfl : c = '&' := by simpa using hc
    decide
  · exact h c hc

theorem lined_of_encodeRow (h : encodeRow row = .ok line) : Lined line := by
  obtain ⟨hcheck, h⟩ := Except.bind_unit_eq_ok.1 h
  obtain rfl := Except.ok.inj h
  exact lined_renderRow hcheck

theorem lined_putLock (hticket : Lined ticket.text) (hls : ∀ line ∈ ls, Lined line) :
    ∀ line ∈ putLock ticket ls, Lined line := by
  have hlock := Ticket.lined_lockLine hticket
  cases ls with
  | nil => exact List.forall_mem_singleton.2 hlock
  | cons first rest =>
    rw [putLock]
    split
    · exact List.forall_mem_cons.2 ⟨hlock, fun line hline => hls line (List.mem_cons_of_mem _ hline)⟩
    · exact List.forall_mem_cons.2 ⟨hlock, hls⟩

/-- The lock line that stays at the top was read. -/
theorem Catalog.lined_alteredLines {id : TableId} (hfield : field.WellFormed) (hls : ∀ line ∈ ls, Lined line)
    (h : alteredLines id field ls = .ok ls') : ∀ line ∈ ls', Lined line := by
  obtain ⟨holder, table, altered, lines, hdecode, hadd, hencode, rfl⟩ := alteredLines_eq_ok.1 h
  obtain ⟨schema, hschema, rfl⟩ := Table.addField_eq_ok.1 hadd
  have hwritten := (Table.typed_of_decodeTable hdecode).wellFormed_schema.add hfield hschema
  have hlines := lined_of_encodeTable hwritten hencode
  cases holder with
  | none => exact hlines
  | some ticket =>
    obtain ⟨rest, rfl⟩ := holder?_eq_some.1 (decodeTable_ticket hdecode).symm
    exact List.forall_mem_cons.2 ⟨hls _ List.mem_cons_self, hlines⟩

/-- What a schema is read through does not matter for its line. -/
theorem Schema.WellFormed.of_under {source : Option String} (h : (schema.under source).WellFormed) :
    schema.WellFormed := by
  refine ⟨⟨?_, fun field hfield => ?_⟩, ?_⟩
  · simpa [Schema.under, Function.comp_def] using h.distinct
  · obtain ⟨hname, hdeclared, hhints, htype⟩ := h.fields _ (List.mem_map_of_mem hfield)
    exact ⟨hname, hdeclared, hhints, htype⟩
  · simpa [Schema.under] using h.nonempty

end Lined

/-! ## Calls of the catalog -/

namespace Catalog

/-- A call of the catalog that may change the files of a store. -/
inductive Call where
  | init
  | reset
  | createDatabase (name : String)
  | dropDatabase (name : String)
  | createTable (id : TableId) (schema : Schema)
  | dropTable (id : TableId)
  | persist (table : Table)
  | writeLines (id : TableId) (lines : List String)
  | appendRow (id : TableId) (row : Row)
  | addField (id : TableId) (field : Field)
  | writeLock (id : TableId) (ticket : Ticket)
  | clearLock (id : TableId)

namespace Call

variable [Storage σ]

/-- The call on a store. -/
def run (files : Catalog) : Call → Action σ Unit
  | .init => files.init
  | .reset => files.reset
  | .createDatabase name => do let _ ← files.createDatabase name
  | .dropDatabase name => do let _ ← files.dropDatabase name
  | .createTable id schema => do let _ ← files.createTable id schema
  | .dropTable id => do let _ ← files.dropTable id
  | .persist table => files.persist table
  | .writeLines id lines => files.writeLines id lines
  | .appendRow id row => files.appendRow id row
  | .addField id field => files.addField id field
  | .writeLock id ticket => files.writeLock id ticket
  | .clearLock id => files.clearLock id

/-- A call with what the catalog is given: schemas and fields that were read, whatever the schemas are read
through, lines of a table, and tickets without line breaks. Any record will do. -/
def Proper : Call → Prop
  | .createTable _ schema => (schema.under none).Built
  | .persist table => (table.schema.under none).Built
  | .writeLines _ lines => ∃ table : Table, (table.schema.under none).Built ∧ encodeTable table = .ok lines
  | .addField _ field => ∃ descriptor, Field.ofDescriptor descriptor = .ok field
  | .writeLock _ ticket => Lined ticket.text
  | _ => True

/-- The store after some calls, of one catalog or of several. -/
def after (calls : List (Catalog × Call)) (s : σ) : σ :=
  calls.foldl (fun s call => Action.after (call.2.run call.1) s) s

/-! ## Calls on one table -/

/-- The table that a call is about; other calls are about directories. -/
def table? : Call → Option TableId
  | .createTable id _ | .dropTable id | .writeLines id _ | .appendRow id _ | .addField id _ | .writeLock id _
  | .clearLock id => some id
  | .persist table => some table.id
  | .init | .reset | .createDatabase _ | .dropDatabase _ => none

/-- A call makes lines with a property, of what it is given and of lines with the property. -/
def Makes (P : String → Prop) : Call → Prop
  | .createTable _ schema => P schema.encode
  | .persist table => ∀ lines, encodeTable table = .ok lines → ∀ line ∈ lines, P line
  | .writeLines _ lines => ∀ line ∈ lines, P line
  | .appendRow _ row => ∀ line, encodeRow row = .ok line → P line
  | .addField id field => ∀ ls ls', (∀ line ∈ ls, P line) → alteredLines id field ls = .ok ls' → ∀ line ∈ ls', P line
  | .writeLock _ ticket => ∀ ls, (∀ line ∈ ls, P line) → ∀ line ∈ putLock ticket ls, P line
  | _ => True

section OfFile
variable {P : String → Prop} {I : σ → Prop} {files : Catalog} {id : TableId}
  (hread : ∀ s lines, I s → Storage.read? (files.tablePath id) s = .ok (some lines) → ∀ line ∈ lines, P line)
  (hrun : ∀ operation : Operation, operation.file? = some (files.tablePath id) →
    (∀ line ∈ operation.handed, P line) → Action.Preserves I operation.run)

include hrun

theorem preserves_write {lines : List String} (hlines : ∀ line ∈ lines, P line) :
    Action.Preserves I (Storage.write (files.tablePath id) lines) :=
  .of_answer (hrun (.write _ lines) rfl hlines)

theorem preserves_createTable {schema : Schema} (hline : P schema.encode) :
    Action.Preserves I (files.createTable id schema) := by
  refine .bind (.of_answer (hrun (.createFile _) rfl (List.forall_mem_nil _))) fun created => ?_
  cases created with
  | true => exact .bind (preserves_write hrun (List.forall_mem_singleton.2 hline)) fun _ => .pure
  | false => exact .pure

theorem preserves_appendRow {row : Row} (hline : ∀ line, encodeRow row = .ok line → P line) :
    Action.Preserves I (files.appendRow id row) := by
  refine .bind_of fun line hencode s hs => ?_
  rw [Action.after_bind_ok (Action.get_apply s)]
  cases files.tableExists id s with
  | true =>
    have happend := hrun (.append (files.tablePath id) line) rfl (List.forall_mem_singleton.2 (hline line hencode))
    exact happend.of_answer s hs
  | false => exact hs

include hread

theorem preserves_addField {field : Field} (hlines : ∀ ls ls', (∀ line ∈ ls, P line) →
    alteredLines id field ls = .ok ls' → ∀ line ∈ ls', P line) : Action.Preserves I (files.addField id field) := by
  refine .bind_ask fun s ls hs hls => ?_
  have hwrite : Action.Preserves I (Action.of (alteredLines id field ls) >>= files.writeLines id) :=
    .bind_of fun ls' haltered => preserves_write hrun (hlines ls ls' (hread s ls hs (lines_eq_ok.1 hls)) haltered)
  exact hwrite s hs

theorem preserves_writeLock {ticket : Ticket} (hlines : ∀ ls, (∀ line ∈ ls, P line) →
    ∀ line ∈ putLock ticket ls, P line) : Action.Preserves I (files.writeLock id ticket) :=
  .bind_ask fun s ls hs hls => preserves_write hrun (hlines ls (hread s ls hs (lines_eq_ok.1 hls))) s hs

theorem preserves_clearLock : Action.Preserves I (files.clearLock id) := by
  refine .bind_ask fun s ls hs hls => ?_
  have hkept : ∀ line ∈ dropLock ls, P line := fun line hline =>
    hread s ls hs (lines_eq_ok.1 hls) line ((dropLock_sublist ls).subset hline)
  split
  · exact preserves_write hrun hkept s hs
  · exact hs

/-- Whatever operations on the file of a table preserve, as long as they hand over lines with a property and such
are read, calls on the table preserve that make such lines. -/
theorem preserves_of_file {call : Call} (htable : call.table? = some id) (hmakes : call.Makes P) :
    Action.Preserves I (call.run files) := by
  cases call <;> cases htable
  case createTable id schema => exact .bind (preserves_createTable hrun hmakes) fun _ => .pure
  case dropTable id => exact .bind (.of_answer (hrun (.deleteFile _) rfl (List.forall_mem_nil _))) fun _ => .pure
  case persist table => exact .bind_of fun lines hencode => preserves_write hrun (hmakes lines hencode)
  case writeLines id lines => exact preserves_write hrun hmakes
  case appendRow id row => exact preserves_appendRow hrun hmakes
  case addField id field => exact preserves_addField hread hrun hmakes
  case writeLock id ticket => exact preserves_writeLock hread hrun hmakes
  case clearLock id => exact preserves_clearLock hread hrun

end OfFile

/-! ## Calls whose lines have no line break -/

theorem Proper.makes {call : Call} (h : call.Proper) : call.Makes Lined := by
  cases call with
  | createTable id schema => exact h.wellFormed.of_under.lined_encode
  | persist table => exact fun lines => lined_of_encodeTable h.wellFormed.of_under
  | writeLines id lines =>
    obtain ⟨table, hschema, hencode⟩ := h
    exact lined_of_encodeTable hschema.wellFormed.of_under hencode
  | appendRow id row => exact fun line => lined_of_encodeRow
  | addField id field =>
    obtain ⟨descriptor, hfield⟩ := h
    exact fun ls ls' => lined_alteredLines (Field.wellFormed_of_ofDescriptor hfield).1
  | writeLock id ticket => exact fun ls => lined_putLock h
  | _ => trivial

section Keeps
variable {files : Catalog} {I : σ → Prop} (h : Storage.Keeps Lined I)
include h

/-- A store whose lines have no line break is such a store after a call. -/
theorem preserves {call : Call} (hcall : call.Proper) : Action.Preserves I (call.run files) := by
  have hcreate (path : Path) : Action.Preserves I (Storage.createDirectory path) :=
    .of_answer (h.run (.createDirectory path) (List.forall_mem_nil _))
  have hdelete (path : Path) : Action.Preserves I (Storage.deleteDirectory path) :=
    .of_answer (h.run (.deleteDirectory path) (List.forall_mem_nil _))
  cases htable : call.table? with
  | some id =>
    exact preserves_of_file (fun _ _ => h.read) (fun operation _ => h.run operation) htable hcall.makes
  | none =>
    cases call with
    | init => exact .bind (hcreate _) fun _ => .pure
    | reset => exact .bind (hdelete _) fun _ => .pure
    | createDatabase name => exact .bind (hcreate _) fun _ => .pure
    | dropDatabase name => exact .bind (hdelete _) fun _ => .pure
    | _ => cases htable

/-! ## All calls -/

theorem after_induction {calls : List (Catalog × Call)} (hcalls : ∀ call ∈ calls, call.2.Proper) {s : σ} (hs : I s) :
    I (after calls s) :=
  List.foldlRecOn calls _ hs fun s hs call hcall => preserves h (hcalls call hcall) s hs

/-- No line that is handed over has a line break. -/
theorem lined_handed {calls : List (Catalog × Call)} (hcalls : ∀ call ∈ calls, call.2.Proper) {s : σ} (hs : I s) :
    ∀ line ∈ (after calls (Recorded.mk s [])).handed, Lined line :=
  (after_induction (Recorded.keeps h) hcalls ⟨hs, List.forall_mem_nil _⟩).2

end Keeps

end Call

end Catalog

/-! ## Files on disk -/

/-- At a path where a file can be written, and where it is the same on disk and in memory if it is there, edits with
lines that have no line feed and no carriage return at their end leave on disk the text of the lines in memory, and
what is read of it are these lines. All lines that the catalog hands to a store are such if the store had no files
at first, be it in memory or on disk. -/
theorem disk_text :
    (∀ (path : Path) (d : Disk) (m : Memory), d.Mirrors path m →
      ∀ operations : List Operation, (∀ operation ∈ operations, operation.Edits path) →
        let d' := Operation.after operations d
        let m' := Operation.after operations m
        d'.readText? path = .ok ((m'.lines? path.place).map Text.unlines) ∧
          Storage.read? path d' = .ok (m'.lines? path.place)) ∧
    ∀ calls : List (Catalog × Catalog.Call), (∀ call ∈ calls, call.2.Proper) →
      (∀ m : Memory, m.files = [] →
        ∀ line ∈ (Catalog.Call.after calls (Recorded.mk m [])).handed, Text.Whole line) ∧
      ∀ d : Disk, d.files = [] →
        ∀ line ∈ (Catalog.Call.after calls (Recorded.mk d [])).handed, Text.Whole line := by
  refine ⟨fun path d m h operations hedits => ?edited, fun calls hcalls => ⟨fun m hm => ?memory, fun d hd => ?disk⟩⟩
  case edited =>
    have hmirrors := h.after hedits
    exact ⟨hmirrors.text, hmirrors.read?⟩
  case memory =>
    have hlined : m.Each fun lines => ∀ line ∈ lines, Lined line := by
      intro p ls hl
      rw [Memory.lines?, hm] at hl
      cases hl
    exact fun line hline => (Catalog.Call.lined_handed Memory.keeps hcalls hlined line hline).whole
  case disk =>
    have hlined : d.Texts Lined := by
      rw [Disk.Texts, hd]
      exact List.forall_mem_nil _
    have hkeeps := Disk.keeps fun _ => Lined.whole
    exact fun line hline => (Catalog.Call.lined_handed hkeeps hcalls hlined line hline).whole

/-- A file with empty lines and with a carriage return inside of a line, and the lines that are handed over for a
table that is made, locked, added to and freed. -/
theorem disk_text_odd_lines :
    let path : Path := ⟨"db/t.tbl"⟩
    let operations : List Operation := [.append path "lost", .createFile path, .append path "", .createFile path,
      .write path ["", "a\rb", " "], .append path ""]
    let files : Catalog := ⟨⟨"db"⟩, "tbl"⟩
    let id : TableId := ⟨"Lab", "levels"⟩
    let calls : List (Catalog × Catalog.Call) := [.init, .createDatabase "lab",
      .createTable id ⟨[⟨"id", "int", .integer, none⟩]⟩, .appendRow id [.integer 5], .writeLock id ⟨"t"⟩,
      .addField id ⟨"note", "text", .text, none⟩, .clearLock id].map fun call => (files, call)
    Storage.read? path (Operation.after operations (Disk.mk [] [["db"]])) = .ok (some ["", "a\rb", " ", ""]) ∧
    (Catalog.Call.after calls (Recorded.mk Memory.empty [])).handed =
      ["id int", "5", "&t", "id int", "5", "&t", "id int|note text", "5|", "id int|note text", "5|"] ∧
    (∀ line ∈ (Catalog.Call.after calls (Recorded.mk Memory.empty [])).handed, Text.Whole line) ∧
    ∀ line ∈ (Catalog.Call.after calls (Recorded.mk Disk.empty [])).handed, Text.Whole line := by
  intro path operations files id calls
  have hmirrors : (Disk.mk [] [["db"]]).Mirrors path (Memory.mk [] [["db"]]) :=
    .of_vacant (by decide +kernel) (by decide +kernel) (by decide +kernel) (by decide +kernel)
  have hedits : ∀ operation ∈ operations, operation.Edits path := by
    simp only [operations, List.forall_mem_cons, List.not_mem_nil, false_imp_iff, implies_true, and_true]
    exact ⟨.append (by decide), .createFile, .append (by decide), .createFile, .write (by decide), .append (by decide)⟩
  have hschema : Schema.ofDescriptors ["id int"] = .ok ⟨[⟨"id", "int", .integer, none⟩]⟩ := rfl
  have hfield : Field.ofDescriptor "note text" = .ok ⟨"note", "text", .text, none⟩ := rfl
  have hticket : Lined "t" := by
    intro c hc
    obtain rfl : c = 't' := by simpa using hc
    decide
  have hcalls : ∀ call ∈ calls, call.2.Proper := by
    simp only [calls, List.map_cons, List.map_nil, List.forall_mem_cons, List.not_mem_nil, false_imp_iff, implies_true,
      and_true]
    exact ⟨trivial, trivial, .ofDescriptors hschema, trivial, hticket, ⟨_, hfield⟩, trivial⟩
  obtain ⟨hedited, hhanded⟩ := disk_text
  obtain ⟨-, hread⟩ := hedited path _ _ hmirrors operations hedits
  obtain ⟨hmemory, hdisk⟩ := hhanded calls hcalls
  refine ⟨hread.trans (congrArg Except.ok ?_), ?_, hmemory _ rfl, hdisk _ rfl⟩
  · decide +kernel
  · decide +kernel

end TextTables
