import TextTables.Proofs.File.Lock
import TextTables.Proofs.Store.Action
/-!
# Reading table files

When a header, a record and a table are read from the lines of a file, and what they are then. A table is read
as its header and then its records (`decodeTable_eq_bind`), so where the header cannot be read, neither can the
table. A lock line in front of the lines changes the ticket that is read and nothing else.
-/

namespace TextTables

variable {id : TableId} {name : String} {ls : List String} {ticket : Option Ticket}
  {schema : Schema} {table : Table}

/-! ## Lines under the lock line -/

theorem splitLock_fst : (splitLock ls).1 = holder? ls := by
  unfold splitLock
  split <;> simp_all

theorem splitLock_of_holder?_none (h : holder? ls = none) : splitLock ls = (none, ls) := by
  rw [splitLock, h]

@[simp] theorem splitLock_lockLine_cons (ticket : Ticket) (ls : List String) :
    splitLock (ticket.lockLine :: ls) = (some ticket, ls) := by
  rw [splitLock, holder?_lockLine_cons, List.tail_cons]

/-- The lines of the records below the schema line. -/
def recordLines (ls : List String) : List String :=
  (splitLock ls).2.tail.filter fun line => !isLockLine line

/-! ## Headers and tables -/

theorem decodeHeader_eq_ok :
    decodeHeader name ls = .ok (ticket, schema) ↔
      ∃ line records, splitLock ls = (ticket, line :: records) ∧ Schema.decode line = .ok schema := by
  rcases hs : splitLock ls with ⟨ticket', _ | ⟨line, records⟩⟩
  · simp [decodeHeader, hs]
  · simp only [decodeHeader, hs]
    constructor
    · intro h
      obtain ⟨schema', hd, h⟩ := Except.bind_eq_ok.1 h
      cases h
      exact ⟨line, records, rfl, hd⟩
    · rintro ⟨line', records', hl, hd⟩
      cases hl
      exact Except.bind_eq_ok.2 ⟨schema, hd, rfl⟩

/-- A table is read as its header and then its records. -/
theorem decodeTable_eq_bind (id : TableId) (ls : List String) : decodeTable id ls = do
    let (ticket, schema) ← decodeHeader id.name ls
    let rows ← decodeRows id.name (schema.qualify id.name) (recordLines ls)
    return (ticket, ⟨id, schema.qualify id.name, rows⟩) := by
  unfold decodeTable decodeHeader recordLines
  generalize splitLock ls = split
  obtain ⟨ticket, _ | ⟨line, records⟩⟩ := split
  · rfl
  · dsimp only [List.tail_cons]
    cases Schema.decode line <;> rfl

theorem decodeTable_eq_ok :
    decodeTable id ls = .ok (ticket, table) ↔
      ∃ line records schema rows, splitLock ls = (ticket, line :: records) ∧
        Schema.decode line = .ok schema ∧
        decodeRows id.name (schema.qualify id.name) (records.filter fun line => !isLockLine line) =
          .ok rows ∧
        table = ⟨id, schema.qualify id.name, rows⟩ := by
  rcases hs : splitLock ls with ⟨ticket', _ | ⟨line, records⟩⟩
  · simp [decodeTable, hs]
  · simp only [decodeTable, hs]
    constructor
    · intro h
      obtain ⟨schema, hd, h⟩ := Except.bind_eq_ok.1 h
      obtain ⟨rows, hr, h⟩ := Except.bind_eq_ok.1 h
      cases h
      exact ⟨line, records, schema, rows, rfl, hd, hr, rfl⟩
    · rintro ⟨line', records', schema, rows, hl, hd, hr, rfl⟩
      cases hl
      exact Except.bind_eq_ok.2 ⟨schema, hd, Except.bind_eq_ok.2 ⟨rows, hr, rfl⟩⟩

theorem decodeTable_id (h : decodeTable id ls = .ok (ticket, table)) : table.id = id := by
  obtain ⟨_, _, _, _, -, -, -, rfl⟩ := decodeTable_eq_ok.1 h
  rfl

theorem decodeTable_ticket (h : decodeTable id ls = .ok (ticket, table)) : ticket = holder? ls := by
  obtain ⟨_, _, _, _, hs, -⟩ := decodeTable_eq_ok.1 h
  rw [← splitLock_fst, hs]

/-- The header of a file has the schema of the table in it, but for the name it is read through. -/
theorem header_of_decodeTable (h : decodeTable id ls = .ok (ticket, table)) :
    ∃ schema, decodeHeader id.name ls = .ok (ticket, schema) ∧ table.schema = schema.qualify id.name := by
  rw [decodeTable_eq_bind] at h
  obtain ⟨⟨ticket', schema⟩, hheader, h⟩ := Except.bind_eq_ok.1 h
  obtain ⟨rows, -, h⟩ := Except.bind_eq_ok.1 h
  obtain ⟨rfl, rfl⟩ := Prod.mk.inj (Except.ok.inj h)
  exact ⟨schema, hheader, rfl⟩

/-- Where there is no header to read there is no table, for the same reason. -/
theorem decodeTable_of_header_error {e : Error} (h : decodeHeader id.name ls = .error e) :
    decodeTable id ls = .error e := by
  rw [decodeTable_eq_bind, h]
  rfl

/-! ## Behind a lock line -/

theorem recordLines_lockLine_cons {ticket : Ticket} (h : holder? ls = none) :
    recordLines (ticket.lockLine :: ls) = recordLines ls := by
  rw [recordLines, splitLock_lockLine_cons, recordLines, splitLock_of_holder?_none h]

/-- A lock line does not change the schema in a header, nor the fault of a header. -/
theorem decodeHeader_lockLine_cons {ticket : Ticket} (h : holder? ls = none) :
    decodeHeader name (ticket.lockLine :: ls) =
      (decodeHeader name ls).map fun header => (some ticket, header.2) := by
  rw [decodeHeader, splitLock_lockLine_cons, decodeHeader, splitLock_of_holder?_none h]
  cases ls with
  | nil => rfl
  | cons line records =>
    dsimp only
    cases Schema.decode line <;> rfl

/-- A lock line does not change the table that lines decode to. -/
theorem decodeTable_lockLine_cons {ticket : Ticket} (h : holder? ls = none) :
    (decodeTable id (ticket.lockLine :: ls)).map Prod.snd = (decodeTable id ls).map Prod.snd := by
  rw [decodeTable_eq_bind, decodeTable_eq_bind, decodeHeader_lockLine_cons h, recordLines_lockLine_cons h]
  cases decodeHeader id.name ls with
  | error e => rfl
  | ok header =>
    simp only [Except.map, bind, Except.bind]
    cases decodeRows id.name (header.2.qualify id.name) (recordLines ls) <;> rfl

end TextTables
