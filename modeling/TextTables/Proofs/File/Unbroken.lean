import TextTables.Proofs.File.RoundTrip
/-!
# Lines without line breaks

A line in a store may hold a line break if nothing but the store has put it there. What tables are
written to has none, and a table that is read from lines without them can be written again.
-/

namespace TextTables

/-- A text without line breaks. -/
def Lined (line : String) : Prop := ∀ c ∈ line.toList, c ≠ '\n' ∧ c ≠ '\r'

/-- The lines of a file, lock lines aside, have no line breaks. -/
def Unbroken (ls : List String) : Prop := ∀ line ∈ contents ls, Lined line

section Unbroken
variable {ls ls' : List String}

theorem unbroken_of_lined (h : ∀ line ∈ ls, Lined line) : Unbroken ls :=
  fun line hline => h line (List.mem_filter.1 hline).1

theorem Unbroken.lockLine_cons (h : Unbroken ls) (ticket : Ticket) : Unbroken (ticket.lockLine :: ls) := by
  intro line hline
  rw [contents, List.filter_cons_of_neg (by simp)] at hline
  exact h line hline

theorem Unbroken.append (h : Unbroken ls) (h' : Unbroken ls') : Unbroken (ls ++ ls') := by
  intro line hline
  rw [contents, List.filter_append] at hline
  exact (List.mem_append.1 hline).elim (h line) (h' line)

end Unbroken

/-! ## Written lines -/

section Written
variable {c : Char} {table : Table} {row : Row} {lines : List String}

theorem ne_break_of_isBlank (h : Text.isBlank c = false) : c ≠ '\n' ∧ c ≠ '\r' := by
  constructor <;> rintro rfl <;> exact absurd h (by decide)

/-- What is put together with bars has no line break if the parts have none. -/
theorem lined_intercalate {parts : List String} (h : ∀ part ∈ parts, Lined part) :
    Lined (String.intercalate "|" parts) := by
  intro c hc
  rw [String.toList_intercalate] at hc
  rcases Text.mem_intercalate hc with hc | ⟨l, hl, hc⟩
  · obtain rfl : c = '|' := by simpa using hc
    decide
  · obtain ⟨part, hpart, rfl⟩ := List.mem_map.1 hl
    exact h part hpart c hc

theorem Field.WellFormed.lined_descriptor {field : Field} (h : field.WellFormed) :
    Lined field.descriptor := by
  intro c hc
  rw [Field.WellFormed.toList_descriptor, List.mem_append, List.mem_cons] at hc
  rcases hc with hc | rfl | hc
  · exact ne_break_of_isBlank (Text.isBlank_of_isPlain (h.name_plain hc))
  · decide
  · exact ne_break_of_isBlank (h.declared.2 c hc)

theorem Schema.WellFormed.lined_encode {schema : Schema} (h : schema.WellFormed) :
    Lined schema.encode := by
  refine lined_intercalate fun part hpart => ?_
  obtain ⟨field, hfield, rfl⟩ := List.mem_map.1 hpart
  exact (h.fields field hfield).lined_descriptor

theorem Value.lined_render {value : Value} {first : Bool} (h : checkValue first value = .ok ()) :
    Lined value.render := by
  intro c hc
  cases value with
  | integer n => exact ne_break_of_isBlank (Text.isBlank_of_isPlain (Decimal.plain_toString_int _ _ hc))
  | float x => exact ne_break_of_isBlank (Text.isBlank_of_isPlain (Decimal.plain_write floatLayout x _ hc))
  | text s =>
    have hsep : hasSeparator s = false := by
      simp only [checkValue] at h
      split at h
      · cases h
      · simpa using ‹¬ hasSeparator s = true›
    have hc := List.any_eq_false.1 hsep c hc
    simp only [Bool.or_eq_true, beq_iff_eq, not_or] at hc
    exact ⟨hc.1.2, hc.2⟩

theorem lined_renderRow (h : checkRow row = .ok ()) : Lined (renderRow row) := by
  refine lined_intercalate fun part hpart => ?_
  obtain ⟨value, hvalue, rfl⟩ := List.mem_map.1 hpart
  exact Value.lined_render (checkValues_eq_ok.1 (checkValues_of_checkRow h) value hvalue)

/-- A record is checked when it is written, so it has no line break. -/
theorem lined_of_encodeTable (hschema : table.schema.WellFormed) (h : encodeTable table = .ok lines) :
    ∀ line ∈ lines, Lined line := by
  obtain ⟨hrows, rfl⟩ := encodeTable_eq_ok.1 h
  refine List.forall_mem_cons.2 ⟨hschema.lined_encode, fun line hline => ?_⟩
  obtain ⟨row, hrow, rfl⟩ := List.mem_map.1 hline
  exact lined_renderRow (hrows row hrow)

end Written

/-! ## Read records -/

section Read
variable {fields : List Field} {raws : List String} {row : Row} {s line : String}

theorem eq_of_decodeValue {type : FieldType} {raw : String} (h : decodeValue type raw = .ok (.text s)) :
    s = raw := by
  unfold decodeValue at h
  split at h
  · next value hread =>
    cases h
    cases type <;> simp [Value.read?] at hread
    exact hread.symm
  · cases h

/-- The texts of a record are pieces of its line, and one in front is the first of them. -/
theorem texts_of_decodeValues (h : decodeValues fields raws = .ok row) :
    (∀ s, Value.text s ∈ row → s ∈ raws) ∧
      ∀ s, row.head? = some (.text s) → raws.head? = some s := by
  induction fields generalizing raws row with
  | nil => cases h; exact ⟨nofun, nofun⟩
  | cons field fields ih =>
    cases raws with
    | nil => cases h; exact ⟨nofun, nofun⟩
    | cons raw raws =>
      obtain ⟨value, hvalue, h⟩ := Except.bind_eq_ok.1 h
      obtain ⟨rest, hrest, h⟩ := Except.bind_eq_ok.1 h
      cases h
      refine ⟨fun s hs => ?_, fun s hs => ?_⟩
      · rcases List.mem_cons.1 hs with rfl | hs
        · rw [eq_of_decodeValue hvalue]
          exact List.mem_cons_self
        · exact List.mem_cons_of_mem _ ((ih hrest).1 s hs)
      · cases hs
        rw [eq_of_decodeValue hvalue]
        rfl

theorem mem_of_mem_pieces (h : s ∈ pieces line) : ∀ c ∈ s.toList, c ≠ '|' ∧ c ∈ line.toList := by
  obtain ⟨piece, hpiece, rfl⟩ := List.mem_map.1 h
  intro c hc
  rw [String.toList_ofList] at hc
  obtain ⟨hbar, hmem⟩ := Text.mem_splitOnP hpiece hc
  exact ⟨by simpa using hbar, hmem⟩

/-- A line starts as its first piece does. -/
theorem isLockLine_of_pieces (h : (pieces line).head? = some s) (hs : isLockLine s = true) :
    isLockLine line = true := by
  rw [isLockLine_iff] at hs ⊢
  obtain ⟨first, rest, hsplit⟩ := List.exists_cons_of_ne_nil (List.splitOn_ne_nil '|' line.toList)
  rw [pieces, hsplit] at h
  cases h
  rw [String.toList_ofList] at hs
  have hne : first ≠ [] := by
    rintro rfl
    cases hs
  have hline : List.intercalate ['|'] (line.toList.splitOn '|') = line.toList := List.intercalate_splitOn '|'
  rw [← hline, hsplit, Text.head?_intercalate hne, hs]

theorem checkRow_of_decodeRow {name : String} {schema : Schema}
    (h : decodeRow name schema line = .ok row) (hline : Lined line) (hlock : isLockLine line = false) :
    checkRow row = .ok () := by
  simp only [decodeRow] at h
  split at h
  · cases h
  obtain ⟨htexts, hfirst⟩ := texts_of_decodeValues h
  refine not_not.1 (checkRow_ne_ok.not.2 ?_)
  rintro (⟨s, hs, hsep⟩ | ⟨s, hs, hamp⟩)
  · have hchars := mem_of_mem_pieces (htexts s hs)
    rcases hsep with hc | hc | hc
    · exact (hchars _ hc).1 rfl
    · exact (hline _ (hchars _ hc).2).1 rfl
    · exact (hline _ (hchars _ hc).2).2 rfl
  · rw [isLockLine_of_pieces (hfirst s hs) (isLockLine_iff.2 hamp)] at hlock
    cases hlock

theorem mem_records {ls records : List String} {ticket : Option Ticket}
    (h : splitLock ls = (ticket, line :: records)) {record : String}
    (hr : record ∈ records.filter fun line => !isLockLine line) :
    record ∈ contents ls ∧ isLockLine record = false := by
  obtain ⟨hmem, hlock⟩ := List.mem_filter.1 hr
  refine ⟨List.mem_filter.2 ⟨?_, hlock⟩, by simpa using hlock⟩
  unfold splitLock at h
  split at h
  · cases ls with
    | nil => cases h
    | cons first rest => cases h; exact List.mem_cons_of_mem _ (List.mem_cons_of_mem _ hmem)
  · cases h
    exact List.mem_cons_of_mem _ hmem

/-- A table that is read from unbroken lines can be written again. -/
theorem checkRow_of_decodeTable {id : TableId} {ls : List String} {ticket : Option Ticket}
    {table : Table} (h : decodeTable id ls = .ok (ticket, table)) (hls : Unbroken ls) :
    ∀ row ∈ table.rows, checkRow row = .ok () := by
  obtain ⟨line, records, schema, rows, hsplit, -, hrows, rfl⟩ := decodeTable_eq_ok.1 h
  have hrecords (record : String) (hr : record ∈ records.filter fun line => !isLockLine line) :=
    mem_records hsplit hr
  generalize records.filter (fun line => !isLockLine line) = records at hrows hrecords
  dsimp only
  clear h hsplit
  induction records generalizing rows with
  | nil => cases hrows; simp
  | cons record records ih =>
    obtain ⟨row, hrow, hrows⟩ := Except.bind_eq_ok.1 hrows
    obtain ⟨rows', hrest, hrows⟩ := Except.bind_eq_ok.1 hrows
    cases hrows
    obtain ⟨hmem, hlock⟩ := hrecords record List.mem_cons_self
    exact List.forall_mem_cons.2 ⟨checkRow_of_decodeRow hrow (hls record hmem) hlock,
      ih rows' hrest fun r hr => hrecords r (List.mem_cons_of_mem _ hr)⟩

end Read

end TextTables
