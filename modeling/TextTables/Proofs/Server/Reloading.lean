import TextTables.Proofs.Server.Spelling
import TextTables.Proofs.Session.Copies
/-!
# Staged copies and the files that they become

Written and loaded again, a staged copy is the table that it was, and conditions hold of the same
records, exactly if the session has not added a field to the copy since it was staged:
`staged_reloaded_iff`. A field that is added to the copy is not read through the name of the table.
-/

namespace TextTables.Server

variable {files : Catalog} {server : Server Memory} {events : List Event} {event : Event} {m : Memory}
  {n : String} {id : TableId} {table : Table} {writable : Prop}

/-- The copy of a table that a session has staged. -/
def staged? (server : Server Memory) (n : String) (id : TableId) : Option Table :=
  (server.transaction? n).bind (·.staged? id)

variable (files) in
/-- An event with which a session adds a field to its staged copy of a table. -/
def Widens (n : String) (id : TableId) (server : Server Memory) (event : Event) : Prop :=
  event.session = n ∧ ∃ name field copy copy', event.plan? = some (.alterTable name field) ∧
    server.staged? n id = some copy ∧ copy.addField field = .ok copy' ∧
    (step files server event).staged? n id = some copy'

variable (files) in
/-- A session has added a field to its staged copy of a table, and has had one staged ever since. -/
def Widened (server : Server Memory) (events : List Event) (n : String) (id : TableId) : Prop :=
  Since files server events (Widens files n id) fun server => (server.staged? n id).isSome = true

theorem staged?_eq_some : server.staged? n id = some table ↔
    ∃ t, server.transaction? n = some t ∧ t.staged? id = some table := Option.bind_eq_some_iff

theorem opened_leave {c : Connection Memory} : (server.leave n c).opened files n = c := by
  have hsession : (server.leave n c).session? n = some c.toSession := by
    rw [leave, session?_put, if_pos rfl]
  rw [opened, hsession]
  rfl

theorem staged?_opened : (server.opened files n).staged? id = server.staged? n id := by
  rw [Connection.staged?, opened_transaction, staged?]

theorem staged?_leave {other : String} {c : Connection Memory} :
    (server.leave n c).staged? other id = if other = n then c.staged? id else server.staged? other id := by
  rw [staged?, transaction?_leave]
  split <;> rfl

/-- A statement that leaves the transaction of its session as it was leaves every staged copy so. -/
theorem staged?_leave_of_transaction {other : String} {c : Connection Memory}
    (h : c.transaction = (server.opened files n).transaction) :
    (server.leave n c).staged? other id = server.staged? other id := by
  rw [staged?_leave]
  split
  · next hother => rw [hother, Connection.staged?, h, ← Connection.staged?, staged?_opened]
  · rfl

/-! ## Copies stay copies -/

/-- A server whose staged tables are copies, over a store without line breaks if `writable` says so. -/
structure Copies (writable : Prop) (server : Server Memory) : Prop where
  copies : ∀ n t, server.transaction? n = some t → ∀ table ∈ t.staged, table.Copy writable
  store : writable → server.store.Unbroken

theorem copies_start : Copies m.Unbroken (start m) := ⟨nofun, id⟩

theorem Copies.step (h : server.Copies writable) (event : Event) :
    (step files server event).Copies writable := by
  have hstep := step_stepped files server event
  generalize Server.step files server event = server' at hstep
  have hopened (name : String) (hw : writable) : (server.opened files name).store.Unbroken := by
    intro p ls hl
    rw [lines?_opened] at hl
    exact h.store hw p ls hl
  have htransaction (name : String) (t : Transaction)
      (ht : (server.opened files name).transaction = some t) : ∀ table ∈ t.staged, table.Copy writable :=
    h.copies name t (opened_transaction.symm.trans ht)
  cases hstep with
  | @planned name text ticket plan c hplan he =>
    have hproper := Plan.proper_of_ofString hplan
    refine ⟨forall_transaction?_leave h.copies fun t ht table hm => ?_, fun hw => ?_⟩
    · obtain ⟨t', ht', -, hfrom⟩ := he.stagedFrom ht hm
      refine hfrom.copy hproper (fun _ field heq => ?_) (hopened name) ht' (htransaction name t' ht')
      exact Plan.source_of_ofString (heq ▸ hplan)
    · exact he.unbroken hproper (fun t ht table hm => (htransaction name t ht table hm).schema) (hopened name hw)
  | @unread name => exact ⟨forall_transaction?_leave h.copies (htransaction name), hopened name⟩
  | closed =>
    exact ⟨forall_transaction?_remove h.copies,
      fun hw => (h.store hw).released (Transaction.abort_released files _ _)⟩
  | closedIdle => exact ⟨forall_transaction?_remove h.copies, h.store⟩

theorem Copies.run (h : server.Copies writable) (events : List Event) :
    (run files server events).Copies writable :=
  run_inv (fun _ event h => h.step event) h events

/-! ## Fields that are added to copies -/

/-- The fields of a copy after an event are those of the copy before, or one of them was added just now,
or the table was loaded. -/
theorem schema_step (hordered : server.Ordered)
    (h : (step files server event).staged? n id = some table) :
    (∃ copy, server.staged? n id = some copy ∧ copy.schema = table.schema) ∨
      (Widens files n id server event ∧ ∃ field ∈ table.schema.fields, field.source = none) ∨
      (server.staged? n id = none ∧ ∀ field ∈ table.schema.fields, field.source ≠ none) := by
  obtain ⟨t', ht', hstaged⟩ := staged?_eq_some.1 h
  obtain ⟨hm, rfl⟩ := Transaction.staged?_eq_some hstaged
  rcases session_step files server event n with ⟨text, ticket, plan, c, rfl, hplan, he, hstep⟩ | ⟨hsame, -⟩ | ⟨hnone, -⟩
  · rw [hstep, transaction?_leave_self] at ht'
    obtain ⟨t, ht, -, hfrom⟩ := he.stagedFrom ht' hm
    have ht₀ : server.transaction? n = some t := opened_transaction.symm.trans ht
    -- What is staged before under the identity of the table is the copy that the event starts from.
    have hcopy {copy : Table} (hcopy : copy ∈ t.staged) (hid : copy.id = table.id) :
        server.staged? n table.id = some copy :=
      staged?_eq_some.2 ⟨t, ht₀, hid ▸ (hordered n t ht₀).staged?_eq hcopy⟩
    rcases hfrom.schema ht with ⟨copy, hmem, hid, hschema⟩ |
      ⟨target, field, rfl, copy, hmem, hid, hadd⟩ | ⟨hnone, hsources⟩
    · exact .inl ⟨copy, hcopy hmem hid, hschema⟩
    · refine .inr (.inl ⟨⟨rfl, target, field, copy, table, Event.plan?_eq_some.2 hplan, hcopy hmem hid, hadd, h⟩,
        field, ?_, Plan.source_of_ofString hplan⟩)
      obtain ⟨schema, hschema, rfl⟩ := Table.addField_eq_ok.1 hadd
      obtain ⟨-, rfl⟩ := Schema.add_eq_ok.1 hschema
      exact List.mem_append_right _ (List.mem_singleton_self field)
    · exact .inr (.inr ⟨by rw [staged?, ht₀]; exact hnone, hsources⟩)
  · exact .inl ⟨table, staged?_eq_some.2 ⟨t', hsame.symm.trans ht', hstaged⟩, rfl⟩
  · cases hnone.symm.trans ht'

/-- An event that adds a field to a copy leaves the copy with another schema. -/
theorem Widens.schema_ne (hwidens : Widens files n id server event) {copy : Table}
    (hcopy : server.staged? n id = some copy) (h : (step files server event).staged? n id = some table) :
    copy.schema ≠ table.schema := by
  obtain ⟨-, name, field, copy', table', -, hcopy', hadd, htable'⟩ := hwidens
  obtain rfl := Option.some.inj (hcopy.symm.trans hcopy')
  obtain rfl := Option.some.inj (h.symm.trans htable')
  obtain ⟨schema, hschema, rfl⟩ := Table.addField_eq_ok.1 hadd
  obtain ⟨-, rfl⟩ := Schema.add_eq_ok.1 hschema
  intro heq
  simpa using congrArg (·.fields.length) heq

/-- A copy has a field that is read through no name exactly if one was added to it. -/
theorem unsourced_iff_widened (h : (run files (start m) events).staged? n id = some table) :
    (∃ field ∈ table.schema.fields, field.source = none) ↔ Widened files (start m) events n id := by
  induction events using List.reverseRecOn generalizing table with
  | nil => cases h
  | append_singleton events event ih =>
    rw [run_concat] at h
    have hkept : ((step files (run files (start m) events) event).staged? n id).isSome = true := by
      rw [h]
      rfl
    rw [Widened, Since.concat_iff, and_iff_left hkept]
    rcases schema_step (ordered_start.run events) h with ⟨copy, hcopy, hschema⟩ | ⟨hwidens, hfield⟩ |
      ⟨hnone, hsources⟩
    · have hnot : ¬ Widens files n id (run files (start m) events) event :=
        fun hwidens => hwidens.schema_ne hcopy h hschema
      rw [or_iff_left hnot, ← hschema]
      exact ih hcopy
    · exact iff_of_true hfield (.inr hwidens)
    · -- A table that was loaded just now was not staged, so no field can have been added to a copy.
      refine iff_of_false (fun ⟨field, hfield, hsource⟩ => hsources field hfield hsource) ?_
      rintro (hsince | ⟨-, _, _, copy, _, -, hcopy, -⟩)
      · have hsome := hsince.now
        rw [hnone] at hsome
        cases hsome
      · rw [hnone] at hcopy
        cases hcopy

/-- In every state that sessions reach over a store in memory, a staged copy can be written, unless a line
of the store had a line break at first, and what it is written to decodes to the copy with its fields read
through the name of the table. That is the copy itself, and conditions hold of the same records on both,
exactly if the session has not added a field to the copy since it was staged; conditions without qualifiers
always do. -/
theorem staged_reloaded_iff (files : Catalog) (m : Memory) (events : List Event) (n : String)
    (t : Transaction) (ht : (run files (start m) events).transaction? n = some t) (table : Table)
    (hm : table ∈ t.staged) :
    ((∃ e, encodeTable table = .error e) → ¬ m.Unbroken) ∧
    (∀ lines, encodeTable table = .ok lines → decodeTable table.id lines = .ok (none, table.reloaded)) ∧
    (table.reloaded = table ↔ ¬ Widened files (start m) events n table.id) ∧
    ((∀ condition row, accepts condition [(table.schema, row)] =
        accepts condition [(table.reloaded.schema, row)]) ↔
      ¬ Widened files (start m) events n table.id) ∧
    ∀ condition : Option Expression, (∀ e ∈ condition, e.Unqualified) → ∀ row,
      accepts condition [(table.reloaded.schema, row)] = accepts condition [(table.schema, row)] := by
  have hcopy : table.Copy m.Unbroken := (copies_start.run events).copies n t ht table hm
  have hstaged : (run files (start m) events).staged? n table.id = some table :=
    staged?_eq_some.2 ⟨t, ht, (ordered_start.run events n t ht).staged?_eq hm⟩
  have hreloaded : table.reloaded = table ↔ ¬ Widened files (start m) events n table.id := by
    rw [hcopy.reloaded_eq_iff, ← unsourced_iff_widened hstaged]
    simp only [not_exists, not_and, ne_eq]
  refine ⟨?_, fun lines he => hcopy.decodeTable_eq he, hreloaded, ?_, ?_⟩
  · rintro ⟨e, he⟩ hunbroken
    obtain ⟨lines, hlines⟩ := hcopy.exists_encodeTable hunbroken
    rw [hlines] at he
    cases he
  · rw [hcopy.accepts_reloaded_iff, hreloaded]
  · intro condition hcondition row
    exact accepts_under hcondition

theorem unbroken_empty : Memory.empty.Unbroken := nofun

set_option maxRecDepth 100000 in
/-- The copy of an updated table is the table that its file is going to hold. -/
theorem staged_reloaded_updatedOnce :
    let files : Catalog := ⟨⟨"Databases"⟩, "tbl"⟩
    ∃ t table lines, (run files (start Memory.empty) updatedOnce).transaction? "a" = some t ∧ table ∈ t.staged ∧
      encodeTable table = .ok lines ∧ decodeTable table.id lines = .ok (none, table) := by
  intro files
  have hids : (((run files (start Memory.empty) updatedOnce).transaction? "a").map fun t => t.staged.map (·.id)) =
      some [⟨"d", "t"⟩] := by
    decide +kernel
  have hplans : updatedOnce.all (fun event => event.plan?.all (!·.alters)) = true := by decide +kernel
  obtain ⟨t, table, ht, hid, hstaged⟩ := exists_staged hids
  have hm : table ∈ t.staged := by simp [hstaged]
  obtain ⟨hencode, hdecode, hreloaded, -⟩ := staged_reloaded_iff files Memory.empty updatedOnce "a" t ht table hm
  have hsame : table.reloaded = table := by
    refine hreloaded.2 ?_
    rintro ⟨pre, event, post, heq, ⟨-, name, field, copy, copy', hplan, -⟩, -⟩
    have hevent := List.all_eq_true.1 hplans event (heq ▸ List.mem_append_right _ List.mem_cons_self)
    rw [hplan] at hevent
    cases hevent
  cases he : encodeTable table with
  | error e => exact absurd unbroken_empty (hencode ⟨e, he⟩)
  | ok lines => exact ⟨t, table, lines, ht, hm, he, by rw [hdecode lines he, hsame]⟩

/-- The session adds a field to the table as well. -/
def alteredInside : List Event := updatedOnce ++ [.statement "a" "ALTER TABLE t ADD m int" ⟨"7"⟩]

set_option maxRecDepth 100000 in
/-- The new field is found through the name of the table in what the copy is written to, but not in the
copy, and an update with that condition fails. -/
theorem altered_copy_unlike_file :
    let files : Catalog := ⟨⟨"Databases"⟩, "tbl"⟩
    let server := run files (start Memory.empty) alteredInside
    (∃ t table lines reloaded, server.transaction? "a" = some t ∧ table ∈ t.staged ∧
      encodeTable table = .ok lines ∧ decodeTable table.id lines = .ok (none, reloaded) ∧ reloaded ≠ table ∧
      table.schema.find? ⟨some "t", "m"⟩ = .ok none ∧
      reloaded.schema.find? ⟨some "t", "m"⟩ = .ok (some 1)) ∧
    (match execute files "a" "UPDATE t SET n = 3 WHERE t.m = 0" ⟨"8"⟩ server with
      | .error (.unknownField (.missing ref)) _ => some ref
      | _ => none) = some ⟨some "t", "m"⟩ := by
  intro files server
  have hschema : ((server.transaction? "a").map fun t => t.staged.map fun table => (table.id, table.schema)) =
      some [(⟨"d", "t"⟩, ⟨[⟨"n", "int", .integer, some "t"⟩, ⟨"m", "int", .integer, none⟩]⟩)] := by
    decide +kernel
  refine ⟨?_, by decide +kernel⟩
  obtain ⟨t, ht, hstaged⟩ := Option.map_eq_some_iff.1 hschema
  obtain ⟨table, htable, heq⟩ := List.map_eq_singleton_iff.1 hstaged
  obtain ⟨hid, hschema⟩ := Prod.mk.inj heq
  have hm : table ∈ t.staged := by simp [htable]
  have hcopy := (copies_start.run alteredInside).copies "a" t ht table hm
  obtain ⟨lines, hlines⟩ := hcopy.exists_encodeTable unbroken_empty
  refine ⟨t, table, lines, _, ht, hm, hlines, hcopy.decodeTable_eq hlines, fun hsame => ?_, ?_, ?_⟩
  · have hfields := congrArg (·.schema.fields.map (·.source)) hsame
    simp [Table.reloaded, Schema.qualify, hschema] at hfields
  · rw [hschema]
    rfl
  · rw [Table.reloaded, hschema, hid]
    rfl

end TextTables.Server
