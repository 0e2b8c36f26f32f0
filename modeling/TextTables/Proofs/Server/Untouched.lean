import TextTables.Proofs.Server.Holding
import TextTables.Proofs.Session.Content
/-!
# No update is lost

If all names are in lower case and no database is dropped, no file of a staged table is removed, so
every transaction holds the files of its staged tables and no other session changes them. What a
commit overwrites is therefore what its own transaction has read or written itself:
`staged_file_untouched`.
-/

namespace TextTables

namespace Event

/-- The database or table that an event changes or uses. -/
def target? (event : Event) : Option String := event.plan?.bind Plan.target?

/-- Whether an event drops a database. -/
def dropsDatabase (event : Event) : Bool :=
  match event.plan? with
  | some (.dropDatabase _) => true
  | _ => false

variable {event : Event} {plan : Plan} {name : String}

theorem ne_dropDatabase (h : event.dropsDatabase = false) (hplan : event.plan? = some plan)
    (name : String) : plan ≠ .dropDatabase name := by
  rintro rfl
  simp [dropsDatabase, hplan] at h

theorem isWord_target (h : event.target? = some name) : isWord name.toList = true := by
  obtain ⟨plan, hplan, hname⟩ := Option.bind_eq_some_iff.1 h
  cases event with
  | close => cases hplan
  | statement session text ticket =>
    exact Plan.isWord_name (plan?_eq_some.1 hplan) (Plan.mem_names_of_target? hname)

/-- Names are words, so those in lower case are plain. -/
theorem plainName_target (hlower : ∀ name ∈ event.target?, Text.lowerCase name = name)
    (hplan : event.plan? = some plan) (hname : plan.target? = some name) : PlainName name := by
  have htarget : event.target? = some name := by simp [target?, hplan, hname]
  exact ⟨isWord_target htarget, hlower name htarget⟩

end Event

namespace Server

variable {files : Catalog} {server : Server Memory} {m : Memory} {event : Event}
  {events : List Event} {n : String} {id : TableId}

/-! ## Names stay plain -/

/-- The databases in use and the staged tables have plain names. -/
structure Plain (server : Server Memory) : Prop where
  database : ∀ n name, server.database? n = some name → PlainName name
  transaction : ∀ n t, server.transaction? n = some t → t.Plain

theorem Plain.opened (h : server.Plain) (name : String) : (server.opened files name).Plain := by
  refine ⟨fun database hd => ?_, fun t ht => ?_⟩
  · rw [opened_database] at hd
    exact h.database name database hd
  · rw [opened_transaction] at ht
    exact h.transaction name t ht

theorem Plain.leave (h : server.Plain) (name : String) {c : Connection Memory} (hc : c.Plain) :
    (server.leave name c).Plain := by
  refine ⟨fun n database hd => ?_, forall_transaction?_leave h.transaction hc.transaction⟩
  rw [database?_leave] at hd
  split at hd
  · exact hc.database database hd
  · exact h.database n database hd

theorem Plain.remove (h : server.Plain) (name : String) : (server.remove name).Plain := by
  refine ⟨fun n database hd => ?_, forall_transaction?_remove h.transaction⟩
  rw [database?_remove] at hd
  split at hd
  · cases hd
  · exact h.database n database hd

theorem Plain.step (h : server.Plain) (hlower : ∀ name ∈ event.target?, Text.lowerCase name = name) :
    (step files server event).Plain := by
  have hstep := step_stepped files server event
  generalize Server.step files server event = server' at hstep
  cases hstep with
  | @planned name text ticket plan c hplan he =>
    exact h.leave name (he.plain (h.opened name) fun _ =>
      Event.plainName_target hlower (Event.plan?_eq_some.2 hplan))
  | unread => exact h.leave _ (h.opened _)
  | @closed name => exact ⟨(h.remove name).database, (h.remove name).transaction⟩
  | closedIdle => exact h.remove _

theorem plain_start : (start m).Plain := ⟨nofun, nofun⟩

/-! ## Files stay held -/

/-- No file of a staged table is removed. -/
theorem Plain.not_unlinks (h : server.Plain) (hid : id.Plain)
    (hlower : ∀ name ∈ event.target?, Text.lowerCase name = name) (hkeep : event.dropsDatabase = false) :
    ¬ Unlinks files server n id event := by
  intro hunlinks
  cases hunlinks with
  | dropDatabase hplan => exact Event.ne_dropDatabase hkeep hplan _ rfl
  | @dropTable name other _ hplan hother hne hp =>
    have hopened : (server.opened files n).Plain := h.opened n
    have hplain := hopened.tableId (Event.plainName_target hlower hplan rfl) hother
    exact hne (Catalog.place_injective hplain.database hplain.name hid.database hid.name hp)

theorem Held.step (hheld : Held files server) (hplain : server.Plain) (hdistinct : server.Distinct)
    (hlower : ∀ name ∈ event.target?, Text.lowerCase name = name) (hkeep : event.dropsDatabase = false) :
    Held files (step files server event) := by
  intro n t ht table hm
  obtain ⟨t', ht', hticket, ⟨staged, hstaged, hid⟩ | hnew⟩ := staged_step ht hm
  · have hbefore := hheld n t' ht' staged hstaged
    rw [hticket, hid] at hbefore
    rcases held_step hheld.writesHeld hdistinct ht hm hbefore with h | ⟨hunlinks, -⟩
    · exact h
    · have hplainId := (hplain.step hlower).transaction n t ht table hm
      exact absurd hunlinks (hplain.not_unlinks hplainId hlower hkeep)
  · exact hnew

/-- In a run in lower case that drops no database, every transaction holds the files of its staged
tables. -/
theorem plain_held_run (hnodup : (tickets files (start m) events).Nodup)
    (hlower : ∀ event ∈ events, ∀ name ∈ event.target?, Text.lowerCase name = name)
    (hkeep : ∀ event ∈ events, event.dropsDatabase = false) :
    (run files (start m) events).Plain ∧ Held files (run files (start m) events) := by
  induction events using List.reverseRecOn with
  | nil => exact ⟨plain_start, held_start⟩
  | append_singleton events event ih =>
    have hnodup := nodup_tickets_of_append hnodup
    obtain ⟨hplain, hheld⟩ := ih hnodup
      (fun event hevent => hlower event (List.mem_append_left _ hevent))
      fun event hevent => hkeep event (List.mem_append_left _ hevent)
    have hlast : event ∈ events ++ [event] := by simp
    rw [run_concat]
    exact ⟨hplain.step (hlower event hlast),
      hheld.step hplain (distinct_run hnodup) (hlower event hlast) (hkeep event hlast)⟩

/-! ## What commits overwrite -/

/-- After an event, a staged table was staged before and its file has not changed, or the event is
of the same session and has seen the content of the file. -/
theorem content_step (hplain : server.Plain) (hheld : Held files server)
    (hdistinct : server.Distinct) (hlower : ∀ name ∈ event.target?, Text.lowerCase name = name)
    (hkeep : event.dropsDatabase = false) {t' : Transaction}
    (ht' : (step files server event).transaction? n = some t') {table : Table}
    (hm : table ∈ t'.staged) :
    ∃ t, server.transaction? n = some t ∧ t.ticket = t'.ticket ∧
      (((∃ staged ∈ t.staged, staged.id = table.id) ∧
        files.lines? table.id (step files server event).store = files.lines? table.id server.store) ∨
      ∃ plan content, event.session = n ∧ event.plan? = some plan ∧
        (server.opened files n).Sees files table.id content plan ∧
        files.lines? table.id (step files server event).store =
          some (t'.ticket.lockLine :: content)) := by
  rcases session_step files server event n with
    ⟨text, ticket, plan, c, rfl, hplan, he, hstep⟩ | ⟨hsame, -, hown⟩ | ⟨hnone, -⟩
  · rw [hstep] at ht' ⊢
    rw [transaction?_leave_self] at ht'
    replace hplan : (Event.statement n text ticket).plan? = some plan := Event.plan?_eq_some.2 hplan
    have hheld' (t : Transaction) (ht : (server.opened files n).transaction = some t) :
        t.Held files (server.opened files n).store := by
      rw [opened_transaction] at ht
      rw [opened_store ht]
      exact hheld n t ht
    obtain ⟨t, ht, hticket, ⟨hstaged, hlines⟩ | ⟨content, hsees, hlines⟩⟩ :=
      he.content (hplain.opened n) (fun _ => Event.plainName_target hlower hplan)
        (Event.ne_dropDatabase hkeep hplan) hheld' ht' hm
    · exact ⟨t, opened_transaction.symm.trans ht, hticket,
        .inl ⟨hstaged, hlines.trans lines?_opened⟩⟩
    · exact ⟨t, opened_transaction.symm.trans ht, hticket,
        .inr ⟨plan, content, rfl, hplan, hsees, hlines⟩⟩
  · have ht : server.transaction? n = some t' := hsame.symm.trans ht'
    refine ⟨t', ht, rfl, .inl ⟨⟨table, hm, rfl⟩, ?_⟩⟩
    by_cases hn : event.session = n
    · exact hown hn _
    · rcases foreign_step hheld.writesHeld hdistinct ht (hheld n t' ht table hm) hn with
        h | ⟨⟨name, hplan⟩, -⟩
      · exact h
      · exact absurd rfl (Event.ne_dropDatabase hkeep hplan name)
  · cases hnone.symm.trans ht'

/-- In the transaction with a ticket, an event of a session has seen the file of a table with some
content, and ever since it has been the transaction's lock line and that content. -/
def SeenSince (files : Catalog) (server : Server Memory) (events : List Event) (n : String)
    (ticket : Ticket) (id : TableId) (content : List String) : Prop :=
  Since files server events
    (fun server event => ∃ t plan, server.transaction? n = some t ∧ t.ticket = ticket ∧
      event.session = n ∧ event.plan? = some plan ∧
      (server.opened files n).Sees files id content plan)
    fun server => files.lines? id server.store = some (ticket.lockLine :: content)

theorem seenSince_run (hnodup : (tickets files (start m) events).Nodup)
    (hlower : ∀ event ∈ events, ∀ name ∈ event.target?, Text.lowerCase name = name)
    (hkeep : ∀ event ∈ events, event.dropsDatabase = false) {t : Transaction}
    (ht : (run files (start m) events).transaction? n = some t) {table : Table}
    (hm : table ∈ t.staged) :
    ∃ content, SeenSince files (start m) events n t.ticket table.id content := by
  induction events using List.reverseRecOn generalizing t table with
  | nil => cases ht
  | append_singleton events event ih =>
    have hnodup := nodup_tickets_of_append hnodup
    have hlower' : ∀ event ∈ events, ∀ name ∈ event.target?, Text.lowerCase name = name :=
      fun event hevent => hlower event (List.mem_append_left _ hevent)
    have hkeep' : ∀ event ∈ events, event.dropsDatabase = false :=
      fun event hevent => hkeep event (List.mem_append_left _ hevent)
    obtain ⟨hplain, hheld⟩ := plain_held_run hnodup hlower' hkeep'
    have hlast : event ∈ events ++ [event] := by simp
    rw [run_concat] at ht
    obtain ⟨t', ht', hticket, ⟨⟨staged, hstaged, hid⟩, hlines⟩ |
      ⟨plan, content, hn, hplan, hsees, hlines⟩⟩ :=
      content_step hplain hheld (distinct_run hnodup) (hlower event hlast) (hkeep event hlast) ht hm
    · obtain ⟨content, hseen⟩ := ih hnodup hlower' hkeep' ht' hstaged
      rw [hticket, hid] at hseen
      exact ⟨content, Since.concat hseen (hlines.trans hseen.now)⟩
    · exact ⟨content, .of_step ⟨t', plan, ht', hticket, hn, hplan, hsees⟩ hlines⟩

/-- In a run with distinct tickets and names in lower case that drops no database, the file of every
staged table begins with the lock line of its transaction, and no other session changes it. Its
content, which the commit will overwrite, is the one that the transaction has read or written
itself. -/
theorem staged_file_untouched (files : Catalog) (m : Memory) (events : List Event)
    (hnodup : (tickets files (start m) events).Nodup)
    (hlower : ∀ event ∈ events, ∀ name ∈ event.target?, Text.lowerCase name = name)
    (hkeep : ∀ event ∈ events, event.dropsDatabase = false) {n : String} {t : Transaction}
    (ht : (run files (start m) events).transaction? n = some t) {table : Table}
    (hm : table ∈ t.staged) :
    let server := run files (start m) events
    ∃ content, files.lines? table.id server.store = some (t.ticket.lockLine :: content) ∧
      (∀ event : Event, event.session ≠ n → event.dropsDatabase = false →
        files.lines? table.id (step files server event).store =
          some (t.ticket.lockLine :: content)) ∧
      SeenSince files (start m) events n t.ticket table.id content := by
  intro server
  obtain ⟨content, hseen⟩ := seenSince_run hnodup hlower hkeep ht hm
  refine ⟨content, hseen.now, fun event hn hdrop => ?_, hseen⟩
  obtain ⟨-, hheld⟩ := plain_held_run hnodup hlower hkeep
  rcases foreign_step hheld.writesHeld (distinct_run hnodup) ht (hheld n t ht table hm) hn with
    h | ⟨⟨name, hplan⟩, -⟩
  · exact h.trans hseen.now
  · exact absurd rfl (Event.ne_dropDatabase hdrop hplan name)

/-- Two sessions update the same table, and the second is refused. The first adds a field then. -/
def contendedUpdates : List Event :=
  [.statement "a" "CREATE DATABASE d" ⟨"1"⟩, .statement "a" "USE d" ⟨"1"⟩,
   .statement "a" "CREATE TABLE t (n int)" ⟨"1"⟩, .statement "a" "INSERT INTO t VALUES (1)" ⟨"1"⟩,
   .statement "a" "BEGIN" ⟨"1"⟩, .statement "a" "UPDATE t SET n = 2" ⟨"1"⟩,
   .statement "b" "USE d" ⟨"2"⟩, .statement "b" "BEGIN" ⟨"2"⟩,
   .statement "b" "UPDATE t SET n = 3" ⟨"2"⟩, .statement "b" "DROP TABLE t" ⟨"2"⟩,
   .close "b", .statement "a" "ALTER TABLE t ADD m int" ⟨"1"⟩]

set_option maxRecDepth 100000 in
theorem contendedUpdates_untouched :
    let files : Catalog := ⟨⟨"Databases"⟩, "tbl"⟩
    let server := run files (start Memory.empty) contendedUpdates
    (tickets files (start Memory.empty) contendedUpdates).Nodup ∧
    (∀ event ∈ contendedUpdates, ∀ name ∈ event.target?, Text.lowerCase name = name) ∧
    (∀ event ∈ contendedUpdates, event.dropsDatabase = false) ∧
    ∃ t table, server.transaction? "a" = some t ∧ table ∈ t.staged ∧
      ∃ content, files.lines? table.id server.store = some (t.ticket.lockLine :: content) ∧
        (∀ event : Event, event.session ≠ "a" → event.dropsDatabase = false →
          files.lines? table.id (step files server event).store =
            some (t.ticket.lockLine :: content)) ∧
        SeenSince files (start Memory.empty) contendedUpdates "a" t.ticket table.id content := by
  intro files server
  have hnodup : (tickets files (start Memory.empty) contendedUpdates).Nodup := by decide +kernel
  have hlower : ∀ event ∈ contendedUpdates, ∀ name ∈ event.target?, Text.lowerCase name = name := by
    decide +kernel
  have hkeep : ∀ event ∈ contendedUpdates, event.dropsDatabase = false := by decide +kernel
  have hstaged : (server.transaction? "a").any (fun t => !t.staged.isEmpty) = true := by
    decide +kernel
  cases ht : server.transaction? "a" with
  | none =>
    rw [ht] at hstaged
    cases hstaged
  | some t =>
    rw [ht] at hstaged
    obtain ⟨table, hm⟩ := List.exists_mem_of_ne_nil t.staged (by simpa using hstaged)
    exact ⟨hnodup, hlower, hkeep, t, table, rfl, hm,
      staged_file_untouched files Memory.empty contendedUpdates hnodup hlower hkeep ht hm⟩

end Server

end TextTables
