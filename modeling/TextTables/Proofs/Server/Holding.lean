import TextTables.Proofs.Server.Tickets
import TextTables.Proofs.Session.Holding
/-!
# What commits overwrite

Committing does not look at the files again that it overwrites. A table is staged with its file
held, and `held_step` says what keeps it so: every event does, unless it removes the file, which only
`DROP DATABASE` and the holder's own `DROP TABLE` of another spelling do. `commitsHeld_iff` says it of
runs: a commit overwrites what its transaction does not hold exactly if it writes a file that was
removed in this way (`Lost`).
-/

namespace TextTables.Server

variable (files : Catalog)

/-- Every transaction holds the files of its staged tables. -/
def Held (server : Server Memory) : Prop :=
  ∀ n t, server.transaction? n = some t → t.Held files server.store

/-- If an event is a commit, its transaction holds the files that are going to be written. -/
def WritesHeld (server : Server Memory) (event : Event) : Prop :=
  event.plan? = some .commit → ∀ t, server.transaction? event.session = some t →
    t.WritesHeld files server.store

/-- If an event is a commit, the files that it writes, and all others that it changes, begin with the
lock line of its transaction. -/
def CommitHeld (server : Server Memory) (event : Event) : Prop :=
  event.plan? = some .commit → ∀ t, server.transaction? event.session = some t → ∀ p,
    (∃ entry ∈ Transaction.written files server.store t, files.place entry.1 = p) ∨
      (step files server event).store.lines? p ≠ server.store.lines? p →
    Holds t.ticket server.store p

/-- An event that removes the file of a table which a session has staged. -/
inductive Unlinks (server : Server Memory) (n : String) (id : TableId) (event : Event) : Prop
  | dropDatabase {name : String} : event.plan? = some (.dropDatabase name) →
      Unlinks server n id event
  /-- the session itself drops the table under another spelling of its name -/
  | dropTable {name : String} {other : TableId} : event.session = n →
      event.plan? = some (.dropTable name) →
      Connection.tableId name (server.opened files n) = .ok other → other ≠ id →
      files.place other = files.place id → Unlinks server n id event

/-- An event of a run has removed the file of a table that the transaction with a ticket held, and
the transaction, which is still active, has not held the file since. -/
def Lost (server : Server Memory) (events : List Event) (n : String) (ticket : Ticket)
    (id : TableId) : Prop :=
  Since files server events
    (fun server event =>
      Holds ticket server.store (files.place id) ∧ Unlinks files server n id event)
    fun server =>
      (∃ t, server.transaction? n = some t ∧ t.ticket = ticket) ∧
        ¬ Holds ticket server.store (files.place id)

variable {files} {server : Server Memory} {event : Event} {events : List Event} {m : Memory}
  {n : String} {t t' : Transaction} {table : Table}

theorem Held.writesHeld (h : Held files server) : WritesHeld files server event :=
  fun _ t ht => (h _ t ht).writesHeld

/-! ## Files that are held stay held -/

/-- What an event of another session does to a held file: nothing, unless it drops the database. -/
theorem foreign_step (hwrites : WritesHeld files server event) (hdistinct : server.Distinct)
    (ht : server.transaction? n = some t) {p : Place} (hp : Holds t.ticket server.store p)
    (hn : event.session ≠ n) :
    (step files server event).store.lines? p = server.store.lines? p ∨
      ((∃ name, event.plan? = some (.dropDatabase name)) ∧
        (step files server event).store.lines? p = none) := by
  have hforeign {n' : String} {t' : Transaction} (hn' : n' ≠ n)
      (ht' : server.transaction? n' = some t') : t'.ticket ≠ t.ticket := fun heq =>
    hn' (hdistinct n' n t' t ht' ht heq)
  have hstep := step_stepped files server event
  generalize step files server event = server' at hstep
  cases hstep with
  | @planned name text ticket plan c hplan he =>
    -- The session of the event is inside another transaction, or inside none.
    have hne : (server.opened files name).ticket? ≠ some t.ticket := by
      intro heq
      obtain ⟨t', ht', htt⟩ := Option.map_eq_some_iff.1 heq
      exact hforeign hn (opened_transaction.symm.trans ht') htt
    have hwrites' (hcommit : plan = .commit) (t' : Transaction)
        (ht' : (server.opened files name).transaction = some t') :
        t'.WritesHeld files (server.opened files name).store := by
      rw [opened_transaction] at ht'
      rw [opened_store ht']
      exact hwrites (Event.plan?_eq_some.2 (hcommit ▸ hplan)) t' ht'
    rcases he.foreign hwrites' (hp.congr lines?_opened) hne with h | ⟨database, rfl, h⟩
    · exact .inl (h.trans lines?_opened)
    · exact .inr ⟨⟨database, Event.plan?_eq_some.2 hplan⟩, h⟩
  | unread => exact .inl lines?_opened
  | @closed name t' ht' =>
    -- Closing takes the lock lines of another transaction off, so none off this file.
    obtain ⟨body, hl⟩ := hp
    have hr := Transaction.abort_released files server.store t'
    refine .inl ((hr.lines?_eq hl ?_).trans hl.symm)
    rw [holder?_lockLine_cons]
    exact fun heq => hforeign hn ht' (Option.some.inj heq).symm
  | closedIdle => exact .inl rfl

/-- A table that is staged after an event was staged before, or its file is held. -/
theorem staged_step (ht' : (step files server event).transaction? n = some t')
    (hm : table ∈ t'.staged) :
    ∃ t, server.transaction? n = some t ∧ t.ticket = t'.ticket ∧
      ((∃ staged ∈ t.staged, staged.id = table.id) ∨
        Holds t'.ticket (step files server event).store (files.place table.id)) := by
  rcases session_step files server event n with ⟨text, ticket, plan, c, -, -, he, hstep⟩ | ⟨hsame, -⟩ | ⟨hnone, -⟩
  · rw [hstep] at ht' ⊢
    rw [transaction?_leave_self] at ht'
    obtain ⟨t, ht, hticket, -⟩ := he.stagedFrom ht' hm
    refine ⟨t, opened_transaction.symm.trans ht, hticket, ?_⟩
    by_cases hstaged : ∃ staged ∈ t.staged, staged.id = table.id
    · exact .inl hstaged
    · refine .inr (he.holds_of_new ht' hm fun t₀ ht₀ staged hm₀ hid => hstaged ⟨staged, ?_, hid⟩)
      rwa [Option.some.inj (ht.symm.trans ht₀)]
  · exact ⟨t', hsame.symm.trans ht', rfl, .inl ⟨table, hm, rfl⟩⟩
  · cases hnone.symm.trans ht'

/-- An event keeps the file of a staged table held, unless it removes the file. -/
theorem held_step (hwrites : WritesHeld files server event) (hdistinct : server.Distinct)
    (ht' : (step files server event).transaction? n = some t') (hm : table ∈ t'.staged)
    (hh : Holds t'.ticket server.store (files.place table.id)) :
    Holds t'.ticket (step files server event).store (files.place table.id) ∨
      (Unlinks files server n table.id event ∧
        files.lines? table.id (step files server event).store = none) := by
  rcases session_step files server event n with
    ⟨text, ticket, plan, c, rfl, hplan, he, hstep⟩ | ⟨hsame, -, hown⟩ | ⟨hnone, -⟩
  · rw [hstep] at ht' ⊢
    rw [transaction?_leave_self] at ht'
    replace hplan : (Event.statement n text ticket).plan? = some plan := Event.plan?_eq_some.2 hplan
    rcases he.held ht' hm (hh.congr lines?_opened) with h | ⟨hremoves, h⟩
    · exact .inl h
    · cases hremoves with
      | dropDatabase => exact .inr ⟨.dropDatabase hplan, h⟩
      | dropTable hid hne hp => exact .inr ⟨.dropTable rfl hplan hid hne hp, h⟩
  · by_cases hn : event.session = n
    · exact .inl (hh.congr (hown hn _))
    · rcases foreign_step hwrites hdistinct (hsame.symm.trans ht') hh hn with h | ⟨⟨name, hplan⟩, h⟩
      · exact .inl (hh.congr h)
      · exact .inr ⟨.dropDatabase hplan, h⟩
  · cases hnone.symm.trans ht'

theorem held_start : Held files (start m) := by
  intro n t ht
  cases ht

/-! ## What commits overwrite -/

/-- As long as commits write only what is held, the file of every staged table is held or lost. -/
theorem held_or_lost (hnodup : (tickets files (start m) events).Nodup)
    (hwrites : ∀ pre event, pre ++ [event] <+: events →
      WritesHeld files (run files (start m) pre) event)
    (ht : (run files (start m) events).transaction? n = some t) (hm : table ∈ t.staged) :
    Holds t.ticket (run files (start m) events).store (files.place table.id) ∨
      Lost files (start m) events n t.ticket table.id := by
  induction events using List.reverseRecOn generalizing t table with
  | nil => cases ht
  | append_singleton events event ih =>
    have hnodup := nodup_tickets_of_append hnodup
    have hwrites' := hwrites events event (List.prefix_refl _)
    have hearlier (pre : List Event) (event' : Event) (hpre : pre ++ [event'] <+: events) :=
      hwrites pre event' (hpre.trans (List.prefix_append events [event]))
    rw [run_concat] at ht ⊢
    by_cases hh : Holds t.ticket (step files (run files (start m) events) event).store
        (files.place table.id)
    · exact .inl hh
    -- The file was held or lost before, so it has been lost just now or is lost still.
    · obtain ⟨t', ht', hticket, ⟨staged, hstaged, hid⟩ | hnew⟩ := staged_step ht hm
      · have hbefore := ih hnodup hearlier ht' hstaged
        rw [hticket, hid] at hbefore
        rcases hbefore with hheld | hlost
        · rcases held_step hwrites' (distinct_run hnodup) ht hm hheld with h | ⟨hunlinks, -⟩
          · exact absurd h hh
          · exact .inr (.of_step ⟨hheld, hunlinks⟩ ⟨⟨t, ht, rfl⟩, hh⟩)
        · exact .inr (hlost.concat ⟨⟨t, ht, rfl⟩, hh⟩)
      · exact absurd hnew hh

theorem WritesHeld.commitHeld (h : WritesHeld files server event) :
    CommitHeld files server event := by
  rintro hplan t ht p (⟨entry, hentry, rfl⟩ | hne)
  · exact h hplan t ht entry hentry
  · by_cases hw : ∃ entry ∈ Transaction.written files server.store t, files.place entry.1 = p
    · obtain ⟨entry, hentry, rfl⟩ := hw
      exact h hplan t ht entry hentry
    · -- Of the other files only those that the transaction holds are released.
      have hput := Transaction.lines?_putAll_of_ne files server.store fun entry hentry hp =>
        hw ⟨entry, hentry, hp⟩
      have hr := Transaction.commit_released files server.store t
      rw [step_commit hplan ht] at hne
      cases hl : server.store.lines? p with
      | none => exact absurd ((hr.lines?_of_none (hput.trans hl)).trans hl.symm) hne
      | some ls =>
        by_cases hh : holder? ls = some t.ticket
        · exact .of_lines? hl hh
        · exact absurd ((hr.lines?_eq (hput.trans hl) hh).trans hl.symm) hne

/-- In a run with distinct tickets, all commits overwrite only what their transactions hold exactly
if none of them writes a lost file: one that `DROP DATABASE` or the holder's own `DROP TABLE` of
another spelling has removed, and that the transaction has not held since. -/
theorem commitsHeld_iff (files : Catalog) (m : Memory) (events : List Event)
    (hnodup : (tickets files (start m) events).Nodup) :
    (∀ pre event, pre ++ [event] <+: events →
      CommitHeld files (run files (start m) pre) event) ↔
    ∀ pre event, pre ++ [event] <+: events → event.plan? = some .commit →
      ∀ t, (run files (start m) pre).transaction? event.session = some t →
        ∀ entry ∈ Transaction.written files (run files (start m) pre).store t,
          ¬ Lost files (start m) pre event.session t.ticket entry.1 := by
  constructor
  · intro h pre event hpre hplan t ht entry hentry hlost
    exact hlost.now.2 (h pre event hpre hplan t ht _ (.inl ⟨entry, hentry, rfl⟩))
  · intro h pre event hpre
    suffices hwrites : WritesHeld files (run files (start m) pre) event from hwrites.commitHeld
    -- By induction on the length, no commit before this one has written a lost file.
    induction hlength : pre.length using Nat.strong_induction_on generalizing pre event with
    | _ length ih =>
      intro hplan t ht entry hentry
      obtain ⟨⟨table, hm, hid, -⟩, -⟩ := Transaction.mem_written files _ hentry
      have hpre' := (List.prefix_append pre [event]).trans hpre
      have hnodup' : (tickets files (start m) pre).Nodup := by
        obtain ⟨post, rfl⟩ := hpre'
        exact nodup_tickets_of_append hnodup
      have hbefore (earlier : List Event) (event' : Event) (hearlier : earlier ++ [event'] <+: pre) :
          WritesHeld files (run files (start m) earlier) event' := by
        have hlt : earlier.length < length := by
          have := hearlier.length_le
          simp only [List.length_append, List.length_singleton] at this
          omega
        exact ih _ hlt earlier event' (hearlier.trans hpre') rfl
      rcases held_or_lost hnodup' hbefore ht hm with hheld | hlost
      · rwa [hid] at hheld
      · rw [hid] at hlost
        exact absurd hlost (h pre event hpre hplan t ht entry hentry)

/-- A session stages a table, and another drops the database and makes it and a table of that name
anew. -/
def recreatedUnderneath : List Event :=
  [.statement "a" "CREATE DATABASE d" ⟨"1"⟩, .statement "a" "USE d" ⟨"1"⟩,
   .statement "a" "CREATE TABLE t (n int)" ⟨"1"⟩, .statement "a" "INSERT INTO t VALUES (1)" ⟨"1"⟩,
   .statement "a" "BEGIN" ⟨"1"⟩, .statement "a" "UPDATE t SET n = 2" ⟨"1"⟩,
   .statement "b" "DROP DATABASE d" ⟨"2"⟩, .statement "b" "CREATE DATABASE d" ⟨"2"⟩,
   .statement "b" "USE d" ⟨"2"⟩, .statement "b" "CREATE TABLE t (name text)" ⟨"2"⟩,
   .statement "b" "INSERT INTO t VALUES ('kept')" ⟨"2"⟩]

theorem commitsHeld_iff_recreatedUnderneath :
    let files : Catalog := ⟨⟨"Databases"⟩, "tbl"⟩
    let events := recreatedUnderneath ++ [.statement "a" "COMMIT" ⟨"3"⟩]
    (tickets files (start Memory.empty) events).Nodup ∧
      ((∀ pre event, pre ++ [event] <+: events →
          CommitHeld files (run files (start Memory.empty) pre) event) ↔
        ∀ pre event, pre ++ [event] <+: events → event.plan? = some .commit →
          ∀ t, (run files (start Memory.empty) pre).transaction? event.session = some t →
            ∀ entry ∈ Transaction.written files (run files (start Memory.empty) pre).store t,
              ¬ Lost files (start Memory.empty) pre event.session t.ticket entry.1) := by
  intro files events
  have hnodup : (tickets files (start Memory.empty) events).Nodup := by decide +kernel
  exact ⟨hnodup, commitsHeld_iff files Memory.empty events hnodup⟩

set_option maxRecDepth 100000 in
/-- The commit overwrites the new file, which no transaction holds. -/
theorem commit_overwrites_recreated :
    let files : Catalog := ⟨⟨"Databases"⟩, "tbl"⟩
    let server := run files (start Memory.empty) recreatedUnderneath
    tickets files (start Memory.empty) recreatedUnderneath = [⟨"1"⟩] ∧
    server.store.files = [(["Databases", "d", "t.tbl"], ["name text", "kept"])] ∧
    (step files server (.statement "a" "COMMIT" ⟨"3"⟩)).store.files =
      [(["Databases", "d", "t.tbl"], ["n int", "2"])] := by
  decide +kernel

end TextTables.Server
