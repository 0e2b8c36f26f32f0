import TextTables.Proofs.Server.Step
import TextTables.Proofs.Session.WellFormed
/-!
# Stores stay readable

Whatever sessions do over a store that was empty at first, every file is at most one lock line in
front of the lines of a well-formed table, every staged table is well-formed, and no commit fails
because a record cannot be written.
-/

namespace TextTables.Server

variable {files : Catalog} {server : Server Memory} {events : List Event}

/-- A server whose files can be read and whose staged tables are well-formed. -/
structure WellFormed (server : Server Memory) : Prop where
  store : server.store.WellFormed
  transaction : ∀ n t, server.transaction? n = some t → t.WellFormed

theorem WellFormed.opened (h : server.WellFormed) (name : String) :
    (server.opened files name).WellFormed := by
  refine ⟨fun p ls hl => ?_, fun t ht => ?_⟩
  · rw [lines?_opened] at hl
    exact h.store p ls hl
  · rw [opened_transaction] at ht
    exact h.transaction name t ht

theorem WellFormed.leave (h : server.WellFormed) (name : String) {c : Connection Memory}
    (hc : c.WellFormed) : (server.leave name c).WellFormed :=
  ⟨hc.store, forall_transaction?_leave h.transaction hc.transaction⟩

theorem WellFormed.step (h : server.WellFormed) (event : Event) :
    (step files server event).WellFormed := by
  have hstep := step_stepped files server event
  generalize Server.step files server event = server' at hstep
  cases hstep with
  | planned hplan he =>
    exact h.leave _ (he.wellFormed (Plan.proper_of_ofString hplan) (h.opened _))
  | unread => exact h.leave _ (h.opened _)
  | closed =>
    exact ⟨h.store.released (Transaction.abort_released files _ _), forall_transaction?_remove h.transaction⟩
  | closedIdle => exact ⟨h.store, forall_transaction?_remove h.transaction⟩

theorem wellFormed_start : (start Memory.empty).WellFormed := ⟨nofun, nofun⟩

theorem WellFormed.run (h : server.WellFormed) (events : List Event) :
    (run files server events).WellFormed :=
  run_inv (fun _ event h => h.step event) h events

/-- A commit over a well-formed server fails with a fault of the store or for want of a
transaction. -/
theorem WellFormed.commit_error (h : server.WellFormed) {n text : String} {ticket : Ticket}
    {e : Error} {server' : Server Memory} (hplan : Plan.ofString text = .ok .commit)
    (herror : execute files n text ticket server = .error e server') :
    e = .noActiveTransaction ∨ ∃ fault, e = .io fault := by
  cases ht : server.transaction? n with
  | none =>
    have hc : (server.opened files n).transaction = none := opened_transaction.trans ht
    rw [execute_apply, Connection.execute_commit_idle ticket hplan hc] at herror
    cases herror
    exact .inl rfl
  | some t =>
    rcases Transaction.commit_error files (execute_commit_error ht hplan herror) with he | ⟨id, -, rfl, -⟩
    · rw [(h.transaction n t ht).encodeAll_eq] at he
      cases he
    · exact .inr ⟨_, rfl⟩

/-- Over a store that was empty at first, every file can be read in every reachable state, and no
commit fails to write a staged table. -/
theorem run_wellFormed (files : Catalog) (events : List Event) :
    let server := run files (start Memory.empty) events
    (∀ p ls, server.store.lines? p = some ls →
      (∃ table body, Table.WellFormed table ∧ encodeTable table = .ok body ∧
        (∀ line ∈ body, isLockLine line = false) ∧
        (ls = body ∨ ∃ ticket : Ticket, ls = ticket.lockLine :: body)) ∧
      ∀ id, ∃ table, decodeTable id ls = .ok (holder? ls, table)) ∧
    (∀ n t, server.transaction? n = some t → ∀ table ∈ t.staged,
      table.WellFormed ∧ ∃ body, encodeTable table = .ok body) ∧
    ∀ n text ticket e server', Plan.ofString text = .ok .commit →
      execute files n text ticket server = .error e server' → ∀ fault, e ≠ .recordConversion fault := by
  intro server
  have h : server.WellFormed := wellFormed_start.run events
  refine ⟨fun p ls hl => ⟨?_, fun id => ?_⟩, fun n t ht table hm => ?_, ?_⟩
  · obtain ⟨table, body, htable, he, hls⟩ := h.store p ls hl
    exact ⟨table, body, htable, he, htable.isLockLine_of_encodeTable he, hls⟩
  · obtain ⟨table, hd, -⟩ := (h.store p ls hl).decodeTable_eq id
    exact ⟨table, hd⟩
  · have htable := h.transaction n t ht table hm
    exact ⟨htable, _, htable.encodeTable⟩
  · intro n text ticket e server' hplan herror fault
    rcases h.commit_error hplan herror with rfl | ⟨fault', rfl⟩ <;> nofun

end TextTables.Server
