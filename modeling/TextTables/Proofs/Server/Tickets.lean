import TextTables.Proofs.Server.Step
/-!
# Tickets of transactions

The tickets of the transactions that a run starts. If they are pairwise distinct, no two sessions
are ever inside transactions with the same ticket.
-/

namespace TextTables

/-! ## Where transactions come from -/

theorem Connection.Effect.ticket_eq {files : Catalog} {ticket : Ticket} {c c' : Connection Memory}
    {plan : Plan} (he : Effect files ticket c plan c') {t' : Transaction}
    (ht' : c'.transaction = some t') :
    (∃ t, c.transaction = some t ∧ t.ticket = t'.ticket) ∨
      (plan = .begin ∧ c.transaction = none ∧ t'.ticket = ticket) := by
  cases he with
  | nothing | databaseCreated | databaseUsed | tableCreated | fileExtended =>
    exact .inl ⟨t', ht', rfl⟩
  | databaseDropped =>
    obtain ⟨t, ht, rfl⟩ := Option.map_eq_some_iff.1 ht'
    exact .inl ⟨t, ht, rfl⟩
  | tableDropped =>
    obtain ⟨t, ht, rfl⟩ := Option.map_eq_some_iff.1 ht'
    exact .inl ⟨t, ht, rfl⟩
  | copyAltered _ hadds | fileAltered _ _ _ hadds =>
    cases hadds with
    | unstaged => exact .inl ⟨t', ht', rfl⟩
    | staged hc => cases ht'; exact .inl ⟨_, hc, rfl⟩
  | copyExtended _ ht | heldForNothing _ ht | takenForNothing _ ht | changed _ ht =>
    cases ht'
    exact .inl ⟨_, ht, rfl⟩
  | aborted | committed => cases ht'
  | begun hc => cases ht'; exact .inr ⟨rfl, hc, rfl⟩

namespace Server

variable (files : Catalog)

/-- The ticket of the transaction that an event starts. -/
def begun? {σ : Type} (server : Server σ) : Event → Option Ticket
  | .statement name text ticket =>
    match Plan.ofString text, server.transaction? name with
    | .ok .begin, none => some ticket
    | _, _ => none
  | .close _ => none

/-- The tickets of the transactions that a run starts, in order. -/
def tickets {σ : Type} [Storage σ] (server : Server σ) : List Event → List Ticket
  | [] => []
  | event :: rest => (server.begun? event).toList ++ tickets (step files server event) rest

/-- No two sessions are inside transactions with the same ticket. -/
def Distinct {σ : Type} (server : Server σ) : Prop :=
  ∀ n n' t t', server.transaction? n = some t → server.transaction? n' = some t' →
    t.ticket = t'.ticket → n = n'

variable {files} {server : Server Memory} {event : Event}
  {events events' : List Event}

theorem tickets_append :
    tickets files server (events ++ events') =
      tickets files server events ++ tickets files (run files server events) events' := by
  induction events generalizing server with
  | nil => rfl
  | cons event rest ih => simp only [List.cons_append, tickets, ih, List.append_assoc]; rfl

theorem nodup_tickets_of_append (h : (tickets files server (events ++ events')).Nodup) :
    (tickets files server events).Nodup := by
  rw [tickets_append] at h
  exact (List.nodup_append.1 h).1

/-- A transaction that is active after an event was active before or is started by it. -/
theorem transaction?_step {n : String} {t' : Transaction}
    (ht' : (step files server event).transaction? n = some t') :
    (∃ t, server.transaction? n = some t ∧ t.ticket = t'.ticket) ∨
      (n = event.session ∧ server.transaction? n = none ∧ server.begun? event = some t'.ticket) := by
  rcases session_step files server event n with
    ⟨text, ticket, plan, c, rfl, hplan, he, hstep⟩ | ⟨hsame, -⟩ | ⟨hnone, -⟩
  · rw [hstep, transaction?_leave_self] at ht'
    rcases he.ticket_eq ht' with ⟨t, ht, hticket⟩ | ⟨rfl, hc, hticket⟩
    · exact .inl ⟨t, opened_transaction.symm.trans ht, hticket⟩
    · rw [opened_transaction] at hc
      exact .inr ⟨rfl, hc, by simp only [begun?, hplan, hc, hticket]⟩
  · exact .inl ⟨t', hsame.symm.trans ht', rfl⟩
  · cases hnone.symm.trans ht'

/-! ## Runs with distinct tickets -/

/-- The active transactions have distinct tickets, and some events will start others. -/
structure Fresh (files : Catalog) (server : Server Memory) (events : List Event) : Prop where
  distinct : server.Distinct
  nodup : (tickets files server events).Nodup
  unused : ∀ n t, server.transaction? n = some t → t.ticket ∉ tickets files server events

theorem Fresh.step (h : Fresh files server (event :: events)) :
    Fresh files (step files server event) events := by
  obtain ⟨hdistinct, hnodup, hunused⟩ := h
  rw [tickets, List.nodup_append] at hnodup
  obtain ⟨-, hnodup, hdisjoint⟩ := hnodup
  have hbegun {n : String} {t t' : Transaction} (ht : server.transaction? n = some t)
      (hb : server.begun? event = some t'.ticket) : t.ticket ≠ t'.ticket := by
    intro heq
    apply hunused n t ht
    simp [tickets, hb, heq]
  refine ⟨fun n n' t t' ht ht' heq => ?_, hnodup, fun n t ht hmem => ?_⟩
  · -- At most one of the two was started just now, and its ticket was unused.
    rcases transaction?_step ht with ⟨s, hs, hsticket⟩ | ⟨hn, -, hb⟩ <;>
      rcases transaction?_step ht' with ⟨s', hs', hsticket'⟩ | ⟨hn', -, hb'⟩
    · exact hdistinct n n' s s' hs hs' (by rw [hsticket, hsticket', heq])
    · exact absurd (hsticket.trans heq) (hbegun hs hb')
    · exact absurd (hsticket'.trans heq.symm) (hbegun hs' hb)
    · exact hn.trans hn'.symm
  · rcases transaction?_step ht with ⟨s, hs, hsticket⟩ | ⟨-, -, hb⟩
    · apply hunused n s hs
      rw [tickets, List.mem_append, hsticket]
      exact .inr hmem
    · exact hdisjoint t.ticket (by simp [hb]) t.ticket hmem rfl

theorem Fresh.run (h : Fresh files server (events ++ events')) :
    Fresh files (run files server events) events' := by
  induction events generalizing server with
  | nil => exact h
  | cons event rest ih => exact ih h.step

theorem fresh_start {m : Memory} (h : (tickets files (start m) events).Nodup) :
    Fresh files (start m) events := by
  refine ⟨fun n n' t t' ht => ?_, h, fun n t ht => ?_⟩ <;> cases ht

/-- In a run that starts transactions with distinct tickets no two sessions are inside transactions
with the same ticket. -/
theorem distinct_run {m : Memory} (h : (tickets files (start m) events).Nodup) :
    (run files (start m) events).Distinct := by
  have hfresh := fresh_start h
  rw [← List.append_nil events] at hfresh
  exact hfresh.run.distinct

end Server

end TextTables
