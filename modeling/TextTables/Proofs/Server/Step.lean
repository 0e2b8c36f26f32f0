import TextTables.Proofs.Session.Effect
import TextTables.Server
/-!
# What an event does

A statement is an `Effect` on the connection of its session, and closing a session aborts its
transaction. `Stepped` says so of the server over the store in memory, and `step_stepped` that
nothing else happens. Theorems about runs look at a server through `transaction?`, `database?` and
the lines of its files.
-/

namespace TextTables

namespace Event

/-- The session that an event is of. -/
def session : Event → String
  | .statement name _ _ => name
  | .close name => name

/-- The plan of an event, if it is a statement that can be read. -/
def plan? : Event → Option Plan
  | .statement _ text _ => (Plan.ofString text).toOption
  | .close _ => none

theorem plan?_eq_some {name text : String} {ticket : Ticket} {plan : Plan} :
    (statement name text ticket).plan? = some plan ↔ Plan.ofString text = .ok plan := by
  cases h : Plan.ofString text <;> simp [plan?, h, Except.toOption]

end Event

namespace Server

/-! ## Sessions -/

section Sessions
variable {σ : Type} {server : Server σ} {name n : String} {session : Session} {store : σ}

/-- The active transaction of a session. -/
def transaction? (server : Server σ) (name : String) : Option Transaction :=
  (server.session? name).bind (·.transaction)

/-- The database that a session uses. -/
def database? (server : Server σ) (name : String) : Option String :=
  (server.session? name).bind (·.database)

/-- The server with the state in which a statement of a session has left its connection. -/
def leave (server : Server σ) (name : String) (c : Connection σ) : Server σ :=
  { server with store := c.store }.put name c.toSession

theorem session?_put :
    (server.put name session).session? n = if n = name then some session else server.session? n := by
  by_cases h : n = name
  · subst h; simp [put, session?]
  · have hn : (n == name) = false := by simpa using h
    simp only [put, session?, List.lookup_cons, hn, if_neg h]
    exact Memory.lookup_filter_of_pos (· != name) (by simpa using h) server.sessions

theorem session?_remove :
    (server.remove name).session? n = if n = name then none else server.session? n := by
  by_cases h : n = name
  · rw [if_pos h]
    exact Memory.lookup_filter_of_neg (· != name) (by simpa using h) server.sessions
  · rw [if_neg h]
    exact Memory.lookup_filter_of_pos (· != name) (by simpa using h) server.sessions

theorem transaction?_leave {c : Connection σ} :
    (server.leave name c).transaction? n =
      if n = name then c.transaction else server.transaction? n := by
  rw [transaction?, leave, session?_put]
  split <;> rfl

theorem database?_leave {c : Connection σ} :
    (server.leave name c).database? n = if n = name then c.database else server.database? n := by
  rw [database?, leave, session?_put]
  split <;> rfl

theorem transaction?_remove :
    (server.remove name).transaction? n = if n = name then none else server.transaction? n := by
  rw [transaction?, session?_remove]
  split <;> rfl

theorem database?_remove :
    (server.remove name).database? n = if n = name then none else server.database? n := by
  rw [database?, session?_remove]
  split <;> rfl

theorem transaction?_leave_self {c : Connection σ} : (server.leave n c).transaction? n = c.transaction :=
  transaction?_leave.trans (if_pos rfl)

theorem database?_leave_self {c : Connection σ} : (server.leave n c).database? n = c.database :=
  database?_leave.trans (if_pos rfl)

/-- What holds of all active transactions holds of them after a statement, if it holds of the transaction
that the statement leaves on its connection. -/
theorem forall_transaction?_leave {P : Transaction → Prop} (h : ∀ n t, server.transaction? n = some t → P t)
    {c : Connection σ} (hc : ∀ t, c.transaction = some t → P t) :
    ∀ n t, (server.leave name c).transaction? n = some t → P t := by
  intro n t ht
  rw [transaction?_leave] at ht
  split at ht
  · exact hc t ht
  · exact h n t ht

theorem forall_transaction?_remove {P : Transaction → Prop} (h : ∀ n t, server.transaction? n = some t → P t) :
    ∀ n t, (server.remove name).transaction? n = some t → P t := by
  intro n t ht
  rw [transaction?_remove] at ht
  split at ht
  · cases ht
  · exact h n t ht

end Sessions

/-! ## Opening a session -/

variable (files : Catalog)

/-- The connection on which a session executes its next statement. A statement that opens the
session creates the root directory first. -/
def opened (server : Server Memory) (name : String) : Connection Memory :=
  match server.session? name with
  | some session => ⟨session, server.store⟩
  | none => ⟨.start, Action.after files.init server.store⟩

variable {files} {server : Server Memory} {name : String} {p : Place}

theorem opened_transaction : (server.opened files name).transaction = server.transaction? name := by
  simp only [opened, transaction?]
  cases server.session? name <;> rfl

theorem opened_database : (server.opened files name).database = server.database? name := by
  simp only [opened, database?]
  cases server.session? name <;> rfl

theorem lines?_opened : (server.opened files name).store.lines? p = server.store.lines? p := by
  simp only [opened]
  cases server.session? name with
  | some session => rfl
  | none =>
    simp only [Action.after_ok (files.init_apply server.store)]
    split <;> rfl

/-! ## Events -/

variable (files)

/-- What an event can do to a server. -/
inductive Stepped (server : Server Memory) : Event → Server Memory → Prop
  /-- a statement that can be read -/
  | planned {name text : String} {ticket : Ticket} {plan : Plan} {c : Connection Memory} :
      Plan.ofString text = .ok plan →
      Connection.Effect files ticket (server.opened files name) plan c →
      Stepped server (.statement name text ticket) (server.leave name c)
  | unread {name text : String} {ticket : Ticket} {e : Error} :
      Plan.ofString text = .error e →
      Stepped server (.statement name text ticket) (server.leave name (server.opened files name))
  | closed {name : String} {t : Transaction} : server.transaction? name = some t →
      Stepped server (.close name)
        { server.remove name with store := Action.after (t.abort files) server.store }
  | closedIdle {name : String} : server.transaction? name = none →
      Stepped server (.close name) (server.remove name)

variable {files}

theorem leave_put (server : Server Memory) (name : String) (store : Memory) (session : Session)
    (c : Connection Memory) :
    ({ server with store }.put name session).leave name c = server.leave name c := by
  simp [leave, put]

variable (files) in
/-- A statement runs on the connection of its session, and the server keeps what it leaves. -/
theorem execute_apply (server : Server Memory) (name text : String) (ticket : Ticket) :
    execute files name text ticket server =
      match Connection.execute files ticket text (server.opened files name) with
      | .ok outcome c => .ok outcome (server.leave name c)
      | .error e c => .error e (server.leave name c) := by
  refine (Action.bind_apply _ _ server).trans ?_
  cases hs : server.session? name with
  | some session =>
    have henter : enter files name server = .ok session server := by simp only [enter, hs]
    have hopened : server.opened files name = ⟨session, server.store⟩ := by simp only [opened, hs]
    rw [henter, hopened]
    dsimp only
    cases Connection.execute files ticket text ⟨session, server.store⟩ <;> rfl
  | none =>
    -- The statement opens the session, and the root directory is created first.
    obtain ⟨store, hinit⟩ : ∃ store, files.init server.store = .ok () store := ⟨_, files.init_apply _⟩
    have hopened : server.opened files name = ⟨.start, store⟩ := by
      simp only [opened, hs, Action.after, hinit]
    have henter : enter files name server = .ok .start ({ server with store }.put name .start) := by
      simp only [enter, hs, hinit]
    have hleave (c : Connection Memory) := leave_put server name store .start c
    rw [henter, hopened]
    simp only [← hleave]
    dsimp only [put]
    cases Connection.execute files ticket text ⟨.start, store⟩ <;> rfl

theorem execute_eq_ok {n text : String} {ticket : Ticket} {outcome : Outcome} {server' : Server Memory}
    (h : execute files n text ticket server = .ok outcome server') :
    ∃ c, Connection.execute files ticket text (server.opened files n) = .ok outcome c ∧
      server' = server.leave n c := by
  rw [execute_apply] at h
  cases hc : Connection.execute files ticket text (server.opened files n) with
  | ok outcome' c =>
    rw [hc] at h
    cases h
    exact ⟨c, rfl, rfl⟩
  | error e c =>
    rw [hc] at h
    cases h

theorem step_of_execute {n text : String} {ticket : Ticket} {outcome : Outcome} {server' : Server Memory}
    (h : execute files n text ticket server = .ok outcome server') :
    step files server (.statement n text ticket) = server' := by
  rw [step, h]

variable (files) in
theorem step_statement (server : Server Memory) (name text : String) (ticket : Ticket) :
    step files server (.statement name text ticket) =
      server.leave name (Action.after (Connection.execute files ticket text) (server.opened files name)) := by
  simp only [step, execute_apply, Action.after]
  cases Connection.execute files ticket text (server.opened files name) <;> rfl

variable (files) in
theorem step_stepped (server : Server Memory) (event : Event) :
    Stepped files server event (step files server event) := by
  cases event with
  | statement name text ticket =>
    rw [step_statement, Connection.execute]
    cases hp : Plan.ofString text with
    | error e =>
      rw [Action.after_bind_error (Action.of_error rfl _)]
      exact .unread hp
    | ok plan =>
      rw [Action.after_bind_ok (Action.of_ok rfl _)]
      exact .planned hp (Connection.run_effect ticket plan _)
  | close name =>
    simp only [step, close]
    cases hs : server.session? name with
    | none =>
      have hnone : server.transaction? name = none := by rw [transaction?, hs]; rfl
      have hremove : server.remove name = server := by
        have hkeep : server.sessions.filter (fun entry => entry.1 != name) = server.sessions :=
          List.filter_eq_self.2 fun entry hentry => by
            rw [bne_comm]
            exact List.lookup_eq_none_iff.1 hs entry hentry
        rw [remove, hkeep]
      have h : Stepped files server (.close name) _ := .closedIdle hnone
      rwa [hremove] at h
    | some session =>
      have ht : server.transaction? name = session.transaction := by rw [transaction?, hs]; rfl
      cases hst : session.transaction with
      | none =>
        have hclose : Connection.close files ⟨session, server.store⟩ = server.store := by
          simp only [Connection.close, Connection.abort, Action.bind_apply,
            Connection.activeTransaction_apply, hst]
        simp only [hclose]
        exact .closedIdle (ht.trans hst)
      | some t =>
        have hclose : Connection.close files ⟨session, server.store⟩ =
            Action.after (t.abort files) server.store := by
          simp only [Connection.close]
          have hc : (⟨session, server.store⟩ : Connection Memory).transaction = some t := hst
          rcases Connection.abort_apply files hc with h | ⟨e, h⟩ <;> rw [h]
        simp only [hclose]
        exact .closed (ht.trans hst)

/-- An event leaves the transactions of other sessions as they are. -/
theorem transaction?_step_of_ne {event : Event} {n : String} (h : event.session ≠ n) :
    (step files server event).transaction? n = server.transaction? n := by
  have hstep := step_stepped files server event
  generalize step files server event = server' at hstep
  cases hstep with
  | @planned name | @unread name => exact transaction?_leave.trans (if_neg (Ne.symm h))
  | @closed name | @closedIdle name => exact transaction?_remove.trans (if_neg (Ne.symm h))

/-- An event leaves the databases that other sessions use as they are. -/
theorem database?_step_of_ne {event : Event} {n : String} (h : event.session ≠ n) :
    (step files server event).database? n = server.database? n := by
  have hstep := step_stepped files server event
  generalize step files server event = server' at hstep
  cases hstep with
  | @planned name | @unread name => exact database?_leave.trans (if_neg (Ne.symm h))
  | @closed name | @closedIdle name => exact database?_remove.trans (if_neg (Ne.symm h))

variable (files) in
/-- What an event is to a session: a statement of it with an effect on its connection, an event that leaves
its transaction and the database that it uses as they are, and the files too if it is its own, or its end. -/
theorem session_step (server : Server Memory) (event : Event) (n : String) :
    (∃ text ticket plan c, event = .statement n text ticket ∧ Plan.ofString text = .ok plan ∧
      Connection.Effect files ticket (server.opened files n) plan c ∧
      step files server event = server.leave n c) ∨
    ((step files server event).transaction? n = server.transaction? n ∧
      (step files server event).database? n = server.database? n ∧
      (event.session = n → ∀ p, (step files server event).store.lines? p = server.store.lines? p)) ∨
    ((step files server event).transaction? n = none ∧ (step files server event).database? n = none) := by
  by_cases hn : event.session = n
  · subst hn
    have hstep := step_stepped files server event
    generalize step files server event = server' at hstep
    cases hstep with
    | @planned name text ticket plan c hplan he =>
      exact .inl ⟨text, ticket, plan, c, rfl, hplan, he, rfl⟩
    | unread =>
      exact .inr (.inl ⟨transaction?_leave_self.trans opened_transaction,
        database?_leave_self.trans opened_database, fun _ _ => lines?_opened⟩)
    | closed | closedIdle =>
      exact .inr (.inr ⟨transaction?_remove.trans (if_pos rfl), database?_remove.trans (if_pos rfl)⟩)
  · exact .inr (.inl ⟨transaction?_step_of_ne hn, database?_step_of_ne hn, fun h => absurd h hn⟩)

/-! ## Commits -/

/-- A session inside a transaction is open, so its statements find the store as it is. -/
theorem opened_store {n : String} {t : Transaction} (ht : server.transaction? n = some t) :
    (server.opened files n).store = server.store := by
  obtain ⟨session, hs, -⟩ := Option.bind_eq_some_iff.1 ht
  simp only [opened, hs]

/-- A commit that fails at the server is one of the transaction that is active in the session. -/
theorem execute_commit_error {n text : String} {ticket : Ticket} {t : Transaction} {e : Error}
    {server' : Server Memory} (ht : server.transaction? n = some t)
    (hplan : Plan.ofString text = .ok .commit)
    (h : execute files n text ticket server = .error e server') :
    t.commit files server.store = .error e server'.store := by
  have hc : (server.opened files n).transaction = some t := opened_transaction.trans ht
  rw [execute_apply, Connection.execute_commit ticket hplan hc, opened_store ht] at h
  cases hcommit : t.commit files server.store with
  | ok count store => rw [hcommit] at h; cases h
  | error e' store => rw [hcommit] at h; cases h; rfl

/-- A commit that succeeds ends a transaction and leaves the store that committing it gives. -/
theorem execute_commit_ok {n text : String} {ticket : Ticket} {outcome : Outcome}
    {server' : Server Memory} (hplan : Plan.ofString text = .ok .commit)
    (h : execute files n text ticket server = .ok outcome server') :
    ∃ t count, server.transaction? n = some t ∧ t.commit files server.store = .ok count server'.store := by
  obtain ⟨c, hc, rfl⟩ := execute_eq_ok h
  cases ht : server.transaction? n with
  | none =>
    have hidle : (server.opened files n).transaction = none := opened_transaction.trans ht
    rw [Connection.execute_commit_idle ticket hplan hidle] at hc
    cases hc
  | some t =>
    have hactive : (server.opened files n).transaction = some t := opened_transaction.trans ht
    rw [Connection.execute_commit ticket hplan hactive, opened_store ht] at hc
    cases hcommit : t.commit files server.store with
    | ok count store =>
      rw [hcommit] at hc
      cases hc
      exact ⟨t, count, rfl, hcommit⟩
    | error e store =>
      rw [hcommit] at hc
      cases hc

/-- An event that commits a transaction leaves the store that committing it leaves. -/
theorem step_commit {event : Event} {t : Transaction} (hplan : event.plan? = some .commit)
    (ht : server.transaction? event.session = some t) :
    (step files server event).store = Action.after (t.commit files) server.store := by
  cases event with
  | close => cases hplan
  | statement n text ticket =>
    replace ht : server.transaction? n = some t := ht
    have hc : (server.opened files n).transaction = some t := opened_transaction.trans ht
    simp only [step, execute_apply, Connection.execute_commit ticket (Event.plan?_eq_some.1 hplan) hc,
      opened_store ht, Action.after]
    cases t.commit files server.store <;> rfl

/-! ## Runs -/

/-- An invariant that every event keeps holds after every run. -/
theorem run_inv {P : Server Memory → Prop} (hstep : ∀ server event, P server → P (step files server event))
    (h : P server) (events : List Event) : P (run files server events) := by
  induction events generalizing server with
  | nil => exact h
  | cons event rest ih => exact ih (hstep server event h)

theorem run_concat (events : List Event) (event : Event) :
    run files server (events ++ [event]) = step files (run files server events) event := by
  simp [run]

variable (files) in
/-- Some event of a run was as `Seen` says, and ever since the server has been as `Kept` says. -/
def Since (server : Server Memory) (events : List Event) (Seen : Server Memory → Event → Prop)
    (Kept : Server Memory → Prop) : Prop :=
  ∃ pre event post, events = pre ++ event :: post ∧ Seen (run files server pre) event ∧
    ∀ later, later <+: post → Kept (run files server (pre ++ event :: later))

namespace Since

variable {events : List Event} {event : Event} {Seen : Server Memory → Event → Prop}
  {Kept : Server Memory → Prop}

theorem now (h : Since files server events Seen Kept) : Kept (run files server events) := by
  obtain ⟨pre, event, post, rfl, -, hkept⟩ := h
  exact hkept post (List.prefix_refl _)

theorem of_step (hseen : Seen (run files server events) event)
    (hkept : Kept (step files (run files server events) event)) :
    Since files server (events ++ [event]) Seen Kept := by
  refine ⟨events, event, [], rfl, hseen, fun later hlater => ?_⟩
  rw [List.prefix_nil.1 hlater, run_concat]
  exact hkept

theorem concat (h : Since files server events Seen Kept)
    (hlast : Kept (step files (run files server events) event)) :
    Since files server (events ++ [event]) Seen Kept := by
  obtain ⟨pre, seen, post, rfl, hseen, hkept⟩ := h
  refine ⟨pre, seen, post ++ [event], by simp, hseen, fun later hlater => ?_⟩
  rcases List.prefix_concat_iff.1 hlater with rfl | hlater
  · rw [← List.cons_append, ← List.append_assoc, run_concat]
    exact hlast
  · exact hkept later hlater

theorem concat_iff : Since files server (events ++ [event]) Seen Kept ↔
    (Since files server events Seen Kept ∨ Seen (run files server events) event) ∧
      Kept (step files (run files server events) event) := by
  constructor
  · intro h
    have hnow := h.now
    rw [run_concat] at hnow
    refine ⟨?_, hnow⟩
    obtain ⟨pre, seen, post, heq, hseen, hkept⟩ := h
    rcases List.eq_nil_or_concat post with rfl | ⟨post, last, rfl⟩
    · obtain ⟨rfl, hlast⟩ := List.append_inj' heq rfl
      cases hlast
      exact .inr hseen
    · rw [List.concat_eq_append, ← List.cons_append, ← List.append_assoc] at heq
      obtain ⟨rfl, -⟩ := List.append_inj' heq rfl
      refine .inl ⟨pre, seen, post, rfl, hseen, fun later hlater => hkept later (hlater.trans ?_)⟩
      rw [List.concat_eq_append]
      exact List.prefix_append _ _
  · rintro ⟨h | hseen, hlast⟩
    · exact h.concat hlast
    · exact of_step hseen hlast

end Since

end Server

end TextTables
