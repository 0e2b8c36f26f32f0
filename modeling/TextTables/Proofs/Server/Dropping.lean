import TextTables.Proofs.Server.Untouched
import TextTables.Proofs.Session.Known
/-!
# What is left of a dropped database

Dropping a database removes the directory of its name in lower case, and the session forgets what it knows
of the names that differ from it in the case of ASCII letters only. These are all the names of the
directory unless a letter that is not ASCII has two cases: `dropDatabase_forgets_iff` says when nothing of
the directory is left in the session, and what that means for the commits that follow.
-/

namespace TextTables

/-- Whether the file of a table is below the directory of a database. -/
def Catalog.below (files : Catalog) (database : String) (id : TableId) : Bool :=
  (files.place id).within (files.databasePath database).place

namespace Server

variable {files : Catalog} {server server' : Server Memory} {event : Event} {events : List Event} {m : Memory}
  {n name : String} {id : TableId}

/-! ## What sessions know -/

/-- The transaction of a session has staged a table or holds it. -/
def Knows (server : Server Memory) (n : String) (id : TableId) : Prop :=
  ∃ t, server.transaction? n = some t ∧ t.Knows id

/-- A session uses a database, or knows a table of it. -/
def KnowsDatabase (server : Server Memory) (n name : String) : Prop :=
  server.database? n = some name ∨ ∃ id, server.Knows n id ∧ id.database = name

/-- An event of a session names a table in the database in use. -/
def Names (server : Server Memory) (n : String) (id : TableId) (event : Event) : Prop :=
  event.session = n ∧ event.target? = some id.name ∧ server.database? n = some id.database

/-- A session has named a table that it did not know. -/
def TakenUp (files : Catalog) (server : Server Memory) (events : List Event) (n : String) (id : TableId) : Prop :=
  ∃ pre event post, events = pre ++ event :: post ∧ ¬ (run files server pre).Knows n id ∧
    (run files server pre).Names n id event

/-- A table that a session knows after an event it knew before, or the event has named it. -/
theorem knows_step (h : (step files server event).Knows n id) : server.Knows n id ∨ server.Names n id event := by
  obtain ⟨t', ht', hknows⟩ := h
  rcases session_step files server event n with ⟨text, ticket, plan, c, rfl, hplan, he, hstep⟩ | ⟨ht, -⟩ | ⟨ht, -⟩
  · rw [hstep, transaction?_leave_self] at ht'
    rcases he.knows ht' hknows with ⟨t, ht, hknows⟩ | ⟨htarget, hdatabase⟩
    · exact .inl ⟨t, opened_transaction.symm.trans ht, hknows⟩
    · refine .inr ⟨rfl, ?_, opened_database.symm.trans hdatabase⟩
      rw [Event.target?, Event.plan?_eq_some.2 hplan, Option.bind_some, htarget]
  · exact .inl ⟨t', ht.symm.trans ht', hknows⟩
  · cases ht.symm.trans ht'

/-- A database that a session uses after an event it used before, or the event has named it. -/
theorem database?_step (h : (step files server event).database? n = some name) :
    server.database? n = some name ∨ event.target? = some name := by
  rcases session_step files server event n with ⟨text, ticket, plan, c, rfl, hplan, he, hstep⟩ | ⟨-, hd, -⟩ | ⟨-, hd⟩
  · rw [hstep, database?_leave_self] at h
    rcases he.database_eq h with h | rfl
    · exact .inl (opened_database.symm.trans h)
    · refine .inr ?_
      rw [Event.target?, Event.plan?_eq_some.2 hplan]
      rfl
  · exact .inl (hd.symm.trans h)
  · cases hd.symm.trans h

/-- What a session knows after some events it knew before, or it has taken it up since. -/
theorem knows_run (h : (run files server events).Knows n id) :
    server.Knows n id ∨ TakenUp files server events n id := by
  induction events using List.reverseRecOn with
  | nil => exact .inl h
  | append_singleton events event ih =>
    by_cases hbefore : (run files server events).Knows n id
    · refine (ih hbefore).imp_right ?_
      rintro ⟨pre, event', post, rfl, htaken⟩
      exact ⟨pre, event', post ++ [event], by simp, htaken⟩
    · rw [run_concat] at h
      exact .inr ⟨events, event, [], rfl, hbefore, (knows_step h).resolve_left hbefore⟩

/-! ## Names -/

/-- The databases in use and the staged and held tables have names that are words. -/
structure Named (server : Server Memory) : Prop where
  database : ∀ n name, server.database? n = some name → isWord name.toList = true
  table : ∀ n id, server.Knows n id → isWord id.database.toList = true ∧ isWord id.name.toList = true

theorem Named.step (h : server.Named) : (step files server event).Named := by
  constructor
  · intro n name hname
    rcases database?_step hname with hname | htarget
    · exact h.database n name hname
    · exact Event.isWord_target htarget
  · intro n id hid
    rcases knows_step hid with hid | ⟨-, htarget, hdatabase⟩
    · exact h.table n id hid
    · exact ⟨h.database n _ hdatabase, Event.isWord_target htarget⟩

theorem named_start : (start m).Named := by
  refine ⟨nofun, ?_⟩
  rintro n id ⟨t, ht, -⟩
  cases ht

theorem Named.run (h : server.Named) (events : List Event) : (run files server events).Named :=
  run_inv (fun _ _ h => h.step) h events

/-- The known tables below the directory of a database are those of its name in any case. -/
theorem Named.below_iff (h : server.Named) (hname : isWord name.toList = true) (hid : server.Knows n id) :
    files.below name id = true ↔ Text.lowerCase id.database = Text.lowerCase name :=
  Catalog.within_databasePath_iff (h.table n id hid).1 (h.table n id hid).2 hname

/-- No table outside of the directory is forgotten. -/
theorem Named.below_of_sameIgnoringCase (h : server.Named) (hname : isWord name.toList = true)
    (hid : server.Knows n id) (hsame : Text.sameIgnoringCase id.database name = true) : files.below name id = true :=
  (h.below_iff hname hid).2 (Text.lowerCase_eq_of_sameIgnoringCase hsame)

/-! ## Dropping -/

/-- Dropping a database removes its directory, and the session forgets what has its name but for the case
of ASCII letters. -/
theorem execute_dropDatabase {text : String} {ticket : Ticket} {outcome : Outcome}
    (hplan : Plan.ofString text = .ok (.dropDatabase name))
    (h : execute files n text ticket server = .ok outcome server') :
    server'.transaction? n = (server.transaction? n).map (·.forgetDatabase name) ∧
      (server'.database? n =
        if (server.database? n).any (Text.sameIgnoringCase · name) then none else server.database? n) ∧
      server'.store = (server.opened files n).store.removeDirectory (files.databasePath name).place := by
  obtain ⟨c, hc, rfl⟩ := execute_eq_ok h
  rw [Connection.execute, Action.bind_ok (Action.of_ok hplan _), Connection.run, Action.bind_apply,
    Connection.dropDatabase_apply] at hc
  cases hexists : (server.opened files n).store.directories.contains (files.databasePath name).place with
  | false =>
    rw [hexists] at hc
    cases hc
  | true =>
    rw [hexists] at hc
    cases hc
    rw [transaction?_leave, database?_leave, if_pos rfl, if_pos rfl]
    simp only [opened_transaction, opened_database]
    exact ⟨trivial, trivial, rfl⟩

/-- Two transactions are the same but for tables whose files are below the directory of a database. -/
structure SameOutside (files : Catalog) (name : String) (t t' : Transaction) : Prop where
  ticket : t'.ticket = t.ticket
  staged : t'.staged.filter (!files.below name ·.id) = t.staged.filter (!files.below name ·.id)
  locked : t'.locked.filter (!files.below name ·) = t.locked.filter (!files.below name ·)

/-- A session learns of nothing, and forgets nothing but what is in the directory of a database. -/
structure KeepsOthers (files : Catalog) (server server' : Server Memory) (n name : String) : Prop where
  transaction : Option.Rel (SameOutside files name) (server.transaction? n) (server'.transaction? n)
  database : ∀ database, server.database? n = some database →
    (files.databasePath database).place ≠ (files.databasePath name).place → server'.database? n = some database
  knew : ∀ id, server'.Knows n id → server.Knows n id
  used : ∀ database, server'.database? n = some database → server.database? n = some database

/-- A session knows nothing that is in the directory of a database: no file of a staged or held table is
below it, and the database in use has another. -/
structure KnowsNothing (files : Catalog) (server : Server Memory) (n name : String) : Prop where
  table : ∀ id, server.Knows n id → files.below name id = false
  database : ∀ database, server.database? n = some database →
    (files.databasePath database).place ≠ (files.databasePath name).place

theorem sameOutside_forgetDatabase {t : Transaction}
    (h : ∀ id, t.Knows id → Text.sameIgnoringCase id.database name = true → files.below name id = true) :
    SameOutside files name t (t.forgetDatabase name) := by
  have hkept (id : TableId) (hid : t.Knows id) :
      (!files.below name id && !Text.sameIgnoringCase id.database name) = !files.below name id := by
    cases hsame : Text.sameIgnoringCase id.database name with
    | false => simp
    | true => simp [h id hid hsame]
  refine ⟨rfl, ?_, ?_⟩
  · rw [Transaction.forgetDatabase, List.filter_filter]
    exact List.filter_congr fun table hm => hkept table.id (.staged hm)
  · rw [Transaction.forgetDatabase, List.filter_filter]
    exact List.filter_congr fun id hm => hkept id (.inr hm)

section Dropped
variable {text : String} {ticket : Ticket} {outcome : Outcome}

theorem knows_dropDatabase (hplan : Plan.ofString text = .ok (.dropDatabase name))
    (hdrop : execute files n text ticket server = .ok outcome server') :
    server'.Knows n id ↔ server.Knows n id ∧ Text.sameIgnoringCase id.database name = false := by
  obtain ⟨ht, -, -⟩ := execute_dropDatabase hplan hdrop
  rw [Knows, Knows, ht]
  cases server.transaction? n with
  | none => simp
  | some t => simp [Transaction.knows_forgetDatabase]

theorem database?_dropDatabase (hplan : Plan.ofString text = .ok (.dropDatabase name))
    (hdrop : execute files n text ticket server = .ok outcome server') {database : String} :
    server'.database? n = some database ↔
      server.database? n = some database ∧ Text.sameIgnoringCase database name = false := by
  obtain ⟨-, hd, -⟩ := execute_dropDatabase hplan hdrop
  rw [hd]
  cases server.database? n with
  | none => simp
  | some used =>
    rw [Option.any_some]
    constructor
    · intro h
      split at h
      · cases h
      · next hsame =>
        cases h
        exact ⟨rfl, by simpa using hsame⟩
    · rintro ⟨⟨⟩, hsame⟩
      simp [hsame]

theorem Named.keepsOthers (h : server.Named) (hplan : Plan.ofString text = .ok (.dropDatabase name))
    (hdrop : execute files n text ticket server = .ok outcome server') :
    KeepsOthers files server server' n name := by
  have hname : isWord name.toList = true := Plan.isWord_name hplan (Plan.mem_names_of_target? rfl)
  refine ⟨?_, fun database hd hne => ?_, fun id hid => ((knows_dropDatabase hplan hdrop).1 hid).1,
    fun database hd => ((database?_dropDatabase hplan hdrop).1 hd).1⟩
  · obtain ⟨ht', -, -⟩ := execute_dropDatabase hplan hdrop
    rw [ht']
    cases ht : server.transaction? n with
    | none => exact .none
    | some t =>
      refine .some (sameOutside_forgetDatabase fun id hid hsame => ?_)
      exact h.below_of_sameIgnoringCase hname ⟨t, ht, hid⟩ hsame
  · refine (database?_dropDatabase hplan hdrop).2 ⟨hd, ?_⟩
    rw [← Bool.not_eq_true]
    intro hsame
    exact hne ((Catalog.place_databasePath_inj (h.database n database hd) hname).2
      (Text.lowerCase_eq_of_sameIgnoringCase hsame))

/-- Nothing is left exactly if the session knew the directory only by names that are the same but for the
case of ASCII letters. -/
theorem Named.knowsNothing_iff (h : server.Named) (hplan : Plan.ofString text = .ok (.dropDatabase name))
    (hdrop : execute files n text ticket server = .ok outcome server') :
    KnowsNothing files server' n name ↔ ∀ database, server.KnowsDatabase n database →
      Text.lowerCase database = Text.lowerCase name → Text.sameIgnoringCase database name = true := by
  have hname : isWord name.toList = true := Plan.isWord_name hplan (Plan.mem_names_of_target? rfl)
  constructor
  · intro hnothing database hknows hlower
    by_contra hsame
    rw [Bool.not_eq_true] at hsame
    rcases hknows with hd | ⟨id, hid, rfl⟩
    · have hleft := hnothing.database database ((database?_dropDatabase hplan hdrop).2 ⟨hd, hsame⟩)
      exact hleft ((Catalog.place_databasePath_inj (h.database n database hd) hname).2 hlower)
    · have hleft := hnothing.table id ((knows_dropDatabase hplan hdrop).2 ⟨hid, hsame⟩)
      rw [(h.below_iff hname hid).2 hlower] at hleft
      cases hleft
  · intro hall
    refine ⟨fun id hid => ?_, fun database hd hplace => ?_⟩
    · obtain ⟨hid, hsame⟩ := (knows_dropDatabase hplan hdrop).1 hid
      rw [← Bool.not_eq_true, h.below_iff hname hid]
      intro hlower
      rw [hall id.database (.inr ⟨id, hid, rfl⟩) hlower] at hsame
      cases hsame
    · obtain ⟨hd, hsame⟩ := (database?_dropDatabase hplan hdrop).1 hd
      have hlower := (Catalog.place_databasePath_inj (h.database n database hd) hname).1 hplace
      rw [hall database (.inl hd) hlower] at hsame
      cases hsame

end Dropped

/-! ## Commits that follow -/

/-- A commit of a session changes a file below the directory of a database, or fails because that directory
is missing, only on account of tables that have a property. -/
def CommitSpares (files : Catalog) (server : Server Memory) (n name : String) (P : TableId → Prop) : Prop :=
  ∀ text ticket, Plan.ofString text = .ok .commit →
    (∀ p : Place, p.within (files.databasePath name).place = true →
      (step files server (.statement n text ticket)).store.lines? p ≠ server.store.lines? p →
        ∃ id, files.place id = p ∧ P id) ∧
    ∀ e server', execute files n text ticket server = .error e server' →
      e = .noActiveTransaction ∨
      (∃ t, server.transaction? n = some t ∧ ∃ table ∈ t.staged, encodeTable table = .error e) ∨
      ∃ id, e = files.missingDirectory id ∧ files.hasDirectory id server.store = false ∧
        (files.below name id = true → P id)

theorem commitSpares {P : TableId → Prop} (h : ∀ id, server.Knows n id → files.below name id = true → P id) :
    CommitSpares files server n name P := by
  intro text ticket hplan
  cases ht : server.transaction? n with
  | none =>
    have hnone : (server.opened files n).transaction = none := opened_transaction.trans ht
    have hidle : Connection.execute files ticket text (server.opened files n) =
        .error .noActiveTransaction (server.opened files n) := Connection.execute_commit_idle ticket hplan hnone
    refine ⟨fun p _ hne => absurd ?_ hne, fun e server' herror => .inl ?_⟩
    · rw [step_statement, Action.after_error hidle]
      exact lines?_opened
    · rw [execute_apply, hidle] at herror
      cases herror
      rfl
  | some t =>
    constructor
    · intro p hp hne
      rw [step_commit (Event.plan?_eq_some.2 hplan) ht] at hne
      by_contra hnone
      refine hne (Transaction.lines?_commit_of_ne files server.store fun id hid hplace => hnone ⟨id, hplace, ?_⟩)
      exact h id ⟨t, ht, hid⟩ (by rw [Catalog.below, hplace, hp])
    · intro e server' herror
      rcases Transaction.commit_error files (execute_commit_error ht hplan herror) with he | ⟨id, hid, he, hmissing⟩
      · exact .inr (.inl ⟨t, rfl, Transaction.exists_of_encodeAll_error he⟩)
      · exact .inr (.inr ⟨id, he, hmissing, h id ⟨t, ht, hid⟩⟩)

/-- Once the directory of a staged table is removed, the commit fails. -/
theorem Named.commit_fails (h : server.Named) {t : Transaction} {table : Table} {m' : Memory} {text : String}
    {ticket : Ticket} (hname : isWord name.toList = true)
    (hstore : server.store = m'.removeDirectory (files.databasePath name).place)
    (ht : server.transaction? n = some t) (htable : table ∈ t.staged) (hbelow : files.below name table.id = true)
    (hplan : Plan.ofString text = .ok .commit) :
    ∃ e server', execute files n text ticket server = .error e server' := by
  cases hcommit : execute files n text ticket server with
  | error e server' => exact ⟨e, server', rfl⟩
  | ok outcome server' =>
    obtain ⟨t', count, ht', hcount⟩ := execute_commit_ok hplan hcommit
    obtain rfl := Option.some.inj (ht.symm.trans ht')
    have hword := h.table n table.id ⟨t, ht, .staged htable⟩
    have hdirectory := Transaction.hasDirectory_of_commit files hcount htable
    rw [hstore, Catalog.hasDirectory_removeDirectory hword.1 hword.2 hname hbelow] at hdirectory
    cases hdirectory

/-- Dropping a database keeps what the session knows of other directories. Nothing of its own directory is
left exactly if all names by which the session knew it differ from the dropped one in the case of ASCII
letters only. Then later commits touch the directory only for tables that the session has named since;
a commit with a staged table that is left fails. -/
theorem dropDatabase_forgets_iff (files : Catalog) (m : Memory) (events : List Event) {n text name : String}
    {ticket : Ticket} {outcome : Outcome} {server' : Server Memory}
    (hplan : Plan.ofString text = .ok (.dropDatabase name))
    (hdrop : execute files n text ticket (run files (start m) events) = .ok outcome server') :
    let server := run files (start m) events
    KeepsOthers files server server' n name ∧
      (KnowsNothing files server' n name ↔ ∀ database, server.KnowsDatabase n database →
        Text.lowerCase database = Text.lowerCase name → Text.sameIgnoringCase database name = true) ∧
      (KnowsNothing files server' n name → ∀ later,
        CommitSpares files (run files server' later) n name (TakenUp files server' later n)) ∧
      ∀ t, server'.transaction? n = some t → ∀ table ∈ t.staged, files.below name table.id = true →
        ∀ text ticket, Plan.ofString text = .ok .commit →
          ∃ e server'', execute files n text ticket server' = .error e server'' := by
  intro server
  have hnamed : server.Named := named_start.run events
  have hname : isWord name.toList = true := Plan.isWord_name hplan (Plan.mem_names_of_target? rfl)
  refine ⟨hnamed.keepsOthers hplan hdrop, hnamed.knowsNothing_iff hplan hdrop, fun hnothing later => ?_,
    fun t ht table htable hbelow text ticket hcommit => ?_⟩
  · refine commitSpares fun id hid hbelow => (knows_run hid).resolve_left fun hknew => ?_
    rw [hnothing.table id hknew] at hbelow
    cases hbelow
  · have hnamed' : server'.Named := step_of_execute hdrop ▸ hnamed.step
    obtain ⟨-, -, hstore⟩ := execute_dropDatabase hplan hdrop
    exact hnamed'.commit_fails hname hstore ht htable hbelow hcommit

/-- A session uses a database and has changed a table of it and one of another. -/
def twoDatabasesChanged : List Event :=
  ["CREATE DATABASE e", "USE e", "CREATE TABLE u (n int)", "INSERT INTO u VALUES (1)", "CREATE DATABASE Shop",
    "USE Shop", "CREATE TABLE t (n int)", "INSERT INTO t VALUES (1)", "BEGIN", "UPDATE t SET n = 2", "USE e",
    "UPDATE u SET n = 2", "USE Shop"].map (.statement "a" · ⟨"1"⟩)

set_option maxRecDepth 100000 in
/-- The case of ASCII letters does not matter. -/
theorem dropDatabase_forgets_iff_otherCase :
    let files : Catalog := ⟨⟨"Databases"⟩, "tbl"⟩
    let server := run files (start Memory.empty) twoDatabasesChanged
    Plan.ofString "DROP DATABASE shop" = .ok (.dropDatabase "shop") ∧
      ∃ outcome server', execute files "a" "DROP DATABASE shop" ⟨"2"⟩ server = .ok outcome server' ∧
        KeepsOthers files server server' "a" "shop" ∧ KnowsNothing files server' "a" "shop" ∧
        ∀ later, CommitSpares files (run files server' later) "a" "shop" (TakenUp files server' later "a") := by
  intro files server
  have hplan : Plan.ofString "DROP DATABASE shop" = .ok (.dropDatabase "shop") := rfl
  have h : (Action.result? (execute files "a" "DROP DATABASE shop" ⟨"2"⟩) server).isSome = true ∧
      server.database? "a" = some "Shop" ∧
      (server.transaction? "a").map (fun t => (t.staged.map (·.id), t.locked)) =
        some ([⟨"Shop", "t"⟩, ⟨"e", "u"⟩], [⟨"Shop", "t"⟩, ⟨"e", "u"⟩]) := by
    decide +kernel
  obtain ⟨hdrop, hused, hstaged⟩ := h
  have hshop : Text.sameIgnoringCase "Shop" "shop" = true := by decide +kernel
  have hother : Text.lowerCase "e" ≠ Text.lowerCase "shop" := by decide +kernel
  obtain ⟨outcome, server', hexecute⟩ := Action.exists_ok hdrop
  obtain ⟨hothers, hnothing, hlater, -⟩ :=
    dropDatabase_forgets_iff files Memory.empty twoDatabasesChanged hplan hexecute
  have hnothing' : KnowsNothing files server' "a" "shop" := by
    refine hnothing.2 fun database hknows hlower => ?_
    have hdatabase : database = "Shop" ∨ database = "e" := by
      rcases hknows with hd | ⟨id, ⟨t, ht, hid⟩, rfl⟩
      · exact .inl (Option.some.inj (hd.symm.trans hused))
      · rw [ht] at hstaged
        obtain ⟨hids, hlocked⟩ := Prod.mk.inj (Option.some.inj hstaged)
        have hmem : id ∈ [(⟨"Shop", "t"⟩ : TableId), ⟨"e", "u"⟩] := by
          rcases hid with ⟨table, hm, rfl⟩ | hm
          · exact hids ▸ List.mem_map_of_mem hm
          · exact hlocked ▸ hm
        rcases List.mem_pair.1 hmem with rfl | rfl
        · exact .inl rfl
        · exact .inr rfl
    rcases hdatabase with rfl | rfl
    · exact hshop
    · exact absurd hlower hother
  exact ⟨hplan, outcome, server', hexecute, hothers, hnothing', hlater hnothing'⟩

/-- A session uses a database whose name has a letter that is not ASCII and has changed a table of it. -/
def accentedChanged : List Event :=
  ["CREATE DATABASE É", "USE É", "CREATE TABLE t (n int)", "INSERT INTO t VALUES (1)", "BEGIN",
    "UPDATE t SET n = 2"].map (.statement "a" · ⟨"1"⟩)

set_option maxRecDepth 100000 in
/-- Dropping the database in the other case of the letter leaves the session in it, with a table whose
directory is missing when it is committed. -/
theorem dropDatabase_leaves_accented :
    let files : Catalog := ⟨⟨"Databases"⟩, "tbl"⟩
    let server := run files (start Memory.empty) accentedChanged
    Plan.ofString "DROP DATABASE é" = .ok (.dropDatabase "é") ∧
      ∃ outcome server', execute files "a" "DROP DATABASE é" ⟨"2"⟩ server = .ok outcome server' ∧
        (server'.transaction? "a").any (fun t => t.staged.any (files.below "é" ·.id)) = true ∧
        server'.database? "a" = some "É" ∧ (files.databasePath "É").place = (files.databasePath "é").place ∧
        ∃ fault server'', execute files "a" "COMMIT" ⟨"3"⟩ server' = .error (.io fault) server'' := by
  intro files server
  have hplan : Plan.ofString "DROP DATABASE é" = .ok (.dropDatabase "é") := rfl
  have h : (Action.result? (execute files "a" "DROP DATABASE é" ⟨"2"⟩) server).isSome = true ∧
      let server' := step files server (.statement "a" "DROP DATABASE é" ⟨"2"⟩)
      (server'.transaction? "a").any (fun t => t.staged.any (files.below "é" ·.id)) = true ∧
        server'.database? "a" = some "É" ∧ (files.databasePath "É").place = (files.databasePath "é").place ∧
        (Action.error? (execute files "a" "COMMIT" ⟨"3"⟩) server').any (fun e => e matches .io _) = true := by
    decide +kernel
  obtain ⟨hdrop, hstaged, hused, hplace, hfails⟩ := h
  obtain ⟨outcome, server', hexecute⟩ := Action.exists_ok hdrop
  obtain rfl := step_of_execute hexecute
  obtain ⟨e, server'', hcommit, hio⟩ := Action.exists_error_any hfails
  obtain ⟨fault, rfl⟩ : ∃ fault, e = .io fault := by
    cases e <;> first | exact ⟨_, rfl⟩ | cases hio
  exact ⟨hplan, outcome, _, hexecute, hstaged, hused, hplace, fault, server'', hcommit⟩

end Server

end TextTables
