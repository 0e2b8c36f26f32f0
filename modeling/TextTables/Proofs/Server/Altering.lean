import TextTables.Proofs.Server.Reloading
import TextTables.Proofs.Session.Altering
/-!
# Alterations that fail

Whatever sessions have done over a store that was empty at first, an alteration that fails leaves every
file as it was. It leaves the staged copy of the table as it was too, unless the copy lacked a field that
the file has: `alter_failed_iff`.
-/

namespace TextTables.Server

variable {files : Catalog} {server : Server Memory}

/-! ## Files in directories -/

theorem rooted_opened (h : server.store.Rooted) (name : String) : (server.opened files name).store.Rooted := by
  simp only [opened]
  cases server.session? name with
  | some session => exact h
  | none =>
    simp only [Action.after_ok (files.init_apply server.store)]
    split
    · exact h
    · exact h.addDirectory _

theorem rooted_step (h : server.store.Rooted) (event : Event) : (step files server event).store.Rooted := by
  cases event with
  | statement name text ticket =>
    rw [step_statement, Connection.execute]
    cases hplan : Plan.ofString text with
    | error e =>
      rw [Action.after_bind_error (Action.of_error rfl _)]
      exact rooted_opened h name
    | ok plan =>
      rw [Action.after_bind_ok (Action.of_ok rfl _)]
      exact Connection.run_rooted ticket plan (rooted_opened h name)
  | close name =>
    have hstep := step_stepped files server (.close name)
    generalize step files server (.close name) = server' at hstep
    cases hstep with
    | closed => exact (Transaction.abort_released files _ _).rooted h
    | closedIdle => exact h

theorem rooted_run (h : server.store.Rooted) (events : List Event) :
    (run files server events).store.Rooted :=
  run_inv (P := fun server => server.store.Rooted) (fun _ event h => rooted_step h event) h events

theorem rooted_empty : Memory.empty.Rooted := by
  intro p ls hl
  cases hl

/-! ## Alterations -/

variable (files) in
/-- The session has staged a copy of a table that lacks a field of its file, which no other transaction
holds. -/
def LacksFieldOfFile (server : Server Memory) (n : String) (id : TableId) (fieldName : String) : Prop :=
  ∃ copy ls table, server.staged? n id = some copy ∧ files.lines? id server.store = some ls ∧
    decodeTable id ls = .ok (holder? ls, table) ∧
    (∀ holder, holder? ls = some holder → (server.transaction? n).map (·.ticket) = some holder) ∧
    ¬ copy.Names fieldName ∧ table.Names fieldName

theorem lacksFieldOfFile_opened {n : String} {id : TableId} {fieldName : String} :
    Connection.LacksFieldOfFile files (server.opened files n) id fieldName ↔
      LacksFieldOfFile files server n id fieldName := by
  have hlines : files.lines? id (server.opened files n).store = files.lines? id server.store := lines?_opened
  simp only [Connection.LacksFieldOfFile, LacksFieldOfFile, staged?_opened, hlines, Connection.Free,
    Connection.ticket?, opened_transaction]
  constructor
  · rintro ⟨copy, ls, holder, table, hs, hl, hfree, hd, hnames⟩
    obtain rfl := decodeTable_ticket hd
    exact ⟨copy, ls, table, hs, hl, hd, hfree, hnames⟩
  · rintro ⟨copy, ls, table, hs, hl, hd, hfree, hnames⟩
    exact ⟨copy, ls, holder? ls, table, hs, hl, hfree, hd, hnames⟩

theorem tableId_opened_eq_ok {n name : String} {id : TableId} :
    Connection.tableId name (server.opened files n) = .ok id ↔
      ∃ database, server.database? n = some database ∧ id = ⟨database, name⟩ := by
  rw [Connection.tableId, opened_database]
  cases server.database? n with
  | none => simp
  | some database => simp [eq_comm]

/-- In every state that sessions reach over a store that was empty at first, an alteration that fails
leaves every file as it was, and every staged copy but that of its table. It leaves that copy as it was
exactly if the copy did not lack a field of the name that the file had; otherwise the copy has taken the
field and keeps it. -/
theorem alter_failed_iff (files : Catalog) (events : List Event) (n text name : String) (field : Field)
    (ticket : Ticket) (e : Error) (server' : Server Memory)
    (hplan : Plan.ofString text = .ok (.alterTable name field))
    (herror : execute files n text ticket (run files (start Memory.empty) events) = .error e server') :
    let server := run files (start Memory.empty) events
    (∀ p, server'.store.lines? p = server.store.lines? p) ∧
    (∀ other id, (∀ database, server.database? n = some database → (other, id) ≠ (n, ⟨database, name⟩)) →
      server'.staged? other id = server.staged? other id) ∧
    ∀ database, server.database? n = some database →
      (server'.staged? n ⟨database, name⟩ = server.staged? n ⟨database, name⟩ ↔
        ¬ LacksFieldOfFile files server n ⟨database, name⟩ field.name) ∧
      (LacksFieldOfFile files server n ⟨database, name⟩ field.name →
        ∃ copy copy', server.staged? n ⟨database, name⟩ = some copy ∧ copy.addField field = .ok copy' ∧
          server'.staged? n ⟨database, name⟩ = some copy') := by
  intro server
  have hwell : server.WellFormed := wellFormed_start.run events
  have hrooted : server.store.Rooted := rooted_run rooted_empty events
  have hfield : field.WellFormed := Plan.proper_of_ofString hplan
  change execute files n text ticket server = .error e server' at herror
  clear_value server
  rw [execute_apply, Connection.execute, Action.bind_ok (Action.of_ok hplan _), Connection.run] at herror
  rcases Connection.alterTable_cases (hwell.opened n) (rooted_opened hrooted n) hfield name with
    ⟨c', halter⟩ | ⟨e', halter, hlacks⟩ | ⟨id, t, copy, copy', hid, hlacks, ht, hs, hadd, halter⟩
  · rw [Action.bind_ok halter] at herror
    cases herror
  · rw [Action.bind_error halter] at herror
    cases herror
    refine ⟨fun p => lines?_opened, fun other id _ => staged?_leave_of_transaction rfl, fun database hdatabase => ?_⟩
    have hnot := hlacks _ (tableId_opened_eq_ok.2 ⟨database, hdatabase, rfl⟩)
    rw [lacksFieldOfFile_opened] at hnot
    exact ⟨iff_of_true (staged?_leave_of_transaction rfl) hnot, fun h => absurd h hnot⟩
  · rw [Action.bind_error halter] at herror
    cases herror
    obtain ⟨database, hdatabase, rfl⟩ := tableId_opened_eq_ok.1 hid
    rw [lacksFieldOfFile_opened] at hlacks
    -- The copy with the field has taken the place of the copy without it.
    obtain ⟨t', ht', hst⟩ := Connection.staged?_eq_some.1 hs
    obtain rfl := Option.some.inj (ht.symm.trans ht')
    have hidCopy : copy'.id = ⟨database, name⟩ :=
      (Table.addField_id hadd).trans (Transaction.staged?_eq_some hst).2
    have hstaged (id : TableId) :
        ({ server.opened files n with transaction := some (t.stage copy') } : Connection Memory).staged? id =
          if ⟨database, name⟩ = id then some copy' else (server.opened files n).staged? id := by
      rw [Connection.staged?, Connection.staged?, ht, Option.bind_some, Option.bind_some,
        Transaction.staged?_stage, hidCopy]
    have hafter := hstaged ⟨database, name⟩
    rw [if_pos rfl] at hafter
    rw [staged?_opened] at hs
    refine ⟨fun p => lines?_opened, fun other id hid => ?_, fun database' hdatabase' => ?_⟩
    · rw [staged?_leave]
      split
      · next hother =>
        subst hother
        rw [hstaged, if_neg fun heq => hid database hdatabase (by rw [heq]), staged?_opened]
      · rfl
    · obtain rfl := Option.some.inj (hdatabase.symm.trans hdatabase')
      rw [staged?_leave, if_pos rfl, hafter, hs]
      refine ⟨iff_of_false (fun heq => ?_) (not_not.2 hlacks), fun _ => ⟨copy, copy', rfl, hadd, rfl⟩⟩
      exact Table.addField_ne hadd (Option.some.inj heq)

set_option maxRecDepth 100000 in
/-- The staged copy and the file both have the field that is added again, and nothing changes. -/
theorem alter_failed_iff_updatedOnce :
    let files : Catalog := ⟨⟨"Databases"⟩, "tbl"⟩
    let server := run files (start Memory.empty) updatedOnce
    ∃ e server', execute files "a" "ALTER TABLE t ADD n int" ⟨"7"⟩ server = .error e server' ∧
      (∀ p, server'.store.lines? p = server.store.lines? p) ∧
      (server.staged? "a" ⟨"d", "t"⟩).isSome = true ∧
      server'.staged? "a" ⟨"d", "t"⟩ = server.staged? "a" ⟨"d", "t"⟩ := by
  intro files server
  have hfails : (Action.result? (execute files "a" "ALTER TABLE t ADD n int" ⟨"7"⟩) server).isNone = true := by
    decide +kernel
  have hnames : ((server.staged? "a" ⟨"d", "t"⟩).map (·.schema.fields.map (·.name))) = some ["n"] := by
    decide +kernel
  have hdatabase : server.database? "a" = some "d" := by decide +kernel
  have hserver : server = run files (start Memory.empty) updatedOnce := rfl
  clear_value server
  obtain ⟨e, server', hexecute⟩ := Action.exists_error hfails
  have hplan : Plan.ofString "ALTER TABLE t ADD n int" = .ok (.alterTable "t" ⟨"n", "int", .integer, none⟩) := rfl
  have hfailed := alter_failed_iff files updatedOnce "a" "ALTER TABLE t ADD n int" "t" _ ⟨"7"⟩ e server' hplan
    (hserver ▸ hexecute)
  dsimp only at hfailed
  rw [← hserver] at hfailed
  obtain ⟨hfiles, -, hcopies⟩ := hfailed
  obtain ⟨copy, hcopy, hfields⟩ := Option.map_eq_some_iff.1 hnames
  refine ⟨e, server', hexecute, hfiles, by rw [hcopy]; rfl, (hcopies "d" hdatabase).1.2 ?_⟩
  rintro ⟨copy', ls, table, hcopy', -, -, -, hlacks, -⟩
  obtain rfl := Option.some.inj (hcopy.symm.trans hcopy')
  obtain ⟨field, hfield, hname⟩ := List.map_eq_singleton_iff.1 hfields
  exact hlacks ⟨field, by simp [hfield], hname⟩

/-- The session adds a field to the file, under another spelling of the name than that of its copy. -/
def alteredOtherwise : List Event := updatedOnce ++ [.statement "a" "ALTER TABLE T ADD m int" ⟨"7"⟩]

set_option maxRecDepth 100000 in
/-- Adding the field to the table fails, since the file has it, and leaves it in the staged copy. -/
theorem failed_alter_keeps_field :
    let files : Catalog := ⟨⟨"Databases"⟩, "tbl"⟩
    let server := run files (start Memory.empty) alteredOtherwise
    ∃ e server', execute files "a" "ALTER TABLE t ADD m int" ⟨"8"⟩ server = .error e server' ∧
      server'.staged? "a" ⟨"d", "t"⟩ ≠ server.staged? "a" ⟨"d", "t"⟩ := by
  intro files server
  have hfails : (Action.result? (execute files "a" "ALTER TABLE t ADD m int" ⟨"8"⟩) server).isNone = true := by
    decide +kernel
  have hafter : (((step files server (.statement "a" "ALTER TABLE t ADD m int" ⟨"8"⟩)).staged? "a" ⟨"d", "t"⟩).map
      (·.schema.fields.map (·.name))) = some ["n", "m"] := by
    decide +kernel
  have hbefore : ((server.staged? "a" ⟨"d", "t"⟩).map (·.schema.fields.map (·.name))) = some ["n"] := by
    decide +kernel
  clear_value server
  obtain ⟨e, server', hexecute⟩ := Action.exists_error hfails
  simp only [step, hexecute] at hafter
  refine ⟨e, server', hexecute, fun hsame => ?_⟩
  have hnames : some ["n", "m"] = some ["n"] := by rw [← hafter, ← hbefore, ← hsame]
  exact absurd hnames (by decide)

end TextTables.Server
