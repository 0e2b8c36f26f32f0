import TextTables.Proofs.Server.Step
/-!
# Failed commits

All staged tables are encoded before the first file is written, but a file cannot be written whose
directory is missing, and those in front of it have been written then. `failed_commit_keeps_iff`
says when a commit that fails leaves the contents of all files as they were.
-/

namespace TextTables

namespace Server

variable {files : Catalog} {server server' : Server Memory} {n text : String} {ticket : Ticket}
  {t : Transaction} {e : Error}

/-- A failed commit leaves every file as it was, lock lines aside, exactly if the lines it has put in
files up to the first staged table whose directory is missing are those that the files had. -/
theorem failed_commit_keeps_iff (ht : server.transaction? n = some t)
    (hplan : Plan.ofString text = .ok .commit)
    (h : execute files n text ticket server = .error e server') :
    (∀ p, (server'.store.lines? p).map contents = (server.store.lines? p).map contents) ↔
      ∀ p entry, Transaction.lastAt files (Transaction.written files server.store t) p = some entry →
        (server.store.lines? p).map contents = some (contents entry.2) := by
  have hr := Transaction.commit_released files server.store t
  rw [Action.after_error (execute_commit_error ht hplan h)] at hr
  have hlines (p : Place) := Transaction.lines?_putAll files server.store
    (Transaction.written files server.store t) p
  constructor
  · intro hkeeps p entry hlast
    rw [← hkeeps p, hr.contents_eq p, hlines p, hlast, Option.map_some]
  · intro hsame p
    rw [hr.contents_eq p, hlines p]
    cases hlast : Transaction.lastAt files (Transaction.written files server.store t) p with
    | none => rfl
    | some entry => exact (hsame p entry hlast).symm

/-- A session stages tables of two databases, and another drops the second of them. -/
def droppedUnderneath : List Event :=
  [.statement "a" "CREATE DATABASE d" ⟨"1"⟩, .statement "a" "CREATE DATABASE e" ⟨"1"⟩,
   .statement "a" "USE d" ⟨"1"⟩, .statement "a" "CREATE TABLE t (n int)" ⟨"1"⟩,
   .statement "a" "INSERT INTO t VALUES (1)" ⟨"1"⟩,
   .statement "a" "USE e" ⟨"1"⟩, .statement "a" "CREATE TABLE t (n int)" ⟨"1"⟩,
   .statement "a" "INSERT INTO t VALUES (1)" ⟨"1"⟩,
   .statement "a" "BEGIN" ⟨"1"⟩, .statement "a" "UPDATE t SET n = 2" ⟨"1"⟩,
   .statement "a" "USE d" ⟨"1"⟩, .statement "a" "UPDATE t SET n = 2" ⟨"1"⟩,
   .statement "b" "DROP DATABASE e" ⟨"2"⟩]

set_option maxRecDepth 100000 in
theorem failed_commit_keeps_iff_droppedUnderneath :
    let files : Catalog := ⟨⟨"Databases"⟩, "tbl"⟩
    let server := run files (start Memory.empty) droppedUnderneath
    ∃ t e server', server.transaction? "a" = some t ∧ Plan.ofString "COMMIT" = .ok .commit ∧
      execute files "a" "COMMIT" ⟨"3"⟩ server = .error e server' ∧
      ((∀ p, (server'.store.lines? p).map contents = (server.store.lines? p).map contents) ↔
        ∀ p entry,
          Transaction.lastAt files (Transaction.written files server.store t) p = some entry →
          (server.store.lines? p).map contents = some (contents entry.2)) := by
  intro files server
  obtain ⟨hactive, hfails⟩ : (server.transaction? "a").isSome = true ∧
      (Action.result? (execute files "a" "COMMIT" ⟨"3"⟩) server).isNone = true := by
    decide +kernel
  obtain ⟨t, ht⟩ := Option.isSome_iff_exists.1 hactive
  obtain ⟨e, server', h⟩ := Action.exists_error hfails
  exact ⟨t, e, server', ht, rfl, h, failed_commit_keeps_iff ht rfl h⟩

set_option maxRecDepth 100000 in
/-- The commit fails, and the table of the first database has been written. -/
theorem failed_commit_writes :
    let files : Catalog := ⟨⟨"Databases"⟩, "tbl"⟩
    let server := run files (start Memory.empty) droppedUnderneath
    server.store.files = [(["Databases", "d", "t.tbl"], ["&1", "n int", "1"])] ∧
    (∀ outcome server', execute files "a" "COMMIT" ⟨"3"⟩ server ≠ .ok outcome server') ∧
    (step files server (.statement "a" "COMMIT" ⟨"3"⟩)).store.files =
      [(["Databases", "d", "t.tbl"], ["n int", "2"])] := by
  intro files server
  obtain ⟨hbefore, hfails, hafter⟩ : server.store.files = [(["Databases", "d", "t.tbl"], ["&1", "n int", "1"])] ∧
      (Action.result? (execute files "a" "COMMIT" ⟨"3"⟩) server).isNone = true ∧
      (step files server (.statement "a" "COMMIT" ⟨"3"⟩)).store.files =
        [(["Databases", "d", "t.tbl"], ["n int", "2"])] := by
    decide +kernel
  refine ⟨hbefore, fun outcome server' hok => ?_, hafter⟩
  obtain ⟨e, server'', herror⟩ := Action.exists_error hfails
  cases hok.symm.trans herror

end Server

end TextTables
