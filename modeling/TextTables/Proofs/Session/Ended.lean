import TextTables.Proofs.Session.Effect
import TextTables.Proofs.Store.Disk
import TextTables.Proofs.Transaction.Freeing
/-!
# Sessions whose transaction has ended

After a commit and after an abort, whether or not they succeed, no transaction is active.
`ended_frees_iff` says for every store when no lock line of the transaction is left on a held table
that can be read and written.
-/

namespace TextTables.Connection

open Transaction

variable {σ : Type} [Storage σ] [Storage.Lawful σ] {files : Catalog} {c : Connection σ}
  {t : Transaction}

/-- Ending a transaction leaves none active. Of the held tables that could be freed it leaves none, but
for those behind the table where a loop stops short: an abort is one such loop, and a commit is one once
all staged tables are written. -/
theorem ended_frees_iff (ht : c.transaction = some t)
    (honce : ∀ id ∈ t.locked, LockedOnce files t.ticket id c.store)
    (hstaged : ∀ table ∈ t.staged, isLockLine table.schema.encode = false) :
    (Action.after (abort files) c).transaction = none ∧
    (Action.after (commit files) c).transaction = none ∧
    ((∀ id ∈ t.locked, ¬ Freeable files t.ticket id (Action.after (abort files) c).store) ↔
      ¬ StopsShort files t.ticket t.locked c.store) ∧
    ((∀ id ∈ t.locked, ¬ Freeable files t.ticket id (Action.after (commit files) c).store) ↔
      ∀ store, writeStaged files t c.store = .ok () store →
        ¬ StopsShort files t.ticket t.unchanged store) := by
  rw [after_abort files ht, after_commit files ht]
  exact ⟨rfl, rfl, abort_frees_iff honce, commit_frees_iff honce hstaged⟩

/-- A session on disk holds the tables a, b and t and has staged t, and the file of a is replaced by a
byte that is not text. -/
def spoiledUnderneath : Connection Disk :=
  let files : Catalog := ⟨⟨"Databases"⟩, "tbl"⟩
  let schema : Schema := ⟨[⟨"n", "int", .integer, none⟩]⟩
  let actions : Action (Connection Disk) Unit := do
    onStore files.init
    let _ ← onStore (files.createDatabase "db")
    for name in ["a", "b", "t"] do
      let _ ← onStore (files.createTable ⟨"db", name⟩ schema)
    begin ⟨"1"⟩
    for name in ["a", "b", "t"] do
      let _ ← acquire files ⟨"db", name⟩
    stage ⟨⟨"db", "t"⟩, schema, []⟩
    modify fun c => { c with store := c.store.place (files.tablePath ⟨"db", "a"⟩) ⟨#[255]⟩ }
  Action.after actions ⟨.start, .empty⟩

theorem ended_frees_iff_spoiledUnderneath :
    let files : Catalog := ⟨⟨"Databases"⟩, "tbl"⟩
    let c := spoiledUnderneath
    ∃ t, c.transaction = some t ∧ (∀ id ∈ t.locked, LockedOnce files t.ticket id c.store) ∧
      (∀ table ∈ t.staged, isLockLine table.schema.encode = false) ∧
      (Action.after (abort files) c).transaction = none ∧
      (Action.after (commit files) c).transaction = none ∧
      ((∀ id ∈ t.locked, ¬ Freeable files t.ticket id (Action.after (abort files) c).store) ↔
        ¬ StopsShort files t.ticket t.locked c.store) ∧
      ((∀ id ∈ t.locked, ¬ Freeable files t.ticket id (Action.after (commit files) c).store) ↔
        ∀ store, writeStaged files t c.store = .ok () store →
          ¬ StopsShort files t.ticket t.unchanged store) := by
  intro files c
  have h : c.transaction.any (fun t =>
      decide (∀ id ∈ t.locked, LockedOnce files t.ticket id c.store) &&
        decide (∀ table ∈ t.staged, isLockLine table.schema.encode = false)) = true := by
    decide +kernel
  obtain ⟨t, ht, hfacts⟩ := (Option.any_eq_true ..).1 h
  obtain ⟨honce, hstaged⟩ := (Bool.and_eq_true ..).mp hfacts
  have honce := of_decide_eq_true honce
  have hstaged := of_decide_eq_true hstaged
  exact ⟨t, ht, honce, hstaged, ended_frees_iff ht honce hstaged⟩

/-- The abort and the commit both stop at the file of a, and leave the lock line on the table b, whose
file can be read and written. -/
theorem ended_leaves_lock :
    let files : Catalog := ⟨⟨"Databases"⟩, "tbl"⟩
    let c := spoiledUnderneath
    ∃ t, c.transaction = some t ∧ ⟨"db", "b"⟩ ∈ t.locked ∧
      Freeable files t.ticket ⟨"db", "b"⟩ (Action.after (abort files) c).store ∧
      Freeable files t.ticket ⟨"db", "b"⟩ (Action.after (commit files) c).store := by
  intro files c
  have h : c.transaction.any (fun t => decide (⟨"db", "b"⟩ ∈ t.locked) &&
      decide (Freeable files t.ticket ⟨"db", "b"⟩ (Action.after (abort files) c).store) &&
      decide (Freeable files t.ticket ⟨"db", "b"⟩ (Action.after (commit files) c).store)) = true := by
    decide +kernel
  obtain ⟨t, ht, hfacts⟩ := (Option.any_eq_true ..).1 h
  simp only [Bool.and_eq_true, decide_eq_true_eq] at hfacts
  exact ⟨t, ht, hfacts.1.1, hfacts.1.2, hfacts.2⟩

end TextTables.Connection
