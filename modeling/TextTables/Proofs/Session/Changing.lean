import TextTables.Proofs.Session.Editing
import TextTables.Proofs.Session.Rollback
import TextTables.Proofs.Store.Contents
import TextTables.Proofs.Transaction.Held
/-!
# What a change of records leaves behind

An update or a deletion takes the lock of its table before it looks at a record. If it changes records, it
stages the table with the new ones and keeps the lock (`change_eq_ok`); if it changes none, or fails while
the lock is its own, it gives back what it has taken (`Attempt`), and then nothing tells the state from the
one before (`unchanged_leaves_no_trace`).
-/

namespace TextTables.Connection

variable {files : Catalog} {ticket : Ticket} {c c' : Connection Memory} {t : Transaction} {table : Table}
  {name : String} {rows : Except Error (List Row × Nat)}

/-! ## Locks -/

section Locks
variable {id : TableId} {m m' : Memory}

/-- Only one's own lock line is on a file before one locks it. -/
theorem Locks.holder_eq (h : Locks files ticket id m m') {ls : List String} {holder : Ticket}
    (hl : files.lines? id m = some ls) (hh : holder? ls = some holder) : holder = ticket := by
  cases h with
  | held hl' hh' =>
    obtain rfl := Option.some.inj (hl.symm.trans hl')
    exact Option.some.inj (hh.symm.trans hh')
  | taken hl' hh' =>
    obtain rfl := Option.some.inj (hl.symm.trans hl')
    rw [hh] at hh'
    cases hh'

theorem Unlockable.not_locks (h : Unlockable files id m) : ¬ Locks files ticket id m m' := by
  intro hlocks
  cases h with
  | missing hnone => cases hlocks <;> simp_all
  | unwritable hl hh hd =>
    cases hlocks with
    | held hl' hh' =>
      obtain rfl := Option.some.inj (hl.symm.trans hl')
      rw [hh] at hh'
      cases hh'
    | taken _ _ hd' =>
      rw [hd] at hd'
      cases hd'

/-- Where every file is in a directory that is there, a transaction ends without a fault. -/
theorem abort_of_rooted (hrooted : c.store.Rooted) (ht : c.transaction = some t) :
    abort files c =
      .ok () { c with transaction := none, store := Action.after (t.abort files) c.store } := by
  rw [abort, Action.bind_ok (activeTransaction_ok ht), Action.bind_ok (Action.modify_apply _ c), onStore_apply]
  unfold Action.after
  cases habort : t.abort files c.store with
  | ok _ store => rfl
  | error e store =>
    refine absurd habort (Transaction.releaseFiles_ne_error fun id _ hl => ?_)
    obtain ⟨ls, hl⟩ := Option.ne_none_iff_exists'.1 hl
    exact Catalog.hasDirectory_of_rooted hrooted hl

/-- The error of a table that another transaction holds says so. -/
theorem lock_foreign (hrooted : c.store.Rooted) (ht : c.transaction = some t) {ls : List String}
    {holder : Ticket} (hl : files.lines? id c.store = some ls) (hh : holder? ls = some holder)
    (hne : holder ≠ t.ticket) : ∃ c', lock files id c = .error (.tableLocked id.name) c' := by
  refine ⟨{ c with transaction := none, store := Action.after (t.abort files) c.store }, ?_⟩
  simp only [lock, acquire_apply files id ht, hl, hh, if_neg hne, abort_of_rooted hrooted ht]

end Locks

/-! ## Changes under a lock -/

/-- Under its lock, what comes of a change of a table is what comes of its records. -/
theorem change_of_locks (ht : c.transaction = some t) {store : Memory}
    (hlocks : Locks files t.ticket table.id c.store store) (rows : Except Error (List Row × Nat)) :
    match rows with
    | .error e => ∃ c', change files table rows c = .error e c'
    | .ok (_, n) => ∃ c', change files table rows c = .ok n c' := by
  rcases change_apply files table rows ht with ⟨hnot, -⟩ | ⟨ls, holder, e, hl, hh, hne, -⟩ |
    ⟨store', again, -, -, hchange⟩
  · exact absurd hlocks hnot.not_locks
  · exact absurd (hlocks.holder_eq hl hh) hne
  · rw [hchange]
    rcases rows with e | ⟨rs, n⟩
    · exact ⟨again, rfl⟩
    · dsimp only
      by_cases hn : 0 < n
      · exact ⟨_, if_pos hn⟩
      · exact ⟨_, if_neg hn⟩

/-- A change that succeeds has locked its table. It stages the table with the new records unless none of
them is changed, and then it has locked it in vain. -/
theorem change_eq_ok (ht : c.transaction = some t) {n : Nat} (h : change files table rows c = .ok n c') :
    ∃ rs store, rows = .ok (rs, n) ∧ Locks files t.ticket table.id c.store store ∧
      (0 < n ∧ c' = { c with transaction := some ((t.hold table.id).stage { table with rows := rs }), store } ∨
        n = 0 ∧ LockedInVain files c t table.id c') := by
  rcases change_apply files table rows ht with ⟨-, e, hchange⟩ | ⟨ls, holder, e, -, -, -, hchange⟩ |
    ⟨store, again, hlocks, hvain, hchange⟩
  · cases hchange.symm.trans h
  · cases hchange.symm.trans h
  · rw [hchange] at h
    rcases rows with e | ⟨rs, count⟩
    · cases h
    · dsimp only at h
      by_cases hcount : 0 < count
      · rw [if_pos hcount] at h
        cases h
        exact ⟨rs, store, rfl, hlocks, .inl ⟨hcount, rfl⟩⟩
      · rw [if_neg hcount] at h
        cases h
        exact ⟨rs, store, rfl, hlocks, .inr ⟨by omega, hvain⟩⟩

/-! ## No trace -/

/-- The second connection has the files of the first, and its transaction has the same tables staged under
the same ticket. -/
structure NoTrace (c c' : Connection Memory) : Prop where
  store : Memory.Same c.store c'.store
  database : c'.database = c.database
  transaction : ∃ t t', c.transaction = some t ∧ c'.transaction = some t' ∧ t'.ticket = t.ticket ∧
    t'.staged = t.staged

namespace NoTrace

theorem refl (ht : c.transaction = some t) : NoTrace c c :=
  ⟨⟨rfl, fun _ => rfl⟩, rfl, t, t, ht, ht, rfl, rfl⟩

theorem staged? (h : NoTrace c c') (id : TableId) : c'.staged? id = c.staged? id := by
  obtain ⟨t, t', ht, ht', -, hstaged⟩ := h.transaction
  simp only [Connection.staged?, ht, ht', Option.bind_some, Transaction.staged?, hstaged]

/-- Every table reads as it did. -/
theorem reads (h : NoTrace c c') (files : Catalog) (name : String) :
    Connection.table files name c' = Connection.table files name c := by
  have hlines (id : TableId) : files.lines? id c'.store = files.lines? id c.store := h.store.lines _
  simp only [Connection.table, Connection.table?, tableId, h.database, h.staged?, Catalog.tableExists_eq,
    Catalog.load_eq, hlines]

end NoTrace

theorem LockedInVain.noTrace {id : TableId} (h : LockedInVain files c t id c') (ht : c.transaction = some t) :
    NoTrace c c' := by
  cases h with
  | kept => exact ⟨⟨rfl, fun _ => rfl⟩, rfl, t, _, ht, rfl, rfl, rfl⟩
  | givenBack hl _ =>
    exact ⟨⟨rfl, fun p => Memory.lines?_put_of_lines? hl⟩, rfl, t, _, ht, rfl, rfl, rfl⟩

/-- After a change that succeeds its table reads with the new records, and every other table that is staged
is as it was. -/
theorem change_reads (ht : c.transaction = some t) (htable : Connection.table files name c = .ok table)
    (hzero : ∀ rs, rows = .ok (rs, 0) → rs = table.rows) {n : Nat}
    (h : change files table rows c = .ok n c') :
    ∃ rs, rows = .ok (rs, n) ∧ Connection.table files name c' = .ok { table with rows := rs } ∧
      ∀ id, c'.staged? id =
        if 0 < n ∧ id = table.id then some { table with rows := rs } else c.staged? id := by
  obtain ⟨rs, store, hrows, -, ⟨hn, rfl⟩ | ⟨rfl, hvain⟩⟩ := change_eq_ok ht h
  · have hstaged (id : TableId) : ((t.hold table.id).stage { table with rows := rs }).staged? id =
        if 0 < n ∧ id = table.id then some { table with rows := rs } else c.staged? id := by
      rw [Transaction.staged?_stage, Connection.staged?, ht]
      simp only [hn, true_and, eq_comm (a := id)]
      rfl
    refine ⟨rs, hrows, table_staged (table_eq_ok htable).1 ?_, hstaged⟩
    exact (hstaged table.id).trans (if_pos ⟨hn, rfl⟩)
  · have hno := hvain.noTrace ht
    obtain rfl := hzero rs hrows
    refine ⟨table.rows, hrows, (hno.reads files name).trans htable, fun id => ?_⟩
    rw [if_neg fun hboth => Nat.lt_irrefl 0 hboth.1]
    exact hno.staged? id

/-! ## Attempts -/

/-- How an attempt to change records ends, with the number of those that it changes. It ends the transaction
where another one holds the table. -/
inductive Attempt (c : Connection Memory) {α : Type} (count : α → Nat) :
    EStateM.Result Error (Connection Memory) α → Prop
  | changed {a : α} {c' : Connection Memory} : 0 < count a → Attempt c count (.ok a c')
  | unchanged {a : α} {c' : Connection Memory} : count a = 0 → NoTrace c c' → Attempt c count (.ok a c')
  | failed {e : Error} {c' : Connection Memory} : NoTrace c c' → Attempt c count (.error e c')
  | ended {e : Error} {c' : Connection Memory} : c'.transaction = none →
      (c.store.Rooted → ∃ name, e = .tableLocked name) → Attempt c count (.error e c')

theorem Attempt.bind_pure {α β : Type} {count : α → Nat} {count' : β → Nat} {x : Action (Connection Memory) α}
    (h : Attempt c count (x c)) {f : α → β} (hf : ∀ a, count' (f a) = count a) :
    Attempt c count' ((x >>= fun a => pure (f a)) c) := by
  rw [Action.bind_apply]
  generalize x c = r at h
  cases h with
  | changed hpos => exact .changed (by rwa [hf])
  | unchanged hzero hno => exact .unchanged (by rwa [hf]) hno
  | failed hno => exact .failed hno
  | ended hidle hlocked => exact .ended hidle hlocked

theorem change_attempt (ht : c.transaction = some t) (table : Table) (rows : Except Error (List Row × Nat)) :
    Attempt c id (change files table rows c) := by
  rcases change_apply files table rows ht with ⟨-, e, hchange⟩ | ⟨ls, holder, e, hl, hh, hne, hchange⟩ |
    ⟨store, again, -, hvain, hchange⟩
  · rw [hchange]
    exact .failed (.refl ht)
  · rw [hchange]
    refine .ended rfl fun hrooted => ⟨table.id.name, ?_⟩
    obtain ⟨c', hlock⟩ := lock_foreign hrooted ht hl hh hne
    rw [change, Action.bind_error hlock] at hchange
    cases hchange
    rfl
  · rw [hchange]
    rcases rows with e | ⟨rs, n⟩
    · exact .failed (hvain.noTrace ht)
    · dsimp only
      by_cases hn : 0 < n
      · rw [if_pos hn]
        exact .changed hn
      · rw [if_neg hn]
        exact .unchanged (Nat.eq_zero_of_not_pos hn) (hvain.noTrace ht)

theorem update_attempt (ht : c.transaction = some t) (name : String)
    (columns : List (String × Expression)) (condition : Option Expression) :
    Attempt c id (update files name columns condition c) := by
  rw [update_apply files name columns condition ht]
  cases Connection.table files name c with
  | error e => exact .failed (.refl ht)
  | ok table =>
    dsimp only
    cases resolveColumns table.schema columns with
    | error e => exact .failed (.refl ht)
    | ok assignments => exact change_attempt ht table _

theorem delete_attempt (ht : c.transaction = some t) (name : String) (condition : Option Expression) :
    Attempt c id (delete files name condition c) := by
  rw [delete_apply files name condition ht]
  cases Connection.table files name c with
  | error e => exact .failed (.refl ht)
  | ok table => exact change_attempt ht table _

/-- A plan that changes the records of a table makes an attempt at it. -/
theorem run_attempt {plan : Plan} (ht : c.transaction = some t) (hplan : changedTable? plan = some name) :
    Attempt c Outcome.modified (run files ticket plan c) := by
  cases plan with
  | update name columns condition => exact (update_attempt ht _ _ _).bind_pure fun _ => rfl
  | delete name condition => exact (delete_attempt ht _ _).bind_pure fun _ => rfl
  | _ => cases hplan

/-- An update or a deletion in an active transaction that tells of no changed record, or that fails other
than at a table that another transaction holds, leaves no trace: every file has the lines that it had, and
the transaction is active under the same ticket with the same tables staged. -/
theorem unchanged_leaves_no_trace (files : Catalog) (c : Connection Memory) (hstore : c.store.Built)
    (hactive : c.isActive = true) (ticket : Ticket) {plan : Plan} {name : String}
    (hplan : changedTable? plan = some name) :
    (∀ outcome c', run files ticket plan c = .ok outcome c' → outcome.modified = 0 → NoTrace c c') ∧
    ∀ e c', run files ticket plan c = .error e c' → (∀ locked, e ≠ .tableLocked locked) → NoTrace c c' := by
  obtain ⟨t, ht⟩ := Option.isSome_iff_exists.1 hactive
  have hattempt : Attempt c Outcome.modified (run files ticket plan c) := run_attempt ht hplan
  constructor
  · intro outcome c' hrun hzero
    rw [hrun] at hattempt
    cases hattempt with
    | changed hpos => omega
    | unchanged _ hno => exact hno
  · intro e c' hrun hne
    rw [hrun] at hattempt
    cases hattempt with
    | failed hno => exact hno
    | ended _ hlocked =>
      obtain ⟨name, rfl⟩ := hlocked hstore.rooted
      exact absurd rfl (hne name)

section Ledger

/-- A table of two amounts, as operations write it. -/
def ledger : Memory :=
  Action.after (Storage.write ⟨"Databases/d/a.tbl"⟩ ["n int|name text", "1|ann", "2|bob"])
    (Action.after (Storage.createDirectory ⟨"Databases/d"⟩) Memory.empty)

/-- The update that adds the greatest integer but one to every amount. -/
def overflowing : Plan :=
  .update "a" [("n", .binary (.compute .add) (.field ⟨none, "n"⟩) (.constant (.integer 9223372036854775806)))] none

/-- The deletion of the records of nobody. -/
def deletingNobody : Plan :=
  .delete "a" (some (.binary (.compare .equal) (.field ⟨none, "name"⟩) (.constant (.text ""))))

/-- Whether a value has not the type that is needed of it. -/
def isMismatch : Error → Bool
  | .typeMismatch _ => true
  | _ => false

set_option maxRecDepth 100000 in
/-- The first amount can be raised and the second cannot, and no record is one of nobody. -/
theorem unchanged_leaves_no_trace_ledger :
    let files : Catalog := ⟨⟨"Databases"⟩, "tbl"⟩
    let c : Connection Memory := ⟨⟨some (.start ⟨"1"⟩), some "d"⟩, ledger⟩
    (∃ e c', run files ⟨"2"⟩ overflowing c = .error e c' ∧ isMismatch e = true ∧ NoTrace c c') ∧
    ∃ outcome c', run files ⟨"2"⟩ deletingNobody c = .ok outcome c' ∧ outcome.modified = 0 ∧ NoTrace c c' := by
  intro files c
  have hstore : ledger.Built := by
    unfold ledger
    exact .wrote _ _ (.createdDirectory _ .empty)
  have hupdates : changedTable? overflowing = some "a" := rfl
  have hdeletes : changedTable? deletingNobody = some "a" := rfl
  have hoverflows : ((run files ⟨"2"⟩ overflowing).error? c).any isMismatch = true := by
    decide +kernel
  have hnobody : ((run files ⟨"2"⟩ deletingNobody).result? c).map Outcome.modified = some 0 := by
    decide +kernel
  constructor
  · obtain ⟨e, c', hrun, hmismatch⟩ := Action.exists_error_any hoverflows
    have hlocked : ∀ name, e ≠ .tableLocked name := by
      rintro name rfl
      cases hmismatch
    exact ⟨e, c', hrun, hmismatch,
      (unchanged_leaves_no_trace files c hstore rfl ⟨"2"⟩ hupdates).2 e c' hrun hlocked⟩
  · obtain ⟨outcome, hresult, hzero⟩ := Option.map_eq_some_iff.1 hnobody
    obtain ⟨c', hrun⟩ := Action.result?_eq_some.1 hresult
    exact ⟨outcome, c', hrun, hzero,
      (unchanged_leaves_no_trace files c hstore rfl ⟨"2"⟩ hdeletes).1 outcome c' hrun hzero⟩

end Ledger

end TextTables.Connection
