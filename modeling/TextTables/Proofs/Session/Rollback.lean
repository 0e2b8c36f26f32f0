import TextTables.Proofs.Session.Effect
/-!
# Changes that are not committed

Queries, updates and deletions leave nothing in the store but the lock lines of their transaction:
`Marked` says that a store is an earlier one with a ticket's lock line on the files of some tables,
which are the tables that the transaction holds. Every table reads there as it did before, and taking
the lock lines off gives the earlier store back.
-/

namespace TextTables

/-- A store is as it was before, but for a ticket's lock line at the top of the files of some tables,
which were there and which nobody held. -/
structure Marked (files : Catalog) (before : Memory) (ticket : Ticket) (ids : List TableId)
    (m : Memory) : Prop where
  directories : m.directories = before.directories
  lines (p : Place) : m.lines? p =
    if p ∈ ids.map files.place then (before.lines? p).map (ticket.lockLine :: ·) else before.lines? p
  free : ∀ id ∈ ids, files.hasDirectory id before = true ∧
    ∃ ls, files.lines? id before = some ls ∧ holder? ls = none

/-- No file of a store begins with a ticket's lock line. -/
def Unheld (ticket : Ticket) (m : Memory) : Prop :=
  ∀ p ls, m.lines? p = some ls → holder? ls ≠ some ticket

theorem Unheld.of_files {ticket : Ticket} {m : Memory}
    (h : ∀ file ∈ m.files, holder? file.2 ≠ some ticket) : Unheld ticket m :=
  fun _ _ hl => h _ (Memory.mem_files_of_lines? hl)

namespace Marked

variable {files : Catalog} {before m : Memory} {ticket : Ticket} {ids ids' : List TableId} {id : TableId}
  {ls : List String}

theorem same (h : Marked files before ticket [] m) : Memory.Same before m :=
  ⟨h.directories, fun p => h.lines p⟩

theorem of_same (h : Memory.Same before m) : Marked files before ticket [] m :=
  ⟨h.directories, fun p => h.lines p, by simp⟩

/-- Which files have the lock line matters, not the spellings of their tables. -/
theorem congr (h : Marked files before ticket ids m)
    (hplaces : ∀ p, p ∈ ids'.map files.place ↔ p ∈ ids.map files.place) :
    Marked files before ticket ids' m := by
  refine ⟨h.directories, fun p => ?_, fun id' hid' => ?_⟩
  · rw [h.lines p]
    simp only [hplaces]
  · obtain ⟨id, hid, hp⟩ := List.mem_map.1 ((hplaces _).1 (List.mem_map_of_mem hid'))
    obtain ⟨hd, ls, hl, hh⟩ := h.free id hid
    refine ⟨(Catalog.hasDirectory_of_place before hp.symm).trans hd, ls, ?_, hh⟩
    rw [Catalog.lines?, ← hp]
    exact hl

theorem lines?_of_mem (h : Marked files before ticket ids m) (hp : files.place id ∈ ids.map files.place) :
    ∃ ls, files.lines? id before = some ls ∧ holder? ls = none ∧
      files.lines? id m = some (ticket.lockLine :: ls) := by
  obtain ⟨other, hother, hplace⟩ := List.mem_map.1 hp
  obtain ⟨-, ls, hl, hh⟩ := h.free other hother
  have hl : files.lines? id before = some ls := by
    rw [Catalog.lines?, ← hplace]
    exact hl
  refine ⟨ls, hl, hh, (h.lines _).trans ?_⟩
  rw [Catalog.lines?] at hl
  rw [if_pos hp, hl, Option.map_some]

theorem lines?_of_not_mem (h : Marked files before ticket ids m)
    (hp : files.place id ∉ ids.map files.place) : files.lines? id m = files.lines? id before :=
  (h.lines _).trans (if_neg hp)

/-- The files that begin with the lock line are those of the tables. -/
theorem holder?_iff (h : Marked files before ticket ids m) (hnew : Unheld ticket before)
    (hl : files.lines? id m = some ls) :
    holder? ls = some ticket ↔ files.place id ∈ ids.map files.place := by
  by_cases hp : files.place id ∈ ids.map files.place
  · obtain ⟨body, -, -, hlocked⟩ := h.lines?_of_mem hp
    obtain rfl := Option.some.inj (hl.symm.trans hlocked)
    simp only [holder?_lockLine_cons, hp]
  · exact iff_of_false (hnew _ _ ((h.lines?_of_not_mem hp).symm.trans hl)) hp

/-- A file that nobody holds has not been marked. -/
theorem not_mem_of_holder?_none (h : Marked files before ticket ids m)
    (hl : files.lines? id m = some ls) (hh : holder? ls = none) :
    files.place id ∉ ids.map files.place := by
  intro hp
  obtain ⟨body, -, -, hlocked⟩ := h.lines?_of_mem hp
  obtain rfl := Option.some.inj (hl.symm.trans hlocked)
  rw [holder?_lockLine_cons] at hh
  cases hh

/-- Every table reads as it did. -/
theorem load_eq (h : Marked files before ticket ids m) (id : TableId) :
    files.load id m = files.load id before := by
  rw [Catalog.load_eq, Catalog.load_eq]
  by_cases hp : files.place id ∈ ids.map files.place
  · obtain ⟨ls, hl, hh, hlocked⟩ := h.lines?_of_mem hp
    rw [hl, hlocked]
    exact decodeTable_lockLine_cons hh
  · rw [h.lines?_of_not_mem hp]

/-! ## Taking and giving back -/

theorem mem_places_insertId {p : Place} : p ∈ (insertId id ids).map files.place ↔
    p = files.place id ∨ p ∈ ids.map files.place := by
  simp only [List.mem_map, mem_insertId, or_and_right, exists_or, exists_eq_left, eq_comm (a := p)]

/-- Holding a table whose file has the lock line already. -/
theorem held (h : Marked files before ticket ids m) (hnew : Unheld ticket before)
    (hl : files.lines? id m = some ls) (hh : holder? ls = some ticket) :
    Marked files before ticket (insertId id ids) m := by
  have hp := (h.holder?_iff hnew hl).1 hh
  exact h.congr fun p => mem_places_insertId.trans (or_iff_right_of_imp fun heq => heq ▸ hp)

/-- Putting the lock line on a file that nobody holds. -/
theorem taken (h : Marked files before ticket ids m) (hl : files.lines? id m = some ls)
    (hh : holder? ls = none) (hd : files.hasDirectory id m = true) :
    Marked files before ticket (insertId id ids) (m.put (files.place id) (putLock ticket ls)) := by
  -- The file has not had the lock line, so its lines are those from before.
  have hbefore := (h.lines?_of_not_mem (h.not_mem_of_holder?_none hl hh)).symm.trans hl
  refine ⟨h.directories, fun p => ?_, fun other hother => ?_⟩
  · by_cases hp : p = files.place id
    · rw [if_pos (mem_places_insertId.2 (.inl hp)), hp, Memory.lines?_put_self,
        putLock_of_holder?_none hh, show before.lines? (files.place id) = some ls from hbefore,
        Option.map_some]
    · rw [Memory.lines?_put_of_ne hp, h.lines p]
      simp only [mem_places_insertId, hp, false_or]
  · rcases mem_insertId.1 hother with rfl | hother
    · exact ⟨(Catalog.hasDirectory_congr h.directories).symm.trans hd, ls, hbefore, hh⟩
    · exact h.free other hother

/-- Giving back a lock that was taken for nothing. -/
theorem given_back (h : Marked files before ticket ids m) (hl : files.lines? id m = some ls)
    (hh : holder? ls = none) :
    Marked files before ticket ((insertId id ids).filter (· != id)) (m.put (files.place id) ls) := by
  have hnot : id ∉ ids := fun hmem => h.not_mem_of_holder?_none hl hh (List.mem_map_of_mem hmem)
  have hids (other : TableId) : other ∈ (insertId id ids).filter (· != id) ↔ other ∈ ids := by
    simp only [List.mem_filter, mem_insertId, bne_iff_ne, or_and_right]
    constructor
    · rintro (⟨rfl, hne⟩ | ⟨hmem, -⟩)
      · exact absurd rfl hne
      · exact hmem
    · intro hmem
      exact .inr ⟨hmem, fun heq => hnot (heq ▸ hmem)⟩
  have hput : Marked files before ticket ids (m.put (files.place id) ls) :=
    ⟨h.directories, fun p => (Memory.lines?_put_of_lines? hl).trans (h.lines p), h.free⟩
  exact hput.congr fun p => by simp only [List.mem_map, hids]

/-! ## Taking the lock lines off -/

theorem releaseFile (h : Marked files before ticket ids m) (hnew : Unheld ticket before)
    (id : TableId) : ∃ m', Transaction.releaseFile files ticket id m = .ok () m' ∧
      Marked files before ticket (ids.filter fun other => files.place other ≠ files.place id) m' := by
  have hfilter (p : Place) : p ∈ (ids.filter fun other => files.place other ≠ files.place id).map
      files.place ↔ p ∈ ids.map files.place ∧ p ≠ files.place id := by
    simp only [List.mem_map, List.mem_filter, decide_eq_true_eq]
    constructor
    · rintro ⟨other, ⟨hmem, hne⟩, rfl⟩
      exact ⟨⟨other, hmem, rfl⟩, hne⟩
    · rintro ⟨⟨other, hmem, rfl⟩, hne⟩
      exact ⟨other, ⟨hmem, hne⟩, rfl⟩
  -- A file without the lock line stays as it is.
  have hkept (hnot : files.place id ∉ ids.map files.place) :
      Marked files before ticket (ids.filter fun other => files.place other ≠ files.place id) m :=
    h.congr fun p => (hfilter p).trans (and_iff_left_of_imp fun hp heq => hnot (heq ▸ hp))
  simp only [Transaction.releaseFile, Action.bind_apply, Action.get_apply]
  cases hl : files.lines? id m with
  | none =>
    refine ⟨m, by simp [Catalog.tableExists_eq, hl, Action.pure_apply], hkept fun hp => ?_⟩
    obtain ⟨ls, -, -, hlocked⟩ := h.lines?_of_mem hp
    rw [hl] at hlocked
    cases hlocked
  | some ls =>
    have hexists : files.tableExists id m = true := by simp [Catalog.tableExists_eq, hl]
    simp only [hexists, if_true, Action.bind_apply, Action.ask_apply, Catalog.holder?_eq, hl]
    by_cases hh : holder? ls = some ticket
    · have hp := (h.holder?_iff hnew hl).1 hh
      obtain ⟨other, hother, hplace⟩ := List.mem_map.1 hp
      obtain ⟨body, hbody, -, hlocked⟩ := h.lines?_of_mem hp
      obtain rfl := Option.some.inj (hl.symm.trans hlocked)
      have hd : files.hasDirectory id m = true :=
        (Catalog.hasDirectory_congr h.directories).trans
          ((Catalog.hasDirectory_of_place before hplace.symm).trans (h.free other hother).1)
      refine ⟨m.put (files.place id) body, ?_, h.directories, fun p => ?_, fun o ho =>
        h.free o (List.mem_filter.1 ho).1⟩
      · simp only [hh, if_true, files.clearLock_apply id m hl hh, hd,
          dropLock_lockLine_cons]
      · by_cases heq : p = files.place id
        · rw [if_neg fun hmem => ((hfilter p).1 hmem).2 heq, heq, Memory.lines?_put_self]
          exact hbody.symm
        · rw [Memory.lines?_put_of_ne heq, h.lines p]
          simp only [hfilter, ne_eq, heq, not_false_eq_true, and_true]
    · exact ⟨m, by simp [hh, Action.pure_apply], hkept fun hp => hh ((h.holder?_iff hnew hl).2 hp)⟩

theorem releaseFiles (h : Marked files before ticket ids m) (hnew : Unheld ticket before)
    (released : List TableId) : ∃ m', Transaction.releaseFiles files ticket released m = .ok () m' ∧
      Marked files before ticket (ids.filter fun id => files.place id ∉ released.map files.place) m' := by
  induction released generalizing ids m with
  | nil =>
    refine ⟨m, rfl, ?_⟩
    rwa [List.filter_eq_self.2 (by simp)]
  | cons id rest ih =>
    obtain ⟨m1, hm1, h1⟩ := h.releaseFile hnew id
    obtain ⟨m2, hm2, h2⟩ := ih h1
    refine ⟨m2, by rw [Transaction.releaseFiles, Action.bind_ok hm1, hm2], ?_⟩
    simpa [List.filter_filter, Bool.and_comm] using h2

/-- Aborting gives the earlier store back. -/
theorem abort {t : Transaction} (h : Marked files before t.ticket t.locked m)
    (hnew : Unheld t.ticket before) :
    ∃ m', t.abort files m = .ok () m' ∧ Memory.Same before m' := by
  obtain ⟨m', hm', hmarked⟩ := h.releaseFiles hnew t.locked
  have hnone : t.locked.filter (fun id => files.place id ∉ t.locked.map files.place) = [] :=
    List.filter_eq_nil_iff.2 fun id hid => by simpa using ⟨id, hid, rfl⟩
  rw [hnone] at hmarked
  exact ⟨m', hm', hmarked.same⟩

end Marked

/-! ## Statements -/

namespace Plan

/-- Plans that read records, change them or delete them. -/
def staysStaged : Plan → Bool
  | .query _ | .aggregate .. | .update .. | .delete .. => true
  | _ => false

end Plan

namespace Connection

/-- Since a transaction with the ticket was started, nothing was committed: either it is active, and
its lock lines are all that the store has gained, or it has ended, and the store is as before. -/
structure Uncommitted (files : Catalog) (before : Memory) (ticket : Ticket) (c : Connection Memory) :
    Prop where
  active : ∀ t, c.transaction = some t → t.ticket = ticket ∧ Marked files before ticket t.locked c.store
  idle : c.transaction = none → Memory.Same before c.store

variable {files : Catalog} {before : Memory} {ticket ticket' : Ticket} {c c' : Connection Memory}
  {plan : Plan}

theorem Effect.uncommitted (he : Effect files ticket' c plan c') (hplan : plan.staysStaged = true)
    (h : Uncommitted files before ticket c) (hnew : Unheld ticket before) :
    Uncommitted files before ticket c' := by
  have active {t : Transaction} {database : Option String} {store : Memory}
      (hticket : t.ticket = ticket) (hmarked : Marked files before ticket t.locked store) :
      Uncommitted files before ticket ⟨⟨some t, database⟩, store⟩ :=
    ⟨fun t' ht' => by cases ht'; exact ⟨hticket, hmarked⟩, nofun⟩
  cases he with
  | nothing => exact h
  | aborted _ ht =>
    obtain ⟨rfl, hmarked⟩ := h.active _ ht
    obtain ⟨m', hm', hsame⟩ := hmarked.abort hnew
    exact ⟨nofun, fun _ => by rw [Action.after_ok hm']; exact hsame⟩
  | heldForNothing _ ht _ hl hh =>
    obtain ⟨rfl, hmarked⟩ := h.active _ ht
    exact active rfl (hmarked.held hnew hl hh)
  | takenForNothing _ ht _ hl hh =>
    obtain ⟨rfl, hmarked⟩ := h.active _ ht
    exact active rfl (hmarked.given_back hl hh)
  | changed _ ht _ _ _ hlocks =>
    obtain ⟨rfl, hmarked⟩ := h.active _ ht
    cases hlocks with
    | held hl hh => exact active rfl (hmarked.held hnew hl hh)
    | taken hl hh hd => exact active rfl (hmarked.taken hl hh hd)
  | databaseCreated | databaseDropped | databaseUsed | tableCreated | tableDropped | copyAltered
    | fileAltered | copyExtended | fileExtended | begun | committed => cases hplan

/-- The connection after some statements, in success and in failure. A transaction that a statement
starts takes the ticket beside it. -/
def afterAll (files : Catalog) (c : Connection Memory) (statements : List (Ticket × String)) :
    Connection Memory :=
  statements.foldl (fun c s => Action.after (execute files s.1 s.2) c) c

theorem Uncommitted.afterAll {statements : List (Ticket × String)}
    (hstatements : ∀ s ∈ statements, ∀ plan, Plan.ofString s.2 = .ok plan → plan.staysStaged = true)
    (h : Uncommitted files before ticket c) (hnew : Unheld ticket before) :
    Uncommitted files before ticket (c.afterAll files statements) := by
  induction statements generalizing c with
  | nil => exact h
  | cons s rest ih =>
    refine ih (fun s hs => hstatements s (List.mem_cons_of_mem _ hs)) ?_
    rcases execute_effect s.1 s.2 c with ⟨-, hafter⟩ | ⟨plan, hplan, heffect⟩
    · dsimp only
      rw [hafter]
      exact h
    · exact heffect.uncommitted (hstatements s List.mem_cons_self plan hplan) h hnew

/-! ## Rolling back -/

theorem abort_idle (hidle : c.transaction = none) :
    abort files c = .error .noActiveTransaction c :=
  Action.bind_error (activeTransaction_idle hidle)

/-- What a session does to a store between `BEGIN` and the end of its transaction by queries, updates
and deletions, however they end: the store has gained the transaction's lock line at the top of the
files of the tables that the transaction holds, and every table reads as before. When the transaction
has ended, by a statement or in that the session aborts it or is closed, the store is as before. -/
theorem uncommitted_invisible (files : Catalog) (c : Connection Memory) (hidle : c.transaction = none)
    (ticket : Ticket) (hnew : Unheld ticket c.store) (begin : String)
    (hbegin : Plan.ofString begin = .ok .begin) (statements : List (Ticket × String))
    (hstatements : ∀ s ∈ statements, ∀ plan, Plan.ofString s.2 = .ok plan → plan.staysStaged = true) :
    let now := c.afterAll files ((ticket, begin) :: statements)
    (∀ t, now.transaction = some t →
      t.ticket = ticket ∧ Marked files c.store ticket t.locked now.store ∧
      (∀ id, files.load id now.store = files.load id c.store) ∧
      ∃ store, abort files now = .ok () { now with transaction := none, store } ∧
        Memory.Same c.store store) ∧
    (now.transaction = none → Memory.Same c.store now.store) ∧
    Memory.Same c.store (now.close files) := by
  intro now
  have hstart : Action.after (execute files ticket begin) c =
      { c with transaction := some (.start ticket) } :=
    Action.after_ok (execute_begin ticket hbegin hidle)
  have hunchanged : Uncommitted files c.store ticket { c with transaction := some (.start ticket) } :=
    ⟨fun t ht => by cases ht; exact ⟨rfl, .of_same ⟨rfl, fun _ => rfl⟩⟩, nofun⟩
  have hnow : Uncommitted files c.store ticket now := by
    simp only [now, afterAll, List.foldl_cons, hstart]
    exact hunchanged.afterAll hstatements hnew
  have habort {t : Transaction} (ht : now.transaction = some t) :
      ∃ store, abort files now = .ok () { now with transaction := none, store } ∧
        Memory.Same c.store store := by
    obtain ⟨rfl, hmarked⟩ := hnow.active t ht
    obtain ⟨store, hstore, hsame⟩ := hmarked.abort hnew
    refine ⟨store, ?_, hsame⟩
    rw [abort, Action.bind_ok (activeTransaction_ok ht), Action.bind_ok (Action.modify_apply _ now), onStore_apply]
    simp only [hstore]
  refine ⟨fun t ht => ?_, hnow.idle, ?_⟩
  · obtain ⟨hticket, hmarked⟩ := hnow.active t ht
    exact ⟨hticket, hmarked, hmarked.load_eq, habort ht⟩
  · cases ht : now.transaction with
    | none =>
      rw [close, abort_idle ht]
      exact hnow.idle ht
    | some t =>
      obtain ⟨store, hstore, hsame⟩ := habort ht
      rw [close, hstore]
      exact hsame

section Accounts

/-- Three tables of accounts, the last of them held by another transaction. -/
def accounts : Memory where
  files := [(["Databases", "d", "a.tbl"], ["n int|name text", "1|ann", "2|bob"]),
    (["Databases", "d", "b.tbl"], ["n int", "7"]), (["Databases", "d", "c.tbl"], ["&2", "n int", "5"])]
  directories := [["Databases"], ["Databases", "d"]]

/-- A change, a deletion of nothing, a query and a change that fails, and then a change to the table
that the other transaction holds. -/
def accountStatements : List (Ticket × String) :=
  [(⟨"3"⟩, "UPDATE a SET n = 5 WHERE name = 'bob'"), (⟨"4"⟩, "DELETE FROM b WHERE n = 0"),
   (⟨"5"⟩, "SELECT * FROM a"), (⟨"6"⟩, "UPDATE b SET n = 'x'"), (⟨"7"⟩, "UPDATE c SET n = 0")]

set_option maxRecDepth 100000 in
/-- The transaction holds the first table only, and has ended after the last statement. -/
theorem uncommitted_invisible_accounts :
    let files : Catalog := ⟨⟨"Databases"⟩, "tbl"⟩
    let c : Connection Memory := ⟨⟨none, some "d"⟩, accounts⟩
    let now := c.afterAll files ((⟨"1"⟩, "BEGIN") :: accountStatements.dropLast)
    let last := c.afterAll files ((⟨"1"⟩, "BEGIN") :: accountStatements)
    (∃ t, now.transaction = some t ∧ t.locked = [⟨"d", "a"⟩] ∧
      Marked files accounts ⟨"1"⟩ t.locked now.store ∧
      (∀ id, files.load id now.store = files.load id accounts) ∧
      ∃ store, abort files now = .ok () { now with transaction := none, store } ∧
        Memory.Same accounts store) ∧
    Memory.Same accounts (now.close files) ∧
    last.transaction.isNone = true ∧ Memory.Same accounts last.store := by
  intro files c
  have hstatements : ∀ s ∈ accountStatements, ∀ plan, Plan.ofString s.2 = .ok plan →
      plan.staysStaged = true := by
    have hdecide : ∀ s ∈ accountStatements,
        (Plan.ofString s.2).toOption.all Plan.staysStaged = true := by
      decide +kernel
    intro s hs plan hplan
    simpa [hplan, Except.toOption] using hdecide s hs
  have hnew : Unheld ⟨"1"⟩ accounts := .of_files (by decide +kernel)
  have hnow := uncommitted_invisible files c rfl ⟨"1"⟩ hnew "BEGIN" rfl accountStatements.dropLast
    fun s hs => hstatements s ((List.dropLast_sublist _).subset hs)
  have hlast := uncommitted_invisible files c rfl ⟨"1"⟩ hnew "BEGIN" rfl accountStatements hstatements
  have hlocked : ((c.afterAll files ((⟨"1"⟩, "BEGIN") :: accountStatements.dropLast)).transaction.map
      (·.locked)) = some [⟨"d", "a"⟩] := by
    decide +kernel
  have hended : (c.afterAll files ((⟨"1"⟩, "BEGIN") :: accountStatements)).transaction.isNone = true := by
    decide +kernel
  generalize c.afterAll files ((⟨"1"⟩, "BEGIN") :: accountStatements.dropLast) = now at hnow hlocked ⊢
  generalize c.afterAll files ((⟨"1"⟩, "BEGIN") :: accountStatements) = last at hlast hended ⊢
  obtain ⟨t, ht, htlocked⟩ := Option.map_eq_some_iff.1 hlocked
  obtain ⟨-, hmarked, hload, habort⟩ := hnow.1 t ht
  exact ⟨⟨t, ht, htlocked, hmarked, hload, habort⟩, hnow.2.2, hended,
    hlast.2.1 (Option.isNone_iff_eq_none.1 hended)⟩

end Accounts

end Connection

end TextTables
