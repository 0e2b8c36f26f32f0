import TextTables.Proofs.Session.Staging
import TextTables.Proofs.Store.Altering
/-!
# What statements do to held files

A transaction holds a file that begins with its lock line (`Holds`). `Effect.frame` says which files
a statement can change; it follows that the statements of other sessions leave a held file alone, if
their commits write held files only. A table is staged with its file held (`Effect.holds_of_new`),
and the holder's own statements keep it held, unless the file is removed: by `DROP DATABASE`, or by
the holder's own `DROP TABLE` of another spelling.
-/

namespace TextTables

/-- The file at a place begins with a ticket's lock line. -/
def Holds (ticket : Ticket) (m : Memory) (p : Place) : Prop :=
  ∃ body, m.lines? p = some (ticket.lockLine :: body)

namespace Holds

variable {ticket : Ticket} {m m' : Memory} {p : Place} {ls : List String}

theorem of_lines? (h : m.lines? p = some ls) (hh : holder? ls = some ticket) : Holds ticket m p := by
  obtain ⟨body, rfl⟩ := holder?_eq_some.1 hh
  exact ⟨body, h⟩

theorem holder? (h : Holds ticket m p) (hl : m.lines? p = some ls) :
    TextTables.holder? ls = some ticket := by
  obtain ⟨body, hb⟩ := h
  obtain rfl := Option.some.inj (hl.symm.trans hb)
  exact holder?_lockLine_cons

theorem isSome (h : Holds ticket m p) : m.lines? p ≠ none := by
  obtain ⟨body, hb⟩ := h
  simp [hb]

theorem congr (h : Holds ticket m p) (heq : m'.lines? p = m.lines? p) : Holds ticket m' p := by
  obtain ⟨body, hb⟩ := h
  exact ⟨body, heq.trans hb⟩

end Holds

/-- A transaction holds the files of its staged tables. -/
def Transaction.Held (files : Catalog) (t : Transaction) (m : Memory) : Prop :=
  ∀ table ∈ t.staged, Holds t.ticket m (files.place table.id)

/-- A transaction holds the files that committing it writes. -/
def Transaction.WritesHeld (files : Catalog) (t : Transaction) (m : Memory) : Prop :=
  ∀ entry ∈ Transaction.written files m t, Holds t.ticket m (files.place entry.1)

theorem Transaction.Held.writesHeld {files : Catalog} {t : Transaction} {m : Memory}
    (h : t.Held files m) : t.WritesHeld files m := by
  intro entry hentry
  obtain ⟨⟨table, hm, hid, -⟩, -⟩ := Transaction.mem_written files m hentry
  rw [← hid]
  exact h table hm

namespace Connection

variable {files : Catalog} {ticket : Ticket} {c c' : Connection Memory} {plan : Plan}

/-! ## The files a statement can change -/

theorem Free.of_holder? {t : Transaction} {ls : List String} (ht : c.transaction = some t)
    (h : holder? ls = some t.ticket) : Free c ls := by
  intro holder hh
  rw [ticket?, ht]
  exact h.symm.trans hh

theorem Free.of_none {ls : List String} (h : holder? ls = none) : Free c ls := by
  intro holder hh
  rw [h] at hh
  cases hh

/-- The files that a statement changes are those that are not there, those that no other transaction
holds, those that a commit writes, and those in a database that it drops. -/
theorem Effect.frame (he : Effect files ticket c plan c') (p : Place) :
    c'.store.lines? p = c.store.lines? p ∨ c.store.lines? p = none ∨
    (∃ ls, c.store.lines? p = some ls ∧ Free c ls) ∨
    (∃ t entry, plan = .commit ∧ c.transaction = some t ∧
      entry ∈ Transaction.written files c.store t ∧ files.place entry.1 = p) ∨
    (∃ name, plan = .dropDatabase name ∧ c'.store.lines? p = none) := by
  have hput {id : TableId} {ls ls' : List String} (hl : files.lines? id c.store = some ls)
      (hfree : Free c ls) : (c.store.put (files.place id) ls').lines? p = c.store.lines? p ∨
        ∃ ls, c.store.lines? p = some ls ∧ Free c ls := by
    by_cases hp : p = files.place id
    · exact .inr ⟨ls, hp ▸ hl, hfree⟩
    · exact .inl (Memory.lines?_put_of_ne hp)
  -- The end of a transaction takes its own lock lines off, and no others.
  have hreleased {t : Transaction} {m m' : Memory} (ht : c.transaction = some t)
      (hm : m.lines? p = c.store.lines? p) (hr : Released t.ticket m m') :
      m'.lines? p = c.store.lines? p ∨ ∃ ls, c.store.lines? p = some ls ∧ Free c ls := by
    cases hl : c.store.lines? p with
    | none => exact .inl (hr.lines?_of_none (hm.trans hl))
    | some ls =>
      by_cases hh : holder? ls = some t.ticket
      · exact .inr ⟨ls, rfl, .of_holder? ht hh⟩
      · exact .inl (hr.lines?_eq (hm.trans hl) hh)
  cases he with
  | nothing | databaseUsed | copyAltered | copyExtended | heldForNothing | begun => exact .inl rfl
  | databaseCreated => exact .inl Memory.lines?_addDirectory
  | databaseDropped =>
    rw [Memory.lines?_removeDirectory]
    split
    · exact .inr (.inr (.inr (.inr ⟨_, rfl, rfl⟩)))
    · exact .inl rfl
  | @tableCreated name schema id _ hl =>
    by_cases hp : p = files.place id
    · exact .inr (.inl (hp ▸ hl))
    · exact .inl (Memory.lines?_put_of_ne hp)
  | @tableDropped name id ls _ hl hfree =>
    rw [Memory.lines?_erase]
    split
    · next hp => exact .inr (.inr (.inl ⟨ls, hp ▸ hl, hfree⟩))
    · exact .inl rfl
  | fileAltered _ hl hfree => exact (hput hl hfree).imp_right fun h => .inr (.inl h)
  | fileExtended _ _ hl hfree => exact (hput hl hfree).imp_right fun h => .inr (.inl h)
  | aborted _ ht =>
    exact (hreleased ht rfl (Transaction.abort_released files c.store _)).imp_right
      fun h => .inr (.inl h)
  | takenForNothing _ _ _ hl hh => exact .inl (Memory.lines?_put_of_lines? hl)
  | changed _ _ _ _ _ hlocks =>
    cases hlocks with
    | held => exact .inl rfl
    | taken hl hh => exact (hput hl (.of_none hh)).imp_right fun h => .inr (.inl h)
  | @committed t ht =>
    by_cases hw : ∃ entry ∈ Transaction.written files c.store t, files.place entry.1 = p
    · obtain ⟨entry, hentry, hp⟩ := hw
      exact .inr (.inr (.inr (.inl ⟨t, entry, rfl, ht, hentry, hp⟩)))
    · have hput := Transaction.lines?_putAll_of_ne files c.store fun entry hentry hp =>
        hw ⟨entry, hentry, hp⟩
      exact (hreleased ht hput (Transaction.commit_released files c.store t)).imp_right
        fun h => .inr (.inl h)

/-- A statement of another session leaves a held file as it is, unless it drops the database. -/
theorem Effect.foreign (he : Effect files ticket c plan c')
    (hwrites : plan = .commit → ∀ t, c.transaction = some t → t.WritesHeld files c.store)
    {holder : Ticket} {p : Place} (hp : Holds holder c.store p) (hne : c.ticket? ≠ some holder) :
    c'.store.lines? p = c.store.lines? p ∨
      ∃ name, plan = .dropDatabase name ∧ c'.store.lines? p = none := by
  -- A held file is there and not free, and a commit writes what its own transaction holds.
  rcases he.frame p with h | h | ⟨ls, hl, hfree⟩ | ⟨t, entry, hplan, ht, hentry, rfl⟩ | h
  · exact .inl h
  · exact absurd h hp.isSome
  · exact absurd (hfree _ (hp.holder? hl)) hne
  · obtain ⟨body, hl⟩ := hp
    have hh := (hwrites hplan t ht entry hentry).holder? hl
    rw [holder?_lockLine_cons, Option.some.injEq] at hh
    exact absurd (by rw [ticket?, ht, hh]; rfl) hne
  · exact .inr h

/-! ## The holder's own statements -/

/-- A plan that removes the file of a table which its own transaction has staged: by dropping a
database, or by dropping the table under another spelling of its name. -/
inductive Removes (files : Catalog) (c : Connection Memory) (id : TableId) : Plan → Prop
  | dropDatabase {name : String} : Removes files c id (.dropDatabase name)
  | dropTable {name : String} {other : TableId} : tableId name c = .ok other → other ≠ id →
      files.place other = files.place id → Removes files c id (.dropTable name)

/-- A table is staged with its file held. -/
theorem Effect.holds_of_new (he : Effect files ticket c plan c') {t' : Transaction}
    (ht' : c'.transaction = some t') {table : Table} (hm : table ∈ t'.staged)
    (hnew : ∀ t, c.transaction = some t → ∀ staged ∈ t.staged, staged.id ≠ table.id) :
    Holds t'.ticket c'.store (files.place table.id) := by
  obtain ⟨t, ht, -, hfrom⟩ := he.stagedFrom ht' hm
  -- Only a change of records stages a table that was not staged before.
  rcases hfrom.id_eq with ⟨staged, hstaged, hid⟩ | ⟨name, hname, -⟩
  · exact absurd hid (hnew t ht staged hstaged)
  · cases he with
    | nothing => exact absurd rfl (hnew t' ht' table hm)
    | databaseCreated | databaseDropped | databaseUsed | tableCreated | tableDropped | copyAltered
    | fileAltered | copyExtended | fileExtended | begun | committed => cases hname
    | aborted => cases ht'
    | heldForNothing _ hc | takenForNothing _ hc =>
      cases ht'
      exact absurd rfl (hnew _ hc table hm)
    | changed _ hc _ _ _ hlocks =>
      cases ht'
      rcases Transaction.mem_staged_stage hm with rfl | hm
      · cases hlocks with
        | held hl hh => exact .of_lines? hl hh
        | taken => exact .of_lines? Memory.lines?_put_self holder?_putLock
      · exact absurd rfl (hnew _ hc table hm)

/-- A statement keeps the file of a table held that stays staged, unless it removes the file. -/
theorem Effect.held (he : Effect files ticket c plan c') {t' : Transaction}
    (ht' : c'.transaction = some t') {table : Table} (hm : table ∈ t'.staged)
    (hh : Holds t'.ticket c.store (files.place table.id)) :
    Holds t'.ticket c'.store (files.place table.id) ∨
      (Removes files c table.id plan ∧ c'.store.lines? (files.place table.id) = none) := by
  have hput {id : TableId} {ls ls' : List String} (hl : files.lines? id c.store = some ls)
      (hkeep : holder? ls = some t'.ticket → holder? ls' = some t'.ticket) :
      Holds t'.ticket (c.store.put (files.place id) ls') (files.place table.id) := by
    by_cases hp : files.place table.id = files.place id
    · rw [hp] at hh ⊢
      exact .of_lines? Memory.lines?_put_self (hkeep (hh.holder? hl))
    · exact hh.congr (Memory.lines?_put_of_ne hp)
  cases he with
  | nothing | databaseUsed | copyAltered | copyExtended | heldForNothing => exact .inl hh
  | databaseCreated => exact .inl (hh.congr Memory.lines?_addDirectory)
  | @databaseDropped name =>
    have hremove := Memory.lines?_removeDirectory (m := c.store)
      (p := (files.databasePath name).place) (q := files.place table.id)
    by_cases hw : (files.place table.id).within (files.databasePath name).place = true
    · exact .inr ⟨.dropDatabase, hremove.trans (if_pos hw)⟩
    · exact .inl (hh.congr (hremove.trans (if_neg hw)))
  | @tableCreated name schema id _ hl =>
    have hp : files.place table.id ≠ files.place id := fun hp =>
      hh.isSome ((congrArg c.store.lines? hp).trans hl)
    exact .inl (hh.congr (Memory.lines?_put_of_ne hp))
  | @tableDropped name id ls hid =>
    obtain ⟨t, -, rfl⟩ := Option.map_eq_some_iff.1 ht'
    obtain ⟨-, hne⟩ := Transaction.mem_staged_forgetTable.1 hm
    have herase := Memory.lines?_erase (m := c.store) (p := files.place id) (q := files.place table.id)
    by_cases hp : files.place table.id = files.place id
    · exact .inr ⟨.dropTable hid (Ne.symm hne) hp.symm, herase.trans (if_pos hp)⟩
    · exact .inl (hh.congr (herase.trans (if_neg hp)))
  | fileAltered _ hl _ _ halter => exact .inl (hput hl (Catalog.alteredLines_holder? halter))
  | @fileExtended name tuples id ls holder schema rows _ _ hl _ hd =>
    have hne : ls ≠ [] := by
      rintro rfl
      obtain ⟨_, _, hsplit, -⟩ := decodeHeader_eq_ok.1 hd
      cases hsplit
    -- Records are put at the end, behind the lock line.
    refine .inl (hput hl fun hholder => ?_)
    rwa [holder?_append_of_ne_nil hne]
  | aborted | committed => cases ht'
  | takenForNothing _ _ _ hl => exact .inl (hh.congr (Memory.lines?_put_of_lines? hl))
  | changed _ _ _ _ _ hlocks =>
    cases ht'
    cases hlocks with
    | held => exact .inl hh
    | taken hl => exact .inl (hput hl fun _ => holder?_putLock)
  | begun => cases ht'; cases hm

end Connection

end TextTables
