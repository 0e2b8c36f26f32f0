import TextTables.Proofs.Transaction.Freeing
import TextTables.Proofs.Transaction.Staging
/-!
# Who holds which table

The ticket at the top of each file of a store in memory, and what the end of a transaction does to
it: the files that carried its ticket carry none, and all others are held as they were.
-/

namespace TextTables

variable {files : Catalog} {ticket : Ticket} {id : TableId} {m m' m'' : Memory}

/-- The ticket of the transaction whose lock line a table's file carries. -/
def Catalog.heldBy? (files : Catalog) (id : TableId) (m : Memory) : Option Ticket :=
  (files.lines? id m).bind TextTables.holder?

/-- A store in which only the first line of a table's file may be a lock line. -/
def Headed (files : Catalog) (m : Memory) : Prop :=
  ∀ id ls, files.lines? id m = some ls → ∀ line ∈ ls.tail, isLockLine line = false

theorem Catalog.heldBy?_eq_some : files.heldBy? id m = some ticket ↔
    ∃ ls, files.lines? id m = some ls ∧ TextTables.holder? ls = some ticket :=
  Option.bind_eq_some_iff

theorem Catalog.heldBy?_congr {id' : TableId} (h : files.place id' = files.place id) :
    files.heldBy? id' m = files.heldBy? id m := by
  simp only [heldBy?, lines?, h]

/-- A lock line in a file is the one that says who holds the table. -/
theorem Headed.heldBy?_iff (h : Headed files m) : files.heldBy? id m = some ticket ↔
    ∃ ls, files.lines? id m = some ls ∧ ticket.lockLine ∈ ls := by
  rw [Catalog.heldBy?_eq_some]
  constructor
  · rintro ⟨ls, hl, hh⟩
    obtain ⟨rest, rfl⟩ := holder?_eq_some.1 hh
    exact ⟨_, hl, List.mem_cons_self⟩
  · rintro ⟨ls, hl, hmem⟩
    refine ⟨ls, hl, ?_⟩
    cases ls with
    | nil => cases hmem
    | cons first rest =>
      rcases List.mem_cons.1 hmem with rfl | hrest
      · exact holder?_lockLine_cons
      · have hfalse := h id _ hl _ hrest
        rw [isLockLine_lockLine] at hfalse
        cases hfalse

theorem Headed.no_lockLine (h : Headed files m) {ls : List String}
    (hl : files.lines? id m = some ls) (hh : holder? ls = none) :
    ∀ line ∈ ls, isLockLine line = false := by
  cases ls with
  | nil => exact nofun
  | cons first rest => exact List.forall_mem_cons.2 ⟨Ticket.ofLine?_eq_none.1 hh, h id _ hl⟩

/-! ## Files that change -/

theorem Catalog.lines?_put (files : Catalog) (id other : TableId) (m : Memory) (ls : List String) :
    files.lines? other (m.put (files.place id) ls) =
      if files.place other = files.place id then some ls else files.lines? other m :=
  Memory.lines?_put

theorem Catalog.heldBy?_put (files : Catalog) (id other : TableId) (m : Memory) (ls : List String) :
    files.heldBy? other (m.put (files.place id) ls) =
      if files.place other = files.place id then TextTables.holder? ls else files.heldBy? other m := by
  simp only [heldBy?, lines?_put]
  split <;> rfl

theorem Headed.put (h : Headed files m) {ls : List String}
    (hls : ∀ line ∈ ls.tail, isLockLine line = false) : Headed files (m.put (files.place id) ls) := by
  intro other ls' hl
  rw [Catalog.lines?_put] at hl
  split at hl
  · cases hl
    exact hls
  · exact h other ls' hl

/-! ## Lock lines taken off -/

theorem Headed.holder?_dropLock (h : Headed files m) {ls : List String}
    (hl : files.lines? id m = some ls) (hh : holder? ls = some ticket) : holder? (dropLock ls) = none := by
  obtain ⟨rest, rfl⟩ := holder?_eq_some.1 hh
  rw [dropLock_lockLine_cons]
  exact holder?_of_no_lockLine (h id _ hl)

namespace Released

/-- A file is as it was, or its holder's lock line is gone and nobody holds it. -/
theorem lines?_cases (hr : Released ticket m m') (h : Headed files m)
    (hfreed : files.heldBy? id m = some ticket → files.heldBy? id m' ≠ some ticket) :
    files.lines? id m' = files.lines? id m ∧ files.heldBy? id m ≠ some ticket ∨
      ∃ ls, files.lines? id m = some ls ∧ holder? ls = some ticket ∧
        files.lines? id m' = some (dropLock ls) ∧ holder? (dropLock ls) = none := by
  cases hl : files.lines? id m with
  | none => exact .inl ⟨hr.lines?_of_none hl, by simp [Catalog.heldBy?, hl]⟩
  | some ls =>
    by_cases hh : holder? ls = some ticket
    · have hnone := h.holder?_dropLock hl hh
      obtain ⟨ls', hl', hu⟩ := hr.lines?_of_some hl
      have hl' : files.lines? id m' = some ls' := hl'
      rcases hu.eq_or_eq_dropLock hnone with rfl | rfl
      · have hheld := Catalog.heldBy?_eq_some.2 ⟨_, hl, hh⟩
        exact absurd (Catalog.heldBy?_eq_some.2 ⟨_, hl', hh⟩) (hfreed hheld)
      · exact .inr ⟨ls, rfl, hh, hl', hnone⟩
    · exact .inl ⟨hr.lines?_eq hl hh, by simpa [Catalog.heldBy?, hl] using hh⟩

/-- If a ticket's lock line is taken off every file that carries it, nobody holds these, and the others
are held as they were. -/
theorem heldBy?_eq (hr : Released ticket m m') (h : Headed files m)
    (hfreed : ∀ id, files.heldBy? id m = some ticket → files.heldBy? id m' ≠ some ticket)
    (id : TableId) : files.heldBy? id m' =
      if files.heldBy? id m = some ticket then none else files.heldBy? id m := by
  rcases hr.lines?_cases h (hfreed id) with ⟨hsame, hne⟩ | ⟨ls, hl, hh, hl', hnone⟩
  · rw [if_neg hne, Catalog.heldBy?, hsame, Catalog.heldBy?]
  · rw [if_pos (Catalog.heldBy?_eq_some.2 ⟨ls, hl, hh⟩), Catalog.heldBy?, hl']
    exact hnone

theorem headed (hr : Released ticket m m') (h : Headed files m)
    (hfreed : ∀ id, files.heldBy? id m = some ticket → files.heldBy? id m' ≠ some ticket) :
    Headed files m' := by
  intro id ls' hl'
  rcases hr.lines?_cases h (hfreed id) with ⟨hsame, -⟩ | ⟨ls, hl, hh, hdrop, -⟩
  · exact h id ls' (hsame ▸ hl')
  · -- What is left is the rest of the file, which has no lock line.
    obtain ⟨rest, rfl⟩ := holder?_eq_some.1 hh
    rw [dropLock_lockLine_cons, hl'] at hdrop
    cases hdrop
    exact fun line hline => h id _ hl line (List.mem_of_mem_tail hline)

end Released

namespace Transaction

variable {t : Transaction}

/-! ## The end of a transaction -/

/-- A transaction whose lock lines are those of the tables it holds: only files of these carry its
ticket, all of them do, and they can be written. What it has staged is held. -/
structure InStep (files : Catalog) (t : Transaction) (m : Memory) : Prop where
  headed : Headed files m
  locked : ∀ id ∈ t.locked, files.heldBy? id m = some t.ticket ∧ files.hasDirectory id m = true
  carried : ∀ id, files.heldBy? id m = some t.ticket → ∃ id' ∈ t.locked, files.place id' = files.place id
  staged : ∀ table ∈ t.staged, table.id ∈ t.locked ∧ isLockLine table.schema.encode = false

theorem lockedOnce_of_headed (h : Headed files m) : LockedOnce files ticket id m := by
  intro ls hl hh
  rw [Catalog.lines_eq] at hl
  cases hlines : files.lines? id m with
  | none => rw [hlines] at hl; cases hl
  | some ls' =>
    rw [hlines] at hl
    cases hl
    exact h.holder?_dropLock hlines hh

/-- A table that is still held and whose directory is there could be freed. -/
theorem freeable_of_heldBy? (hheld : files.heldBy? id m = some ticket)
    (hd : files.hasDirectory id m = true) : Freeable files ticket id m := by
  obtain ⟨ls, hl, hh⟩ := Catalog.heldBy?_eq_some.1 hheld
  refine ⟨ls, m.put (files.place id) (dropLock ls), ?_, hh, ?_⟩
  · rw [Catalog.lines_eq, hl]
  · rw [Catalog.writeLines_apply, if_pos hd]

/-- A release fails only where a file is in no directory. -/
theorem releaseFile_ne_error (hd : files.lines? id m ≠ none → files.hasDirectory id m = true) {e : Error} :
    releaseFile files ticket id m ≠ .error e m' := by
  rw [releaseFile_apply, Catalog.tableExists_eq, Catalog.lines_eq]
  cases hl : files.lines? id m with
  | none => exact nofun
  | some ls =>
    dsimp only
    rw [Catalog.writeLines_apply, hd (by simp [hl])]
    by_cases hh : holder? ls = some ticket <;> simp [hh]

/-- Where the files of the tables are in directories that are there, no release fails. -/
theorem releaseFiles_ne_error {ids : List TableId} {e : Error}
    (hd : ∀ id ∈ ids, files.lines? id m ≠ none → files.hasDirectory id m = true) :
    releaseFiles files ticket ids m ≠ .error e m' := by
  induction ids generalizing m with
  | nil => exact nofun
  | cons id rest ih =>
    obtain ⟨hid, hrest⟩ := List.forall_mem_cons.1 hd
    cases hr : releaseFile files ticket id m with
    | error e' m₁ => exact absurd hr (releaseFile_ne_error hid)
    | ok _ m₁ =>
      have hreleased := releaseFile_released files ticket id m
      rw [Action.after_ok hr] at hreleased
      rw [releaseFiles, Action.bind_ok hr]
      refine ih fun id hid hl => (Catalog.hasDirectory_congr hreleased.directories).trans (hrest id hid ?_)
      -- No file comes into being.
      exact fun hnone => hl (hreleased.lines?_of_none hnone)

theorem not_stopsShort {ids : List TableId} (hd : ∀ id ∈ ids, files.hasDirectory id m = true) :
    ¬ StopsShort files ticket ids m := by
  rintro ⟨front, back, e, m', rfl, hstop, -⟩
  exact releaseFiles_ne_error (fun id hid _ => hd id (List.mem_append_left _ hid)) hstop

theorem directories_writeStaged (h : writeStaged files t m = .ok () m') :
    m'.directories = m.directories := by
  cases hentries : encodeAll t.staged with
  | error e =>
    rw [writeStaged, Action.bind_error (Action.of_error hentries m)] at h
    cases h
  | ok entries =>
    rw [writeStaged, Action.bind_ok (Action.of_ok hentries m)] at h
    rcases writeAll_apply files entries m with ⟨-, hw⟩ | ⟨-, entry, -, -, hw⟩
    · rw [hw] at h
      cases h
      exact directories_putAll files m entries
    · rw [hw] at h
      cases h

/-- What the end of a transaction does to who holds what. -/
structure Ended (files : Catalog) (ticket : Ticket) (m m' : Memory) : Prop where
  headed : Headed files m'
  directories : m'.directories = m.directories
  heldBy? (id : TableId) : files.heldBy? id m' =
    if files.heldBy? id m = some ticket then none else files.heldBy? id m

namespace InStep

/-- No table carries the ticket any more, if no held one could be freed. -/
theorem heldBy?_ne (h : InStep files t m) (hdirectories : m'.directories = m.directories)
    (hfrees : ∀ id ∈ t.locked, ¬ Freeable files t.ticket id m')
    (hheld : files.heldBy? id m = some t.ticket) : files.heldBy? id m' ≠ some t.ticket := by
  intro hheld'
  obtain ⟨id', hid', hplace⟩ := h.carried id hheld
  have hd := (Catalog.hasDirectory_congr hdirectories).trans (h.locked id' hid').2
  rw [← Catalog.heldBy?_congr hplace] at hheld'
  exact hfrees id' hid' (freeable_of_heldBy? hheld' hd)

theorem abort (h : InStep files t m) : Ended files t.ticket m (Action.after (t.abort files) m) := by
  have hr := abort_released files m t
  have hfrees := (abort_frees_iff fun id _ => lockedOnce_of_headed h.headed).2
    (not_stopsShort fun id hid => (h.locked id hid).2)
  have hfreed (id : TableId) : files.heldBy? id m = some t.ticket →
      files.heldBy? id (Action.after (t.abort files) m) ≠ some t.ticket :=
    h.heldBy?_ne hr.directories hfrees
  exact ⟨hr.headed h.headed hfreed, hr.directories, hr.heldBy?_eq h.headed hfreed⟩

/-- A file that committing writes carries no lock line then, and was held. -/
theorem written_cases (h : InStep files t m) (id : TableId) :
    files.lines? id (putAll files (written files m t) m) = files.lines? id m ∨
      ∃ ls, files.lines? id (putAll files (written files m t) m) = some ls ∧
        (∀ line ∈ ls, isLockLine line = false) ∧ files.heldBy? id m = some t.ticket := by
  have hlines := lines?_putAll files m (written files m t) (files.place id)
  cases hlast : lastAt files (written files m t) (files.place id) with
  | none =>
    rw [hlast] at hlines
    exact .inl hlines
  | some entry =>
    rw [hlast] at hlines
    obtain ⟨hentry, hplace⟩ := lastAt_eq_some files hlast
    obtain ⟨⟨table, htable, hid, hencode⟩, -⟩ := mem_written files m hentry
    refine .inr ⟨entry.2, hlines, isLockLine_of_encodeTable (h.staged table htable).2 hencode, ?_⟩
    rw [← Catalog.heldBy?_congr (hid ▸ hplace)]
    exact (h.locked _ (h.staged table htable).1).1

theorem commit (h : InStep files t m) : Ended files t.ticket m (Action.after (t.commit files) m) := by
  have hr := commit_released files m t
  have hdirectories := hr.directories.trans (directories_putAll files m (written files m t))
  have hfrees := (commit_frees_iff (fun id _ => lockedOnce_of_headed h.headed)
    fun table htable => (h.staged table htable).2).2 fun m' hwrite =>
      not_stopsShort fun id hid => (Catalog.hasDirectory_congr (directories_writeStaged hwrite)).trans
        (h.locked id (List.mem_filter.1 hid).1).2
  -- Where the file of a table is written, the ticket goes with the old lines.
  have hwritten (id : TableId) :
      files.heldBy? id (putAll files (written files m t) m) = files.heldBy? id m ∨
        files.heldBy? id (putAll files (written files m t) m) = none ∧
          files.heldBy? id m = some t.ticket := by
    rcases h.written_cases id with hsame | ⟨ls, hl, hls, hheld⟩
    · exact .inl (by rw [Catalog.heldBy?, hsame, Catalog.heldBy?])
    · exact .inr ⟨by rw [Catalog.heldBy?, hl]; exact holder?_of_no_lockLine hls, hheld⟩
  have hheaded : Headed files (putAll files (written files m t) m) := by
    intro id ls hl
    rcases h.written_cases id with hsame | ⟨ls', hl', hls, -⟩
    · exact h.headed id ls (hsame ▸ hl)
    · cases hl.symm.trans hl'
      exact fun line hline => hls line (List.mem_of_mem_tail hline)
  have hfreed (id : TableId)
      (hheld : files.heldBy? id (putAll files (written files m t) m) = some t.ticket) :
      files.heldBy? id (Action.after (t.commit files) m) ≠ some t.ticket := by
    rcases hwritten id with hsame | ⟨hnone, -⟩
    · exact h.heldBy?_ne hdirectories hfrees (hsame ▸ hheld)
    · rw [hnone] at hheld
      cases hheld
  refine ⟨hr.headed hheaded hfreed, hdirectories, fun id => ?_⟩
  rw [hr.heldBy?_eq hheaded hfreed]
  rcases hwritten id with hsame | ⟨hnone, hheld⟩
  · rw [hsame]
  · rw [hnone, if_neg nofun, if_pos hheld]

end InStep

/-! ## Transactions that go on -/

/-- Two stores between which no file held by another transaction than a ticket's has changed hands. -/
structure Undisturbed (files : Catalog) (ticket : Ticket) (m m' : Memory) : Prop where
  directories : m'.directories = m.directories
  others {id : TableId} {k : Ticket} : k ≠ ticket →
    (files.heldBy? id m' = some k ↔ files.heldBy? id m = some k)

namespace Undisturbed

theorem refl (m : Memory) : Undisturbed files ticket m m := ⟨rfl, fun _ => Iff.rfl⟩

/-- Writing a file that nobody else holds, before and after. -/
theorem put {ls : List String} (hbefore : ∀ k, files.heldBy? id m = some k → k = ticket)
    (hafter : ∀ k, holder? ls = some k → k = ticket) :
    Undisturbed files ticket m (m.put (files.place id) ls) := by
  refine ⟨rfl, fun {other k} hk => ?_⟩
  rw [Catalog.heldBy?_put]
  split
  · next hplace =>
    rw [Catalog.heldBy?_congr hplace]
    exact iff_of_false (fun h => hk (hafter k h)) fun h => hk (hbefore k h)
  · exact Iff.rfl

end Undisturbed

theorem Ended.undisturbed (h : Ended files ticket m m') : Undisturbed files ticket m m' := by
  refine ⟨h.directories, fun {id k} hk => ?_⟩
  rw [h.heldBy?]
  split
  · next hheld =>
    rw [hheld]
    exact iff_of_false nofun fun h => hk (Option.some.inj h).symm
  · exact Iff.rfl

namespace InStep

/-- What another transaction does leaves a transaction what it holds. -/
theorem of_undisturbed (h : InStep files t m) (hu : Undisturbed files ticket m m')
    (hheaded : Headed files m') (hne : t.ticket ≠ ticket) : InStep files t m' where
  headed := hheaded
  locked id hid := ⟨(hu.others hne).2 (h.locked id hid).1,
    (Catalog.hasDirectory_congr hu.directories).trans (h.locked id hid).2⟩
  carried id hheld := h.carried id ((hu.others hne).1 hheld)
  staged := h.staged

theorem start (hheaded : Headed files m) (hnew : ∀ id, files.heldBy? id m ≠ some ticket) :
    InStep files (.start ticket) m :=
  ⟨hheaded, nofun, fun id hheld => absurd hheld (hnew id), nofun⟩

theorem stage (h : InStep files t m) {table : Table} (hlocked : table.id ∈ t.locked)
    (hschema : isLockLine table.schema.encode = false) : InStep files (t.stage table) m where
  headed := h.headed
  locked := h.locked
  carried := h.carried
  staged other hother := by
    rcases mem_staged_stage hother with rfl | hother
    · exact ⟨hlocked, hschema⟩
    · exact h.staged other hother

/-- Taking a table that is held already. -/
theorem heldAlready (h : InStep files t m) (hheld : files.heldBy? id m = some t.ticket) :
    InStep files (t.hold id) m where
  headed := h.headed
  locked other hother := by
    rcases mem_locked_hold.1 hother with rfl | hother
    · obtain ⟨id', hid', hplace⟩ := h.carried other hheld
      exact ⟨hheld, (Catalog.hasDirectory_of_place m hplace.symm).trans (h.locked id' hid').2⟩
    · exact h.locked other hother
  carried other hother := by
    obtain ⟨id', hid', hplace⟩ := h.carried other hother
    exact ⟨id', mem_locked_hold.2 (.inr hid'), hplace⟩
  staged table htable :=
    ⟨mem_locked_hold.2 (.inr (h.staged table htable).1), (h.staged table htable).2⟩

/-- Taking a table that nobody holds. -/
theorem acquired (h : InStep files t m) {ls : List String} (hl : files.lines? id m = some ls)
    (hh : holder? ls = none) (hd : files.hasDirectory id m = true) :
    InStep files (t.hold id) (m.put (files.place id) (putLock t.ticket ls)) where
  headed := h.headed.put (putLock_of_holder?_none hh ▸ h.headed.no_lockLine hl hh)
  locked other hother := by
    rw [Catalog.heldBy?_put, holder?_putLock]
    rcases mem_locked_hold.1 hother with rfl | hother
    · exact ⟨if_pos rfl, hd⟩
    · refine ⟨?_, (h.locked other hother).2⟩
      split
      · rfl
      · exact (h.locked other hother).1
  carried other hheld := by
    rw [Catalog.heldBy?_put] at hheld
    split at hheld
    · next hplace => exact ⟨id, mem_locked_hold.2 (.inl rfl), hplace.symm⟩
    · obtain ⟨id', hid', hplace⟩ := h.carried other hheld
      exact ⟨id', mem_locked_hold.2 (.inr hid'), hplace⟩
  staged table htable :=
    ⟨mem_locked_hold.2 (.inr (h.staged table htable).1), (h.staged table htable).2⟩

theorem mem_locked_letGo_of_staged {table : Table} (h : InStep files t m) (hcopy : t.staged? id = none)
    (htable : table ∈ t.staged) : table.id ∈ (t.letGo id).locked := by
  refine mem_locked_letGo.2 ⟨(h.staged table htable).1, ?_⟩
  rintro rfl
  have hsome := isSome_staged? htable
  rw [hcopy] at hsome
  cases hsome

/-- Giving back a table that is held, with no copy staged. -/
theorem released (h : InStep files t m) {ls : List String} (hl : files.lines? id m = some ls)
    (hh : holder? ls = some t.ticket) (hcopy : t.staged? id = none)
    (hplaces : ∀ id' ∈ t.locked, files.place id' = files.place id → id' = id) :
    InStep files (t.letGo id) (m.put (files.place id) (dropLock ls)) where
  headed := by
    obtain ⟨rest, rfl⟩ := holder?_eq_some.1 hh
    rw [dropLock_lockLine_cons]
    exact h.headed.put fun line hline => h.headed id _ hl line (List.mem_of_mem_tail hline)
  locked other hother := by
    obtain ⟨hother, hne⟩ := mem_locked_letGo.1 hother
    rw [Catalog.heldBy?_put, if_neg fun hplace => hne (hplaces other hother hplace)]
    exact h.locked other hother
  carried other hheld := by
    rw [Catalog.heldBy?_put] at hheld
    split at hheld
    · rw [h.headed.holder?_dropLock hl hh] at hheld
      cases hheld
    · next hplace =>
      obtain ⟨id', hid', hsame⟩ := h.carried other hheld
      exact ⟨id', mem_locked_letGo.2 ⟨hid', fun heq => hplace (heq ▸ hsame.symm)⟩, hsame⟩
  staged table htable := ⟨h.mem_locked_letGo_of_staged hcopy htable, (h.staged table htable).2⟩

/-- Giving back a table that is not held. -/
theorem letGo (h : InStep files t m) (hheld : files.heldBy? id m ≠ some t.ticket)
    (hcopy : t.staged? id = none) : InStep files (t.letGo id) m where
  headed := h.headed
  locked other hother := h.locked other (mem_locked_letGo.1 hother).1
  carried other hother := by
    obtain ⟨id', hid', hplace⟩ := h.carried other hother
    refine ⟨id', mem_locked_letGo.2 ⟨hid', ?_⟩, hplace⟩
    rintro rfl
    exact hheld (h.locked id' hid').1
  staged table htable := ⟨h.mem_locked_letGo_of_staged hcopy htable, (h.staged table htable).2⟩

end InStep

end Transaction

end TextTables
