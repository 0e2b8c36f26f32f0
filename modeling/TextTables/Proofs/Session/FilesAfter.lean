import TextTables.Proofs.Session.Changing
import TextTables.Proofs.Session.WellFormed
/-!
# The files after a transaction

What a commit and an abort leave in every file of a store in memory: the staged tables are in their
files, the lock lines of the transaction are off the files of the others that it held, and all else is
as it was (`FilesAfter`). An abort is the case in which no table is written.
-/

namespace TextTables

variable {files : Catalog} {ticket : Ticket} {id : TableId} {ids : List TableId} {m m' m'' : Memory}

/-- What a store holds after some tables were written to their files and a ticket's lock line was
taken off the files of some others. -/
structure FilesAfter (files : Catalog) (ticket : Ticket) (tables : List Table) (ids : List TableId)
    (m m' : Memory) : Prop where
  directories : m'.directories = m.directories
  written : ∀ table ∈ tables, ∃ ls, encodeTable table = .ok ls ∧ files.lines? table.id m' = some ls
  released : ∀ id ∈ ids, ∀ rest,
    files.lines? id m = some (ticket.lockLine :: rest) → files.lines? id m' = some rest
  /-- A file that is gone does not come back. -/
  missing : ∀ id ∈ ids, files.lines? id m = none → files.lines? id m' = none
  /-- A file that is not written and does not start with the lock line, or belongs to none of the
  tables, is what it was. -/
  others : ∀ p, (∀ table ∈ tables, files.place table.id ≠ p) →
    (∀ id ∈ ids, files.place id = p → ∀ rest, m.lines? p ≠ some (ticket.lockLine :: rest)) →
    m'.lines? p = m.lines? p

/-- No two of the tables that a transaction has staged have one file, no two that it holds, and a
staged table has the file of a held one only if it is the same table. -/
structure Transaction.OwnFiles (files : Catalog) (t : Transaction) : Prop where
  staged : (t.staged.map fun table => files.place table.id).Nodup
  locked : (t.locked.map files.place).Nodup
  both : ∀ table ∈ t.staged, ∀ id ∈ t.locked, files.place table.id = files.place id → table.id = id

namespace FilesAfter

variable {tables : List Table} {ids' : List TableId}

/-- Lock lines taken off afterwards, from other files. -/
theorem andThen (h : FilesAfter files ticket tables ids m m')
    (h' : FilesAfter files ticket [] ids' m' m'')
    (htables : ∀ table ∈ tables, ∀ id ∈ ids', files.place table.id ≠ files.place id)
    (hids : ∀ id ∈ ids, ∀ id' ∈ ids', files.place id ≠ files.place id') :
    FilesAfter files ticket tables (ids ++ ids') m m'' := by
  -- What comes first leaves the files of the second step alone, and the other way round.
  have hbefore : ∀ id ∈ ids', files.lines? id m' = files.lines? id m := fun id hid =>
    h.others _ (fun table htable => htables table htable id hid)
      fun other hother heq => absurd heq (hids other hother id hid)
  have hafter (p : Place) (hp : ∀ id ∈ ids', p ≠ files.place id) : m''.lines? p = m'.lines? p :=
    h'.others p nofun fun id hid heq => absurd heq.symm (hp id hid)
  refine ⟨h'.directories.trans h.directories, fun table htable => ?_, fun id hid rest hl => ?_,
    fun id hid hl => ?_, fun p hnot hfree => ?_⟩
  · obtain ⟨ls, he, hl⟩ := h.written table htable
    exact ⟨ls, he, (hafter _ (htables table htable)).trans hl⟩
  · rcases List.mem_append.1 hid with hid | hid
    · exact (hafter _ (hids id hid)).trans (h.released id hid rest hl)
    · exact h'.released id hid rest ((hbefore id hid).trans hl)
  · rcases List.mem_append.1 hid with hid | hid
    · exact (hafter _ (hids id hid)).trans (h.missing id hid hl)
    · exact h'.missing id hid ((hbefore id hid).trans hl)
  · have hfirst := h.others p hnot fun id hid => hfree id (List.mem_append_left _ hid)
    refine (h'.others p nofun fun id hid heq => ?_).trans hfirst
    rw [hfirst]
    exact hfree id (List.mem_append_right _ hid) heq

theorem rooted (h : FilesAfter files ticket [] ids m m') (hm : m.Rooted) : m'.Rooted := by
  intro p ls hl
  rw [h.directories]
  by_cases hp : ∃ id ∈ ids, files.place id = p
  · obtain ⟨id, hid, rfl⟩ := hp
    cases hbefore : files.lines? id m with
    | none => cases (h.missing id hid hbefore).symm.trans hl
    | some ls' => exact hm _ ls' hbefore
  · have hsame := h.others p nofun fun id hid heq => absurd ⟨id, hid, heq⟩ hp
    exact hm p ls (hsame ▸ hl)

end FilesAfter

namespace Transaction

variable {t : Transaction}

/-! ## Lock lines taken off -/

/-- Releasing a table whose file is in a directory takes the ticket's lock line off it. -/
theorem releaseFile_filesAfter (files : Catalog) (ticket : Ticket) (id : TableId) (hm : m.Rooted) :
    ∃ m', releaseFile files ticket id m = .ok () m' ∧ FilesAfter files ticket [] [id] m m' := by
  have hunchanged (hfree : ∀ rest, files.lines? id m ≠ some (ticket.lockLine :: rest)) :
      FilesAfter files ticket [] [id] m m :=
    ⟨rfl, nofun, fun other hother rest hl => by
      rw [List.mem_singleton.1 hother] at hl
      exact absurd hl (hfree rest), fun _ _ hl => hl, fun _ _ _ => rfl⟩
  rw [releaseFile_apply, Catalog.tableExists_eq, Catalog.lines_eq]
  cases hl : files.lines? id m with
  | none =>
    refine ⟨m, rfl, hunchanged fun rest => ?_⟩
    rw [hl]
    nofun
  | some ls =>
    by_cases hh : holder? ls = some ticket
    · obtain ⟨rest, rfl⟩ := holder?_eq_some.1 hh
      have hd := Catalog.hasDirectory_of_rooted hm hl
      refine ⟨m.put (files.place id) rest, ?_, rfl, nofun, ?_, ?_, ?_⟩
      · simp [hh, files.writeLines_apply, hd]
      · intro other hother rest' hl'
        rw [List.mem_singleton.1 hother, hl] at hl'
        rw [List.mem_singleton.1 hother]
        cases hl'
        exact Memory.lines?_put_self
      · intro other hother hnone
        rw [List.mem_singleton.1 hother, hl] at hnone
        cases hnone
      · intro p _ hfree
        refine Memory.lines?_put_of_ne fun hp => ?_
        exact hfree id (List.mem_singleton_self id) hp.symm rest (hp ▸ hl)
    · refine ⟨m, by simp [hh], hunchanged fun rest heq => ?_⟩
      rw [hl] at heq
      cases heq
      exact hh holder?_lockLine_cons

/-- Releasing tables in files of their own takes the ticket's lock lines off them. -/
theorem releaseFiles_filesAfter (ticket : Ticket) (hm : m.Rooted) (hids : (ids.map files.place).Nodup) :
    ∃ m', releaseFiles files ticket ids m = .ok () m' ∧ FilesAfter files ticket [] ids m m' := by
  induction ids generalizing m with
  | nil => exact ⟨m, rfl, rfl, nofun, nofun, nofun, fun _ _ _ => rfl⟩
  | cons id rest ih =>
    rw [List.map_cons, List.nodup_cons] at hids
    obtain ⟨m₁, hfirst, hafter⟩ := releaseFile_filesAfter files ticket id hm
    obtain ⟨m₂, hrest, hafter'⟩ := ih (hafter.rooted hm) hids.2
    refine ⟨m₂, by rw [releaseFiles, Action.bind_ok hfirst, hrest], hafter.andThen hafter' nofun ?_⟩
    intro other hother id' hid' heq
    rw [List.mem_singleton.1 hother] at heq
    exact hids.1 (List.mem_map.2 ⟨id', hid', heq.symm⟩)

/-! ## Staged tables written -/

/-- Tables in files of their own are in these files once all are written. -/
theorem putAll_filesAfter (ticket : Ticket) {entries : List (TableId × List String)}
    (hentries : encodeAll t.staged = .ok entries)
    (hplaces : (t.staged.map fun table => files.place table.id).Nodup) :
    FilesAfter files ticket t.staged [] m (putAll files entries m) := by
  obtain ⟨hencodes, rfl⟩ := encodeAll_eq_ok.1 hentries
  refine ⟨directories_putAll files m _, fun table htable => ?_, nofun, nofun, fun p hp _ => ?_⟩
  · obtain ⟨ls, hls⟩ := hencodes table htable
    obtain ⟨-, rfl⟩ := encodeTable_eq_ok.1 hls
    refine ⟨_, hls, (lines?_putAll files m t.entries (files.place table.id)).trans ?_⟩
    cases hlast : lastAt files t.entries (files.place table.id) with
    | none =>
      have hne := (lastAt_eq_none files).1 hlast (table.id, table.lines) (mem_entries.2 ⟨table, htable, rfl⟩)
      exact absurd rfl hne
    | some entry =>
      -- The last table written to the file is the only one.
      obtain ⟨hentry, hplace⟩ := lastAt_eq_some files hlast
      obtain ⟨other, hother, rfl⟩ := mem_entries.1 hentry
      rw [List.inj_on_of_nodup_map hplaces hother htable hplace]
  · refine lines?_putAll_of_ne files m fun entry hentry => ?_
    obtain ⟨table, htable, rfl⟩ := mem_entries.1 hentry
    exact hp table htable

/-! ## Commits -/

theorem mem_unchanged : id ∈ t.unchanged ↔ id ∈ t.locked ∧ ∀ table ∈ t.staged, table.id ≠ id := by
  simp [unchanged, staged?]

/-- A commit in which every staged table can be encoded and written succeeds. -/
theorem commit_filesAfter (hm : m.Rooted) (hown : t.OwnFiles files)
    {entries : List (TableId × List String)} (hentries : encodeAll t.staged = .ok entries)
    (hdirectories : entries.all (files.hasDirectory ·.1 m) = true) :
    ∃ m', t.commit files m = .ok t.staged.length m' ∧
      FilesAfter files t.ticket t.staged t.unchanged m m' := by
  have hwritten : FilesAfter files t.ticket t.staged [] m (putAll files entries m) :=
    putAll_filesAfter t.ticket hentries hown.staged
  have hrooted : (putAll files entries m).Rooted :=
    rooted_putAll files m hm (List.all_eq_true.1 hdirectories)
  have hunchanged : (t.unchanged.map files.place).Nodup :=
    (List.filter_sublist.map files.place).nodup hown.locked
  obtain ⟨m', hreleases, hreleased⟩ := releaseFiles_filesAfter t.ticket hrooted hunchanged
  refine ⟨m', ?_, hwritten.andThen hreleased (fun table htable id hid heq => ?_) nofun⟩
  · rcases commit_cases files t m with ⟨e, he, -⟩ | ⟨entries', he, -, hcommit⟩ | ⟨entries', he, entry, hentry, hmissing, -⟩
    · cases hentries.symm.trans he
    · obtain rfl := Except.ok.inj (hentries.symm.trans he)
      rw [hcommit, hreleases]
    · obtain rfl := Except.ok.inj (hentries.symm.trans he)
      have hthere := List.all_eq_true.1 hdirectories entry hentry
      rw [hmissing] at hthere
      cases hthere
  · obtain ⟨hlocked, hne⟩ := mem_unchanged.1 hid
    exact hne table htable (hown.both table htable id hlocked heq)

end Transaction

namespace Connection

open Transaction

variable {c : Connection Memory} {t : Transaction}

/-- In a store whose files are in directories, a commit that succeeds counts the staged tables, leaves
each in its file, takes its lock line off the files of the other tables that it held and leaves all
other files as they were. It succeeds exactly if all staged tables can be encoded and their directories
are there. An abort succeeds and takes the lock lines off, and that is all it does. -/
theorem ended_files (hrooted : c.store.Rooted) (ht : c.transaction = some t) (hown : t.OwnFiles files) :
    (∀ n c', commit files c = .ok n c' → n = t.staged.length ∧ c'.transaction = none ∧
      FilesAfter files t.ticket t.staged t.unchanged c.store c'.store) ∧
    ((∃ n c', commit files c = .ok n c') ↔ ∀ table ∈ t.staged,
      (∃ ls, encodeTable table = .ok ls) ∧ files.hasDirectory table.id c.store = true) ∧
    ∃ c', abort files c = .ok () c' ∧ c'.transaction = none ∧
      FilesAfter files t.ticket [] t.locked c.store c'.store := by
  have hsucceeds {entries : List (TableId × List String)} (hentries : encodeAll t.staged = .ok entries)
      (hdirectories : entries.all (files.hasDirectory ·.1 c.store) = true) :=
    commit_filesAfter hrooted hown hentries hdirectories
  refine ⟨fun n c' hcommit => ?_, ⟨fun ⟨n, c', hcommit⟩ table htable => ?_, fun hstaged => ?_⟩, ?_⟩
  · obtain ⟨store, hcommitted, rfl⟩ := (commit_eq_ok files ht).1 hcommit
    obtain ⟨entries, hentries, hdirectories⟩ := commit_written files hcommitted
    obtain ⟨store', hcommitted', hfiles⟩ := hsucceeds hentries hdirectories
    cases hcommitted.symm.trans hcommitted'
    exact ⟨rfl, rfl, hfiles⟩
  · obtain ⟨store, hcommitted, -⟩ := (commit_eq_ok files ht).1 hcommit
    obtain ⟨entries, hentries, -⟩ := commit_written files hcommitted
    exact ⟨(encodeAll_eq_ok.1 hentries).1 table htable, hasDirectory_of_commit files hcommitted htable⟩
  · have hentries := encodeAll_eq_ok.2 ⟨fun table htable => (hstaged table htable).1, rfl⟩
    have hdirectories : t.entries.all (files.hasDirectory ·.1 c.store) = true := by
      simpa [entries] using fun table htable => (hstaged table htable).2
    obtain ⟨store, hcommitted, -⟩ := hsucceeds hentries hdirectories
    exact ⟨_, _, (commit_eq_ok files ht).2 ⟨store, hcommitted, rfl⟩⟩
  · obtain ⟨store, hreleases, hfiles⟩ := releaseFiles_filesAfter t.ticket hrooted hown.locked
    refine ⟨{ c with transaction := none, store }, ?_, rfl, hfiles⟩
    rw [abort_of_rooted hrooted ht]
    exact congrArg _ (congrArg _ (Action.after_ok hreleases))

/-- A session that has staged the table t and holds t, a, b and c, after the file of b was deleted and
the lock line of c was replaced by that of another transaction. -/
def interfered : Connection Memory :=
  let files : Catalog := ⟨⟨"Databases"⟩, "tbl"⟩
  let schema : Schema := ⟨[⟨"n", "int", .integer, none⟩]⟩
  let actions : Action (Connection Memory) Unit := do
    onStore files.init
    let _ ← onStore (files.createDatabase "db")
    for name in ["a", "b", "c", "t"] do
      let _ ← onStore (files.createTable ⟨"db", name⟩ schema)
    begin ⟨"1"⟩
    for name in ["a", "b", "c", "t"] do
      let _ ← acquire files ⟨"db", name⟩
    stage ⟨⟨"db", "t"⟩, schema, [[.integer 5]]⟩
    let _ ← onStore (files.dropTable ⟨"db", "b"⟩)
    onStore (files.writeLock ⟨"db", "c"⟩ ⟨"2"⟩)
  Action.after actions ⟨.start, .empty⟩

theorem ended_files_interfered :
    let files : Catalog := ⟨⟨"Databases"⟩, "tbl"⟩
    ∃ committed aborted,
      commit files interfered = .ok 1 committed ∧ abort files interfered = .ok () aborted ∧
      files.lines? ⟨"db", "t"⟩ committed.store = some ["n int", "5"] ∧
      files.lines? ⟨"db", "t"⟩ aborted.store = some ["n int"] ∧
      ∀ c ∈ [committed, aborted], files.lines? ⟨"db", "a"⟩ c.store = some ["n int"] ∧
        files.lines? ⟨"db", "b"⟩ c.store = none ∧
        files.lines? ⟨"db", "c"⟩ c.store = some ["&2", "n int"] := by
  intro files
  have hfiles : ∀ f ∈ interfered.store.files, f.1.parent = [] ∨ f.1.parent ∈ interfered.store.directories := by
    decide +kernel
  have hrooted : interfered.store.Rooted := fun p ls hl => hfiles (p, ls) (Memory.mem_files_of_lines? hl)
  have htransaction : interfered.transaction.any (fun t => t.ticket = ⟨"1"⟩ ∧
      t.locked = ["a", "b", "c", "t"].map (⟨"db", ·⟩) ∧ t.staged.map (·.id) = [⟨"db", "t"⟩] ∧
      t.staged.map (fun table => (encodeTable table).toOption) = [some ["n int", "5"]]) = true := by
    decide +kernel
  obtain ⟨ha, hb, hc, ht⟩ : files.lines? ⟨"db", "a"⟩ interfered.store = some [Ticket.lockLine ⟨"1"⟩, "n int"] ∧
      files.lines? ⟨"db", "b"⟩ interfered.store = none ∧
      files.lines? ⟨"db", "c"⟩ interfered.store = some ["&2", "n int"] ∧
      files.lines? ⟨"db", "t"⟩ interfered.store = some [Ticket.lockLine ⟨"1"⟩, "n int"] := by
    decide +kernel
  have hdirectory : files.hasDirectory ⟨"db", "t"⟩ interfered.store = true := by decide +kernel
  generalize interfered = c at *
  obtain ⟨⟨ticket, staged, locked⟩, htransaction, hfacts⟩ := (Option.any_eq_true ..).1 htransaction
  obtain ⟨rfl, rfl, hids, hencoded⟩ := of_decide_eq_true hfacts
  obtain ⟨table, rfl, hid⟩ := List.map_eq_singleton_iff.1 hids
  have hencodes : (encodeTable table).toOption = some ["n int", "5"] := List.singleton_inj.1 hencoded
  replace hencodes : encodeTable table = .ok ["n int", "5"] := by
    cases he : encodeTable table <;> simp_all [Except.toOption]
  have hplaces : ((["a", "b", "c", "t"].map fun name => (⟨"db", name⟩ : TableId)).map files.place).Nodup := by
    decide +kernel
  have hown : Transaction.OwnFiles files ⟨⟨"1"⟩, [table], ["a", "b", "c", "t"].map (⟨"db", ·⟩)⟩ := by
    refine ⟨by simp, hplaces, fun other hother id hmem hplace => ?_⟩
    rw [List.mem_singleton.1 hother, hid] at hplace ⊢
    exact List.inj_on_of_nodup_map hplaces (by simp) hmem hplace
  obtain ⟨hcommits, hsucceeds, aborted, habort, -, hreleased⟩ := ended_files hrooted htransaction hown
  obtain ⟨n, committed, hcommit⟩ := hsucceeds.2 (by simp [hencodes, hid, hdirectory])
  obtain ⟨rfl, -, hcommitted⟩ := hcommits n committed hcommit
  obtain ⟨ls, he, hwritten⟩ := hcommitted.written table (List.mem_singleton_self table)
  obtain rfl := Except.ok.inj (hencodes.symm.trans he)
  -- What holds of the files of a, b and c does so whether or not t is written.
  have hbeside {tables : List Table} {ids : List TableId} {m : Memory}
      (h : FilesAfter files ⟨"1"⟩ tables ids c.store m) (ha' : ⟨"db", "a"⟩ ∈ ids) (hb' : ⟨"db", "b"⟩ ∈ ids)
      (htables : ∀ other ∈ tables, files.place other.id ≠ files.place ⟨"db", "c"⟩) :
      files.lines? ⟨"db", "a"⟩ m = some ["n int"] ∧ files.lines? ⟨"db", "b"⟩ m = none ∧
        files.lines? ⟨"db", "c"⟩ m = some ["&2", "n int"] := by
    refine ⟨h.released _ ha' _ ha, h.missing _ hb' hb, (h.others _ htables fun id _ _ rest hl => ?_).trans hc⟩
    have hline := (List.cons.inj (Option.some.inj (hc.symm.trans hl))).1
    exact absurd hline (by decide)
  have htables : ∀ other ∈ [table], files.place other.id ≠ files.place ⟨"db", "c"⟩ := by
    rw [List.forall_mem_singleton, hid]
    decide +kernel
  refine ⟨committed, aborted, hcommit, habort, hid ▸ hwritten, hreleased.released _ (by simp) _ ht, ?_⟩
  refine List.forall_mem_cons.2 ⟨hbeside hcommitted ?_ ?_ htables, List.forall_mem_singleton.2
    (hbeside hreleased (by simp) (by simp) (by simp))⟩
  all_goals simp [Transaction.mem_unchanged, hid]

end Connection

end TextTables
