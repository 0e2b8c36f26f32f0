import TextTables.Proofs.File.RoundTrip
import TextTables.Proofs.Session.Content
import TextTables.Proofs.Session.Rollback
import TextTables.Proofs.Session.WellFormed
import TextTables.Proofs.Text.Case
/-!
# Staged tables as if they were written

`Settled` relates the store of a session to the store that it would have if every change were written
at once: there the files of the staged tables have the lines of the staged copies, and all other files
are the same. Staging a table in the one store is writing it in the other, and committing makes the
first store the second.
-/

namespace TextTables

/-! ## Tables as their files give them -/

/-- A table as it is loaded from its file: under a plain name, with its fields read through it. -/
structure Table.Loaded (table : Table) : Prop extends table.WellFormed where
  plain : table.id.Plain
  source : table.schema.under (some table.id.name) = table.schema

namespace Table

variable {table : Table} {id : TableId} {ls : List String}

theorem WellFormed.written_lines (h : table.WellFormed) : Written table.lines :=
  h.written h.encodeTable

/-- Loading a table gives it back. -/
theorem Loaded.decodeTable_lines (h : table.Loaded) :
    decodeTable table.id table.lines = .ok (none, table) := by
  rw [h.decodeTable_eq h.encodeTable (.inl rfl), h.source, h.holder?_lines]

theorem WellFormed.decodeHeader_lines (h : table.WellFormed) (name : String) :
    decodeHeader name table.lines = .ok (none, table.schema.under none) := by
  have hsplit := h.splitLock_eq h.encodeTable (.inl rfl)
  rw [h.holder?_lines] at hsplit
  exact decodeHeader_eq_ok.2 ⟨_, _, hsplit, h.schema.decode_encode⟩

theorem Loaded.with_rows {rows : List Row} (h : table.Loaded)
    (hrows : ∀ row ∈ rows, RowFits table.schema row) : Table.Loaded { table with rows } :=
  ⟨⟨h.schema, hrows⟩, h.plain, h.source⟩

theorem Loaded.append {rows : List Row} (h : table.Loaded) (hrows : ∀ row ∈ rows, RowFits table.schema row) :
    Table.Loaded { table with rows := table.rows ++ rows } :=
  ⟨h.toWellFormed.append hrows, h.plain, h.source⟩

theorem loaded_of_decodeTable {holder : Option Ticket} (hid : id.Plain) (hls : Written ls)
    (hd : decodeTable id ls = .ok (holder, table)) : table.Loaded := by
  obtain ⟨table', hd', htable⟩ := hls.decodeTable_eq id
  obtain ⟨-, rfl⟩ := Prod.mk.inj (Except.ok.inj (hd.symm.trans hd'))
  exact ⟨htable, by rwa [decodeTable_id hd], (typed_of_decodeTable hd).under_name⟩

end Table

/-! ## Stores without locks -/

/-- A store whose files hold well-formed tables, nobody's lock, and are in directories that are
there. -/
structure Memory.Sound (m : Memory) : Prop where
  tables : ∀ p ls, m.lines? p = some ls → ∃ table : Table, table.WellFormed ∧ ls = table.lines
  parents : ∀ p ls, m.lines? p = some ls → p.parent = [] ∨ p.parent ∈ m.directories

namespace Memory.Sound

variable {m : Memory} {p : Place} {ls : List String}

theorem holder? (h : m.Sound) (hl : m.lines? p = some ls) : TextTables.holder? ls = none := by
  obtain ⟨table, htable, rfl⟩ := h.tables p ls hl
  exact htable.holder?_lines

theorem written (h : m.Sound) (hl : m.lines? p = some ls) : Written ls := by
  obtain ⟨table, htable, rfl⟩ := h.tables p ls hl
  exact htable.written_lines

theorem hasDirectory {files : Catalog} {id : TableId} (h : m.Sound)
    (hl : files.lines? id m = some ls) : files.hasDirectory id m = true :=
  Catalog.hasDirectory_of_rooted h.parents hl

theorem put {files : Catalog} {id : TableId} {table : Table} (h : m.Sound)
    (hd : files.hasDirectory id m = true) (htable : table.WellFormed) :
    (m.put (files.place id) table.lines).Sound := by
  refine ⟨fun q ls hl => ?_, Rooted.put h.parents (Catalog.hasDirectory_iff.1 hd)⟩
  rw [lines?_put] at hl
  split at hl
  · cases hl
    exact ⟨table, htable, rfl⟩
  · exact h.tables q ls hl

theorem congr {m' : Memory} (h : m.Sound) (hsame : Memory.Same m m') : m'.Sound := by
  refine ⟨fun q ls hl => h.tables q ls ((hsame.lines q).symm.trans hl), fun q ls hl => ?_⟩
  rw [hsame.directories]
  exact h.parents q ls ((hsame.lines q).symm.trans hl)

theorem erase (h : m.Sound) (p : Place) : (m.erase p).Sound :=
  ⟨fun q ls hl => h.tables q ls (lines?_of_erase hl), Rooted.erase h.parents p⟩

theorem addDirectory (h : m.Sound) (p : Place) : (m.addDirectory p).Sound :=
  ⟨h.tables, Rooted.addDirectory h.parents p⟩

theorem removeDirectory (h : m.Sound) (p : Place) : (m.removeDirectory p).Sound :=
  ⟨fun q ls hl => h.tables q ls (lines?_of_removeDirectory hl).1, Rooted.removeDirectory h.parents p⟩

end Memory.Sound

/-! ## The two stores -/

/-- The second store is what the first is for a session inside a transaction, if the staged tables were
in their files and the lock lines were not. -/
structure Settled (files : Catalog) (t : Transaction) (m settled : Memory) : Prop where
  directories : settled.directories = m.directories
  held : t.Held files m
  staged : ∀ table ∈ t.staged, files.lines? table.id settled = some table.lines
  others : ∀ p, (∀ table ∈ t.staged, files.place table.id ≠ p) → settled.lines? p = m.lines? p
  locked : ∀ id ∈ t.locked, ∃ table ∈ t.staged, table.id = id
  ordered : t.Ordered
  loaded : ∀ table ∈ t.staged, table.Loaded

variable {files : Catalog} {t : Transaction} {m m' settled : Memory} {ticket : Ticket} {id : TableId}
  {table : Table} {ls : List String}

theorem settled_start : Settled files (.start ticket) m settled ↔ Memory.Same m settled := by
  constructor
  · intro h
    exact ⟨h.directories, fun p => h.others p nofun⟩
  · intro h
    exact ⟨h.directories, nofun, nofun, fun p _ => h.lines p, nofun, .nil, nofun⟩

namespace Settled

theorem congr {settled' : Memory} (h : Settled files t m settled) (hm : Memory.Same m m')
    (hsettled : Memory.Same settled settled') : Settled files t m' settled' where
  directories := by rw [hm.directories, hsettled.directories, h.directories]
  held table hmem := (h.held table hmem).congr (hm.lines _)
  staged table hmem := (hsettled.lines _).trans (h.staged table hmem)
  others p hp := by rw [hm.lines, hsettled.lines, h.others p hp]
  locked := h.locked
  ordered := h.ordered
  loaded := h.loaded

theorem hasDirectory (h : Settled files t m settled) :
    files.hasDirectory id settled = files.hasDirectory id m :=
  Catalog.hasDirectory_congr h.directories

/-- The file of a table that is not staged is no staged table's. -/
theorem place_ne (h : Settled files t m settled) (hid : id.Plain) (hs : t.staged? id = none) :
    ∀ table ∈ t.staged, files.place table.id ≠ files.place id := by
  intro table hm hp
  have hplain := (h.loaded table hm).plain
  have heq := Catalog.place_injective hplain.database hplain.name hid.database hid.name hp
  have hsome := Transaction.isSome_staged? hm
  rw [heq, hs] at hsome
  cases hsome

theorem lines?_eq (h : Settled files t m settled) (hid : id.Plain) (hs : t.staged? id = none) :
    files.lines? id settled = files.lines? id m :=
  h.others _ (h.place_ne hid hs)

/-- The same files are there. -/
theorem isSome_lines? (h : Settled files t m settled) (id : TableId) :
    (files.lines? id settled).isSome = (files.lines? id m).isSome := by
  by_cases hp : ∃ table ∈ t.staged, files.place table.id = files.place id
  · obtain ⟨table, hm, hp⟩ := hp
    obtain ⟨body, hl⟩ := h.held table hm
    have hs := h.staged table hm
    rw [Catalog.lines?] at hs ⊢
    rw [← hp, hs, Catalog.lines?, ← hp, hl]
    rfl
  · have hl : files.lines? id settled = files.lines? id m :=
      h.others _ fun table hm heq => hp ⟨table, hm, heq⟩
    rw [hl]

/-- Who holds a file is the transaction, and it has staged the table. -/
theorem holder?_eq_some (h : Settled files t m settled) (hsound : settled.Sound)
    (hl : files.lines? id m = some ls) {holder : Ticket} (hh : holder? ls = some holder) :
    holder = t.ticket ∧ ∃ table ∈ t.staged, files.place table.id = files.place id := by
  by_cases hp : ∃ table ∈ t.staged, files.place table.id = files.place id
  · obtain ⟨table, hm, hp⟩ := hp
    have hholder := (h.held table hm).holder? ((congrArg m.lines? hp).trans hl)
    exact ⟨Option.some.inj (hh.symm.trans hholder), table, hm, hp⟩
  · have hl' := (h.others _ fun table hm heq => hp ⟨table, hm, heq⟩).trans hl
    rw [hsound.holder? hl'] at hh
    cases hh

/-! ## Changes -/

theorem hold (h : Settled files t m settled) (hm : ∃ table ∈ t.staged, table.id = id) :
    Settled files (t.hold id) m settled := by
  refine { h with locked := fun other hother => ?_ }
  rcases Transaction.mem_locked_hold.1 hother with rfl | hother
  · exact hm
  · exact h.locked other hother

/-- Staging a table whose file the transaction holds is writing it. -/
theorem stage (h : Settled files t m settled) (htable : table.Loaded)
    (hholds : Holds t.ticket m' (files.place table.id)) (hdirectories : m'.directories = m.directories)
    (hothers : ∀ p, p ≠ files.place table.id → m'.lines? p = m.lines? p) :
    Settled files (t.stage table) m' (settled.put (files.place table.id) table.lines) := by
  -- The file of another staged table is another file, so it is not touched.
  have hne {other : Table} (hm : other ∈ t.staged) (hid : other.id ≠ table.id) :
      files.place other.id ≠ files.place table.id := fun hp =>
    hid (Catalog.place_injective (h.loaded other hm).plain.database (h.loaded other hm).plain.name
      htable.plain.database htable.plain.name hp)
  refine ⟨h.directories.trans hdirectories.symm, fun other hm => ?_, fun other hm => ?_,
    fun p hp => ?_, fun id hid => ?_, h.ordered.stage, fun other hm => ?_⟩
  · rcases h.ordered.mem_stage.1 hm with rfl | ⟨hm, hid⟩
    · exact hholds
    · exact (h.held other hm).congr (hothers _ (hne hm hid))
  · rcases h.ordered.mem_stage.1 hm with rfl | ⟨hm, hid⟩
    · exact Memory.lines?_put_self
    · exact (Memory.lines?_put_of_ne (hne hm hid)).trans (h.staged other hm)
  · have hself : p ≠ files.place table.id := fun heq =>
      hp table (h.ordered.mem_stage.2 (.inl rfl)) heq.symm
    rw [Memory.lines?_put_of_ne hself, hothers p hself]
    refine h.others p fun other hm heq => ?_
    by_cases hid : other.id = table.id
    · exact hself (by rw [← heq, hid])
    · exact hp other (h.ordered.mem_stage.2 (.inr ⟨hm, hid⟩)) heq
  · obtain ⟨other, hm, rfl⟩ := h.locked id hid
    by_cases hid : other.id = table.id
    · exact ⟨table, h.ordered.mem_stage.2 (.inl rfl), hid.symm⟩
    · exact ⟨other, h.ordered.mem_stage.2 (.inr ⟨hm, hid⟩), rfl⟩
  · rcases h.ordered.mem_stage.1 hm with rfl | ⟨hm, -⟩
    · exact htable
    · exact h.loaded other hm

/-- Staging a table under its lock is writing it. -/
theorem stage_locked (h : Settled files t m settled) (htable : table.Loaded)
    (hlocks : Connection.Locks files t.ticket table.id m m') :
    Settled files ((t.hold table.id).stage table) m'
      (settled.put (files.place table.id) table.lines) := by
  have hstage : Settled files (t.stage table) m' (settled.put (files.place table.id) table.lines) := by
    cases hlocks with
    | held hl hh => exact h.stage htable (.of_lines? hl hh) rfl fun _ _ => rfl
    | taken hl hh =>
      exact h.stage htable (.of_lines? Memory.lines?_put_self holder?_putLock) rfl
        fun _ hp => Memory.lines?_put_of_ne hp
  exact hstage.hold ⟨table, h.ordered.mem_stage.2 (.inl rfl), rfl⟩

/-- Giving back a lock that was taken for nothing. -/
theorem given_back (h : Settled files t m settled) (hl : files.lines? id m = some ls) :
    Settled files ((t.hold id).letGo id) (m.put (files.place id) ls) settled := by
  have hlines (p : Place) : (m.put (files.place id) ls).lines? p = m.lines? p :=
    Memory.lines?_put_of_lines? hl
  refine { h with held := fun table hm => (h.held table hm).congr (hlines _),
                  others := fun p hp => (h.others p hp).trans (hlines p).symm,
                  locked := fun other hother => ?_ }
  obtain ⟨hother, hne⟩ := Transaction.mem_locked_letGo.1 hother
  rcases Transaction.mem_locked_hold.1 hother with rfl | hother
  · exact absurd rfl hne
  · exact h.locked other hother

theorem addDirectory (h : Settled files t m settled) (p : Place) :
    Settled files t (m.addDirectory p) (settled.addDirectory p) :=
  { h with directories := by rw [Memory.addDirectory, Memory.addDirectory, h.directories] }

/-- Writing a file that no staged table has changes both stores. -/
theorem put (h : Settled files t m settled) {p : Place}
    (hp : ∀ table ∈ t.staged, files.place table.id ≠ p) (ls : List String) :
    Settled files t (m.put p ls) (settled.put p ls) := by
  refine { h with held := fun table hm => ?_, staged := fun table hm => ?_, others := fun q hq => ?_ }
  · exact (h.held table hm).congr (Memory.lines?_put_of_ne (hp table hm))
  · exact (Memory.lines?_put_of_ne (hp table hm)).trans (h.staged table hm)
  · rw [Memory.lines?_put, Memory.lines?_put, h.others q hq]

/-- Dropping a table forgets its staged copy. -/
theorem erase (h : Settled files t m settled) (hid : id.Plain) :
    Settled files (t.forgetTable id) (m.erase (files.place id)) (settled.erase (files.place id)) := by
  have hkept {table : Table} (hm : table ∈ (t.forgetTable id).staged) :
      table ∈ t.staged ∧ files.place table.id ≠ files.place id := by
    obtain ⟨hm, hne⟩ := Transaction.mem_staged_forgetTable.1 hm
    have hplain := (h.loaded table hm).plain
    exact ⟨hm, fun hp => hne (Catalog.place_injective hplain.database hplain.name hid.database hid.name hp)⟩
  refine ⟨h.directories, fun table hm => ?_, fun table hm => ?_, fun p hp => ?_, fun other hother => ?_,
    h.ordered.forgetTable, fun table hm => h.loaded table (hkept hm).1⟩
  · obtain ⟨hm, hne⟩ := hkept hm
    exact (h.held table hm).congr (Memory.lines?_erase.trans (if_neg hne))
  · obtain ⟨hm, hne⟩ := hkept hm
    exact (Memory.lines?_erase.trans (if_neg hne)).trans (h.staged table hm)
  · rw [Memory.lines?_erase, Memory.lines?_erase]
    split
    · rfl
    · next hne =>
      refine h.others p fun table hm heq => ?_
      by_cases hsame : table.id = id
      · exact hne (by rw [← heq, hsame])
      · exact hp table (Transaction.mem_staged_forgetTable.2 ⟨hm, hsame⟩) heq
  · obtain ⟨hother, hne⟩ := List.mem_filter.1 hother
    obtain ⟨table, hm, rfl⟩ := h.locked other hother
    exact ⟨table, Transaction.mem_staged_forgetTable.2 ⟨hm, by simpa using hne⟩, rfl⟩

/-- Dropping a database forgets the staged copies of its tables. -/
theorem removeDirectory (h : Settled files t m settled) {name : String} (hname : PlainName name) :
    Settled files (t.forgetDatabase name) (m.removeDirectory (files.databasePath name).place)
      (settled.removeDirectory (files.databasePath name).place) := by
  -- The files that go are those of the tables that are forgotten.
  have hwithin {table : Table} (hm : table ∈ t.staged) :
      (files.place table.id).within (files.databasePath name).place =
        Text.sameIgnoringCase table.id.database name := by
    have hplain := (h.loaded table hm).plain
    rw [Bool.eq_iff_iff, Catalog.place_within hplain.database hplain.name hname,
      Text.sameIgnoringCase_iff hplain.database.lower hname.lower]
  have hkept {table : Table} (hm : table ∈ (t.forgetDatabase name).staged) : table ∈ t.staged ∧
      ¬ (files.place table.id).within (files.databasePath name).place = true := by
    obtain ⟨hm, hsame⟩ := Transaction.mem_staged_forgetDatabase.1 hm
    exact ⟨hm, by rw [hwithin hm, hsame]; decide⟩
  refine ⟨by rw [Memory.removeDirectory, Memory.removeDirectory, h.directories], fun table hm => ?_,
    fun table hm => ?_, fun p hp => ?_, fun other hother => ?_, h.ordered.forgetDatabase,
    fun table hm => h.loaded table (hkept hm).1⟩
  · obtain ⟨hm, hout⟩ := hkept hm
    exact (h.held table hm).congr (Memory.lines?_removeDirectory.trans (if_neg hout))
  · obtain ⟨hm, hout⟩ := hkept hm
    exact (Memory.lines?_removeDirectory.trans (if_neg hout)).trans (h.staged table hm)
  · rw [Memory.lines?_removeDirectory, Memory.lines?_removeDirectory]
    split
    · rfl
    · next hout =>
      refine h.others p fun table hm heq => hp table ?_ heq
      refine Transaction.mem_staged_forgetDatabase.2 ⟨hm, ?_⟩
      rw [← hwithin hm, heq]
      simpa using hout
  · obtain ⟨hother, hsame⟩ := List.mem_filter.1 hother
    obtain ⟨table, hm, rfl⟩ := h.locked other hother
    exact ⟨table, Transaction.mem_staged_forgetDatabase.2 ⟨hm, by simpa using hsame⟩, rfl⟩

/-! ## Committing -/

/-- Committing succeeds, and makes the files what they are in the other store. -/
theorem commit (h : Settled files t m settled) (hsound : settled.Sound) :
    ∃ m', t.commit files m = .ok t.staged.length m' ∧ Memory.Same m' settled := by
  have hwell : t.WellFormed := fun table hm => (h.loaded table hm).toWellFormed
  have hdirectories : t.entries.all (files.hasDirectory ·.1 m) = true := by
    rw [List.all_eq_true]
    intro entry hentry
    obtain ⟨table, hm, rfl⟩ := Transaction.mem_entries.1 hentry
    rw [← h.hasDirectory]
    exact hsound.hasDirectory (h.staged table hm)
  -- Whatever is held is staged as well, so writing takes all lock lines off.
  have hunchanged : t.unchanged = [] := by
    refine List.filter_eq_nil_iff.2 fun id hid => ?_
    obtain ⟨table, hm, rfl⟩ := h.locked id hid
    rw [← Option.not_isSome, Transaction.isSome_staged? hm]
    decide
  rcases Transaction.writeAll_apply files t.entries m with ⟨-, hwrite⟩ | ⟨hmissing, -⟩
  · refine ⟨Transaction.putAll files t.entries m, ?_, ?_, fun p => ?_⟩
    · rw [Transaction.commit, Transaction.writeStaged, Action.bind_ok (Action.of_ok hwell.encodeAll_eq m),
        hwrite, hunchanged]
      rfl
    · rw [h.directories, Transaction.directories_putAll]
    · rw [Transaction.lines?_putAll]
      cases hlast : Transaction.lastAt files t.entries p with
      | none =>
        have hnone := (Transaction.lastAt_eq_none files).1 hlast
        exact h.others p fun table hm =>
          hnone (table.id, table.lines) (Transaction.mem_entries.2 ⟨table, hm, rfl⟩)
      | some entry =>
        obtain ⟨hmem, hplace⟩ := Transaction.lastAt_eq_some files hlast
        obtain ⟨table, hm, rfl⟩ := Transaction.mem_entries.1 hmem
        rw [← hplace]
        exact h.staged table hm
  · rw [hdirectories] at hmissing
    cases hmissing

end Settled

end TextTables
