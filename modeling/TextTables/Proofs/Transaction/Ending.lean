import Mathlib.Data.List.Induction
import Mathlib.Data.List.TakeWhile
import TextTables.Proofs.File.Lock
import TextTables.Proofs.Store.Catalog
import TextTables.Proofs.Transaction.Staging
/-!
# The end of a transaction

What committing and aborting do to a store in memory. Both take lock lines off the top of files
(`Released`); committing first puts the lines of the staged tables in their files, up to the first
table whose directory is missing (`Transaction.written`).
-/

namespace TextTables

/-! ## Lock lines taken off -/

/-- Two stores that differ at most in a ticket's lock lines at the top of files. -/
structure Released (ticket : Ticket) (before after : Memory) : Prop where
  directories : after.directories = before.directories
  files (p : Place) : Option.Rel (Unlocked ticket) (before.lines? p) (after.lines? p)

namespace Released

variable {ticket : Ticket} {m m' m'' : Memory} {p : Place}

theorem refl (ticket : Ticket) (m : Memory) : Released ticket m m := by
  refine ⟨rfl, fun p => ?_⟩
  cases m.lines? p with
  | none => exact .none
  | some ls => exact .some (.refl ls)

theorem trans (h : Released ticket m m') (h' : Released ticket m' m'') : Released ticket m m'' := by
  refine ⟨h'.directories.trans h.directories, fun p => ?_⟩
  have h1 := h.files p
  have h2 := h'.files p
  generalize m.lines? p = a at h1
  generalize m'.lines? p = b at h1 h2
  generalize m''.lines? p = c at h2
  cases h1 with
  | none => cases h2; exact .none
  | some hu => cases h2 with | some hu' => exact .some (hu.trans hu')

theorem drop {ls : List String} (hl : m.lines? p = some ls) (hh : holder? ls = some ticket) :
    Released ticket m (m.put p (dropLock ls)) := by
  refine ⟨rfl, fun q => ?_⟩
  rw [Memory.lines?_put]
  split
  · next h => subst h; rw [hl]; exact .some (.single hh)
  · exact (refl ticket m).files q

theorem lines?_of_none (h : Released ticket m m') (hl : m.lines? p = none) : m'.lines? p = none := by
  have := h.files p
  rw [hl] at this
  generalize m'.lines? p = b at this
  cases this
  rfl

theorem lines?_of_some (h : Released ticket m m') {ls : List String} (hl : m.lines? p = some ls) :
    ∃ ls', m'.lines? p = some ls' ∧ Unlocked ticket ls ls' := by
  have := h.files p
  rw [hl] at this
  generalize m'.lines? p = b at this
  cases this with
  | some hu => exact ⟨_, rfl, hu⟩

/-- A property that lines keep without a lock line is kept by all files. -/
theorem each (h : Released ticket m m') {P : List String → Prop} (hm : m.Each P)
    (hP : ∀ ls ls', P ls → Unlocked ticket ls ls' → P ls') : m'.Each P := by
  intro p ls' hl'
  cases hl : m.lines? p with
  | none =>
    rw [h.lines?_of_none hl] at hl'
    cases hl'
  | some ls =>
    obtain ⟨ls'', hl'', hu⟩ := h.lines?_of_some hl
    obtain rfl := Option.some.inj (hl'.symm.trans hl'')
    exact hP ls ls' (hm p ls hl) hu

/-- The contents of every file are what they were. -/
theorem contents_eq (h : Released ticket m m') (p : Place) :
    (m'.lines? p).map contents = (m.lines? p).map contents := by
  cases hl : m.lines? p with
  | none => rw [h.lines?_of_none hl]
  | some ls =>
    obtain ⟨ls', hl', hu⟩ := h.lines?_of_some hl
    rw [hl', Option.map_some, Option.map_some, hu.contents_eq]

/-- A file that does not start with the ticket's lock line stays as it is. -/
theorem lines?_eq (h : Released ticket m m') {ls : List String} (hl : m.lines? p = some ls)
    (hh : holder? ls ≠ some ticket) : m'.lines? p = some ls := by
  obtain ⟨ls', hl', hu⟩ := h.lines?_of_some hl
  rw [hl', hu.eq_of_holder? hh]

theorem rooted (h : Released ticket m m') (hm : m.Rooted) : m'.Rooted := by
  intro p ls' hl'
  rw [h.directories]
  cases hl : m.lines? p with
  | none =>
    rw [h.lines?_of_none hl] at hl'
    cases hl'
  | some ls => exact hm p ls hl

end Released

namespace Transaction

variable (files : Catalog) (ticket : Ticket) (id : TableId) (m : Memory)

/-- Releasing a file takes the ticket's lock line off it or changes nothing. -/
theorem after_releaseFile : Action.after (releaseFile files ticket id) m = m ∨
    ∃ ls, files.lines? id m = some ls ∧ holder? ls = some ticket ∧
      Action.after (releaseFile files ticket id) m = m.put (files.place id) (dropLock ls) := by
  simp only [releaseFile, Action.after_bind, Action.get_apply]
  cases hl : files.lines? id m with
  | none =>
    have he : files.tableExists id m = false := by simp [Catalog.tableExists_eq, hl]
    simp only [he, Bool.false_eq_true, if_false]
    exact .inl rfl
  | some ls =>
    have he : files.tableExists id m = true := by simp [Catalog.tableExists_eq, hl]
    simp only [he, if_true, Action.after_bind, Action.ask_apply, Catalog.holder?_eq, hl]
    by_cases hh : holder? ls = some ticket
    · simp only [hh, if_true, Action.after, files.clearLock_apply id m hl hh]
      cases files.hasDirectory id m with
      | false => exact .inl rfl
      | true => exact .inr ⟨ls, rfl, hh, rfl⟩
    · simp only [hh, if_false]
      exact .inl rfl

theorem releaseFile_released : Released ticket m (Action.after (releaseFile files ticket id) m) := by
  rcases after_releaseFile files ticket id m with h | ⟨ls, hl, hh, h⟩
  · rw [h]
    exact .refl ticket m
  · rw [h]
    exact .drop hl hh

theorem lines?_releaseFile_of_ne {p : Place} (hp : files.place id ≠ p) :
    (Action.after (releaseFile files ticket id) m).lines? p = m.lines? p := by
  rcases after_releaseFile files ticket id m with h | ⟨ls, -, -, h⟩
  · rw [h]
  · rw [h, Memory.lines?_put_of_ne hp.symm]

theorem releaseFiles_released (ids : List TableId) (m : Memory) :
    Released ticket m (Action.after (releaseFiles files ticket ids) m) := by
  induction ids generalizing m with
  | nil => exact .refl ticket m
  | cons id rest ih =>
    have h := releaseFile_released files ticket id m
    simp only [releaseFiles, Action.after_bind]
    simp only [Action.after] at h ih ⊢
    cases hr : releaseFile files ticket id m with
    | ok _ m' => rw [hr] at h; exact h.trans (ih m')
    | error _ m' => rw [hr] at h; exact h

theorem releaseWhatCan_cons {σ : Type} [Storage σ] (rest : List TableId) (s : σ) :
    releaseWhatCan files ticket (id :: rest) s =
      releaseWhatCan files ticket rest (Action.after (releaseFile files ticket id) s) := by
  simp only [releaseWhatCan, List.foldl_cons, Action.after]
  cases releaseFile files ticket id s <;> rfl

theorem releaseWhatCan_released (ids : List TableId) (m : Memory) :
    Released ticket m (releaseWhatCan files ticket ids m) := by
  induction ids generalizing m with
  | nil => exact .refl ticket m
  | cons id rest ih =>
    rw [releaseWhatCan_cons]
    exact (releaseFile_released files ticket id m).trans (ih _)

theorem lines?_releaseFiles_of_ne {ids : List TableId} {m : Memory} {p : Place}
    (hp : ∀ id ∈ ids, files.place id ≠ p) :
    (Action.after (releaseFiles files ticket ids) m).lines? p = m.lines? p := by
  induction ids generalizing m with
  | nil => rfl
  | cons id rest ih =>
    obtain ⟨hid, hrest⟩ := List.forall_mem_cons.1 hp
    have h := lines?_releaseFile_of_ne files ticket id m hid
    simp only [releaseFiles, Action.after_bind]
    simp only [Action.after] at h ih ⊢
    cases hr : releaseFile files ticket id m with
    | ok _ m' =>
      rw [hr] at h
      exact (ih hrest).trans h
    | error _ m' =>
      rw [hr] at h
      exact h

theorem lines?_releaseWhatCan_of_ne {ids : List TableId} {m : Memory} {p : Place}
    (hp : ∀ id ∈ ids, files.place id ≠ p) : (releaseWhatCan files ticket ids m).lines? p = m.lines? p := by
  induction ids generalizing m with
  | nil => rfl
  | cons id rest ih =>
    obtain ⟨hid, hrest⟩ := List.forall_mem_cons.1 hp
    rw [releaseWhatCan_cons, ih hrest]
    exact lines?_releaseFile_of_ne files ticket id m hid

/-- Releasing a file fails only if it cannot be written. -/
theorem releaseFile_error {m m' : Memory} {e : Error} (h : releaseFile files ticket id m = .error e m') :
    e = files.missingDirectory id ∧ files.hasDirectory id m = false := by
  simp only [releaseFile, Action.bind_apply, Action.get_apply] at h
  cases hl : files.lines? id m with
  | none =>
    simp only [Catalog.tableExists_eq, hl, Option.isSome_none, Bool.false_eq_true, if_false] at h
    cases h
  | some ls =>
    simp only [Catalog.tableExists_eq, hl, Option.isSome_some, if_true, Action.bind_apply,
      Action.ask_apply, Catalog.holder?_eq] at h
    by_cases hh : holder? ls = some ticket
    · simp only [hh, if_true, files.clearLock_apply id m hl hh] at h
      cases hd : files.hasDirectory id m with
      | true =>
        rw [hd] at h
        cases h
      | false =>
        rw [hd] at h
        cases h
        exact ⟨rfl, rfl⟩
    · simp only [hh, if_false] at h
      cases h

theorem releaseFiles_error {ids : List TableId} {m m' : Memory} {e : Error}
    (h : releaseFiles files ticket ids m = .error e m') :
    ∃ id ∈ ids, e = files.missingDirectory id ∧ files.hasDirectory id m = false := by
  induction ids generalizing m with
  | nil => cases h
  | cons id rest ih =>
    simp only [releaseFiles, Action.bind_apply] at h
    cases hr : releaseFile files ticket id m with
    | ok _ m1 =>
      rw [hr] at h
      obtain ⟨other, hother, he, hd⟩ := ih h
      have hdirectories : m1.directories = m.directories := by
        have hreleased := releaseFile_released files ticket id m
        rw [Action.after_ok hr] at hreleased
        exact hreleased.directories
      exact ⟨other, List.mem_cons_of_mem _ hother, he, (Catalog.hasDirectory_congr hdirectories) ▸ hd⟩
    | error e1 m1 =>
      rw [hr] at h
      cases h
      exact ⟨id, List.mem_cons_self, releaseFile_error files ticket id hr⟩

theorem abort_released (t : Transaction) : Released t.ticket m (Action.after (t.abort files) m) :=
  releaseFiles_released files t.ticket t.locked m

/-! ## Staged tables written -/

/-- A store with the lines of some tables put in their files, in order. -/
def putAll (entries : List (TableId × List String)) (m : Memory) : Memory :=
  entries.foldl (fun m entry => m.put (files.place entry.1) entry.2) m

/-- The last of some tables to be written to a place, with its lines. -/
def lastAt (entries : List (TableId × List String)) (p : Place) :
    Option (TableId × List String) :=
  entries.reverse.find? fun entry => files.place entry.1 = p

/-- The staged tables that committing writes, with their lines: none if one of them cannot be
encoded, else those in front of the first whose directory is missing. -/
def written (t : Transaction) : List (TableId × List String) :=
  match encodeAll t.staged with
  | .ok entries => entries.takeWhile fun entry => files.hasDirectory entry.1 m
  | .error _ => []

theorem lines?_putAll (entries : List (TableId × List String)) (p : Place) :
    (putAll files entries m).lines? p =
      match lastAt files entries p with
      | some entry => some entry.2
      | none => m.lines? p := by
  induction entries using List.reverseRecOn with
  | nil => rfl
  | append_singleton entries entry ih =>
    simp only [putAll, List.foldl_append, List.foldl_cons, List.foldl_nil, lastAt,
      List.reverse_append, List.reverse_singleton, List.singleton_append, List.find?_cons]
    by_cases hp : files.place entry.1 = p
    · subst hp
      simp
    · simp only [hp, decide_false]
      rw [Memory.lines?_put_of_ne (Ne.symm hp)]
      exact ih

theorem directories_putAll (entries : List (TableId × List String)) :
    (putAll files entries m).directories = m.directories := by
  induction entries generalizing m with
  | nil => rfl
  | cons entry rest ih => exact ih (m.put (files.place entry.1) entry.2)

theorem each_putAll {P : List String → Prop} {entries : List (TableId × List String)} (h : m.Each P)
    (hentries : ∀ entry ∈ entries, P entry.2) : (putAll files entries m).Each P := by
  induction entries generalizing m with
  | nil => exact h
  | cons entry rest ih =>
    obtain ⟨hentry, hrest⟩ := List.forall_mem_cons.1 hentries
    exact ih _ (h.put hentry) hrest

theorem rooted_putAll {entries : List (TableId × List String)} (h : m.Rooted)
    (hentries : ∀ entry ∈ entries, files.hasDirectory entry.1 m = true) :
    (putAll files entries m).Rooted := by
  induction entries generalizing m with
  | nil => exact h
  | cons entry rest ih =>
    obtain ⟨hentry, hrest⟩ := List.forall_mem_cons.1 hentries
    exact ih _ (h.put (Catalog.hasDirectory_iff.1 hentry)) hrest

theorem lastAt_eq_some {entries : List (TableId × List String)} {p : Place}
    {entry : TableId × List String} (h : lastAt files entries p = some entry) :
    entry ∈ entries ∧ files.place entry.1 = p :=
  ⟨List.mem_reverse.1 (List.mem_of_find?_eq_some h), by simpa using List.find?_some h⟩

theorem lastAt_eq_none {entries : List (TableId × List String)} {p : Place} :
    lastAt files entries p = none ↔ ∀ entry ∈ entries, files.place entry.1 ≠ p := by
  simp [lastAt]

theorem lines?_putAll_of_ne {entries : List (TableId × List String)} {p : Place}
    (h : ∀ entry ∈ entries, files.place entry.1 ≠ p) :
    (putAll files entries m).lines? p = m.lines? p := by
  rw [lines?_putAll, (lastAt_eq_none files).2 h]

theorem exists_of_encodeAll {tables : List Table} {entries : List (TableId × List String)}
    (h : encodeAll tables = .ok entries) {table : Table} (htable : table ∈ tables) :
    ∃ entry ∈ entries, entry.1 = table.id := by
  induction tables generalizing entries with
  | nil => cases htable
  | cons first rest ih =>
    obtain ⟨ls, -, h⟩ := Except.bind_eq_ok.1 h
    obtain ⟨entries', hrest, h⟩ := Except.bind_eq_ok.1 h
    cases h
    rcases List.mem_cons.1 htable with rfl | htable
    · exact ⟨_, List.mem_cons_self, rfl⟩
    · obtain ⟨entry, hentry, hid⟩ := ih hrest htable
      exact ⟨entry, List.mem_cons_of_mem _ hentry, hid⟩

theorem mem_encodeAll {tables : List Table} {entries : List (TableId × List String)}
    (h : encodeAll tables = .ok entries) {entry : TableId × List String} (hentry : entry ∈ entries) :
    ∃ table ∈ tables, table.id = entry.1 ∧ encodeTable table = .ok entry.2 := by
  induction tables generalizing entries with
  | nil => cases h; cases hentry
  | cons table rest ih =>
    obtain ⟨ls, hls, h⟩ := Except.bind_eq_ok.1 h
    obtain ⟨entries', hrest, h⟩ := Except.bind_eq_ok.1 h
    cases h
    rcases List.mem_cons.1 hentry with rfl | hentry
    · exact ⟨table, List.mem_cons_self, rfl, hls⟩
    · obtain ⟨table', hm, hencoded⟩ := ih hrest hentry
      exact ⟨table', List.mem_cons_of_mem _ hm, hencoded⟩

theorem exists_of_encodeAll_error {tables : List Table} {e : Error} (h : encodeAll tables = .error e) :
    ∃ table ∈ tables, encodeTable table = .error e := by
  induction tables with
  | nil => cases h
  | cons table rest ih =>
    cases hls : encodeTable table with
    | error e' =>
      simp only [encodeAll, hls] at h
      cases h
      exact ⟨table, List.mem_cons_self, hls⟩
    | ok ls =>
      cases hrest : encodeAll rest with
      | ok entries =>
        simp only [encodeAll, hls, hrest] at h
        cases h
      | error e' =>
        simp only [encodeAll, hls, hrest] at h
        cases h
        obtain ⟨other, hother, he⟩ := ih hrest
        exact ⟨other, List.mem_cons_of_mem _ hother, he⟩

/-- The tables written are staged ones, and the directories of their files are there. -/
theorem mem_written {t : Transaction} {entry : TableId × List String} (h : entry ∈ written files m t) :
    (∃ table ∈ t.staged, table.id = entry.1 ∧ encodeTable table = .ok entry.2) ∧
      files.hasDirectory entry.1 m = true := by
  simp only [written] at h
  cases he : encodeAll t.staged with
  | error e => rw [he] at h; cases h
  | ok entries =>
    rw [he] at h
    have hwritten : entry ∈ entries.takeWhile fun entry => files.hasDirectory entry.1 m := h
    exact ⟨mem_encodeAll he ((List.takeWhile_sublist _).subset h),
      by simpa using List.mem_takeWhile_imp hwritten⟩

theorem writeAll_apply (entries : List (TableId × List String)) (m : Memory) :
    (entries.all (files.hasDirectory ·.1 m) = true ∧
      writeAll files entries m = .ok () (putAll files entries m)) ∨
    (entries.all (files.hasDirectory ·.1 m) = false ∧
      ∃ entry ∈ entries, files.hasDirectory entry.1 m = false ∧ writeAll files entries m =
        .error (files.missingDirectory entry.1)
          (putAll files (entries.takeWhile (files.hasDirectory ·.1 m)) m)) := by
  induction entries generalizing m with
  | nil => exact .inl ⟨rfl, rfl⟩
  | cons entry rest ih =>
    simp only [writeAll, Action.bind_apply, Catalog.writeLines_apply]
    cases hd : files.hasDirectory entry.1 m with
    | false => exact .inr ⟨by simp [hd], entry, List.mem_cons_self, hd, by simp [hd, putAll]⟩
    | true =>
      -- Writing a file changes no directory, so what follows is written or not as before.
      have hput (id : TableId) :
          files.hasDirectory id (m.put (files.place entry.1) entry.2) = files.hasDirectory id m := rfl
      have ih := ih (m.put (files.place entry.1) entry.2)
      simp only [hput] at ih
      rcases ih with ⟨hall, hw⟩ | ⟨hall, missing, hmem, hmissing, hw⟩
      · exact .inl ⟨by simpa [hd] using hall, by simpa [putAll] using hw⟩
      · exact .inr ⟨by simpa [hd] using hall, missing, List.mem_cons_of_mem _ hmem, hmissing,
          by simpa [hd, putAll] using hw⟩

/-- How committing goes: a staged table cannot be encoded, or all are written and the files that are held
beside them are released, or writing stops at a missing directory and what is held is released as far as
it can be. -/
theorem commit_cases (t : Transaction) (m : Memory) :
    (∃ e, encodeAll t.staged = .error e ∧
      t.commit files m = .error e (releaseWhatCan files t.ticket t.locked m)) ∨
    (∃ entries, encodeAll t.staged = .ok entries ∧ entries.all (files.hasDirectory ·.1 m) = true ∧
      t.commit files m = match releaseFiles files t.ticket t.unchanged (putAll files entries m) with
        | .error e m' => .error e m'
        | .ok _ m' => .ok t.staged.length m') ∨
    ∃ entries, encodeAll t.staged = .ok entries ∧ ∃ entry ∈ entries, files.hasDirectory entry.1 m = false ∧
      t.commit files m = .error (files.missingDirectory entry.1) (releaseWhatCan files t.ticket t.locked
        (putAll files (entries.takeWhile (files.hasDirectory ·.1 m)) m)) := by
  simp only [commit, writeStaged, Action.bind_apply, Action.of_apply]
  cases he : encodeAll t.staged with
  | error e => exact .inl ⟨e, rfl, rfl⟩
  | ok entries =>
    rcases writeAll_apply files entries m with ⟨hall, hw⟩ | ⟨-, entry, hentry, hmissing, hw⟩
    · refine .inr (.inl ⟨entries, rfl, hall, ?_⟩)
      simp only [hw]
      cases releaseFiles files t.ticket t.unchanged (putAll files entries m) <;> rfl
    · exact .inr (.inr ⟨entries, rfl, entry, hentry, hmissing, by simp only [hw]⟩)

theorem takeWhile_hasDirectory {entries : List (TableId × List String)}
    (h : entries.all (files.hasDirectory ·.1 m) = true) :
    entries.takeWhile (files.hasDirectory ·.1 m) = entries := by
  rw [List.takeWhile_eq_self_iff]
  simpa using h

/-- Once all staged tables are written, committing is left with the files that are held beside them. -/
theorem after_commit_written {t : Transaction} {entries : List (TableId × List String)}
    (he : encodeAll t.staged = .ok entries) (hall : entries.all (files.hasDirectory ·.1 m) = true) :
    Action.after (t.commit files) m =
      Action.after (releaseFiles files t.ticket t.unchanged) (putAll files entries m) := by
  rcases writeAll_apply files entries m with ⟨-, hw⟩ | ⟨hmissing, -⟩
  · simp only [Action.after, commit, writeStaged, Action.bind_apply, Action.of_apply, he, hw]
    cases releaseFiles files t.ticket t.unchanged (putAll files entries m) <;> rfl
  · cases hall.symm.trans hmissing

/-- Committing, whether or not it succeeds, writes `written` and takes lock lines off. -/
theorem commit_released (t : Transaction) :
    Released t.ticket (putAll files (written files m t) m) (Action.after (t.commit files) m) := by
  rcases commit_cases files t m with ⟨e, he, hcommit⟩ | ⟨entries, he, hall, -⟩ |
    ⟨entries, he, entry, -, -, hcommit⟩
  · rw [Action.after_error hcommit, written, he]
    exact releaseWhatCan_released files t.ticket t.locked m
  · simp only [after_commit_written files m he hall, written, he, takeWhile_hasDirectory files m hall]
    exact releaseFiles_released files t.ticket t.unchanged (putAll files entries m)
  · rw [Action.after_error hcommit, written, he]
    exact releaseWhatCan_released files t.ticket t.locked _

/-- Committing succeeds only if all staged tables can be encoded and none of their directories is missing. -/
theorem commit_written {t : Transaction} {m m' : Memory} {count : Nat} (h : t.commit files m = .ok count m') :
    ∃ entries, encodeAll t.staged = .ok entries ∧ entries.all (files.hasDirectory ·.1 m) = true := by
  rcases commit_cases files t m with ⟨e, he, hcommit⟩ | ⟨entries, he, hall, -⟩ | ⟨entries, he, entry, -, -, hcommit⟩
  · cases h.symm.trans hcommit
  · exact ⟨entries, he, hall⟩
  · cases h.symm.trans hcommit

/-- Committing, if it succeeds, writes all staged tables and takes lock lines off. -/
theorem commit_ok {t : Transaction} {entries : List (TableId × List String)} {m m' : Memory} {count : Nat}
    (hentries : encodeAll t.staged = .ok entries) (h : t.commit files m = .ok count m') :
    Released t.ticket (putAll files entries m) m' := by
  obtain ⟨entries', he, hall⟩ := commit_written files h
  obtain rfl := Except.ok.inj (hentries.symm.trans he)
  have hr := commit_released files m t
  simp only [written, hentries, takeWhile_hasDirectory files m hall] at hr
  rwa [Action.after_ok h] at hr

theorem hasDirectory_of_commit {t : Transaction} {m m' : Memory} {count : Nat} (h : t.commit files m = .ok count m')
    {table : Table} (htable : table ∈ t.staged) : files.hasDirectory table.id m = true := by
  obtain ⟨entries, he, hall⟩ := commit_written files h
  obtain ⟨entry, hentry, hid⟩ := exists_of_encodeAll he htable
  rw [← hid]
  exact List.all_eq_true.1 hall entry hentry

/-- Committing fails because a staged table cannot be encoded, or for the missing directory of a staged
or held one. -/
theorem commit_error {t : Transaction} {m m' : Memory} {e : Error} (h : t.commit files m = .error e m') :
    encodeAll t.staged = .error e ∨
      ∃ id, t.Knows id ∧ e = files.missingDirectory id ∧ files.hasDirectory id m = false := by
  rcases commit_cases files t m with ⟨e', he, hcommit⟩ | ⟨entries, -, -, hcommit⟩ |
    ⟨entries, he, entry, hentry, hmissing, hcommit⟩
  · cases h.symm.trans hcommit
    exact .inl he
  · -- All tables are written, so it is a release that fails.
    rw [hcommit] at h
    cases hrel : releaseFiles files t.ticket t.unchanged (putAll files entries m) with
    | ok _ m' =>
      rw [hrel] at h
      cases h
    | error e' m' =>
      rw [hrel] at h
      cases h
      obtain ⟨id, hid, he, hd⟩ := releaseFiles_error files t.ticket hrel
      rw [Catalog.hasDirectory_congr (directories_putAll files m entries)] at hd
      exact .inr ⟨id, .inr (List.mem_filter.1 hid).1, he, hd⟩
  · cases h.symm.trans hcommit
    obtain ⟨table, htable, hid, -⟩ := mem_encodeAll he hentry
    exact .inr ⟨entry.1, .inl ⟨table, htable, hid⟩, rfl, hmissing⟩

/-- Committing changes no file but those of the staged and the held tables. -/
theorem lines?_commit_of_ne {t : Transaction} {p : Place} (h : ∀ id, t.Knows id → files.place id ≠ p) :
    (Action.after (t.commit files) m).lines? p = m.lines? p := by
  have hlocked : ∀ id ∈ t.locked, files.place id ≠ p := fun id hid => h id (.inr hid)
  have hput {entries : List (TableId × List String)} (he : encodeAll t.staged = .ok entries) :
      ∀ entry ∈ entries, files.place entry.1 ≠ p := by
    intro entry hentry
    obtain ⟨table, htable, hid, -⟩ := mem_encodeAll he hentry
    exact h _ (.inl ⟨table, htable, hid⟩)
  rcases commit_cases files t m with ⟨e, -, hcommit⟩ | ⟨entries, he, hall, -⟩ | ⟨entries, he, entry, -, -, hcommit⟩
  · rw [Action.after_error hcommit]
    exact lines?_releaseWhatCan_of_ne files t.ticket hlocked
  · have hunchanged : ∀ id ∈ t.unchanged, files.place id ≠ p := fun id hid => hlocked id (List.mem_filter.1 hid).1
    rw [after_commit_written files m he hall]
    exact (lines?_releaseFiles_of_ne files t.ticket hunchanged).trans (lines?_putAll_of_ne files m (hput he))
  · rw [Action.after_error hcommit]
    refine (lines?_releaseWhatCan_of_ne files t.ticket hlocked).trans (lines?_putAll_of_ne files m ?_)
    exact fun entry hentry => hput he entry ((List.takeWhile_sublist _).subset hentry)

end Transaction

end TextTables
