import TextTables.Proofs.File.Written
import TextTables.Proofs.Store.Lawful
import TextTables.Proofs.Transaction.Ending
import TextTables.Proofs.Transaction.Staging
/-!
# Lock lines at the end of a transaction

Whether the loops that take lock lines off reach every file, in a store where reading and writing
may fail. What an ending does to a store only ever takes lock lines of its ticket away
(`Settling`), so a table that was freed stays so; a loop that stops at a file leaves the lock lines
behind it (`StopsShort`).
-/

namespace TextTables.Transaction

variable {σ : Type} [Storage σ] (files : Catalog) (ticket : Ticket)

/-! ## Tables to be freed -/

/-- A table that carries a ticket's lock line and could be freed: its file can be read, and written
without the line. -/
def Freeable (id : TableId) (s : σ) : Prop :=
  ∃ ls s', files.lines id s = .ok ls ∧ holder? ls = some ticket ∧
    files.writeLines id (dropLock ls) s = .ok () s'

/-- A table whose file has no second lock line below one of the ticket. -/
def LockedOnce (id : TableId) (s : σ) : Prop :=
  ∀ ls, files.lines id s = .ok ls → holder? ls = some ticket → holder? (dropLock ls) = none

/-- Two states between which no file has come to carry a ticket's lock line or to be writable. -/
structure Settling (s s' : σ) : Prop where
  lines {id : TableId} {ls : List String} : files.lines id s' = .ok ls →
    holder? ls = some ticket → files.lines id s = .ok ls
  writes {id : TableId} {ls : List String} {s₁ : σ} : files.writeLines id ls s' = .ok () s₁ →
    ∃ s₂, files.writeLines id ls s = .ok () s₂

instance (id : TableId) (s : σ) : Decidable (Freeable files ticket id s) :=
  match hl : files.lines id s with
  | .error e => isFalse fun ⟨_, _, hls, _⟩ => nomatch hl.symm.trans hls
  | .ok ls =>
    if hh : holder? ls = some ticket then
      match hw : files.writeLines id (dropLock ls) s with
      | .ok () s' => isTrue ⟨ls, s', hl, hh, hw⟩
      | .error e s' => isFalse fun ⟨_, _, hls, _, hw'⟩ => by
        cases hl.symm.trans hls
        cases hw.symm.trans hw'
    else isFalse fun ⟨_, _, hls, hh', _⟩ => by
      cases hl.symm.trans hls
      exact hh hh'

instance (id : TableId) (s : σ) : Decidable (LockedOnce files ticket id s) :=
  match hl : files.lines id s with
  | .error e => isTrue fun _ hls => nomatch hl.symm.trans hls
  | .ok ls => decidable_of_iff (holder? ls = some ticket → holder? (dropLock ls) = none)
      ⟨fun h _ hls => by cases hl.symm.trans hls; exact h, fun h => h ls hl⟩

variable {files ticket}
variable {id : TableId} {s s' s'' : σ}

namespace Settling

theorem refl (s : σ) : Settling files ticket s s := ⟨fun h _ => h, fun h => ⟨_, h⟩⟩

theorem trans (h : Settling files ticket s s') (h' : Settling files ticket s' s'') :
    Settling files ticket s s'' := by
  refine ⟨fun hl hh => h.lines (h'.lines hl hh) hh, fun hw => ?_⟩
  obtain ⟨s₁, hw⟩ := h'.writes hw
  exact h.writes hw

theorem freeable (h : Settling files ticket s s') (hfree : Freeable files ticket id s') :
    Freeable files ticket id s := by
  obtain ⟨ls, s₁, hl, hh, hw⟩ := hfree
  obtain ⟨s₂, hw⟩ := h.writes hw
  exact ⟨ls, s₂, h.lines hl hh, hh, hw⟩

theorem lockedOnce (h : Settling files ticket s s') (honce : LockedOnce files ticket id s) :
    LockedOnce files ticket id s' :=
  fun ls hl hh => honce ls (h.lines hl hh) hh

end Settling

variable [Storage.Lawful σ]

/-! ## Writing without a lock line -/

/-- Once lines without a lock line at the top were written, no such line is read. -/
theorem holder?_of_written {ls ls' : List String} (hwrite : files.writeLines id ls s = .ok () s')
    (hls : holder? ls = none) (hl : files.lines id s' = .ok ls') : holder? ls' ≠ some ticket := by
  intro hh
  have hfirst := Storage.Lawful.read_written hwrite (Catalog.lines_eq_ok.1 hl) (firstChar?_of_holder? hh)
  obtain ⟨other, hother⟩ := holder?_of_firstChar? hfirst
  rw [hls] at hother
  cases hother

theorem not_freeable_of_written {ls : List String} (hwrite : files.writeLines id ls s = .ok () s')
    (hls : holder? ls = none) : ¬ Freeable files ticket id s' := by
  rintro ⟨ls', -, hl, hh, -⟩
  exact holder?_of_written hwrite hls hl hh

theorem Settling.of_written {ls : List String} (hwrite : files.writeLines id ls s = .ok () s')
    (hls : holder? ls = none) : Settling files ticket s s' where
  lines {id' ls'} hl hh := by
    rcases Storage.Lawful.read_other hwrite (Catalog.lines_eq_ok.1 hl) with hbefore | hsame
    · exact Catalog.lines_eq_ok.2 hbefore
    · exact absurd hh (holder?_of_written hwrite hls (Catalog.lines_eq_ok.2 hsame))
  writes hw := Storage.Lawful.write_other hwrite hw

/-! ## One release -/

omit [Storage.Lawful σ] in
variable (files ticket id s) in
theorem releaseFile_apply : releaseFile files ticket id s =
    if files.tableExists id s then
      match files.lines id s with
      | .ok ls => if holder? ls = some ticket then files.writeLines id (dropLock ls) s else .ok () s
      | .error e => .error e s
    else .ok () s := by
  simp only [releaseFile, Action.bind_apply, Action.get_apply, Action.ite_apply, Action.ask_apply,
    Catalog.holder?, Catalog.clearLock]
  cases hl : files.lines id s with
  | error e => rfl
  | ok ls =>
    by_cases hh : holder? ls = some ticket
    · simp only [hl, bind, Except.bind, pure, Except.pure, hh, if_true, headIsLock_iff,
        Option.isSome_some]
      rfl
    · simp only [bind, Except.bind, pure, Except.pure, hh, if_false]
      rfl

/-- Releasing a table takes its lock line off or changes nothing, and does not leave a table that could
be freed. -/
theorem releaseFile_frees (honce : LockedOnce files ticket id s) :
    Settling files ticket s (Action.after (releaseFile files ticket id) s) ∧
      ¬ Freeable files ticket id (Action.after (releaseFile files ticket id) s) := by
  -- Where the state is what it was, there is no table to be freed.
  have hsame : Action.after (releaseFile files ticket id) s = s → ¬ Freeable files ticket id s →
      Settling files ticket s (Action.after (releaseFile files ticket id) s) ∧
        ¬ Freeable files ticket id (Action.after (releaseFile files ticket id) s) := by
    intro hafter hfree
    rw [hafter]
    exact ⟨.refl s, hfree⟩
  have hrelease := releaseFile_apply files ticket id s
  cases hl : files.lines id s with
  | error e =>
    refine hsame ?_ ?_
    · simp only [hl] at hrelease
      rw [Action.after, hrelease]
      cases files.tableExists id s <;> rfl
    · rintro ⟨ls, _, hls, _⟩
      rw [hl] at hls
      cases hls
  | ok ls =>
    have hexists : files.tableExists id s = true := Storage.Lawful.exists_of_read (Catalog.lines_eq_ok.1 hl)
    simp only [hl, hexists, if_true] at hrelease
    by_cases hh : holder? ls = some ticket
    · rw [if_pos hh] at hrelease
      have hnone := honce ls hl hh
      cases hw : files.writeLines id (dropLock ls) s with
      | ok _ s' =>
        rw [Action.after_ok (hrelease.trans hw)]
        exact ⟨.of_written hw hnone, not_freeable_of_written hw hnone⟩
      | error e s' =>
        obtain rfl : s' = s := Storage.Lawful.write_error hw
        refine hsame (Action.after_error (hrelease.trans hw)) ?_
        rintro ⟨ls', s₁, hls, _, hw'⟩
        rw [hl] at hls
        cases hls
        rw [hw] at hw'
        cases hw'
    · rw [if_neg hh] at hrelease
      refine hsame (Action.after_ok hrelease) ?_
      rintro ⟨ls', _, hls, hh', _⟩
      rw [hl] at hls
      cases hls
      exact hh hh'

/-! ## The loops -/

/-- Releasing some tables stops at one of them, with another behind it that could be freed. -/
def StopsShort (files : Catalog) (ticket : Ticket) (ids : List TableId) (s : σ) : Prop :=
  ∃ front back e s', ids = front ++ back ∧ releaseFiles files ticket front s = .error e s' ∧
    ∃ id ∈ back, Freeable files ticket id s'

section
omit [Storage.Lawful σ]

variable {rest : List TableId}

/-- A loop goes on behind a table that was released. -/
theorem stopsShort_cons_ok (hrelease : releaseFile files ticket id s = .ok () s') :
    StopsShort files ticket (id :: rest) s ↔ StopsShort files ticket rest s' := by
  constructor
  · rintro ⟨front, back, e, s'', hids, hstop, hback⟩
    cases front with
    | nil => cases hstop
    | cons first front =>
      obtain ⟨rfl, rfl⟩ := List.cons.inj hids
      rw [releaseFiles, Action.bind_ok hrelease] at hstop
      exact ⟨front, back, e, s'', rfl, hstop, hback⟩
  · rintro ⟨front, back, e, s'', rfl, hstop, hback⟩
    exact ⟨id :: front, back, e, s'', rfl, by rw [releaseFiles, Action.bind_ok hrelease, hstop], hback⟩

/-- A loop that stops at its first table stops short of any table behind it. -/
theorem stopsShort_cons_error {e : Error} (hrelease : releaseFile files ticket id s = .error e s') :
    StopsShort files ticket (id :: rest) s ↔ ∃ id' ∈ rest, Freeable files ticket id' s' := by
  constructor
  · rintro ⟨front, back, e', s'', hids, hstop, id', hid', hfree⟩
    cases front with
    | nil => cases hstop
    | cons first front =>
      obtain ⟨rfl, rfl⟩ := List.cons.inj hids
      rw [releaseFiles, Action.bind_error hrelease] at hstop
      cases hstop
      exact ⟨id', List.mem_append_right _ hid', hfree⟩
  · intro hrest
    exact ⟨[id], rest, e, s', rfl, by rw [releaseFiles, Action.bind_error hrelease], hrest⟩

end

variable {ids : List TableId}

/-- A loop that carries on past a failing release leaves no table that could be freed. -/
theorem releaseWhatCan_frees (honce : ∀ id ∈ ids, LockedOnce files ticket id s) :
    Settling files ticket s (releaseWhatCan files ticket ids s) ∧
      ∀ id ∈ ids, ¬ Freeable files ticket id (releaseWhatCan files ticket ids s) := by
  induction ids generalizing s with
  | nil => exact ⟨.refl s, nofun⟩
  | cons id rest ih =>
    obtain ⟨hfirst, hfreed⟩ := releaseFile_frees (honce id List.mem_cons_self)
    obtain ⟨hrest, hall⟩ :=
      ih fun id hid => hfirst.lockedOnce (honce id (List.mem_cons_of_mem _ hid))
    rw [releaseWhatCan_cons]
    exact ⟨hfirst.trans hrest, List.forall_mem_cons.2 ⟨fun h => hfreed (hrest.freeable h), hall⟩⟩

/-- A loop that stops at the first failing release leaves no table that could be freed, unless it
stops short of one. -/
theorem releaseFiles_frees_iff (honce : ∀ id ∈ ids, LockedOnce files ticket id s) :
    Settling files ticket s (Action.after (releaseFiles files ticket ids) s) ∧
      ((∀ id ∈ ids, ¬ Freeable files ticket id (Action.after (releaseFiles files ticket ids) s)) ↔
        ¬ StopsShort files ticket ids s) := by
  induction ids generalizing s with
  | nil =>
    refine ⟨.refl s, iff_of_true nofun ?_⟩
    rintro ⟨front, back, e, s', hids, -, id, hid, -⟩
    obtain ⟨-, rfl⟩ := List.append_eq_nil_iff.1 hids.symm
    cases hid
  | cons id rest ih =>
    obtain ⟨hfirst, hfreed⟩ := releaseFile_frees (honce id List.mem_cons_self)
    cases hrelease : releaseFile files ticket id s with
    | ok _ s₁ =>
      rw [Action.after_ok hrelease] at hfirst hfreed
      obtain ⟨hrest, hall⟩ :=
        ih fun id hid => hfirst.lockedOnce (honce id (List.mem_cons_of_mem _ hid))
      have hafter : Action.after (releaseFiles files ticket (id :: rest)) s =
          Action.after (releaseFiles files ticket rest) s₁ := by
        rw [releaseFiles, Action.after_bind_ok hrelease]
      rw [hafter, stopsShort_cons_ok hrelease, List.forall_mem_cons, ← hall]
      exact ⟨hfirst.trans hrest, and_iff_right fun h => hfreed (hrest.freeable h)⟩
    | error e s₁ =>
      rw [Action.after_error hrelease] at hfirst hfreed
      have hafter : Action.after (releaseFiles files ticket (id :: rest)) s = s₁ := by
        rw [releaseFiles, Action.after_bind_error hrelease]
      rw [hafter, stopsShort_cons_error hrelease, List.forall_mem_cons]
      simp only [not_exists, not_and]
      exact ⟨hfirst, and_iff_right hfreed⟩

/-! ## Committing and aborting -/

/-- Writing lines without lock lines takes lock lines away at most. -/
theorem writeAll_settling {entries : List (TableId × List String)}
    (hlines : ∀ entry ∈ entries, holder? entry.2 = none) :
    Settling files ticket s (Action.after (writeAll files entries) s) := by
  induction entries generalizing s with
  | nil => exact .refl s
  | cons entry rest ih =>
    obtain ⟨id, ls⟩ := entry
    obtain ⟨hls, hrest⟩ := List.forall_mem_cons.1 hlines
    cases hw : files.writeLines id ls s with
    | error e s₁ =>
      obtain rfl : s₁ = s := Storage.Lawful.write_error hw
      rw [writeAll, Action.after_bind_error hw]
      exact .refl _
    | ok _ s₁ =>
      rw [writeAll, Action.after_bind_ok hw]
      exact (Settling.of_written hw hls).trans (ih hrest)

/-- No table that was written could be freed. -/
theorem not_freeable_of_writeAll {entries : List (TableId × List String)}
    (hlines : ∀ entry ∈ entries, holder? entry.2 = none) (h : writeAll files entries s = .ok () s') :
    ∀ entry ∈ entries, ¬ Freeable files ticket entry.1 s' := by
  induction entries generalizing s with
  | nil => exact nofun
  | cons entry rest ih =>
    obtain ⟨id, ls⟩ := entry
    obtain ⟨hls, hrest⟩ := List.forall_mem_cons.1 hlines
    cases hw : files.writeLines id ls s with
    | error e s₁ => rw [writeAll, Action.bind_error hw] at h; cases h
    | ok _ s₁ =>
      rw [writeAll, Action.bind_ok hw] at h
      -- What is written behind the table does not put a lock line on it.
      have hsettling : Settling files ticket s₁ s' := Action.after_ok h ▸ writeAll_settling hrest
      exact List.forall_mem_cons.2
        ⟨fun hfree => not_freeable_of_written hw hls (hsettling.freeable hfree), ih hrest h⟩

variable {t : Transaction}

theorem holder?_of_encodeAll {entries : List (TableId × List String)}
    (hentries : encodeAll t.staged = .ok entries)
    (hstaged : ∀ table ∈ t.staged, isLockLine table.schema.encode = false) :
    ∀ entry ∈ entries, holder? entry.2 = none := by
  intro entry hentry
  obtain ⟨table, htable, -, hencode⟩ := mem_encodeAll hentries hentry
  exact holder?_of_no_lockLine (isLockLine_of_encodeTable (hstaged table htable) hencode)

theorem writeStaged_settling (hstaged : ∀ table ∈ t.staged, isLockLine table.schema.encode = false) :
    Settling files ticket s (Action.after (writeStaged files t) s) := by
  cases hentries : encodeAll t.staged with
  | error e =>
    rw [writeStaged, Action.after_bind_error (Action.of_error hentries s)]
    exact .refl s
  | ok entries =>
    rw [writeStaged, Action.after_bind_ok (Action.of_ok hentries s)]
    exact writeAll_settling (holder?_of_encodeAll hentries hstaged)

theorem not_freeable_of_writeStaged
    (hstaged : ∀ table ∈ t.staged, isLockLine table.schema.encode = false)
    (h : writeStaged files t s = .ok () s') :
    ∀ table ∈ t.staged, ¬ Freeable files ticket table.id s' := by
  intro table htable
  cases hentries : encodeAll t.staged with
  | error e => rw [writeStaged, Action.bind_error (Action.of_error hentries s)] at h; cases h
  | ok entries =>
    rw [writeStaged, Action.bind_ok (Action.of_ok hentries s)] at h
    obtain ⟨entry, hentry, hid⟩ := exists_of_encodeAll hentries htable
    rw [← hid]
    exact not_freeable_of_writeAll (holder?_of_encodeAll hentries hstaged) h entry hentry

/-- Aborting frees every held table that can be freed, exactly if it does not stop short of one. -/
theorem abort_frees_iff (honce : ∀ id ∈ t.locked, LockedOnce files t.ticket id s) :
    (∀ id ∈ t.locked, ¬ Freeable files t.ticket id (Action.after (t.abort files) s)) ↔
      ¬ StopsShort files t.ticket t.locked s :=
  (releaseFiles_frees_iff honce).2

/-- Committing frees every held table that can be freed, exactly if it does not write all staged
tables and then stop short of one. -/
theorem commit_frees_iff (honce : ∀ id ∈ t.locked, LockedOnce files t.ticket id s)
    (hstaged : ∀ table ∈ t.staged, isLockLine table.schema.encode = false) :
    (∀ id ∈ t.locked, ¬ Freeable files t.ticket id (Action.after (t.commit files) s)) ↔
      ∀ s', writeStaged files t s = .ok () s' → ¬ StopsShort files t.ticket t.unchanged s' := by
  have hwrites : Settling files t.ticket s (Action.after (writeStaged files t) s) :=
    writeStaged_settling hstaged
  cases hwrite : writeStaged files t s with
  | error e s₁ =>
    -- The loop of a failed commit carries on.
    rw [Action.after_error hwrite] at hwrites
    have hafter : Action.after (t.commit files) s = releaseWhatCan files t.ticket t.locked s₁ := by
      simp only [Action.after, commit, hwrite]
    rw [hafter]
    refine iff_of_true (releaseWhatCan_frees fun id hid => hwrites.lockedOnce (honce id hid)).2 ?_
    intro s' hs'
    cases hs'
  | ok _ s₁ =>
    rw [Action.after_ok hwrite] at hwrites
    have hafter : Action.after (t.commit files) s =
        Action.after (releaseFiles files t.ticket t.unchanged) s₁ := by
      simp only [Action.after, commit, hwrite]
      cases releaseFiles files t.ticket t.unchanged s₁ <;> rfl
    have honce' : ∀ id ∈ t.unchanged, LockedOnce files t.ticket id s₁ :=
      fun id hid => hwrites.lockedOnce (honce id (List.mem_filter.1 hid).1)
    obtain ⟨hreleases, hfrees⟩ := releaseFiles_frees_iff honce'
    rw [hafter]
    constructor
    · rintro hall s' hs'
      cases hs'
      exact hfrees.1 fun id hid => hall id (List.mem_filter.1 hid).1
    · intro hstops id hid hfree
      cases hcopy : t.staged? id with
      | none =>
        have hunchanged : id ∈ t.unchanged := List.mem_filter.2 ⟨hid, by simp [hcopy]⟩
        exact hfrees.2 (hstops s₁ rfl) id hunchanged hfree
      | some table =>
        -- A staged table was written, without a lock line.
        obtain ⟨hmem, rfl⟩ := staged?_eq_some hcopy
        exact not_freeable_of_writeStaged hstaged hwrite table hmem (hreleases.freeable hfree)

end TextTables.Transaction
