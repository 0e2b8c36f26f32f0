import TextTables.Proofs.Store.Catalog
import TextTables.Proofs.Store.Operation
/-!
# The store in memory is a tree

Files and directories are two flat lists of places. An operation changes them in one of four ways, or not at
all (`Memory.run_cases`); each of the ways keeps every file in a directory that is there and every directory
below those above it (`Memory.Tree`).
-/

namespace TextTables

theorem Place.mem_ancestors {p q : Place} : q ∈ p.ancestors ↔ q ≠ [] ∧ q <+: p := by
  simp only [Place.ancestors, List.mem_map, List.mem_range]
  constructor
  · rintro ⟨n, hn, rfl⟩
    refine ⟨fun hnil => ?_, p.take_prefix _⟩
    rcases List.take_eq_nil_iff.1 hnil with h | rfl
    · exact absurd h (Nat.succ_ne_zero n)
    · exact absurd hn (Nat.not_lt_zero n)
  · rintro ⟨hne, hprefix⟩
    have hpos := List.length_pos_iff.2 hne
    have hle := hprefix.length_le
    refine ⟨q.length - 1, by omega, ?_⟩
    rw [Nat.sub_add_cancel hpos, ← List.prefix_iff_eq_take.1 hprefix]

namespace Memory

variable {m m' : Memory} {p : Place} {handed : List String}

/-! ## Changes -/

/-- The ways in which an operation that hands lines to a store changes it. The lines become a file, where its
directory is there, or they are put at the end of a file. -/
inductive Change (m : Memory) (handed : List String) : Memory → Prop
  | place {p : Place} : p.parent = [] ∨ p.parent ∈ m.directories → Change m handed (m.put p handed)
  | extend {p : Place} {lines : List String} : m.lines? p = some lines → Change m handed (m.put p (lines ++ handed))
  | erase (p : Place) : Change m handed (m.erase p)
  | addDirectory (p : Place) : Change m handed (m.addDirectory p)
  | removeDirectory (p : Place) : Change m handed (m.removeDirectory p)

/-- An operation changes nothing, or it changes the store in one of these ways and its answer is not that
nothing was done. -/
theorem run_cases (operation : Operation) (m : Memory) :
    (∃ e, operation.run m = .error e m) ∨ (∃ answer, operation.run m = .ok answer m) ∨
      ∃ answer m', operation.run m = .ok answer m' ∧ answer ≠ .flag false ∧ m.Change operation.handed m' := by
  cases operation with
  | read path => exact .inr (.inl ⟨_, rfl⟩)
  | fileExists path => exact .inr (.inl ⟨_, rfl⟩)
  | directoryExists path => exact .inr (.inl ⟨_, rfl⟩)
  | write path lines =>
    rw [Operation.run, Action.bind_apply, Catalog.write_apply]
    by_cases hparent : m.hasParent path = true
    · rw [if_pos hparent]
      exact .inr (.inr ⟨_, _, rfl, by decide, .place (hasParent_iff.1 hparent)⟩)
    · rw [if_neg hparent]
      exact .inl ⟨_, rfl⟩
  | append path line =>
    have happend : (Storage.append path line : Action Memory Unit) m = append path line m := rfl
    rw [Operation.run, Action.bind_apply, happend, append]
    cases hlines : m.lines? path.place with
    | some lines => exact .inr (.inr ⟨_, _, rfl, by decide, .extend hlines⟩)
    | none => exact .inl ⟨_, rfl⟩
  | createFile path =>
    rw [Operation.run, Action.bind_apply, Catalog.createFile_apply]
    by_cases hparent : m.hasParent path = true
    · rw [if_pos hparent]
      cases (m.lines? path.place).isSome with
      | true => exact .inr (.inl ⟨_, rfl⟩)
      | false => exact .inr (.inr ⟨_, _, rfl, by decide, .place (hasParent_iff.1 hparent)⟩)
    · rw [if_neg hparent]
      exact .inl ⟨_, rfl⟩
  | deleteFile path =>
    have hdelete : (Storage.deleteFile path : Action Memory Bool) m = deleteFile path m := rfl
    rw [Operation.run, Action.bind_apply, hdelete, deleteFile]
    cases (m.lines? path.place).isSome with
    | true => exact .inr (.inr ⟨_, _, rfl, by decide, .erase path.place⟩)
    | false => exact .inr (.inl ⟨_, rfl⟩)
  | createDirectory path =>
    have hcreate : (Storage.createDirectory path : Action Memory Bool) m = createDirectory path m := rfl
    rw [Operation.run, Action.bind_apply, hcreate, createDirectory]
    cases m.directories.contains path.place with
    | true => exact .inr (.inl ⟨_, rfl⟩)
    | false => exact .inr (.inr ⟨_, _, rfl, by decide, .addDirectory path.place⟩)
  | deleteDirectory path =>
    have hdelete : (Storage.deleteDirectory path : Action Memory Bool) m = deleteDirectory path m := rfl
    rw [Operation.run, Action.bind_apply, hdelete, deleteDirectory]
    cases m.directories.contains path.place with
    | true => exact .inr (.inr ⟨_, _, rfl, by decide, .removeDirectory path.place⟩)
    | false => exact .inr (.inl ⟨_, rfl⟩)

/-- An operation that fails, or answers that nothing was done, changes nothing. -/
theorem eq_of_run {operation : Operation} (h : (∃ e, operation.run m = .error e m') ∨
    operation.run m = .ok (.flag false) m') : m' = m := by
  rcases run_cases operation m with ⟨e, hrun⟩ | ⟨answer, hrun⟩ | ⟨answer, m'', hrun, hdone, -⟩ <;> rw [hrun] at h
  · rcases h with ⟨e', h⟩ | h <;> cases h
    rfl
  · rcases h with ⟨e', h⟩ | h <;> cases h
    rfl
  · rcases h with ⟨e', h⟩ | h <;> cases h
    exact absurd rfl hdone

/-! ## Trees -/

/-- A store whose files are in directories that are there, and with each directory those above it. -/
structure Tree (m : Memory) : Prop where
  rooted : m.Rooted
  above : ∀ p ∈ m.directories, ∀ q, q ≠ [] → q <+: p → q ∈ m.directories

theorem Tree.empty : Memory.empty.Tree := ⟨nofun, nofun⟩

theorem Rooted.change (h : m.Rooted) (hchange : m.Change handed m') : m'.Rooted := by
  cases hchange with
  | place hparent => exact h.put hparent
  | extend hlines => exact h.put_of_lines? hlines
  | erase p => exact h.erase p
  | addDirectory p => exact h.addDirectory p
  | removeDirectory p => exact h.removeDirectory p

theorem mem_addDirectory {q : Place} : q ∈ (m.addDirectory p).directories ↔
    (q ≠ [] ∧ q <+: p) ∨ q ∈ m.directories := by
  by_cases hq : q ∈ m.directories <;> simp [addDirectory, Place.mem_ancestors, hq]

theorem mem_removeDirectory {q : Place} : q ∈ (m.removeDirectory p).directories ↔
    q ∈ m.directories ∧ ¬ p <+: q := by
  simp [removeDirectory, Place.within, ← Bool.not_eq_true, List.isPrefixOf_iff_prefix]

theorem lines?_removeDirectory_eq_some {q : Place} {lines : List String} :
    (m.removeDirectory p).lines? q = some lines ↔ m.lines? q = some lines ∧ ¬ p <+: q := by
  rw [lines?_removeDirectory, Place.within]
  by_cases hq : p <+: q <;> simp [hq]

theorem Tree.change (h : m.Tree) (hchange : m.Change handed m') : m'.Tree := by
  refine ⟨h.rooted.change hchange, ?_⟩
  cases hchange with
  | place _ => exact h.above
  | extend _ => exact h.above
  | erase _ => exact h.above
  | addDirectory p =>
    intro q hq r hr hrq
    rw [mem_addDirectory] at hq ⊢
    exact hq.imp (fun hq => ⟨hr, hrq.trans hq.2⟩) fun hq => h.above q hq r hr hrq
  | removeDirectory p =>
    -- What is above a directory that is kept is not below the one that goes.
    intro q hq r hr hrq
    rw [mem_removeDirectory] at hq ⊢
    exact ⟨h.above q hq.1 r hr hrq, fun hpr => hq.2 (hpr.trans hrq)⟩

theorem Tree.run (h : m.Tree) (operation : Operation) : (Action.after operation.run m).Tree := by
  rcases run_cases operation m with ⟨e, hrun⟩ | ⟨answer, hrun⟩ | ⟨answer, m', hrun, -, hchange⟩
  · rwa [Action.after_error hrun]
  · rwa [Action.after_ok hrun]
  · rw [Action.after_ok hrun]
    exact h.change hchange

theorem deleteDirectory_eq_ok {path : Path} : (Operation.deleteDirectory path).run m = .ok (.flag true) m' ↔
    path.place ∈ m.directories ∧ m' = m.removeDirectory path.place := by
  have hdelete : (Storage.deleteDirectory path : Action Memory Bool) m = deleteDirectory path m := rfl
  rw [Operation.run, Action.bind_apply, hdelete, deleteDirectory]
  by_cases hthere : path.place ∈ m.directories <;> simp [hthere, Action.pure_apply, eq_comm]

/-- After any operations since it was empty, a store is a tree. An operation on it that fails, or answers that
nothing was done, changes nothing; the deletion of a directory that is there takes the directory and all below
it away, step by step of their places, and nothing else. -/
theorem tree_after (operations : List Operation) :
    let m := Operation.after operations Memory.empty
    m.Tree ∧
    (∀ (operation : Operation) (m' : Memory),
      (∃ e, operation.run m = .error e m') ∨ operation.run m = .ok (.flag false) m' → m' = m) ∧
    ∀ (path : Path) (m' : Memory), (Operation.deleteDirectory path).run m = .ok (.flag true) m' →
      (∀ p, p ∈ m'.directories ↔ p ∈ m.directories ∧ ¬ path.place <+: p) ∧
      ∀ p lines, m'.lines? p = some lines ↔ m.lines? p = some lines ∧ ¬ path.place <+: p := by
  intro m
  refine ⟨?tree, fun operation m' h => eq_of_run h, fun path m' h => ?deleted⟩
  case tree => exact Operation.after_induction Tree.empty fun operation _ m hm => hm.run operation
  case deleted =>
    obtain ⟨-, rfl⟩ := deleteDirectory_eq_ok.1 h
    exact ⟨fun p => mem_removeDirectory, fun p lines => lines?_removeDirectory_eq_some⟩

/-- A directory goes with its file, and not the one whose name only starts with its name; a file that is not
there is not deleted. -/
theorem tree_after_deletion :
    let m := Operation.after [.createDirectory ⟨"data/lab"⟩, .createDirectory ⟨"data/labs"⟩,
      .write ⟨"data/lab/a.tbl"⟩ ["x int"], .write ⟨"data/labs/a.tbl"⟩ ["y int"], .append ⟨"data/none"⟩ ""] Memory.empty
    (Operation.deleteFile ⟨"data/none"⟩).run m = .ok (.flag false) m ∧
    ∃ m', (Operation.deleteDirectory ⟨"data/lab"⟩).run m = .ok (.flag true) m' ∧ ["data", "lab"] ∉ m'.directories ∧
      m'.lines? ["data", "lab", "a.tbl"] = none ∧ ["data", "labs"] ∈ m'.directories ∧
      m'.lines? ["data", "labs", "a.tbl"] = some ["y int"] := by
  intro m
  obtain ⟨-, hunchanged, hdeleted⟩ := tree_after [.createDirectory ⟨"data/lab"⟩, .createDirectory ⟨"data/labs"⟩,
    .write ⟨"data/lab/a.tbl"⟩ ["x int"], .write ⟨"data/labs/a.tbl"⟩ ["y int"], .append ⟨"data/none"⟩ ""]
  obtain ⟨m', hnone⟩ : ∃ m', (Operation.deleteFile ⟨"data/none"⟩).run m = .ok (.flag false) m' := ⟨_, rfl⟩
  obtain rfl := hunchanged _ m' (.inr hnone)
  obtain ⟨m', hrun⟩ : ∃ m', (Operation.deleteDirectory ⟨"data/lab"⟩).run m = .ok (.flag true) m' :=
    ⟨_, deleteDirectory_eq_ok.2 ⟨by decide +kernel, rfl⟩⟩
  obtain ⟨hdirectories, hlines⟩ := hdeleted ⟨"data/lab"⟩ m' hrun
  have hplace : (Path.mk "data/lab").place = ["data", "lab"] := by decide +kernel
  rw [hplace] at hdirectories hlines
  refine ⟨hnone, m', hrun, ?_, ?_, (hdirectories _).2 ⟨?_, ?_⟩, (hlines _ _).2 ⟨?_, ?_⟩⟩
  · exact fun h => ((hdirectories _).1 h).2 (List.prefix_refl _)
  · exact Option.eq_none_iff_forall_ne_some.2 fun lines h => ((hlines _ _).1 h).2 (by decide)
  · decide +kernel
  · decide
  · decide +kernel
  · decide

end Memory

end TextTables
