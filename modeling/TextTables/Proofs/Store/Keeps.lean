import TextTables.Proofs.Store.DiskText
import TextTables.Proofs.Store.Tree
/-!
# Stores with lines of a kind

What is read from a store was handed to it, line by line, as long as lines on disk are such that a text has them
again. So a property that all lines have which are handed over holds of all that are read (`Storage.Keeps`): in
memory, on disk, and of a store that records what it is handed (`Recorded`).
-/

namespace TextTables

variable {σ α β : Type} {P : String → Prop}

/-! ## Actions that preserve a property -/

/-- An action after which a property holds again, whether or not the action succeeds. -/
def Action.Preserves (I : σ → Prop) (action : Action σ α) : Prop := ∀ s, I s → I (Action.after action s)

namespace Action.Preserves

variable {I : σ → Prop} {x : Action σ α} {f : α → Action σ β} {a : α}

theorem pure : Preserves I (pure a : Action σ α) := fun _ hs => hs

theorem bind (hx : Preserves I x) (hf : ∀ a, Preserves I (f a)) : Preserves I (x >>= f) := by
  intro s hs
  have hafter := hx s hs
  rw [after_bind]
  cases hrun : x s with
  | ok a s' =>
    rw [after_ok hrun] at hafter
    exact hf a s' hafter
  | error e s' => rwa [after_error hrun] at hafter

/-- Giving the answer another form does not matter. -/
theorem of_answer {f : α → β} (h : Preserves I (x >>= fun a => Pure.pure (f a))) : Preserves I x := by
  intro s hs
  rw [← after_bind_pure x f s]
  exact h s hs

theorem bind_of {result : Except Error α} (hf : ∀ a, result = .ok a → Preserves I (f a)) :
    Preserves I (Action.of result >>= f) := by
  intro s hs
  cases result with
  | ok a => exact hf a rfl s hs
  | error e => exact hs

theorem bind_ask {question : σ → Except Error α}
    (hf : ∀ s a, I s → question s = .ok a → I (after (f a) s)) : Preserves I (ask question >>= f) := by
  intro s hs
  cases hquestion : question s with
  | ok a =>
    rw [after_bind_ok (ask_ok hquestion)]
    exact hf s a hs hquestion
  | error e => rwa [after_bind_error (ask_error hquestion)]

end Action.Preserves

/-! ## Lines of a kind -/

/-- A property of stores that have lines of a kind in their files: only such are read, and it lasts as long as
only such are handed over. -/
structure Storage.Keeps [Storage σ] (P : String → Prop) (I : σ → Prop) : Prop where
  read {path : Path} {s : σ} {lines : List String} : I s → Storage.read? path s = .ok (some lines) →
    ∀ line ∈ lines, P line
  run (operation : Operation) : (∀ line ∈ operation.handed, P line) → Action.Preserves I operation.run

/-! ## In memory -/

theorem Memory.keeps : Storage.Keeps P fun m : Memory => m.Each fun lines => ∀ line ∈ lines, P line where
  read h hread := h _ _ (Memory.read?_eq_ok.1 hread)
  run operation hhanded m h := by
    rcases run_cases operation m with ⟨e, hrun⟩ | ⟨answer, hrun⟩ | ⟨answer, m', hrun, -, hchange⟩
    · rwa [Action.after_error hrun]
    · rwa [Action.after_ok hrun]
    rw [Action.after_ok hrun]
    cases hchange with
    | place _ => exact h.put hhanded
    | extend hlines => exact h.put (List.forall_mem_append.2 ⟨h _ _ hlines, hhanded⟩)
    | erase _ => exact h.erase
    | addDirectory _ => exact h.addDirectory
    | removeDirectory _ => exact h.removeDirectory

/-! ## On disk -/

namespace Disk

variable {d : Disk} {here p : Place} {steps lines : List String} {path : Path} {bytes : ByteArray}

theorem bytes?_of_walk (h : d.walk here steps = .file p bytes) : d.bytes? p = some bytes := by
  induction steps generalizing here with
  | nil => cases h
  | cons step rest ih =>
    rw [walk] at h
    split at h
    · exact ih h
    split at h
    · exact ih h
    split at h
    · exact ih h
    split at h
    · cases h
    dsimp only at h
    split at h
    · exact ih h
    split at h
    · next hbytes =>
      split at h
      · cases h
        exact hbytes
      · cases h
    · split at h <;> cases h

theorem mem_files_of_spot (h : d.spot path = .file p bytes) : (p, bytes) ∈ d.files := by
  have hbytes : d.bytes? p = some bytes := by
    unfold spot at h
    split at h
    · cases h
    split at h
    · cases h
    split at h
    · next hwalk =>
      split at h
      · cases h
      · cases h
        exact bytes?_of_walk hwalk
    · exact bytes?_of_walk h
  obtain ⟨before, after, hfiles, -⟩ := List.lookup_eq_some_iff.1 hbytes
  simp [hfiles]

theorem files_addDirectories : (d.addDirectories here steps).1.files = d.files := by
  induction steps generalizing d here with
  | nil => rfl
  | cons step rest ih =>
    rw [addDirectories]
    split
    · exact ih
    split
    · exact ih
    split
    · exact ih
    split
    · rfl
    dsimp only
    split
    · exact ih
    split
    · rfl
    · exact ih

/-- The ways in which an operation that hands lines to a store changes it. The lines become a file, or they are
put at the end of a file, or no file comes to be and none is changed. -/
inductive Change (d : Disk) (handed : List String) : Disk → Prop
  | place (p : Place) : Change d handed (d.put p (bytesOf handed))
  | extend {p : Place} {bytes : ByteArray} : (p, bytes) ∈ d.files → Change d handed (d.put p (bytes ++ bytesOf handed))
  | fewer {d' : Disk} : d'.files ⊆ d.files → Change d handed d'

theorem Change.refl {handed : List String} : d.Change handed d := .fewer (List.Subset.refl _)

theorem change_append (path : Path) (line : String) (d : Disk) :
    d.Change [line] (Action.after (append path line) d) := by
  unfold Action.after append
  cases hspot : d.spot path with
  | file p bytes => exact .extend (mem_files_of_spot hspot)
  | _ => exact .refl

theorem change_createFile (path : Path) (d : Disk) : d.Change [] (Action.after (createFile path) d) := by
  unfold Action.after createFile
  cases hspot : d.spot path with
  | vacant p =>
    cases path.wantsDirectory with
    | true => exact .refl
    | false => exact .place p
  | directory p =>
    by_cases hname : path.ending = .name ∧ path.wantsDirectory = true <;> simp only [hname] <;> exact .refl
  | _ => exact .refl

theorem files_deleteFile (path : Path) (d : Disk) : (Action.after (deleteFile path) d).files ⊆ d.files := by
  unfold Action.after deleteFile
  cases d.spot path with
  | file p bytes => exact List.filter_sublist.subset
  | _ => exact List.Subset.refl _

theorem files_createDirectory (path : Path) (d : Disk) : (Action.after (createDirectory path) d).files ⊆ d.files := by
  unfold Action.after createDirectory
  cases d.directoryExists path with
  | true => exact List.Subset.refl _
  | false =>
    cases !walkable path with
    | true => exact List.Subset.refl _
    | false =>
      simp only [Bool.false_eq_true, if_false]
      generalize (if path.ending = .self then path.place.parent else path.place) = steps
      -- The directories on the way are made even if something is in the way further on.
      have hfiles : (d.addDirectories [] steps).1.files ⊆ d.files := by
        rw [files_addDirectories]
        exact List.Subset.refl _
      generalize d.addDirectories [] steps = added at hfiles ⊢
      obtain ⟨d', made⟩ := added
      cases made with
      | false => exact hfiles
      | true =>
        dsimp only
        cases decide (path.ending = .self) && !d'.directoryExists path <;> exact hfiles

theorem files_deleteDirectory (path : Path) (d : Disk) : (Action.after (deleteDirectory path) d).files ⊆ d.files := by
  unfold Action.after deleteDirectory
  cases d.spot path with
  | directory p =>
    have hemptied : (d.clearDirectory p).files ⊆ d.files := List.filter_sublist.subset
    have hremoved : ((d.clearDirectory p).removeDirectory p).files ⊆ d.files :=
      List.Subset.trans List.filter_sublist.subset hemptied
    dsimp only
    cases !(d.clearDirectory p).directoryExists path with
    | true => exact hemptied
    | false => by_cases hname : path.ending = .name <;> simp only [hname] <;> assumption
  | _ => exact List.Subset.refl _

theorem change_after (operation : Operation) (d : Disk) :
    d.Change operation.handed (Action.after operation.run d) := by
  rw [Operation.after_run]
  cases operation with
  | read | fileExists | directoryExists => exact .refl
  | write path lines =>
    dsimp only
    rcases write_apply path lines d with ⟨p, -, hrun⟩ | ⟨-, e, hrun⟩
    · rw [Action.after_ok hrun]
      exact .place p
    · rw [Action.after_error hrun]
      exact .refl
  | append path line => exact change_append path line d
  | createFile path => exact change_createFile path d
  | deleteFile path => exact .fewer (files_deleteFile path d)
  | createDirectory path => exact .fewer (files_createDirectory path d)
  | deleteDirectory path => exact .fewer (files_deleteDirectory path d)

/-- Files that are texts of lines of a kind. -/
def Texts (P : String → Prop) (d : Disk) : Prop :=
  ∀ file ∈ d.files, ∃ lines, file.2 = bytesOf lines ∧ ∀ line ∈ lines, P line

theorem Texts.put (h : d.Texts P) (hlines : ∀ line ∈ lines, P line) : (d.put p (bytesOf lines)).Texts P := by
  intro file hfile
  rcases List.mem_cons.1 hfile with rfl | hfile
  · exact ⟨lines, rfl, hlines⟩
  · exact h file (List.mem_filter.1 hfile).1

theorem keeps (hwhole : ∀ line, P line → Text.Whole line) : Storage.Keeps P (Texts P) where
  read h hread := by
    obtain ⟨p, bytes, text, hspot, htext, rfl⟩ := read?_eq_ok.1 hread
    obtain ⟨lines, rfl, hlines⟩ := h _ (mem_files_of_spot hspot)
    rw [fromUTF8?_bytesOf] at htext
    cases htext
    rwa [Text.stringLines_unlines fun line hline => hwhole line (hlines line hline)]
  run operation hhanded d h := by
    have hchange := change_after operation d
    generalize Action.after operation.run d = d' at hchange ⊢
    cases hchange with
    | place p => exact h.put hhanded
    | extend hfile =>
      obtain ⟨lines, hbytes, hlines⟩ := h _ hfile
      dsimp only at hbytes
      rw [hbytes, ← bytesOf_append]
      exact h.put (List.forall_mem_append.2 ⟨hlines, hhanded⟩)
    | fewer hfiles => exact fun file hfile => h file (hfiles hfile)

end Disk

/-! ## On record -/

/-- A store with the lines that were handed to it to be written, whether or not they could be. -/
structure Recorded (σ : Type) where
  store : σ
  handed : List String

namespace Recorded

/-- An action of the store that is handed some lines. -/
def act (handed : List String) (action : Action σ α) : Action (Recorded σ) α := fun r =>
  match action r.store with
  | .ok a s => .ok a ⟨s, r.handed ++ handed⟩
  | .error e s => .error e ⟨s, r.handed ++ handed⟩

theorem after_act (handed : List String) (action : Action σ α) (r : Recorded σ) :
    Action.after (act handed action) r = ⟨Action.after action r.store, r.handed ++ handed⟩ := by
  simp only [Action.after, act]
  cases action r.store <;> rfl

variable [Storage σ]

instance : Storage (Recorded σ) where
  read? path r := Storage.read? path r.store
  fileExists path r := Storage.fileExists path r.store
  directoryExists path r := Storage.directoryExists path r.store
  write path lines := act lines (Storage.write path lines)
  append path line := act [line] (Storage.append path line)
  createFile path := act [] (Storage.createFile path)
  deleteFile path := act [] (Storage.deleteFile path)
  createDirectory path := act [] (Storage.createDirectory path)
  deleteDirectory path := act [] (Storage.deleteDirectory path)

/-- An operation does to the store what it does without the record, and what it hands over is recorded. -/
theorem after_run (operation : Operation) (r : Recorded σ) : Action.after operation.run r =
    ⟨Action.after operation.run r.store, r.handed ++ operation.handed⟩ := by
  rw [Operation.after_run, Operation.after_run]
  cases operation with
  | read | fileExists | directoryExists => simp only [Operation.handed, List.append_nil]
  | _ => exact after_act _ _ r

theorem keeps {I : σ → Prop} (h : Storage.Keeps P I) :
    Storage.Keeps P fun r : Recorded σ => I r.store ∧ ∀ line ∈ r.handed, P line where
  read hr hread := h.read hr.1 hread
  run operation hhanded r hr := by
    rw [after_run]
    exact ⟨h.run operation hhanded r.store hr.1, List.forall_mem_append.2 ⟨hr.2, hhanded⟩⟩

end Recorded

end TextTables
