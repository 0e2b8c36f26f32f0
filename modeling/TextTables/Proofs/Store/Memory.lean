import Mathlib.Tactic.Common
import TextTables.Store.Memory
/-!
# What the store in memory holds

`Memory.lines?` is the view of the store that every theorem about its files is stated in. There is
one equation for each change: it says what a change does to the lines of every file.
-/

namespace TextTables.Memory

variable {m : Memory} {p q : Place} {ls : List String}

/-! ## Keyed lists -/

theorem lookup_filter_of_pos {κ β : Type} [BEq κ] [LawfulBEq κ] (keep : κ → Bool) {k : κ}
    (hk : keep k = true) (l : List (κ × β)) :
    (l.filter fun e => keep e.1).lookup k = l.lookup k := by
  induction l with
  | nil => rfl
  | cons e l ih =>
    obtain ⟨k', b⟩ := e
    by_cases hkk : k = k'
    · subst hkk
      simp [hk]
    · have hne : (k == k') = false := by simpa using hkk
      by_cases hkeep : keep k' = true
      · simp [hkeep, List.lookup_cons, hne, ih]
      · simp [hkeep, List.lookup_cons, hne, ih]

theorem lookup_filter_of_neg {κ β : Type} [BEq κ] [LawfulBEq κ] (keep : κ → Bool) {k : κ}
    (hk : keep k = false) (l : List (κ × β)) :
    (l.filter fun e => keep e.1).lookup k = none := by
  rw [List.lookup_eq_none_iff]
  intro e he
  have hkeep : keep e.1 = true := (List.mem_filter.1 he).2
  simp only [bne_iff_ne, ne_eq]
  rintro rfl
  rw [hk] at hkeep
  cases hkeep

/-! ## Lines -/

theorem mem_files_of_lines? (h : m.lines? p = some ls) : (p, ls) ∈ m.files := by
  obtain ⟨before, after, hfiles, -⟩ := List.lookup_eq_some_iff.1 h
  simp [hfiles]

@[simp] theorem lines?_put_self : (m.put p ls).lines? p = some ls := by
  simp [put, lines?]

theorem lines?_put_of_ne (h : q ≠ p) : (m.put p ls).lines? q = m.lines? q := by
  have hqp : (q == p) = false := by simpa using h
  simp only [put, lines?, List.lookup_cons, hqp]
  exact lookup_filter_of_pos (· != p) (by simpa using h) m.files

theorem lines?_put : (m.put p ls).lines? q = if q = p then some ls else m.lines? q := by
  by_cases h : q = p
  · subst h; simp
  · rw [lines?_put_of_ne h, if_neg h]

theorem put_put {ls' : List String} : (m.put p ls).put p ls' = m.put p ls' := by
  simp [put]

/-- Putting back the lines that a file has changes no file. -/
theorem lines?_put_of_lines? (h : m.lines? p = some ls) : (m.put p ls).lines? q = m.lines? q := by
  rw [lines?_put]
  split
  · next hq => rw [hq, h]
  · rfl

theorem lines?_erase : (m.erase p).lines? q = if q = p then none else m.lines? q := by
  by_cases h : q = p
  · rw [if_pos h]
    exact lookup_filter_of_neg (· != p) (by simpa using h) m.files
  · rw [if_neg h]
    exact lookup_filter_of_pos (· != p) (by simpa using h) m.files

theorem lines?_removeDirectory :
    (m.removeDirectory p).lines? q = if q.within p then none else m.lines? q := by
  by_cases h : q.within p = true
  · rw [if_pos h]
    exact lookup_filter_of_neg (!Place.within · p) (by simpa using h) m.files
  · rw [if_neg h]
    exact lookup_filter_of_pos (!Place.within · p) (by simpa using h) m.files

@[simp] theorem lines?_addDirectory : (m.addDirectory p).lines? q = m.lines? q := rfl

theorem lines?_of_erase (h : (m.erase p).lines? q = some ls) : m.lines? q = some ls := by
  rw [lines?_erase] at h
  split at h
  · cases h
  · exact h

theorem lines?_of_removeDirectory (h : (m.removeDirectory p).lines? q = some ls) :
    m.lines? q = some ls ∧ ¬ q.within p = true := by
  rw [lines?_removeDirectory] at h
  split at h
  · cases h
  · next hout => exact ⟨h, hout⟩

/-! ## Stores alike -/

/-- The second store has the directories of the first and the same lines in every file. -/
structure Same (m m' : Memory) : Prop where
  directories : m'.directories = m.directories
  lines (p : Place) : m'.lines? p = m.lines? p

namespace Same

variable {m' m'' : Memory}

theorem symm (h : Same m m') : Same m' m :=
  ⟨h.directories.symm, fun p => (h.lines p).symm⟩

theorem trans (h : Same m m') (h' : Same m' m'') : Same m m'' :=
  ⟨h'.directories.trans h.directories, fun p => (h'.lines p).trans (h.lines p)⟩

end Same

/-- The second store has the directories of the first, and the same lines in every file but the one at a place. -/
structure SameBut (p : Place) (m m' : Memory) : Prop where
  directories : m'.directories = m.directories
  lines {q : Place} : q ≠ p → m'.lines? q = m.lines? q

namespace SameBut

variable {m' : Memory}

theorem refl (p : Place) (m : Memory) : SameBut p m m := ⟨rfl, fun _ => rfl⟩

theorem put (h : SameBut p m m') (ls : List String) : SameBut p m (m'.put p ls) :=
  ⟨h.directories, fun hq => (lines?_put_of_ne hq).trans (h.lines hq)⟩

theorem erase (h : SameBut p m m') : SameBut p m (m'.erase p) := by
  refine ⟨h.directories, fun hq => ?_⟩
  rw [lines?_erase, if_neg hq]
  exact h.lines hq

end SameBut

/-! ## Properties of all files -/

/-- A store whose files all have lines with a property. -/
def Each (P : List String → Prop) (m : Memory) : Prop := ∀ p ls, m.lines? p = some ls → P ls

namespace Each

variable {P : List String → Prop}

theorem put (h : m.Each P) (hls : P ls) : (m.put p ls).Each P := by
  intro q ls' hl
  rw [lines?_put] at hl
  split at hl
  · cases hl
    exact hls
  · exact h q ls' hl

theorem erase (h : m.Each P) : (m.erase p).Each P :=
  fun q ls hl => h q ls (lines?_of_erase hl)

theorem addDirectory (h : m.Each P) : (m.addDirectory p).Each P :=
  fun q ls hl => h q ls (lines?_addDirectory.symm.trans hl)

theorem removeDirectory (h : m.Each P) : (m.removeDirectory p).Each P :=
  fun q ls hl => h q ls (lines?_of_removeDirectory hl).1

end Each

/-! ## Directories -/

@[simp] theorem hasParent_put {path : Path} :
    (m.put p ls).hasParent path = m.hasParent path := rfl

theorem hasParent_iff {path : Path} :
    m.hasParent path = true ↔ path.place.parent = [] ∨ path.place.parent ∈ m.directories := by
  simp [hasParent]

/-- A store whose files are in directories that are there. -/
def Rooted (m : Memory) : Prop :=
  ∀ p ls, m.lines? p = some ls → p.parent = [] ∨ p.parent ∈ m.directories

namespace Rooted

theorem put (h : m.Rooted) (hp : p.parent = [] ∨ p.parent ∈ m.directories) : (m.put p ls).Rooted := by
  intro q ls' hl
  rw [lines?_put] at hl
  split at hl
  · next hq => rwa [hq]
  · exact h q ls' hl

/-- A file that is there is in a directory that is there. -/
theorem put_of_lines? (h : m.Rooted) {ls' : List String} (hl : m.lines? p = some ls') :
    (m.put p ls).Rooted :=
  h.put (h p ls' hl)

theorem erase (h : m.Rooted) (p : Place) : (m.erase p).Rooted :=
  fun q ls hl => h q ls (lines?_of_erase hl)

theorem addDirectory (h : m.Rooted) (p : Place) : (m.addDirectory p).Rooted :=
  fun q ls hl => (h q ls hl).imp_right (List.mem_append_right _)

/-- What lies below the directory of a place lies below the directories above the place. -/
theorem removeDirectory (h : m.Rooted) (p : Place) : (m.removeDirectory p).Rooted := by
  intro q ls hl
  obtain ⟨hl, hw⟩ := lines?_of_removeDirectory hl
  refine (h q ls hl).imp_right fun hmem => List.mem_filter.2 ⟨hmem, ?_⟩
  rw [Bool.not_eq_true', ← Bool.not_eq_true]
  intro hparent
  rw [Place.within, List.isPrefixOf_iff_prefix] at hw hparent
  exact hw (hparent.trans (List.dropLast_prefix q))

end Rooted

end TextTables.Memory
