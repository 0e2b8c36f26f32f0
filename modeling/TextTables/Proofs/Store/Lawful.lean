import TextTables.Proofs.File.Lock
import TextTables.Proofs.Store.Catalog
/-!
# Stores where reading and writing may fail

The laws that any store keeps whose files may be impossible to read or to write, such as files that
are not text or whose directory is missing. They leave open which files these are and what else a
store does to lines (`Storage.Lawful`); the store in memory keeps them.
-/

namespace TextTables

/-- The character that some lines start with. -/
def firstChar? (ls : List String) : Option Char := ls.head?.bind (·.toList.head?)

theorem firstChar?_of_holder? {ls : List String} {ticket : Ticket} (h : holder? ls = some ticket) :
    firstChar? ls = some '&' := by
  obtain ⟨rest, rfl⟩ := holder?_eq_some.1 h
  simp [firstChar?, Ticket.lockLine]

theorem holder?_of_firstChar? {ls : List String} (h : firstChar? ls = some '&') :
    ∃ ticket, holder? ls = some ticket := by
  obtain ⟨first, rest, rfl⟩ : ∃ first rest, ls = first :: rest := by
    cases ls with
    | nil => cases h
    | cons first rest => exact ⟨first, rest, rfl⟩
  obtain ⟨tail, hfirst⟩ := List.head?_eq_some_iff.1 h
  exact ⟨⟨String.ofList tail⟩, by simp only [holder?, List.head?_cons, Option.bind_some, Ticket.ofLine?, hfirst]⟩

theorem Catalog.lines_eq_ok {σ : Type} [Storage σ] {files : Catalog} {id : TableId} {s : σ} {ls : List String} :
    files.lines id s = .ok ls ↔ Storage.read? (files.tablePath id) s = .ok (some ls) := by
  unfold Catalog.lines
  cases Storage.read? (files.tablePath id) s with
  | error e => simp [bind, Except.bind]
  | ok lines? => cases lines? <;> simp [bind, Except.bind, pure, Except.pure, throw, throwThe, MonadExceptOf.throw]

/-- The laws of reading and writing files. -/
class Storage.Lawful (σ : Type) [Storage σ] : Prop where
  /-- A file that can be read exists. -/
  exists_of_read {path : Path} {s : σ} {ls : List String} :
    Storage.read? path s = .ok (some ls) → Storage.fileExists path s = true
  /-- A write that fails changes nothing. -/
  write_error {path : Path} {s s' : σ} {ls : List String} {e : Error} :
    Storage.write path ls s = .error e s' → s' = s
  /-- What is read of a file that was written starts as what was written. -/
  read_written {path : Path} {s s' : σ} {ls ls' : List String} {c : Char} :
    Storage.write path ls s = .ok () s' → Storage.read? path s' = .ok (some ls') →
      firstChar? ls' = some c → firstChar? ls = some c
  /-- What is read after a write was there before, or it is what the path written to now has. -/
  read_other {path other : Path} {s s' : σ} {ls ls' : List String} :
    Storage.write path ls s = .ok () s' → Storage.read? other s' = .ok (some ls') →
      Storage.read? other s = .ok (some ls') ∨ Storage.read? path s' = .ok (some ls')
  /-- A file that can be written after another was written could be written before. -/
  write_other {path other : Path} {s s' s'' : σ} {ls ls' : List String} :
    Storage.write path ls s = .ok () s' → Storage.write other ls' s' = .ok () s'' →
      ∃ s''', Storage.write other ls' s = .ok () s'''

namespace Memory

variable {path : Path} {m m' : Memory} {ls : List String}

theorem write_eq_ok :
    Storage.write path ls m = .ok () m' ↔ m.hasParent path = true ∧ m.put path.place ls = m' := by
  rw [Catalog.write_apply]
  cases m.hasParent path <;> simp

theorem read?_eq_ok :
    Storage.read? path m = .ok (some ls) ↔ m.lines? path.place = some ls :=
  ⟨fun h => Except.ok.inj h, fun h => congrArg Except.ok h⟩

instance : Storage.Lawful Memory where
  exists_of_read h := by
    change (lines? _ _).isSome = true
    rw [read?_eq_ok.1 h]
    rfl
  write_error h := by
    rw [Catalog.write_apply] at h
    split at h <;> cases h
    rfl
  read_written hwrite hread hfirst := by
    obtain ⟨-, rfl⟩ := write_eq_ok.1 hwrite
    rw [read?_eq_ok, lines?_put_self] at hread
    cases hread
    exact hfirst
  read_other {path other _ _ _ _} hwrite hread := by
    obtain ⟨-, rfl⟩ := write_eq_ok.1 hwrite
    rw [read?_eq_ok] at hread
    simp only [read?_eq_ok]
    by_cases hplace : other.place = path.place
    · exact .inr (hplace ▸ hread)
    · rw [lines?_put_of_ne hplace] at hread
      exact .inl hread
  write_other hwrite hother := by
    obtain ⟨-, rfl⟩ := write_eq_ok.1 hwrite
    obtain ⟨hparent, -⟩ := write_eq_ok.1 hother
    exact ⟨_, write_eq_ok.2 ⟨hparent, rfl⟩⟩

end Memory

end TextTables
