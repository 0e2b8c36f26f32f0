import Mathlib.Tactic.Common
import TextTables.File.Lock
/-!
# Lock lines

How the holder of a file changes when a lock line is put on it or taken off, and that the rest of
the lines, `contents`, is not touched by either.
-/

namespace TextTables

variable {ticket holder : Ticket} {line : String} {ls ls' : List String}

/-! ## Holders -/

@[simp] theorem Ticket.ofLine?_lockLine : Ticket.ofLine? ticket.lockLine = some ticket := by
  simp [Ticket.ofLine?, Ticket.lockLine]

@[simp] theorem isLockLine_lockLine : isLockLine ticket.lockLine = true := by
  simp [isLockLine, Ticket.lockLine]

theorem Ticket.ofLine?_eq_some : Ticket.ofLine? line = some ticket ↔ line = ticket.lockLine := by
  constructor
  · intro h
    unfold Ticket.ofLine? at h
    split at h
    · next rest hl =>
      cases h
      apply String.toList_injective
      simp [Ticket.lockLine, hl]
    · cases h
  · rintro rfl
    exact ofLine?_lockLine

theorem Ticket.ofLine?_eq_none : Ticket.ofLine? line = none ↔ isLockLine line = false := by
  unfold Ticket.ofLine? isLockLine
  split
  · next rest hl => simp [hl]
  · next h =>
    cases hl : line.toList with
    | nil => simp
    | cons c rest =>
      have hc : c ≠ '&' := by
        rintro rfl
        exact h rest hl
      simpa using hc

@[simp] theorem holder?_nil : holder? [] = none := rfl

@[simp] theorem holder?_lockLine_cons : holder? (ticket.lockLine :: ls) = some ticket := by
  simp [holder?]

theorem holder?_cons_of_not (h : isLockLine line = false) : holder? (line :: ls) = none := by
  simpa [holder?] using Ticket.ofLine?_eq_none.2 h

/-- A file that a transaction holds starts with its lock line. -/
theorem holder?_eq_some : holder? ls = some ticket ↔ ∃ rest, ls = ticket.lockLine :: rest := by
  cases ls with
  | nil => simp
  | cons first rest => simp [holder?, Ticket.ofLine?_eq_some]

theorem holder?_append_of_ne_nil (h : ls ≠ []) : holder? (ls ++ ls') = holder? ls := by
  cases ls with
  | nil => exact absurd rfl h
  | cons first rest => rfl

theorem holder?_of_no_lockLine (h : ∀ line ∈ ls, isLockLine line = false) : holder? ls = none := by
  cases ls with
  | nil => rfl
  | cons first rest => exact holder?_cons_of_not (h first List.mem_cons_self)

/-! ## Putting a lock line on and taking it off -/

theorem putLock_of_holder?_none (h : holder? ls = none) : putLock ticket ls = ticket.lockLine :: ls := by
  cases ls with
  | nil => rfl
  | cons first rest =>
    have hf : isLockLine first = false := Ticket.ofLine?_eq_none.1 h
    simp [putLock, hf]

@[simp] theorem holder?_putLock : holder? (putLock ticket ls) = some ticket := by
  cases ls with
  | nil => simp [putLock]
  | cons first rest => simp only [putLock]; split <;> simp

@[simp] theorem dropLock_lockLine_cons : dropLock (ticket.lockLine :: ls) = ls := by
  simp [dropLock]

theorem dropLock_sublist (ls : List String) : (dropLock ls).Sublist ls := by
  cases ls with
  | nil => exact .slnil
  | cons first rest =>
    rw [dropLock]
    split
    · exact List.sublist_cons_self first rest
    · exact List.Sublist.refl _

theorem dropLock_of_holder?_none (h : holder? ls = none) : dropLock ls = ls := by
  cases ls with
  | nil => rfl
  | cons first rest =>
    have hf : isLockLine first = false := Ticket.ofLine?_eq_none.1 h
    simp [dropLock, hf]

/-- A lock line taken for nothing leaves no trace. -/
theorem dropLock_putLock (h : holder? ls = none) : dropLock (putLock ticket ls) = ls := by
  rw [putLock_of_holder?_none h, dropLock_lockLine_cons]

theorem headIsLock_iff : (ls.head?.map isLockLine).getD false = (holder? ls).isSome := by
  cases ls with
  | nil => rfl
  | cons first rest =>
    cases ht : Ticket.ofLine? first with
    | none => simp [holder?, ht, Ticket.ofLine?_eq_none.1 ht]
    | some ticket => simp [holder?, Ticket.ofLine?_eq_some.1 ht]

/-! ## Contents -/

/-- The lines that are no lock lines. -/
def contents (ls : List String) : List String := ls.filter fun line => !isLockLine line

theorem contents_dropLock : contents (dropLock ls) = contents ls := by
  cases ls with
  | nil => rfl
  | cons first rest =>
    simp only [dropLock]
    split
    · next h => simp [contents, h]
    · rfl

/-! ## Releases -/

/-- The lines after a ticket's lock lines are taken off the top, some number of times. -/
inductive Unlocked (ticket : Ticket) : List String → List String → Prop
  | refl (ls : List String) : Unlocked ticket ls ls
  | drop {ls ls' : List String} : holder? ls = some ticket → Unlocked ticket (dropLock ls) ls' →
      Unlocked ticket ls ls'

theorem Unlocked.single (h : holder? ls = some ticket) : Unlocked ticket ls (dropLock ls) :=
  .drop h (.refl _)

theorem Unlocked.trans {ls'' : List String} (h : Unlocked ticket ls ls')
    (h' : Unlocked ticket ls' ls'') : Unlocked ticket ls ls'' := by
  induction h with
  | refl => exact h'
  | drop hh _ ih => exact .drop hh (ih h')

theorem Unlocked.contents_eq (h : Unlocked ticket ls ls') : contents ls' = contents ls := by
  induction h with
  | refl => rfl
  | drop _ _ ih => rw [ih, contents_dropLock]

/-- Of lines with one lock line, it is all that can be taken off. -/
theorem Unlocked.eq_or_eq_dropLock (h : Unlocked ticket ls ls') (hd : holder? (dropLock ls) = none) :
    ls' = ls ∨ ls' = dropLock ls := by
  cases h with
  | refl => exact .inl rfl
  | drop _ hrest =>
    cases hrest with
    | refl => exact .inr rfl
    | drop hh _ => rw [hd] at hh; cases hh

/-- A file that another transaction holds, or none, stays as it is. -/
theorem Unlocked.eq_of_holder? (h : Unlocked ticket ls ls') (hh : holder? ls ≠ some ticket) :
    ls' = ls := by
  cases h with
  | refl => rfl
  | drop hh' _ => exact absurd hh' hh

end TextTables
