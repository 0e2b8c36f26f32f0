import Mathlib.Tactic.Common
import TextTables.Proofs.Text.Words
import TextTables.Text.Lines
/-!
# Lines that a text keeps

A text in which every line is followed by a line feed has these lines again, the empty ones included, as long
as none of them holds a line feed or ends with a carriage return, which would be taken for a part of the ending.
-/

namespace TextTables.Text

variable {line : List Char} {ls : List String}

/-- A line that is read back from a text as it was written. -/
def Whole (line : String) : Prop := '\n' ∉ line.toList ∧ line.toList.getLast? ≠ some '\r'

instance (line : String) : Decidable (Whole line) := inferInstanceAs (Decidable (_ ∧ _))

theorem lines_cons (hfeed : '\n' ∉ line) (hreturn : line.getLast? ≠ some '\r') (rest : List Char) :
    Text.lines (line ++ '\n' :: rest) = line :: Text.lines rest := by
  obtain ⟨piece, pieces, hpieces⟩ := List.exists_cons_of_ne_nil (List.splitOn_ne_nil '\n' rest)
  have hsplit : (line ++ '\n' :: rest).splitOn '\n' = line :: piece :: pieces := by
    rw [List.splitOn_append_cons_self, List.splitOn_eq_singleton hfeed, hpieces, List.singleton_append]
  rw [Text.lines, Text.lines, hsplit, hpieces, linesOfPieces, dropReturn, if_neg hreturn]
  exact nofun

theorem toList_unlines (ls : List String) : (unlines ls).toList = ls.flatMap fun line => line.toList ++ ['\n'] := by
  simp [unlines, String.toList_join, List.flatMap_map]

/-- The lines of a text are those that it was put together from. -/
theorem stringLines_unlines (h : ∀ line ∈ ls, Whole line) : stringLines (unlines ls) = ls := by
  rw [stringLines, toList_unlines]
  induction ls with
  | nil => rfl
  | cons line ls ih =>
    obtain ⟨⟨hfeed, hreturn⟩, hrest⟩ := List.forall_mem_cons.1 h
    rw [List.flatMap_cons, List.append_assoc, List.singleton_append, lines_cons hfeed hreturn, List.map_cons,
      String.ofList_toList, ih hrest]

theorem unlines_append (ls ls' : List String) : unlines (ls ++ ls') = unlines ls ++ unlines ls' := by
  apply String.toList_injective
  simp [toList_unlines]

end TextTables.Text
