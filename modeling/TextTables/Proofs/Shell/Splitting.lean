import Mathlib.Tactic.Common
import TextTables.Shell.Splitter
/-!
# Commands of lines

Lines that are fed one after another complete commands (`Splitter.pushAll`). The commands of a whole
input are those, and then what the end of the input leaves over, or the exit command at the first line
that holds it.
-/

namespace TextTables.Splitter

variable {s : Splitter} {line : String} {front : List String}

/-- Feeds lines; the commands that they complete, in order. -/
def pushAll (s : Splitter) : List String → Splitter × List Command
  | [] => (s, [])
  | line :: rest =>
    let (next, command) := s.push line
    let (last, commands) := next.pushAll rest
    (last, command.toList ++ commands)

theorem push_of_exit (s : Splitter) (h : LineKind.ofLine line.toList = .exit) :
    s.push line = (empty, some .exit) := by
  rw [push, h]

theorem push_ne_exit (s : Splitter) (h : LineKind.ofLine line.toList ≠ .exit) :
    (s.push line).2 ≠ some .exit := by
  rw [push]
  split
  · nofun
  · next hexit => exact absurd hexit h
  · dsimp only
    split <;> nofun

theorem finish_ne_exit (s : Splitter) : s.finish.2 ≠ some .exit := by
  rw [finish]
  split <;> nofun

theorem commandsFrom_of_exit (s : Splitter) (h : LineKind.ofLine line.toList = .exit) (rest : List String) :
    s.commandsFrom (line :: rest) = [.exit] := by
  rw [commandsFrom, push_of_exit s h]

theorem commandsFrom_cons (s : Splitter) (h : LineKind.ofLine line.toList ≠ .exit) (rest : List String) :
    s.commandsFrom (line :: rest) = (s.push line).2.toList ++ (s.push line).1.commandsFrom rest := by
  have hne := s.push_ne_exit h
  rw [commandsFrom]
  generalize s.push line = pushed at hne ⊢
  obtain ⟨next, _ | _ | _⟩ := pushed
  · rfl
  · rfl
  · exact absurd rfl hne

/-- The commands of some lines without the exit command come before those of the lines behind them. -/
theorem commandsFrom_append (s : Splitter) (h : ∀ line ∈ front, LineKind.ofLine line.toList ≠ .exit)
    (back : List String) :
    s.commandsFrom (front ++ back) = (s.pushAll front).2 ++ (s.pushAll front).1.commandsFrom back := by
  induction front generalizing s with
  | nil => rfl
  | cons line rest ih =>
    obtain ⟨hline, hrest⟩ := List.forall_mem_cons.1 h
    rw [List.cons_append, s.commandsFrom_cons hline, ih _ hrest, ← List.append_assoc]
    rfl

theorem exit_not_mem_pushAll (s : Splitter) (h : ∀ line ∈ front, LineKind.ofLine line.toList ≠ .exit) :
    .exit ∉ (s.pushAll front).2 := by
  induction front generalizing s with
  | nil => nofun
  | cons line rest ih =>
    obtain ⟨hline, hrest⟩ := List.forall_mem_cons.1 h
    have hne := s.push_ne_exit hline
    intro hmem
    rcases List.mem_append.1 hmem with hmem | hmem
    · exact hne (Option.mem_toList.1 hmem)
    · exact ih _ hrest hmem

end TextTables.Splitter
