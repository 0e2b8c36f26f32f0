import TextTables.Proofs.Shell.Feed
import TextTables.Proofs.Shell.Splitting
import TextTables.Shell.Basic
import TextTables.Store.Memory
/-!
# Scripts and lines

A script is split into commands before the first of them is executed, and lines that come one by one are
executed as they complete commands. Both come to the same, since a command does not bear on how the lines
behind it are split.
-/

namespace TextTables.Shell

variable {σ : Type} [Storage σ] (files : Catalog)

/-! ## Commands in a row -/

theorem executeAll_append (shell : Shell σ) {commands : List Command} (h : .exit ∉ commands)
    (more : List Command) :
    executeAll files shell (commands ++ more) = executeAll files (executeAll files shell commands).1 more := by
  induction commands generalizing shell with
  | nil => rfl
  | cons command rest ih =>
    obtain ⟨hcommand, hrest⟩ := not_or.1 (mt List.mem_cons.2 h)
    cases command with
    | exit => exact absurd rfl hcommand
    | statement text => exact ih _ hrest

/-! ## Lines that come one by one -/

/-- Lines that come one by one are executed as their commands are in a row. -/
theorem runLines_eq (shell : Shell σ) (splitter : Splitter) (lines : List String) :
    runLines files shell splitter false lines =
      ((executeAll files shell (splitter.commandsFrom lines)).1,
        .ok (executeAll files shell (splitter.commandsFrom lines)).2) := by
  induction lines generalizing shell splitter with
  | nil =>
    have hne := splitter.finish_ne_exit
    rw [runLines, if_neg Bool.false_ne_true, Splitter.commandsFrom]
    generalize splitter.finish.2 = command at hne ⊢
    obtain _ | _ | _ := command
    · rfl
    · rfl
    · exact absurd rfl hne
  | cons line rest ih =>
    rw [runLines, Splitter.commandsFrom]
    rcases splitter.push line with ⟨next, _ | text | _⟩
    · exact ih shell next
    · exact ih (executeStatement files text shell) next
    · rfl

/-! ## Whole inputs -/

/-- Up to a line with the exit command, a script executes the commands that are complete. What is pending
there and what comes behind it makes no difference. -/
theorem runScript_exit {text line : String} {front back : List String}
    (htext : Text.stringLines text = front ++ line :: back)
    (hfront : ∀ line ∈ front, LineKind.ofLine line.toList ≠ .exit) (hline : LineKind.ofLine line.toList = .exit)
    (shell : Shell σ) :
    runScript files text shell = ((executeAll files shell (Splitter.empty.pushAll front).2).1, false) := by
  rw [runScript, splitCommands, htext, Splitter.commandsFrom_append _ hfront, Splitter.commandsFrom_of_exit _ hline,
    executeAll_append files shell (Splitter.exit_not_mem_pushAll _ hfront)]
  rfl

/-- The bytes of a text that come line by line are run as the script of the text is: with the same output,
session and store, and up to the exit command or the end. At the exit command both have executed what is
complete by then and nothing else. -/
theorem run_eq_runScript (text : String) (shell : Shell σ) :
    run files (Feed.ofBytes text.toUTF8) shell =
      ((runScript files text shell).1, .ok (runScript files text shell).2) ∧
    ∀ front line back, Text.stringLines text = front ++ line :: back →
      (∀ line ∈ front, LineKind.ofLine line.toList ≠ .exit) → LineKind.ofLine line.toList = .exit →
      runScript files text shell = ((executeAll files shell (Splitter.empty.pushAll front).2).1, false) := by
  refine ⟨?_, fun front line back htext hfront hline => runScript_exit files htext hfront hline shell⟩
  rw [Feed.ofBytes_toUTF8]
  exact runLines_eq files shell .empty (Text.stringLines text)

/-- A run that ends at the exit command with a statement pending. -/
theorem run_eq_runScript_pending :
    let files : Catalog := ⟨⟨"Databases"⟩, "tbl"⟩
    let shell : Shell Memory := .start ⟨.start, .empty⟩ fun n => ⟨toString n⟩
    let text := "begin; -- tä\r\nselect *\n .Exit; -- bye\nuse db;"
    run files (Feed.ofBytes text.toUTF8) shell = (executeStatement files "begin;" shell, .ok false) ∧
      runScript files text shell = (executeStatement files "begin;" shell, false) := by
  intro files shell text
  obtain ⟨hrun, hexit⟩ := run_eq_runScript files text shell
  have hscript := hexit ["begin; -- tä", "select *"] " .Exit; -- bye" ["use db;"] (by decide) (by decide) (by decide)
  have hcommands : (Splitter.empty.pushAll ["begin; -- tä", "select *"]).2 = [.statement "begin;"] := by decide
  rw [hcommands] at hscript
  rw [hrun, hscript]
  exact ⟨rfl, rfl⟩

end TextTables.Shell
