import TextTables.Error
import TextTables.Store.Path
/-!
Stores: what files and directories are kept in. A store answers questions, which change nothing, and
takes actions, which keep the state they have reached when they fail.
-/

namespace TextTables

/-- An action on a state that may fail. The state reached is kept in both cases. -/
abbrev Action (σ α : Type) := EStateM Error σ α

/-- The action that asks a question of the state. -/
def Action.ask {σ α : Type} (question : σ → Except Error α) : Action σ α := fun s =>
  match question s with
  | .ok a => .ok a s
  | .error e => .error e s

/-- The files and directories of a state, with files taken as lines. -/
class Storage (σ : Type) where
  /-- The lines of a file; none if it does not exist. -/
  read? : Path → σ → Except Error (Option (List String))
  /-- Whether a path stands for a file. -/
  fileExists : Path → σ → Bool
  /-- Whether a path stands for a directory. -/
  directoryExists : Path → σ → Bool
  /-- Replaces the lines of a file, which is created if needed. -/
  write : Path → List String → Action σ Unit
  /-- Puts a line at the end of a file. -/
  append : Path → String → Action σ Unit
  /-- Creates a file without lines; false if it exists. -/
  createFile : Path → Action σ Bool
  /-- Deletes a file; false if it does not exist. -/
  deleteFile : Path → Action σ Bool
  /-- Creates a directory and those above it; false if it exists. -/
  createDirectory : Path → Action σ Bool
  /-- Deletes a directory and all below it; false if it does not exist. -/
  deleteDirectory : Path → Action σ Bool

/-- What a store holds: its directories, and its files with their lines or none where a file does
not hold text. -/
structure Listing where
  directories : List Place
  files : List (Place × Option (List String))

end TextTables
