/-!
Lines of a text. A line ends at a line feed, a carriage return right before the line feed belongs
to the ending, and what follows the last line feed is a line only if it is not empty.
-/

namespace TextTables.Text

/-- A line without the carriage return of its ending. -/
def dropReturn (line : List Char) : List Char :=
  if line.getLast? = some '\r' then line.dropLast else line

/-- The lines made of the pieces between line feeds. -/
def linesOfPieces : List (List Char) → List (List Char)
  | [] => []
  | [last] => if last.isEmpty then [] else [last]
  | piece :: rest => dropReturn piece :: linesOfPieces rest

/-- The lines of a text. -/
def lines (cs : List Char) : List (List Char) := linesOfPieces (cs.splitOn '\n')

/-- The lines of a string. -/
def stringLines (s : String) : List String := (lines s.toList).map String.ofList

/-- The text in which every line is followed by a line feed. -/
def unlines (ls : List String) : String := String.join (ls.map (· ++ "\n"))

end TextTables.Text
