import TextTables.Text.Blank
import TextTables.Text.Lines
/-!
Splitting of input lines into commands. Comments are cut, the rest of a line is joined to what is
pending, and a semicolon at the end of a line completes a statement. A line that reads `.EXIT` ends
the input and drops what is pending.
-/

namespace TextTables

/-- A unit of input. -/
inductive Command where
  | statement (text : String)
  | exit
deriving Repr, DecidableEq

/-- A line up to a comment, which two dashes outside single quotes start; `quoted` tells whether the
line is inside such quotes. -/
def cutComment (quoted : Bool) : List Char → List Char
  | [] => []
  | c :: rest =>
    if c = '\'' then c :: cutComment (!quoted) rest
    else if !quoted && c == '-' && rest.head? == some '-' then []
    else c :: cutComment quoted rest

/-- Whether a line holds nothing or only a comment. -/
def isIdleLine (line : List Char) : Bool :=
  (Text.trim line).isEmpty || ['-', '-'].isPrefixOf (Text.trimStart line)

/-- Whether a text is the exit command, with or without semicolons behind it. -/
def isExit (text : List Char) : Bool :=
  ((text.reverse.dropWhile (· == ';')).reverse).map Char.toLower == ".exit".toList

/-- What a line is for a splitter. -/
inductive LineKind where
  /-- nothing to keep -/
  | idle
  | exit
  /-- a piece of a statement -/
  | fragment (text : List Char)
deriving Repr, DecidableEq

/-- What a line is: its text without comment and blanks around it, if there is any. -/
def LineKind.ofLine (line : List Char) : LineKind :=
  if isIdleLine line then .idle
  else
    let text := Text.trim (cutComment false line)
    if isExit text then .exit
    else if text.isEmpty then .idle
    else .fragment text

/-- The text of the statement that is not complete yet. -/
structure Splitter where
  pending : List Char
deriving Repr, DecidableEq

namespace Splitter

/-- The splitter with nothing pending. -/
def empty : Splitter := ⟨[]⟩

/-- A fragment joined to what is pending by a space. -/
def joined (s : Splitter) (fragment : List Char) : List Char :=
  if s.pending.isEmpty then fragment else s.pending ++ ' ' :: fragment

/-- Feeds a line, which may complete a command. -/
def push (s : Splitter) (line : String) : Splitter × Option Command :=
  match LineKind.ofLine line.toList with
  | .idle => (s, none)
  | .exit => (empty, some .exit)
  | .fragment text =>
    let pending := s.joined text
    if pending.getLast? = some ';' then (empty, some (.statement (String.ofList pending)))
    else (⟨pending⟩, none)

/-- What is left once the input ends. -/
def finish (s : Splitter) : Splitter × Option Command :=
  if s.pending.isEmpty then (s, none) else (empty, some (.statement (String.ofList s.pending)))

/-- The commands of the rest of some lines. Lines after the exit command are not looked at. -/
def commandsFrom (s : Splitter) : List String → List Command
  | [] => s.finish.2.toList
  | line :: rest =>
    match s.push line with
    | (_, some .exit) => [.exit]
    | (s, some command) => command :: s.commandsFrom rest
    | (s, none) => s.commandsFrom rest

end Splitter

/-- The commands of a whole text. -/
def splitCommands (text : String) : List Command :=
  Splitter.empty.commandsFrom (Text.stringLines text)

end TextTables
