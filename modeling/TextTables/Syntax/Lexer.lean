import TextTables.Error
import TextTables.Text.Blank
import TextTables.Text.Numeral
/-!
Lexing: `lex` cuts a text into lexemes in one pass over its characters. A lexeme is a token or a
fault; what follows a fault is never read, so the lexemes end with the first fault.
-/

namespace TextTables

/-- A token, or what stands in the way of the next one. -/
abbrev Lexeme := Except SyntaxFault Token

/-- Where a scan stands: between lexemes, or inside one of which some characters are read, kept with
the last one first. -/
inductive Scan where
  | between
  | word (read : List Char)
  /-- the digits of a number, before or after its point -/
  | number (read : List Char) (pointed : Bool)
  | quoted (quote : Char) (read : List Char)
  | bang
  | equals
  | less
  | greater
deriving Repr, DecidableEq

/-- Whether a character may start a name or a keyword. -/
def startsWord (c : Char) : Bool := Text.isLetter c || c == '_'

/-- The keyword that a word spells, or the name that it is. -/
def wordToken (word : List Char) : Token :=
  let word := String.ofList word
  match Keyword.ofWord? word with
  | some k => .keyword k
  | none => .name word

/-- The token of a symbol that no longer symbol starts with. -/
def symbol? : Char → Option Token
  | '*' => some .asterisk
  | '(' => some .openParen
  | ')' => some .closeParen
  | ',' => some .comma
  | ';' => some .semicolon
  | '.' => some .period
  | '+' => some .plus
  | '-' => some .minus
  | '/' => some .slash
  | _ => none

/-- What a character does between lexemes: it is a lexeme of its own or passed over, or it starts a
longer one. -/
def startScan (c : Char) : List Lexeme × Scan :=
  if Text.isBlank c then ([], .between)
  else if c = '\'' ∨ c = '"' then ([], .quoted c [])
  else if c.isDigit then ([], .number [c] false)
  else if startsWord c then ([], .word [c])
  else if c = '!' then ([], .bang)
  else if c = '=' then ([], .equals)
  else if c = '<' then ([], .less)
  else if c = '>' then ([], .greater)
  else match symbol? c with
    | some t => ([.ok t], .between)
    | none => ([.error (.strayCharacter c)], .between)

/-- What a character does inside a lexeme: the lexemes that it completes, and whether the lexeme
goes on; `none` means that the character belongs to what follows the lexeme. -/
def continueScan (scan : Scan) (c : Char) : List Lexeme × Option Scan :=
  match scan with
  | .between => ([], none)
  | .word read =>
    if Text.isWordChar c then ([], some (.word (c :: read)))
    else ([.ok (wordToken read.reverse)], none)
  | .number read pointed =>
    if c.isDigit then ([], some (.number (c :: read) pointed))
    else if c = '.' ∧ pointed = false then ([], some (.number (c :: read) true))
    else ([.ok (.number (String.ofList read.reverse))], none)
  | .quoted quote read =>
    if c = quote then ([.ok (.text (String.ofList read.reverse))], some .between)
    else ([], some (.quoted quote (c :: read)))
  | .bang => if c = '=' then ([.ok .notEqual], some .between) else ([.error .loneBang], none)
  | .equals => if c = '=' then ([.ok .equal], some .between) else ([.ok .equal], none)
  | .less =>
    if c = '=' then ([.ok .lessOrEqual], some .between)
    else if c = '>' then ([.ok .notEqual], some .between)
    else ([.ok .less], none)
  | .greater =>
    if c = '=' then ([.ok .greaterOrEqual], some .between) else ([.ok .greater], none)

/-- The lexeme that the end of the text completes. -/
def endScan : Scan → List Lexeme
  | .between => []
  | .word read => [.ok (wordToken read.reverse)]
  | .number read _ => [.ok (.number (String.ofList read.reverse))]
  | .quoted _ _ => [.error .openText]
  | .bang => [.error .loneBang]
  | .equals => [.ok .equal]
  | .less => [.ok .less]
  | .greater => [.ok .greater]

/-- The lexemes that the rest of a text completes. -/
def lexFrom (scan : Scan) : List Char → List Lexeme
  | [] => endScan scan
  | c :: rest =>
    match continueScan scan c with
    | (done, some next) => done ++ lexFrom next rest
    | (done, none) =>
      let (more, next) := startScan c
      done ++ more ++ lexFrom next rest

/-- The lexemes up to the first fault, and that fault. -/
def untilFault : List Lexeme → List Lexeme
  | [] => []
  | .error fault :: _ => [.error fault]
  | .ok t :: rest => .ok t :: untilFault rest

/-- The lexemes of a text. -/
def lex (text : String) : List Lexeme := untilFault (lexFrom .between text.toList)

end TextTables
