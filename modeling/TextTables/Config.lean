import TextTables.Decimal.Written
import TextTables.Error
import TextTables.Text.Lines
/-!
The configuration: lines `key = "text"`, with comments after a number sign. Every setting has a
default, keys that mean nothing are passed over, and no key may stand twice.
-/

namespace TextTables

/-- The settings. -/
structure Config where
  /-- the directory that holds the databases -/
  dataDirectory : String
  /-- the extension of table files -/
  tableExtension : String
  logLevel : String
deriving Repr, DecidableEq

/-- The settings where nothing else is said. -/
def Config.default : Config := ⟨"Databases", "tbl", "warn"⟩

namespace Config

/-! ## Lines -/

/-- A value of a key: a text, or one that is no text. -/
inductive Entry where
  | text (s : String)
  | other
deriving Repr, DecidableEq

/-- The characters without the spaces and tabs at the front. -/
def skipSpaces (cs : List Char) : List Char := cs.dropWhile fun c => c == ' ' || c == '\t'

/-- Whether a character may stand in a text or in a comment. -/
def isTextChar (c : Char) : Bool := c == '\t' || (0x20 ≤ c.toNat && c.toNat != 0x7F)

/-- Whether nothing but a comment is left. -/
def isEnd (cs : List Char) : Bool :=
  match skipSpaces cs with
  | [] => true
  | c :: comment => c == '#' && comment.all isTextChar

/-- Whether a character may stand in a key. -/
def isKeyChar (c : Char) : Bool := c.isAlphanum || c == '_' || c == '-'

/-- The character that a letter stands for behind a backslash. -/
def escaped? : Char → Option Char
  | 'b' => some '\x08'
  | 't' => some '\t'
  | 'n' => some '\n'
  | 'f' => some '\x0c'
  | 'r' => some '\r'
  | '"' => some '"'
  | '\\' => some '\\'
  | _ => none

/-- The value of a hexadecimal digit. -/
def hexDigit? (c : Char) : Option Nat :=
  if c.isDigit then some (c.toNat - 48)
  else if 'a' ≤ c ∧ c ≤ 'f' then some (c.toNat - 87)
  else if 'A' ≤ c ∧ c ≤ 'F' then some (c.toNat - 55)
  else none

/-- The character of a code point written by hexadecimal digits. -/
def codePoint? (digits : List Char) : Option Char := do
  let values ← digits.mapM hexDigit?
  let n := values.foldl (fun n d => 16 * n + d) 0
  if n.isValidChar then some (Char.ofNat n) else none

/-- Where the reading of a text in double quotes stands. -/
inductive Quoting where
  | plain
  | backslash
  /-- inside a code point of which some digits are still to come -/
  | code (digits : List Char) (missing : Nat)

/-- A text up to its closing double quote, and what follows; what is read so far is last first. -/
def quotedText? (quoting : Quoting) (read : List Char) : List Char → Option (List Char × List Char)
  | [] => none
  | c :: rest =>
    match quoting with
    | .plain =>
      if c = '"' then some (read.reverse, rest)
      else if c = '\\' then quotedText? .backslash read rest
      else if isTextChar c then quotedText? .plain (c :: read) rest
      else none
    | .backslash =>
      if c = 'u' then quotedText? (.code [] 4) read rest
      else if c = 'U' then quotedText? (.code [] 8) read rest
      else match escaped? c with
        | some d => quotedText? .plain (d :: read) rest
        | none => none
    | .code digits missing =>
      if missing ≤ 1 then
        match codePoint? (digits ++ [c]) with
        | some d => quotedText? .plain (d :: read) rest
        | none => none
      else quotedText? (.code (digits ++ [c]) (missing - 1)) read rest

/-- A text up to its closing single quote, and what follows. -/
def literalText? (cs : List Char) : Option (List Char × List Char) :=
  match cs.dropWhile (· ≠ '\'') with
  | [] => none
  | _ :: rest =>
    let text := cs.takeWhile (· ≠ '\'')
    if text.all isTextChar then some (text, rest) else none

/-- Whether a word is a truth value or a number. -/
def isScalar (word : List Char) : Bool :=
  word == "true".toList || word == "false".toList ||
    (Decimal.readFloat? (word.filter (· ≠ '_'))).isSome

/-- The value at the front of a line, and what follows. -/
def entry? (cs : List Char) : Option (Entry × List Char) :=
  match cs with
  | '"' :: rest => (quotedText? .plain [] rest).map fun (s, rest) => (.text (String.ofList s), rest)
  | '\'' :: rest => (literalText? rest).map fun (s, rest) => (.text (String.ofList s), rest)
  | _ =>
    let word := cs.takeWhile fun c => c != ' ' && c != '\t' && c != '#'
    if isScalar word then some (.other, cs.dropWhile fun c => c != ' ' && c != '\t' && c != '#')
    else none

/-- The key at the front of a line, and what follows. -/
def key? (cs : List Char) : Option (String × List Char) :=
  match cs with
  | '"' :: rest => (quotedText? .plain [] rest).map fun (s, rest) => (String.ofList s, rest)
  | '\'' :: rest => (literalText? rest).map fun (s, rest) => (String.ofList s, rest)
  | _ =>
    if (cs.takeWhile isKeyChar).isEmpty then none
    else some (String.ofList (cs.takeWhile isKeyChar), cs.dropWhile isKeyChar)

/-- The key and value of a line. -/
def assignment? (line : List Char) : Option (String × Entry) := do
  let (key, rest) ← key? (skipSpaces line)
  match skipSpaces rest with
  | '=' :: rest =>
    let (entry, rest) ← entry? (skipSpaces rest)
    if isEnd rest then some (key, entry) else none
  | _ => none

/-! ## Files -/

/-- The keys and values of some lines, after those already read. -/
def assignments (read : List (String × Entry)) :
    List (List Char) → Except Error (List (String × Entry))
  | [] => .ok read
  | line :: rest =>
    if isEnd line then assignments read rest
    else match assignment? line with
      | none => .error (.config (.malformedLine (String.ofList line)))
      | some (key, entry) =>
        if read.any (·.1 == key) then .error (.config (.repeatedKey key))
        else assignments (read ++ [(key, entry)]) rest

/-- The text of a key, or a default if the key is absent. -/
def setting (read : List (String × Entry)) (key default : String) : Except Error String :=
  match read.lookup key with
  | none => .ok default
  | some (.text s) => .ok s
  | some .other => .error (.config (.notString key))

/-- The characters without a byte order mark at the front. -/
def skipMark (cs : List Char) : List Char :=
  match cs with
  | '\uFEFF' :: rest => rest
  | _ => cs

/-- The configuration that a text writes. -/
def ofString (text : String) : Except Error Config := do
  let read ← assignments [] (Text.lines (skipMark text.toList))
  let dataDirectory ← setting read "data_dir" default.dataDirectory
  let tableExtension ← setting read "table_extension" default.tableExtension
  let logLevel ← setting read "log_level" default.logLevel
  return ⟨dataDirectory, tableExtension, logLevel⟩

end Config

end TextTables
