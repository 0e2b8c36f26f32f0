import TextTables.Syntax.Lexer
/-!
Readings: functions from lexemes to a value and the lexemes that are left, or to an error.
-/

namespace TextTables

/-- A function that reads lexemes from the front of a list. -/
abbrev Reading (ε α : Type) := StateT (List Lexeme) (Except ε) α

namespace Reading

/-- The reading with its errors mapped. -/
def mapError {ε ε' α : Type} (f : ε → ε') (read : Reading ε α) : Reading ε' α :=
  fun input => (read.run input).mapError f

/-- The next token. -/
def next : Reading SyntaxFault Token
  | [] => .error .unexpectedEnd
  | .error fault :: _ => .error fault
  | .ok t :: rest => .ok (t, rest)

/-- The next token, left in place; `none` at the end. -/
def peek? : Reading SyntaxFault (Option Token)
  | [] => .ok (none, [])
  | .error fault :: _ => .error fault
  | .ok t :: rest => .ok (some t, .ok t :: rest)

/-- Takes the next token if it is the given one, and tells whether it did. A fault in front is no
token. -/
def accept (t : Token) : Reading SyntaxFault Bool
  | .ok u :: rest => if u = t then .ok (true, rest) else .ok (false, .ok u :: rest)
  | input => .ok (false, input)

/-- Takes the given token. -/
def expect (t : Token) : Reading SyntaxFault Unit := do
  let u ← next
  if u = t then return () else throw (.expected t u)

/-- Takes a name. -/
def name : Reading SyntaxFault String := do
  match ← next with
  | .name s => return s
  | t => throw (.notName t)

/-- The field that a name starts: the name alone, or a qualifier and the name after a period. -/
def fieldFrom (first : String) : Reading SyntaxFault FieldRef := do
  if ← accept .period then return ⟨some first, ← name⟩
  else return ⟨none, first⟩

/-- One or more items with commas between them. Each round takes a token at least, so as many rounds
as there are lexemes are enough. -/
def commaSeparated {α : Type} (item : Reading SyntaxFault α) :
    Nat → Reading SyntaxFault (List α)
  | 0 => throw .unexpectedEnd
  | rounds + 1 => do
    let first ← item
    if ← accept .comma then return first :: (← commaSeparated item rounds)
    else return [first]

end Reading

end TextTables
