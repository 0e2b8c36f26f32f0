/-!
Escaped text: printable ASCII stands for itself, quotes and the backslash are preceded by a
backslash, tab, carriage return and line feed have letters of their own, and every other character
is written by its code point.
-/

namespace TextTables.Text

/-- The escaped form of one character. -/
def escapeChar (c : Char) : List Char :=
  if c = '\t' then ['\\', 't']
  else if c = '\r' then ['\\', 'r']
  else if c = '\n' then ['\\', 'n']
  else if c = '\'' ∨ c = '"' ∨ c = '\\' then ['\\', c]
  else if 0x20 ≤ c.toNat ∧ c.toNat ≤ 0x7E then [c]
  else ['\\', 'u', '\x7b'] ++ Nat.toDigits 16 c.toNat ++ ['\x7d']

/-- The escaped form of a string. -/
def escape (s : String) : String := String.ofList (s.toList.flatMap escapeChar)

end TextTables.Text
