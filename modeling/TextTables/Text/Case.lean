import TextTables.Text.CaseTable
/-!
Case mappings of texts: `lower` and `upper` map every character of every script, some of them to
more than one character; a capital sigma at the end of a word becomes a final sigma. `sameIgnoringCase`
looks past the case of the ASCII letters only.
-/

namespace TextTables.Text

/-- The upper case of one character. -/
def upperChar (c : Char) : List Char :=
  if c.toNat < 0x80 then [c.toUpper]
  else match wideUpper.lookup c.toNat with
    | some wide => wide.map Char.ofNat
    | none => [Char.ofNat ((upperShifts.findSome? (·.move? c.toNat)).getD c.toNat)]

/-- The upper case of a text. -/
def upper (cs : List Char) : List Char := cs.flatMap upperChar

/-- The lower case of one character, out of context. -/
def lowerChar (c : Char) : List Char :=
  if c.toNat < 0x80 then [c.toLower]
  else if c = '\u0130' then ['i', '\u0307']
  else [Char.ofNat ((lowerShifts.findSome? (·.move? c.toNat)).getD c.toNat)]

/-- Whether the first character that is not case-ignorable has a case. -/
def meetsCased (cs : List Char) : Bool :=
  match cs.dropWhile fun c => inRanges caseIgnorableRanges c.toNat with
  | [] => false
  | c :: _ => inRanges casedRanges c.toNat

/-- The lower case of a text that follows the characters `before`, nearest first. -/
def lowerAfter (before : List Char) : List Char → List Char
  | [] => []
  | c :: rest =>
    let mapped :=
      if c = 'Σ' then
        if meetsCased before && !meetsCased rest then ['ς'] else ['σ']
      else lowerChar c
    mapped ++ lowerAfter (c :: before) rest

/-- The lower case of a text. -/
def lower (cs : List Char) : List Char := lowerAfter [] cs

/-- The lower case of a string. -/
def lowerCase (s : String) : String := String.ofList (lower s.toList)

/-- The upper case of a string. -/
def upperCase (s : String) : String := String.ofList (upper s.toList)

/-- Whether two strings differ at most in the case of ASCII letters. -/
def sameIgnoringCase (s t : String) : Bool :=
  s.toList.map Char.toLower == t.toList.map Char.toLower

end TextTables.Text
