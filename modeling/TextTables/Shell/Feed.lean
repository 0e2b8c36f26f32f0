import TextTables.Text.Lines
/-!
Feeds: input that is read line by line, up to its end or up to a line that is not text.
-/

namespace TextTables

/-- The lines of an input, and whether a line that is not text comes after them. -/
structure Feed where
  lines : List String
  broken : Bool
deriving Repr, DecidableEq

/-- The feed of a text. -/
def Feed.ofString (text : String) : Feed := ⟨Text.stringLines text, false⟩

/-- The texts of some pieces of bytes up to the first that is not UTF-8, and whether there is one. -/
def decodePieces : List (List UInt8) → List (List Char) × Bool
  | [] => ([], false)
  | piece :: rest =>
    match String.fromUTF8? piece.toByteArray with
    | none => ([], true)
    | some text =>
      let (texts, broken) := decodePieces rest
      (text.toList :: texts, broken)

/-- The feed of bytes. -/
def Feed.ofBytes (bytes : ByteArray) : Feed :=
  let (texts, broken) := decodePieces (bytes.toList.splitOn 10)
  let lines := if broken then texts.map Text.dropReturn else Text.linesOfPieces texts
  ⟨lines.map String.ofList, broken⟩

end TextTables
