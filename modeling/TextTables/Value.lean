import TextTables.Decimal.Written
import TextTables.Text.Blank
import TextTables.Text.Case
/-!
Values of table fields: integers of 64 bits, floats and texts. A value has a written form
(`Value.render`), an order on numbers and an order on texts (`Value.order?`).
-/

namespace TextTables

/-! ## Types of fields -/

/-- The type of the values of a field. -/
inductive FieldType where
  | integer
  | float
  | text
deriving Repr, DecidableEq

/-- The word that messages use for a type. -/
def FieldType.name : FieldType → String
  | .integer => "integer"
  | .float => "float"
  | .text => "text"

/-- The type that a word declares, in any case. -/
def FieldType.ofWord? (word : String) : Option FieldType :=
  let word := Text.lowerCase word
  if word ∈ ["int", "integer"] then some .integer
  else if word ∈ ["float", "double"] then some .float
  else if word ∈ ["varchar", "char", "text", "string"] then some .text
  else none

/-! ## Values -/

/-- A value of a field. -/
inductive Value where
  | integer (n : Int64)
  | float (x : Float)
  | text (s : String)
deriving BEq

instance : Inhabited Value := ⟨.text ""⟩

/-- The values of one record, in the order of the fields. -/
abbrev Row := List Value

/-- The type of a value. -/
def Value.type : Value → FieldType
  | .integer _ => .integer
  | .float _ => .float
  | .text _ => .text

/-- The value that fills a field added to records that were there before it. -/
def FieldType.zero : FieldType → Value
  | .integer => .integer 0
  | .float => .float 0.0
  | .text => .text ""

/-- Floats are positional from a tenth of a thousandth up to sixteen digits before the point. -/
def floatLayout : Decimal.Layout := ⟨-3, 16⟩

/-- The written form of a value. -/
def Value.render : Value → String
  | .integer n => toString n.toInt
  | .float x => floatLayout.write x
  | .text s => s

/-- The value of a type that a text writes. Blanks around a number do not count. -/
def Value.read? (type : FieldType) (raw : String) : Option Value :=
  match type with
  | .integer => (Decimal.readInteger? (Text.trim raw.toList)).map .integer
  | .float => (Decimal.readFloat? (Text.trim raw.toList)).map .float
  | .text => some (.text raw)

/-! ## Numbers and order -/

/-- A number as a float. -/
def Value.number? : Value → Option Float
  | .integer n => some (Decimal.ofInt n.toInt)
  | .float x => some x
  | .text _ => none

/-- The order of two floats; a value that is not a number has none. -/
def floatOrder? (x y : Float) : Option Ordering :=
  if x < y then some .lt
  else if x == y then some .eq
  else if y < x then some .gt
  else none

/-- The order of two values: numbers by size, as floats where one of them is a float, and texts by
code points. A number and a text have none. -/
def Value.order? : Value → Value → Option Ordering
  | .integer a, .integer b => some (compare a.toInt b.toInt)
  | .text a, .text b => some (compare a b)
  | a, b =>
    match a.number?, b.number? with
    | some x, some y => floatOrder? x y
    | _, _ => none

end TextTables
