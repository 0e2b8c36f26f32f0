import TextTables.FieldRef
import TextTables.Value
/-!
Expressions: constants, references to fields and operations on them.
-/

namespace TextTables

/-- A comparison of two values. -/
inductive Comparison where
  | equal | notEqual | less | lessOrEqual | greater | greaterOrEqual
deriving Repr, DecidableEq

/-- An arithmetic operation on two values. -/
inductive Arithmetic where
  | add | subtract | multiply | divide
deriving Repr, DecidableEq

/-- An operator between two operands. -/
inductive Operator where
  | or
  | and
  | compare (comparison : Comparison)
  | compute (arithmetic : Arithmetic)
deriving Repr, DecidableEq

/-- An expression. -/
inductive Expression where
  | constant (value : Value)
  | field (ref : FieldRef)
  | negate (operand : Expression)
  | binary (op : Operator) (left right : Expression)
deriving BEq

/-- Whether an outcome of a comparison makes it true. -/
def Comparison.holds : Comparison → Ordering → Bool
  | .equal, o => o == .eq
  | .notEqual, o => o != .eq
  | .less, o => o == .lt
  | .lessOrEqual, o => o != .gt
  | .greater, o => o == .gt
  | .greaterOrEqual, o => o != .lt

/-- The symbol of an arithmetic operation. -/
def Arithmetic.symbol : Arithmetic → String
  | .add => "+"
  | .subtract => "-"
  | .multiply => "*"
  | .divide => "/"

end TextTables
