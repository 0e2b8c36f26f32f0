import TextTables.Syntax.Expression
import TextTables.Syntax.Reading
/-!
Reading expressions. The levels of binding, from the loosest: `or`, `and`, one comparison, sums,
products, signs. Operators of one level group to the left, and comparisons do not chain.
-/

namespace TextTables

/-- How tightly the operators of an expression bind. -/
inductive Level where
  | disjunction | conjunction | comparison | sum | product | sign
deriving Repr, DecidableEq

/-- The next tighter level. -/
def Level.tighter : Level → Level
  | .disjunction => .conjunction
  | .conjunction => .comparison
  | .comparison => .sum
  | .sum => .product
  | .product => .sign
  | .sign => .sign

/-- The operator of a level that a token stands for. -/
def Level.operator? : Level → Token → Option Operator
  | .disjunction, .keyword .or => some .or
  | .conjunction, .keyword .and => some .and
  | .comparison, .equal => some (.compare .equal)
  | .comparison, .notEqual => some (.compare .notEqual)
  | .comparison, .less => some (.compare .less)
  | .comparison, .lessOrEqual => some (.compare .lessOrEqual)
  | .comparison, .greater => some (.compare .greater)
  | .comparison, .greaterOrEqual => some (.compare .greaterOrEqual)
  | .sum, .plus => some (.compute .add)
  | .sum, .minus => some (.compute .subtract)
  | .product, .asterisk => some (.compute .multiply)
  | .product, .slash => some (.compute .divide)
  | _, _ => none

/-- The constant that a number literal writes: an integer if it is digits only, else a float. -/
def readNumber (literal : String) : Except SyntaxFault Value :=
  let cs := literal.toList
  if cs.all Char.isDigit then
    match Decimal.readInteger? cs with
    | some n => .ok (.integer n)
    | none => .error .integerTooLarge
  else
    match Decimal.readFloat? cs with
    | some x => .ok (.float x)
    | none => .error .integerTooLarge

mutual

/-- Reads an operand of a level and then, to the left, the operators of the level that follow. -/
def readLevel : Nat → Level → Reading SyntaxFault Expression
  | 0, _ => throw .unexpectedEnd
  | rounds + 1, .sign => readSigned rounds
  | rounds + 1, level => do
    let first ← readLevel rounds level.tighter
    readOperators rounds level first

/-- Reads the operators of a level that follow a first operand, with their right operands. -/
def readOperators : Nat → Level → Expression → Reading SyntaxFault Expression
  | 0, _, _ => throw .unexpectedEnd
  | rounds + 1, level, left => do
    match (← Reading.peek?).bind level.operator? with
    | none => return left
    | some op =>
      let _ ← Reading.next
      let right ← readLevel rounds level.tighter
      if level = .comparison then return .binary op left right
      else readOperators rounds level (.binary op left right)

/-- Reads signs and the operand behind them. A plus sign changes nothing. -/
def readSigned : Nat → Reading SyntaxFault Expression
  | 0 => throw .unexpectedEnd
  | rounds + 1 => do
    if ← Reading.accept .minus then return .negate (← readSigned rounds)
    else if ← Reading.accept .plus then readSigned rounds
    else readOperand rounds

/-- Reads a constant, a field, or an expression in parentheses. -/
def readOperand : Nat → Reading SyntaxFault Expression
  | 0 => throw .unexpectedEnd
  | rounds + 1 => do
    match ← Reading.next with
    | .number literal => return .constant (← readNumber literal)
    | .text s => return .constant (.text s)
    | .name first => return .field (← Reading.fieldFrom first)
    | .openParen =>
      let inner ← readLevel rounds .disjunction
      Reading.expect .closeParen
      return inner
    | t => throw (.notOperand t)

end

/-- Reads an expression. No token is looked at by more than ten readings one inside the other, which
bounds the rounds. -/
def readExpression : Reading SyntaxFault Expression := fun input =>
  (readLevel (10 * input.length + 10) .disjunction).run input

/-- The expression that a whole text writes. -/
def Expression.ofString (text : String) : Except Error Expression :=
  Except.mapError .malformedExpression do
    let (e, rest) ← readExpression.run (lex text)
    match rest with
    | [] => return e
    | .ok t :: _ => throw (.trailingToken t)
    | .error fault :: _ => throw fault

end TextTables
