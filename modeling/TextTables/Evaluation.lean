import TextTables.Syntax.Expression
import TextTables.Table
/-!
Evaluation of expressions over bound records. An expression gives a value or a truth value; a
condition has to give the latter and an assignment the former. Arithmetic on integers is exact or an
error.
-/

namespace TextTables

/-! ## Bindings -/

/-- The records that an expression sees, each with its schema: two under a join, one under a filter,
none for a constant. -/
abbrev Binding := List (Schema × Row)

/-- The value that a reference means in the rest of a binding, after `found` in the scopes before. -/
def Binding.lookupAfter (ref : FieldRef) : Option Value → Binding → Except Error (Option Value)
  | found, [] => .ok found
  | found, (schema, row) :: rest => do
    match ← schema.find? ref with
    | none => lookupAfter ref found rest
    | some position =>
      if found.isSome then throw (.unknownField (.ambiguous ref))
      else lookupAfter ref row[position]? rest

/-- The one value that a reference means in a binding. -/
def Binding.lookup (binding : Binding) (ref : FieldRef) : Except Error Value := do
  match ← lookupAfter ref none binding with
  | some value => return value
  | none => throw (.unknownField (.missing ref))

/-! ## Results -/

/-- The result of an expression. -/
inductive Datum where
  | value (v : Value)
  | truth (b : Bool)

/-- The result as a value. -/
def Datum.toValue : Datum → Except Error Value
  | .value v => .ok v
  | .truth _ => .error (.typeMismatch .conditionAsValue)

/-- The result as a truth value. -/
def Datum.toTruth : Datum → Except Error Bool
  | .truth b => .ok b
  | .value v => .error (.typeMismatch (.notCondition v))

/-! ## Operations on values -/

/-- The opposite of a number. -/
def Value.negate : Value → Except Error Value
  | .integer n =>
    match Decimal.int64? (-n.toInt) with
    | some m => .ok (.integer m)
    | none => .error (.typeMismatch (.negationOverflow n))
  | .float x => .ok (.float (-x))
  | .text s => .error (.typeMismatch (.negatedText s))

/-- Whether a comparison of two values holds. -/
def Comparison.apply (comparison : Comparison) (left right : Value) : Except Error Bool :=
  match left.order? right with
  | some order => .ok (comparison.holds order)
  | none => .error (.typeMismatch (.incomparable left right))

/-- An operation on two integers; division leaves the integers and has none. -/
def Arithmetic.onIntegers? : Arithmetic → Option (Int → Int → Int)
  | .add => some (· + ·)
  | .subtract => some (· - ·)
  | .multiply => some (· * ·)
  | .divide => none

/-- An operation on two floats. -/
def Arithmetic.onFloats : Arithmetic → Float → Float → Float
  | .add => (· + ·)
  | .subtract => (· - ·)
  | .multiply => (· * ·)
  | .divide => (· / ·)

/-- An operation on two numbers, at least one of them as a float. -/
def Arithmetic.onNumbers (op : Arithmetic) (left right : Value) : Except Error Value :=
  match left.number?, right.number? with
  | some x, some y =>
    if op = .divide ∧ (y == 0.0) = true then .error .divideByZero
    else .ok (.float (op.onFloats x y))
  | _, _ => .error (.typeMismatch (.notComputable left op.symbol right))

/-- An arithmetic operation on two values. Adding texts joins them, an operation on integers other
than division gives an integer, and any other on numbers gives a float. -/
def Arithmetic.apply (op : Arithmetic) (left right : Value) : Except Error Value :=
  match left, right with
  | .text a, .text b =>
    if op = .add then .ok (.text (a ++ b)) else op.onNumbers left right
  | .integer a, .integer b =>
    match op.onIntegers? with
    | some f =>
      match Decimal.int64? (f a.toInt b.toInt) with
      | some n => .ok (.integer n)
      | none => .error (.typeMismatch (.overflow a op.symbol b))
    | none => op.onNumbers left right
  | _, _ => op.onNumbers left right

/-- The value stored in a field of a type. Integers widen to floats and nothing else converts. -/
def Value.cast (value : Value) (type : FieldType) : Except Error Value :=
  match value, type with
  | .integer n, .float => .ok (.float (Decimal.ofInt n.toInt))
  | value, type =>
    if value.type = type then .ok value else .error (.typeMismatch (.notStorable value type))

/-! ## Expressions -/

/-- The result of an expression. The right side of `and` and `or` is looked at only if the left side
does not decide. -/
def Expression.datum (binding : Binding) : Expression → Except Error Datum
  | .constant v => .ok (.value v)
  | .field ref => do return .value (← binding.lookup ref)
  | .negate e => do
    let v ← (← e.datum binding).toValue
    return .value (← v.negate)
  | .binary .and l r => do
    let holds ← (← l.datum binding).toTruth
    if holds then return .truth (← (← r.datum binding).toTruth) else return .truth false
  | .binary .or l r => do
    let holds ← (← l.datum binding).toTruth
    if holds then return .truth true else return .truth (← (← r.datum binding).toTruth)
  | .binary (.compare comparison) l r => do
    let a ← (← l.datum binding).toValue
    let b ← (← r.datum binding).toValue
    return .truth (← comparison.apply a b)
  | .binary (.compute op) l r => do
    let a ← (← l.datum binding).toValue
    let b ← (← r.datum binding).toValue
    return .value (← op.apply a b)

/-- The value of an expression. -/
def Expression.evaluate (e : Expression) (binding : Binding) : Except Error Value := do
  (← e.datum binding).toValue

/-- Whether a condition holds. -/
def Expression.holds (e : Expression) (binding : Binding) : Except Error Bool := do
  (← e.datum binding).toTruth

/-- Whether a record is accepted by a condition, if there is one. -/
def accepts (condition : Option Expression) (binding : Binding) : Except Error Bool :=
  match condition with
  | some e => e.holds binding
  | none => .ok true

/-! ## Assignments -/

/-- The record `updated` after some assignments, each of which sees the record `row`. -/
def assignInto (schema : Schema) (row updated : Row) :
    List (Nat × Expression) → Except Error Row
  | [] => .ok updated
  | (position, e) :: rest => do
    match schema.fields[position]? with
    | none => throw (.fieldPosition position)
    | some field =>
      let value ← (← e.evaluate [(schema, row)]).cast field.type
      assignInto schema row (updated.set position value) rest

/-- The record after some assignments, all of which see it as it was before. -/
def assign (schema : Schema) (row : Row) (assignments : List (Nat × Expression)) :
    Except Error Row :=
  assignInto schema row row assignments

end TextTables
