import TextTables.Table
/-!
Aggregates: one value for all records of a table, the count of them or the least, the greatest or
the mean of a field.
-/

namespace TextTables

/-- An aggregate. -/
inductive Aggregate where
  | count | minimum | maximum | mean
deriving Repr, DecidableEq

/-- The aggregate that a function calls, in any case. -/
def Aggregate.ofName? (function : String) : Option Aggregate :=
  let name := Text.upperCase function
  if name = "COUNT" then some .count
  else if name = "MIN" then some .minimum
  else if name = "MAX" then some .maximum
  else if name = "AVG" then some .mean
  else none

/-- Whether an aggregate takes the values of a type: there is no mean of texts. -/
def Aggregate.takes (aggregate : Aggregate) (type : FieldType) : Bool :=
  aggregate ≠ .mean || type ≠ .text

/-- The first of some values that none of the others precedes, when `wanted` is the order of a value
to those it replaces. -/
def extremeFrom (wanted : Ordering) (best : Value) : List Value → Except Error Value
  | [] => .ok best
  | value :: rest =>
    match value.order? best with
    | some order => extremeFrom wanted (if order = wanted then value else best) rest
    | none => .error (.typeMismatch (.incomparable value best))

/-- The extreme of some values, if there are any. -/
def extreme? (wanted : Ordering) : List Value → Except Error (Option Value)
  | [] => .ok none
  | value :: rest => do return some (← extremeFrom wanted value rest)

/-- The sum of some numbers added to `total`. -/
def sumFrom (total : Float) : List Value → Except Error Float
  | [] => .ok total
  | value :: rest =>
    match value.number? with
    | some x => sumFrom (total + x) rest
    | none => .error (.typeMismatch (.averagedText value.render))

/-- The mean of some numbers, if there are any. -/
def mean? (values : List Value) : Except Error (Option Value) := do
  let total ← sumFrom 0.0 values
  if values.isEmpty then return none
  else return some (.float (total / Decimal.ofInt values.length))

/-- The values of the field at a position. -/
def columnValues (position : Nat) (rows : List Row) : List Value :=
  rows.map (·.getD position default)

/-- The aggregate of the field at a position, or of whole records; `none` if it takes at least one
record and there is none. -/
def Aggregate.compute? (aggregate : Aggregate) (position : Option Nat) (rows : List Row) :
    Except Error (Option Value) :=
  match aggregate, position with
  | .count, _ => .ok (some (.integer (Int64.ofInt rows.length)))
  | _, none => .error (.parse .countsOnly)
  | .minimum, some p => extreme? .lt (columnValues p rows)
  | .maximum, some p => extreme? .gt (columnValues p rows)
  | .mean, some p => mean? (columnValues p rows)

/-- The label of the column that holds an aggregate. -/
def aggregateLabel (function : String) (field : Option FieldRef) : String :=
  Text.upperCase function ++ "(" ++ (field.elim "*" FieldRef.render) ++ ")"

/-- The position of a field that an aggregate takes; the schema decides, so that an empty table
fails in the same way. -/
def Aggregate.position (aggregate : Aggregate) (schema : Schema) (label : String) :
    Option FieldRef → Except Error (Option Nat)
  | none => .ok none
  | some ref => do
    let position ← schema.resolve ref
    match schema.fields[position]? with
    | some field =>
      if aggregate.takes field.type then return some position
      else throw (.typeMismatch (.notAggregable label field.type))
    | none => return some position

/-- The aggregate of a table that a function calls, with the label of its column. -/
def Table.aggregate (table : Table) (function : String) (field : Option FieldRef) :
    Except Error (String × Value) := do
  let label := aggregateLabel function field
  match Aggregate.ofName? function with
  | none => throw (.parse (.unknownAggregate function))
  | some aggregate =>
    let position ← aggregate.position table.schema label field
    match ← aggregate.compute? position table.rows with
    | some value => return (label, value)
    | none => throw (.emptyAggregate label)

end TextTables
