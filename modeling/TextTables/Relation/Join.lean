import TextTables.Evaluation
import TextTables.Syntax.Statement
/-!
Joins: every pair of records that a condition accepts, and for an outer join the records of one side
that stand in no row so far, padded with empty texts.
-/

namespace TextTables

/-- The rows that a left record forms with the right records that a test accepts. -/
def pairRows (test : Row → Row → Except Error Bool) (left : Row) :
    List Row → Except Error (List Row)
  | [] => .ok []
  | right :: rest => do
    let accepted ← test left right
    let rows ← pairRows test left rest
    return if accepted then (left ++ right) :: rows else rows

/-- The rows of all accepted pairs, by left record and then by right record. -/
def innerRows (test : Row → Row → Except Error Bool) (rights : List Row) :
    List Row → Except Error (List Row)
  | [] => .ok []
  | left :: rest => do
    let rows ← pairRows test left rights
    return rows ++ (← innerRows test rights rest)

/-- A record of empty texts. -/
def emptyRow (width : Nat) : Row := List.replicate width (.text "")

/-- The rows with every left record added, padded on the right, that starts none of the rows so
far. -/
def keepLeft (leftWidth rightWidth : Nat) (rows : List Row) (lefts : List Row) : List Row :=
  lefts.foldl (fun rows left =>
    if rows.any fun row => row.take leftWidth == left then rows
    else rows ++ [left ++ emptyRow rightWidth]) rows

/-- The rows with every right record added, padded on the left, that ends none of the rows so
far. -/
def keepRight (leftWidth : Nat) (rows : List Row) (rights : List Row) : List Row :=
  rights.foldl (fun rows right =>
    if rows.any fun row => row.drop leftWidth == right then rows
    else rows ++ [emptyRow leftWidth ++ right]) rows

/-- The join of two tables on a condition, if there is one. -/
def Table.join (left right : Table) (on : Option Expression) (kind : JoinKind) :
    Except Error Table := do
  let test := fun l r => accepts on [(left.schema, l), (right.schema, r)]
  let rows ← innerRows test right.rows left.rows
  let rows :=
    match kind with
    | .inner => rows
    | .left => keepLeft left.schema.width right.schema.width rows left.rows
    | .right => keepRight left.schema.width rows right.rows
  return ⟨left.id, left.schema ++ right.schema, rows⟩

end TextTables
