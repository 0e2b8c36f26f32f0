import TextTables.Schema
import TextTables.Syntax.StatementReading
/-!
Plans: what a statement does, with its fields and schemas checked. A query reads a relation; the
condition of a query goes to the topmost join if that has none of its own, and above the relation
otherwise.
-/

namespace TextTables

/-- What a query reads. -/
inductive Relation where
  | scan (table : String) (aliasName : Option String)
  | join (kind : JoinKind) (left right : Relation) (on : Option Expression)
  /-- the records that a condition accepts, with the fields that are listed or with all -/
  | select (source : Relation) (fields : Option (List FieldRef)) (condition : Option Expression)
deriving BEq

/-- What a statement does. -/
inductive Plan where
  | createDatabase (name : String)
  | dropDatabase (name : String)
  | useDatabase (name : String)
  | createTable (name : String) (schema : Schema)
  | dropTable (name : String)
  | alterTable (name : String) (field : Field)
  | insert (table : String) (tuples : List (List Expression))
  | query (relation : Relation)
  | aggregate (source : Relation) (function : String) (field : Option FieldRef)
  | update (table : String) (columns : List (String × Expression)) (condition : Option Expression)
  | delete (table : String) (condition : Option Expression)
  | begin
  | commit
deriving BEq

/-- The relation of a from item under a condition, and the condition if it is left over. A join takes the
condition, and what is below it gets what is left of it. A join is the last filter of a query, so a condition
cannot follow one that has its own. -/
def Relation.ofFromItemWhere :
    FromItem → Option Expression → Except Error (Relation × Option Expression)
  | .table name aliasName, condition => .ok (.scan name aliasName, condition)
  | .join kind left right on, condition =>
    match on, condition with
    | some _, some _ => .error (.parse .whereAfterOn)
    | on, condition => do
      let (l, rest) ← ofFromItemWhere left none
      let (r, rest) ← ofFromItemWhere right rest
      return (.join kind l r (on.or condition), rest)

/-- The plan of a query over a relation under the condition that is left over. -/
def Plan.ofSelection (selection : Selection) (relation : Relation)
    (condition : Option Expression) : Plan :=
  match selection with
  | .all => .query (.select relation none condition)
  | .fields refs => .query (.select relation (some refs) condition)
  | .aggregate function field =>
    match condition with
    | some e => .aggregate (.select relation none (some e)) function field
    | none => .aggregate relation function field

/-- The plan of a statement. -/
def Plan.ofStatement : Statement → Except Error Plan
  | .createDatabase name => .ok (.createDatabase name)
  | .dropDatabase name => .ok (.dropDatabase name)
  | .useDatabase name => .ok (.useDatabase name)
  | .createTable name columns => do return .createTable name (← Schema.ofDescriptors columns)
  | .dropTable name => .ok (.dropTable name)
  | .alterTable name column => do return .alterTable name (← Field.ofDescriptor column)
  | .insert table tuples => .ok (.insert table tuples)
  | .select selection item condition => do
    let (relation, left) ← Relation.ofFromItemWhere item condition
    return .ofSelection selection relation left
  | .update table columns condition => .ok (.update table columns condition)
  | .delete table condition => .ok (.delete table condition)
  | .begin => .ok .begin
  | .commit => .ok .commit

/-- The plan of the statement that a text writes. -/
def Plan.ofString (text : String) : Except Error Plan := do
  Plan.ofStatement (← Statement.ofString text)

end TextTables
