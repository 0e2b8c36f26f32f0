import TextTables.Syntax.Expression
/-!
Statements, as they are written. Columns are kept as descriptors, and a join without a condition of
its own is one between commas.
-/

namespace TextTables

/-- Which records of a side a join keeps that match none of the other side. -/
inductive JoinKind where
  | inner | left | right
deriving Repr, DecidableEq

/-- What a query reads from. -/
inductive FromItem where
  | table (name : String) (aliasName : Option String)
  | join (kind : JoinKind) (left right : FromItem) (on : Option Expression)
deriving BEq

/-- What a query returns of the records that it reads. -/
inductive Selection where
  | all
  | fields (refs : List FieldRef)
  /-- an aggregate of a field, or of whole records -/
  | aggregate (function : String) (field : Option FieldRef)
deriving BEq

/-- A statement. -/
inductive Statement where
  | createDatabase (name : String)
  | dropDatabase (name : String)
  | useDatabase (name : String)
  | createTable (name : String) (columns : List String)
  | dropTable (name : String)
  | alterTable (name : String) (column : String)
  | insert (table : String) (tuples : List (List Expression))
  | select (selection : Selection) (from? : FromItem) (condition : Option Expression)
  /-- an update; the columns are distinct and in the order of their names -/
  | update (table : String) (columns : List (String × Expression)) (condition : Option Expression)
  | delete (table : String) (condition : Option Expression)
  | begin
  | commit
deriving BEq

end TextTables
