/-!
References to fields: a name, with the table name or alias in front that it is qualified by.
-/

namespace TextTables

/-- A reference to a field, such as `id` or `orders.id`. -/
structure FieldRef where
  qualifier : Option String
  name : String
deriving Repr, DecidableEq

/-- The written form of a reference. -/
def FieldRef.render (ref : FieldRef) : String :=
  match ref.qualifier with
  | some q => q ++ "." ++ ref.name
  | none => ref.name

end TextTables
