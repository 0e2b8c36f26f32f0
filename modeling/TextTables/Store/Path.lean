/-!
Paths, as they are written, and the places they stand for. A `.` inside a path and doubled or
trailing slashes do not change the place; a path that starts with `/` or with `.` has that as its
first step.
-/

namespace TextTables

/-- A path as written. -/
structure Path where
  text : String
deriving Repr, DecidableEq

/-- The place that a path stands for: the steps to it. -/
abbrev Place := List String

/-- The first step of a path that starts at the root or at the current directory, and the rest. -/
def Path.split (path : Path) : List Char × List Char :=
  match path.text.toList with
  | '/' :: rest => (['/'], rest)
  | ['.'] => (['.'], [])
  | '.' :: '/' :: rest => (['.'], '/' :: rest)
  | cs => ([], cs)

/-- Whether a piece between slashes is a step. -/
def isStep (piece : List Char) : Bool := piece ≠ [] ∧ piece ≠ ['.']

/-- The place that a path stands for. -/
def Path.place (path : Path) : Place :=
  let (lead, body) := path.split
  let steps := (body.splitOn '/').filter isStep
  ((if lead.isEmpty then [] else [lead]) ++ steps).map String.ofList

/-- The pieces of a path without those at the end that are no steps. -/
def dropIdle (pieces : List (List Char)) : List (List Char) :=
  (pieces.reverse.dropWhile fun piece => !isStep piece).reverse

/-- The path of the directory that holds a path, as written. -/
def Path.parent (path : Path) : Path :=
  let (lead, body) := path.split
  let steps := dropIdle (dropIdle (body.splitOn '/')).dropLast
  ⟨String.ofList (lead ++ List.intercalate ['/'] steps)⟩

/-- Whether a path ends in a way that only a directory's may. -/
def Path.wantsDirectory (path : Path) : Bool :=
  match (path.text.toList.splitOn '/').getLast? with
  | some piece => !isStep piece
  | none => true

/-- How the last step of a path is written, slashes behind it aside. -/
inductive Ending where
  /-- by its name -/
  | name
  /-- as a `.`, for the directory itself -/
  | self
  /-- as a `..`, for the directory above -/
  | above
  /-- not at all: the path has no step -/
  | bare
deriving Repr, DecidableEq

/-- How the last step of a path is written. -/
def Path.ending (path : Path) : Ending :=
  match ((path.text.toList.splitOn '/').filter (· ≠ [])).getLast? with
  | none => .bare
  | some ['.'] => .self
  | some ['.', '.'] => .above
  | some _ => .name

/-- The path below a directory. An absolute path below another is itself. -/
def Path.join (path : Path) (name : String) : Path :=
  if name.toList.head? = some '/' then ⟨name⟩
  else if path.text.isEmpty ∨ path.text.toList.getLast? = some '/' then ⟨path.text ++ name⟩
  else ⟨path.text ++ "/" ++ name⟩

/-- The place of the directory that holds a place. -/
def Place.parent (place : Place) : Place := place.dropLast

/-- Whether a place is a directory or lies below it. -/
def Place.within (place directory : Place) : Bool := directory.isPrefixOf place

/-- A place and the places above it, the empty one left out. -/
def Place.ancestors (place : Place) : List Place :=
  (List.range place.length).map fun n => place.take (n + 1)

/-- The written form of a place. -/
def Place.render : Place → String
  | "/" :: steps => "/" ++ String.intercalate "/" steps
  | steps => String.intercalate "/" steps

end TextTables
