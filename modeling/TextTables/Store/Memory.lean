import TextTables.Store.Basic
/-!
The store in memory: a file is a place with its lines, and a directory is a place of its own. A file
needs the directory that holds it, and a place may be a file and a directory at once.
-/

namespace TextTables

/-- Files and directories in memory. -/
structure Memory where
  files : List (Place × List String)
  directories : List Place
deriving Repr, DecidableEq

namespace Memory

/-- The store that holds nothing. -/
def empty : Memory := ⟨[], []⟩

/-- The lines of the file at a place. -/
def lines? (m : Memory) (place : Place) : Option (List String) := m.files.lookup place

/-- The store with the lines of a file replaced. -/
def put (m : Memory) (place : Place) (lines : List String) : Memory :=
  { m with files := (place, lines) :: m.files.filter fun f => f.1 != place }

/-- The store without the file at a place. -/
def erase (m : Memory) (place : Place) : Memory :=
  { m with files := m.files.filter fun f => f.1 != place }

/-- The store with a directory and those above it. -/
def addDirectory (m : Memory) (place : Place) : Memory :=
  { m with directories := place.ancestors.filter (!m.directories.contains ·) ++ m.directories }

/-- The store without a directory and all below it. -/
def removeDirectory (m : Memory) (place : Place) : Memory :=
  { files := m.files.filter fun f => !f.1.within place
    directories := m.directories.filter fun d => !d.within place }

/-- Whether the directory that is to hold a path is there; at the top none is needed. -/
def hasParent (m : Memory) (path : Path) : Bool :=
  path.place.parent.isEmpty || m.directories.contains path.place.parent

/-! ## Operations -/

/-- Fails if the directory that is to hold a path is missing. -/
def requireParent (path : Path) : Action Memory Unit := fun m =>
  if m.hasParent path then .ok () m
  else .error (.io (.directoryMissing path.parent.text)) m

/-- Replaces the lines of a file. -/
def write (path : Path) (lines : List String) : Action Memory Unit := do
  requireParent path
  modify (·.put path.place lines)

/-- Puts a line at the end of a file. -/
def append (path : Path) (line : String) : Action Memory Unit := fun m =>
  match m.lines? path.place with
  | some lines => .ok () (m.put path.place (lines ++ [line]))
  | none => .error (.io (.fileMissing path.text)) m

/-- Creates a file without lines. -/
def createFile (path : Path) : Action Memory Bool := do
  requireParent path
  if (← get).lines? path.place |>.isSome then return false
  else
    modify (·.put path.place [])
    return true

/-- Deletes a file. -/
def deleteFile (path : Path) : Action Memory Bool := fun m =>
  if (m.lines? path.place).isSome then .ok true (m.erase path.place) else .ok false m

/-- Creates a directory and those above it. -/
def createDirectory (path : Path) : Action Memory Bool := fun m =>
  if m.directories.contains path.place then .ok false m
  else .ok true (m.addDirectory path.place)

/-- Deletes a directory and all below it. -/
def deleteDirectory (path : Path) : Action Memory Bool := fun m =>
  if m.directories.contains path.place then .ok true (m.removeDirectory path.place)
  else .ok false m

instance : Storage Memory where
  read? path m := .ok (m.lines? path.place)
  fileExists path m := (m.lines? path.place).isSome
  directoryExists path m := m.directories.contains path.place
  write := write
  append := append
  createFile := createFile
  deleteFile := deleteFile
  createDirectory := createDirectory
  deleteDirectory := deleteDirectory

/-- What the store holds. -/
def listing (m : Memory) : Listing :=
  ⟨m.directories, m.files.map fun (place, lines) => (place, some lines)⟩

end Memory

end TextTables
