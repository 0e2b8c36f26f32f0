import TextTables.Store.Basic
import TextTables.Text.Lines
/-!
The store on disk: a tree of directories and of files, which hold bytes. A file is read as UTF-8 and
cut into lines; it is written with a line feed behind every line. A path is walked step by step from
a base directory, and how it is written counts: one that ends in `.` neither makes nor removes the
directory it leads to.
-/

namespace TextTables

/-- The tree below a base directory, which is always there. So are the directories above it and the
root, which are written as places of their own: `..` from the base directory, and `/`. -/
structure Disk where
  files : List (Place × ByteArray)
  directories : List Place

/-- What stands at the end of a path. -/
inductive Spot where
  | directory (place : Place)
  | file (place : Place) (bytes : ByteArray)
  /-- nothing, in a directory that is there -/
  | vacant (place : Place)
  /-- nothing, and no directory to hold it -/
  | missing
  /-- a file where the path needs a directory, or a path that cannot be walked -/
  | blocked

namespace Disk

/-- The tree without files and directories. -/
def empty : Disk := ⟨[], []⟩

/-- The bytes of the file at a place. -/
def bytes? (d : Disk) (place : Place) : Option ByteArray := d.files.lookup place

/-- The tree with the bytes of a file replaced. -/
def put (d : Disk) (place : Place) (bytes : ByteArray) : Disk :=
  { d with files := (place, bytes) :: d.files.filter fun f => f.1 != place }

/-- The tree without the file at a place. -/
def erase (d : Disk) (place : Place) : Disk :=
  { d with files := d.files.filter fun f => f.1 != place }

/-- The tree without what lies below a directory. -/
def clearDirectory (d : Disk) (place : Place) : Disk :=
  { files := d.files.filter fun f => !f.1.within place
    directories := d.directories.filter fun p => p == place || !p.within place }

/-- The tree without a directory and all below it. -/
def removeDirectory (d : Disk) (place : Place) : Disk :=
  { files := d.files.filter fun f => !f.1.within place
    directories := d.directories.filter fun p => !p.within place }

/-! ## Paths -/

/-- Whether a path can be walked at all: it holds no NUL, and it is shorter than 4096 bytes. -/
def walkable (path : Path) : Bool :=
  !path.text.toList.contains '\x00' && path.text.utf8ByteSize < 4096

/-- Whether a name is short enough to stand in a directory. -/
def nameable (name : String) : Bool := name.utf8ByteSize ≤ 255

/-- The directory one step up. The root is its own. -/
def up (here : Place) : Place :=
  if here = ["/"] then here
  else if here.all (· == "..") then here ++ [".."]
  else here.dropLast

/-- Whether a place lies below the base directory. -/
def inside (place : Place) : Bool :=
  match place with
  | [] => false
  | step :: _ => step != ".." && step != "/"

/-- What stands at the end of some steps from a directory. -/
def walk (d : Disk) (here : Place) : List String → Spot
  | [] => .directory here
  | step :: rest =>
    if step = "." then d.walk here rest
    else if step = ".." then d.walk (up here) rest
    else if step = "/" then d.walk ["/"] rest
    else if !nameable step then .blocked
    else
      let next := here ++ [step]
      if d.directories.contains next then d.walk next rest
      else match d.bytes? next with
        | some bytes => if rest.isEmpty then .file next bytes else .blocked
        | none => if rest.isEmpty then .vacant next else .missing

/-- What stands at the end of a path. The empty path leads nowhere. -/
def spot (d : Disk) (path : Path) : Spot :=
  if path.text.isEmpty then .missing
  else if !walkable path then .blocked
  else match d.walk [] path.place with
    | .file place bytes => if path.wantsDirectory then .blocked else .file place bytes
    | spot => spot

/-- The lines that bytes hold, if they are text. -/
def linesOf? (bytes : ByteArray) : Option (List String) :=
  (String.fromUTF8? bytes).map Text.stringLines

/-- The bytes of some lines. -/
def bytesOf (lines : List String) : ByteArray := (Text.unlines lines).toUTF8

/-! ## Operations -/

/-- The text of a file; none if it does not exist. -/
def readText? (path : Path) (d : Disk) : Except Error (Option String) :=
  match d.spot path with
  | .file _ bytes =>
    match String.fromUTF8? bytes with
    | some text => .ok (some text)
    | none => .error (.io (.notText path.text))
  | .vacant _ | .missing => .ok none
  | .directory _ | .blocked => .error (.io (.wrongKind path.text))

/-- The lines of a file; none if it does not exist. -/
def read? (path : Path) (d : Disk) : Except Error (Option (List String)) := do
  return (← d.readText? path).map Text.stringLines

/-- Whether a path stands for a file. -/
def fileExists (path : Path) (d : Disk) : Bool :=
  match d.spot path with
  | .file _ _ => true
  | _ => false

/-- Whether a path stands for a directory. -/
def directoryExists (path : Path) (d : Disk) : Bool :=
  match d.spot path with
  | .directory _ => true
  | _ => false

/-- Replaces the lines of a file. The new content is made in the directory that holds the file and
then takes its place. -/
def write (path : Path) (lines : List String) : Action Disk Unit := fun d =>
  if !path.parent.text.isEmpty && !d.directoryExists path.parent then
    .error (.io (.directoryMissing path.parent.text)) d
  else match d.spot path with
    | .file place _ => .ok () (d.put place (bytesOf lines))
    | .vacant place =>
      if path.wantsDirectory then .error (.io (.wrongKind path.text)) d
      else .ok () (d.put place (bytesOf lines))
    | .missing => .error (.io (.fileMissing path.text)) d
    | .directory _ | .blocked => .error (.io (.wrongKind path.text)) d

/-- Puts a line at the end of a file. -/
def append (path : Path) (line : String) : Action Disk Unit := fun d =>
  match d.spot path with
  | .file place bytes => .ok () (d.put place (bytes ++ bytesOf [line]))
  | .vacant _ | .missing => .error (.io (.fileMissing path.text)) d
  | .directory _ | .blocked => .error (.io (.wrongKind path.text)) d

/-- Creates a file without content. Slashes behind the name of a directory are a fault. -/
def createFile (path : Path) : Action Disk Bool := fun d =>
  match d.spot path with
  | .file _ _ => .ok false d
  | .directory _ =>
    if path.ending = .name ∧ path.wantsDirectory then .error (.io (.wrongKind path.text)) d
    else .ok false d
  | .vacant place =>
    if path.wantsDirectory then .error (.io (.wrongKind path.text)) d
    else .ok true (d.put place ByteArray.empty)
  | .missing => .error (.io (.directoryMissing path.parent.text)) d
  | .blocked => .error (.io (.wrongKind path.text)) d

/-- Deletes a file. -/
def deleteFile (path : Path) : Action Disk Bool := fun d =>
  match d.spot path with
  | .file place _ => .ok true (d.erase place)
  | .vacant _ | .missing => .ok false d
  | .directory _ | .blocked => .error (.io (.wrongKind path.text)) d

/-- The tree with the directories on a way from a directory, and whether nothing is in the way. -/
def addDirectories (d : Disk) (here : Place) : List String → Disk × Bool
  | [] => (d, true)
  | step :: rest =>
    if step = "." then d.addDirectories here rest
    else if step = ".." then d.addDirectories (up here) rest
    else if step = "/" then d.addDirectories ["/"] rest
    else if !nameable step then (d, false)
    else
      let next := here ++ [step]
      if d.directories.contains next then d.addDirectories next rest
      else if (d.bytes? next).isSome then (d, false)
      else { d with directories := next :: d.directories }.addDirectories next rest

/-- Creates a directory and those above it. A `.` at the end is a step into the directory, which has
to be there then. -/
def createDirectory (path : Path) : Action Disk Bool := fun d =>
  if d.directoryExists path then .ok false d
  else if !walkable path then .error (.io (.wrongKind path.text)) d
  else
    let steps := if path.ending = .self then path.place.parent else path.place
    match d.addDirectories [] steps with
    | (d, true) =>
      if path.ending = .self && !d.directoryExists path then
        .error (.io (.directoryMissing path.text)) d
      else .ok true d
    | (d, false) => .error (.io (.wrongKind path.text)) d

/-- Deletes a directory and all below it. What lies below goes first: a path that led through it by
`..` leads nowhere then, and a directory that has no name in the path is left empty. -/
def deleteDirectory (path : Path) : Action Disk Bool := fun d =>
  match d.spot path with
  | .directory place =>
    let emptied := d.clearDirectory place
    if !emptied.directoryExists path then .ok true emptied
    else if path.ending = .name then .ok true (emptied.removeDirectory place)
    else .error (.io (.wrongKind path.text)) emptied
  | .vacant _ | .missing => .ok false d
  | .file _ _ | .blocked => .error (.io (.wrongKind path.text)) d

instance : Storage Disk where
  read? := read?
  fileExists := fileExists
  directoryExists := directoryExists
  write := write
  append := append
  createFile := createFile
  deleteFile := deleteFile
  createDirectory := createDirectory
  deleteDirectory := deleteDirectory

/-- Puts bytes into a file, with the directories above it. -/
def place (path : Path) (bytes : ByteArray) (d : Disk) : Disk :=
  let (d, _) := d.addDirectories [] path.place.parent
  match d.spot path with
  | .file place _ | .vacant place => d.put place bytes
  | .directory _ | .missing | .blocked => d

/-- What the store holds below the base directory. -/
def listing (d : Disk) : Listing :=
  ⟨d.directories.filter inside,
    (d.files.filter (inside ·.1)).map fun (place, bytes) => (place, linesOf? bytes)⟩

end Disk

end TextTables
