import TextTables.Store.Disk
/-!
The difference between two trees, as changes in an order in which they can be made: what goes is
removed before what comes is put in its place.
-/

namespace TextTables

/-- A change to a tree. -/
inductive DiskChange where
  /-- a directory goes, with all below it -/
  | removeDirectory (place : Place)
  | removeFile (place : Place)
  | createDirectory (place : Place)
  | writeFile (place : Place) (bytes : ByteArray)

namespace Disk

/-- The directories of a tree that another does not have. -/
def directoriesBeyond (d other : Disk) : List Place :=
  d.directories.filter (!other.directories.contains ·)

/-- Whether a file of a tree is the same in another. -/
def sameFile (other : Disk) (file : Place × ByteArray) : Bool :=
  other.bytes? file.1 == some file.2

/-- The changes that make one tree of another. A file below a directory that goes is gone with it. -/
def changes (before after : Disk) : List DiskChange :=
  let gone := before.directoriesBeyond after
  let lost := before.files.filter fun file =>
    (after.bytes? file.1).isNone && !gone.any (file.1.within ·)
  let written := after.files.filter (!before.sameFile ·)
  gone.map .removeDirectory ++ lost.map (.removeFile ·.1)
    ++ (after.directoriesBeyond before).map .createDirectory
    ++ written.map fun file => .writeFile file.1 file.2

end Disk

end TextTables
