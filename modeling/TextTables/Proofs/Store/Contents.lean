import TextTables.Proofs.Store.Tree
/-!
# What a store in memory can hold

A store in memory holds what operations have put there since it was empty (`Memory.Built`). Each operation
leaves a tree as one, and so every store is a tree and keeps every file in a directory that is there
(`Memory.Built.rooted`).
-/

namespace TextTables.Memory

/-- A store that operations have made of the empty one, in success and in failure. -/
inductive Built : Memory → Prop
  | empty : Built Memory.empty
  | wrote {m : Memory} (path : Path) (lines : List String) : Built m →
      Built (Action.after (Storage.write path lines) m)
  | appended {m : Memory} (path : Path) (line : String) : Built m →
      Built (Action.after (Storage.append path line) m)
  | createdFile {m : Memory} (path : Path) : Built m → Built (Action.after (Storage.createFile path) m)
  | deletedFile {m : Memory} (path : Path) : Built m → Built (Action.after (Storage.deleteFile path) m)
  | createdDirectory {m : Memory} (path : Path) : Built m →
      Built (Action.after (Storage.createDirectory path) m)
  | deletedDirectory {m : Memory} (path : Path) : Built m →
      Built (Action.after (Storage.deleteDirectory path) m)

variable {m : Memory}

theorem Built.tree (h : m.Built) : m.Tree := by
  induction h with
  | empty => exact .empty
  | wrote path lines _ ih => simpa only [Operation.after_run] using ih.run (.write path lines)
  | appended path line _ ih => simpa only [Operation.after_run] using ih.run (.append path line)
  | createdFile path _ ih => simpa only [Operation.after_run] using ih.run (.createFile path)
  | deletedFile path _ ih => simpa only [Operation.after_run] using ih.run (.deleteFile path)
  | createdDirectory path _ ih => simpa only [Operation.after_run] using ih.run (.createDirectory path)
  | deletedDirectory path _ ih => simpa only [Operation.after_run] using ih.run (.deleteDirectory path)

/-- The files of a store are in directories that are there. -/
theorem Built.rooted (h : m.Built) : m.Rooted := h.tree.rooted

end TextTables.Memory
