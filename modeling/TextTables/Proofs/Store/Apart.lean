import TextTables.Proofs.Store.Handed
import TextTables.Proofs.Store.Place
import TextTables.Proofs.Syntax.Lexemes
/-!
# Tables that are apart

Two tables have one file only if their names are the same in lower case. A call of the catalog on one table does
nothing but operations on that table's file (`Catalog.Call.preserves_of_file`), and dropping a database removes
what is below its directory, so a table with another name is left as it is by both (`Catalog.tables_apart`).
-/

namespace TextTables

/-! ## Names -/

/-- A name that lexing finds in some text. -/
def IsLexed (name : String) : Prop := ∃ text, .ok (.name name) ∈ lex text

theorem IsLexed.isWord {name : String} (h : IsLexed name) : isWord name.toList = true := by
  obtain ⟨text, hname⟩ := h
  exact lex_formed text _ hname

/-- An identity of names that lexing finds. -/
structure TableId.Lexed (id : TableId) : Prop where
  database : IsLexed id.database
  name : IsLexed id.name

/-! ## Operations on one file -/

namespace Memory

variable {m m' : Memory} {path : Path}

theorem after_write (path : Path) (lines : List String) (m : Memory) :
    Action.after (Storage.write path lines) m = if m.hasParent path then m.put path.place lines else m := by
  rw [Action.after, Catalog.write_apply]
  cases m.hasParent path <;> rfl

theorem after_append (path : Path) (line : String) (m : Memory) :
    Action.after (Storage.append path line) m = match m.lines? path.place with
      | some lines => m.put path.place (lines ++ [line])
      | none => m := by
  change Action.after (append path line) m = _
  unfold Action.after append
  cases m.lines? path.place <;> rfl

theorem after_createFile (path : Path) (m : Memory) :
    Action.after (Storage.createFile path) m =
      if m.hasParent path && (m.lines? path.place).isNone then m.put path.place [] else m := by
  rw [Action.after, Catalog.createFile_apply]
  cases m.hasParent path <;> cases m.lines? path.place <;> rfl

theorem after_deleteFile (path : Path) (m : Memory) :
    Action.after (Storage.deleteFile path) m =
      if (m.lines? path.place).isSome then m.erase path.place else m := by
  change Action.after (deleteFile path) m = _
  unfold Action.after deleteFile
  cases m.lines? path.place <;> rfl

/-- An operation on a file changes no directory and no other file, whether or not it succeeds. -/
theorem SameBut.run (h : SameBut path.place m m') {operation : Operation} (hfile : operation.file? = some path) :
    SameBut path.place m (Action.after operation.run m') := by
  rw [Operation.after_run]
  cases operation with
  | directoryExists | createDirectory | deleteDirectory => cases hfile
  | read | fileExists => exact h
  | write path lines =>
    cases hfile
    dsimp only
    rw [after_write]
    split
    · exact h.put lines
    · exact h
  | append path line =>
    cases hfile
    dsimp only
    rw [after_append]
    split
    · exact h.put _
    · exact h
  | createFile path =>
    cases hfile
    dsimp only
    rw [after_createFile]
    split
    · exact h.put []
    · exact h
  | deleteFile path =>
    cases hfile
    dsimp only
    rw [after_deleteFile]
    split
    · exact h.erase
    · exact h

end Memory

namespace Catalog

/-! ## Tables left as they are -/

/-- A table is in the second store as in the first: its file is there or not and has the same lines, and its
directory is there or not. -/
structure Untouched (files : Catalog) (id : TableId) (m m' : Memory) : Prop where
  lines : files.lines? id m' = files.lines? id m
  file : files.tableExists id m' = files.tableExists id m
  directory : files.hasDirectory id m' = files.hasDirectory id m

variable {files : Catalog} {id other : TableId} {m m' : Memory} {p : Place} {name : String}

theorem Untouched.of_lines (hlines : files.lines? id m' = files.lines? id m)
    (hdirectory : files.hasDirectory id m' = files.hasDirectory id m) : files.Untouched id m m' :=
  ⟨hlines, by rw [tableExists_eq, tableExists_eq, hlines], hdirectory⟩

theorem untouched_of_sameBut (h : Memory.SameBut p m m') (hp : files.place id ≠ p) : files.Untouched id m m' :=
  .of_lines (h.lines hp) (hasDirectory_congr h.directories)

/-- A call on a table changes no directory and no other file, whatever the lines that it makes. -/
theorem sameBut_call {call : Call} (htable : call.table? = some id) (m : Memory) :
    Memory.SameBut (files.place id) m (Action.after (call.run files) m) := by
  have hmakes : call.Makes fun _ => True := by
    cases call <;> simp only [Call.Makes, implies_true]
  refine Call.preserves_of_file (fun _ _ _ _ _ _ => trivial) (fun operation hfile _ m' h => ?_) htable hmakes m
    (.refl _ m)
  exact h.run hfile

/-- What is not below a directory that is removed has no directory above it removed either. -/
theorem untouched_removeDirectory (h : ¬ (files.place id).within p = true) :
    files.Untouched id m (m.removeDirectory p) := by
  refine .of_lines ((Memory.lines?_removeDirectory).trans (if_neg h)) ?_
  rw [Place.within, List.isPrefixOf_iff_prefix] at h
  have hparent : ¬ p <+: (files.place id).parent := fun hp => h (hp.trans (List.dropLast_prefix _))
  rw [Bool.eq_iff_iff, hasDirectory_iff, hasDirectory_iff, Memory.mem_removeDirectory]
  simp only [hparent, not_false_eq_true, and_true]

theorem untouched_dropDatabase (hother : other.Lexed) (hname : IsLexed name)
    (h : Text.lowerCase name ≠ Text.lowerCase other.database) (m : Memory) :
    files.Untouched other m (Action.after (files.dropDatabase name) m) := by
  have hout : ¬ (files.place other).within (files.databasePath name).place = true := fun hwithin =>
    h ((within_databasePath_iff hother.database.isWord hother.name.isWord hname.isWord).1 hwithin).symm
  have hdrop := files.dropDatabase_apply m name
  cases hthere : m.directories.contains (files.databasePath name).place with
  | true =>
    rw [hthere, if_pos rfl] at hdrop
    rw [Action.after_ok hdrop]
    exact untouched_removeDirectory hout
  | false =>
    rw [hthere] at hdrop
    rw [Action.after_ok hdrop]
    exact .of_lines rfl rfl

/-- Two tables whose names were lexed have one file exactly if the names of their databases and their own are the
same in lower case. If they do not, then the calls on one leave the other as it is, in success and in failure; and
so does dropping a database whose name in lower case is not that of the table's own. -/
theorem tables_apart (files : Catalog) {id other : TableId} (hid : id.Lexed) (hother : other.Lexed) :
    (files.place id = files.place other ↔
      Text.lowerCase id.database = Text.lowerCase other.database ∧
        Text.lowerCase id.name = Text.lowerCase other.name) ∧
    (files.place id ≠ files.place other → ∀ call : Call, call.table? = some id → ∀ m : Memory,
      files.Untouched other m (Action.after (call.run files) m)) ∧
    ∀ name, IsLexed name → Text.lowerCase name ≠ Text.lowerCase other.database → ∀ m : Memory,
      files.Untouched other m (Action.after (files.dropDatabase name) m) := by
  refine ⟨?places, fun hne call htable m => ?calls, fun name hname hne m => untouched_dropDatabase hother hname hne m⟩
  case places =>
    exact place_eq_iff hid.database.isWord hid.name.isWord hother.database.isWord hother.name.isWord
  case calls => exact untouched_of_sameBut (sameBut_call htable m) hne.symm

/-- Two databases of which one is named as the other starts. What happens to a table of the first, be it that the
database is dropped under another spelling, leaves a table of the same name in the second. -/
theorem tables_apart_sameStart :
    let files : Catalog := ⟨⟨"Databases"⟩, "tbl"⟩
    let id : TableId := ⟨"Lab", "Levels"⟩
    let other : TableId := ⟨"labs", "levels"⟩
    let m : Memory := ⟨[(["Databases", "lab", "levels.tbl"], ["n int", "1"]),
      (["Databases", "labs", "levels.tbl"], ["n int", "2"])], [["Databases", "lab"], ["Databases", "labs"]]⟩
    files.place id = files.place ⟨"LAB", "LEVELS"⟩ ∧ files.place id ≠ files.place other ∧
      (∃ m', files.dropTable id m = .ok true m' ∧ files.lines? id m' = none ∧
        files.lines? other m' = some ["n int", "2"]) ∧
      ∃ m', files.dropDatabase "LAB" m = .ok true m' ∧ files.tableExists id m' = false ∧
        files.tableExists other m' = true ∧ files.hasDirectory other m' = true := by
  intro files id other m
  have hlex : ∀ name ∈ ["Lab", "Levels", "labs", "levels", "LAB", "LEVELS"], lex name = [.ok (.name name)] := by
    decide +kernel
  have hlexed (name : String) (h : name ∈ ["Lab", "Levels", "labs", "levels", "LAB", "LEVELS"]) : IsLexed name :=
    ⟨name, by rw [hlex name h]; exact List.mem_singleton_self _⟩
  have hid : id.Lexed := ⟨hlexed _ (by decide), hlexed _ (by decide)⟩
  have hother : other.Lexed := ⟨hlexed _ (by decide), hlexed _ (by decide)⟩
  have hspelled : TableId.Lexed ⟨"LAB", "LEVELS"⟩ := ⟨hlexed _ (by decide), hlexed _ (by decide)⟩
  have hlower : Text.lowerCase "Lab" = Text.lowerCase "LAB" ∧ Text.lowerCase "Levels" = Text.lowerCase "LEVELS" ∧
      Text.lowerCase "Lab" ≠ Text.lowerCase "labs" ∧ Text.lowerCase "LAB" ≠ Text.lowerCase "labs" := by
    decide +kernel
  have hstore : (files.lines? id m).isSome = true ∧ m.directories.contains (files.databasePath "LAB").place = true ∧
      files.lines? other m = some ["n int", "2"] ∧ files.tableExists other m = true ∧
      files.hasDirectory other m = true ∧ (m.erase (files.place id)).lines? (files.place id) = none ∧
      files.tableExists id (m.removeDirectory (files.databasePath "LAB").place) = false := by
    decide +kernel
  obtain ⟨hdatabase, hname, hne, hne'⟩ := hlower
  obtain ⟨hthere, hin, hlines, hexists, hdirectory, herased, hremoved⟩ := hstore
  obtain ⟨hplace, hcalls, hdrop⟩ := tables_apart files hid hother
  have hapart : files.place id ≠ files.place other := fun h => hne (hplace.1 h).1
  have htable : files.dropTable id m = .ok true (m.erase (files.place id)) := by
    rw [dropTable_apply, if_pos hthere]
  have hbase : files.dropDatabase "LAB" m = .ok true (m.removeDirectory (files.databasePath "LAB").place) := by
    rw [dropDatabase_apply, if_pos hin]
  have hkept := hcalls hapart (.dropTable id) rfl m
  rw [Call.run, Action.after_bind_pure, Action.after_ok htable] at hkept
  have hkept' := hdrop "LAB" hspelled.database hne' m
  rw [Action.after_ok hbase] at hkept'
  exact ⟨(tables_apart files hid hspelled).1.2 ⟨hdatabase, hname⟩, hapart,
    ⟨_, htable, herased, hkept.lines.trans hlines⟩, _, hbase, hremoved, hkept'.file.trans hexists,
    hkept'.directory.trans hdirectory⟩

end Catalog

end TextTables
