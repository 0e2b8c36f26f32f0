import TextTables.Proofs.Store.Disk
import TextTables.Proofs.Store.Operation
import TextTables.Proofs.Text.Lines
/-!
# The text of a file on disk

In memory a file is a list of lines, on disk it is the text in which every line is followed by a line feed.
`Disk.Mirrors` says that a file is both, and whatever is done to the file in both stores has the same outcome
and keeps it so (`Disk.Mirrors.run`), as long as the lines are such that the text has them again.
-/

namespace TextTables

/-- An operation that makes a file at a path, replaces its lines or puts a line at the end, with lines that a
text has again. -/
inductive Operation.Edits (path : Path) : Operation → Prop
  | createFile : Edits path (.createFile path)
  | write {lines : List String} : (∀ line ∈ lines, Text.Whole line) → Edits path (.write path lines)
  | append {line : String} : Text.Whole line → Edits path (.append path line)

namespace Disk

variable {d : Disk} {m : Memory} {path : Path} {p : Place} {bytes : ByteArray} {lines : List String}

/-! ## Bytes -/

theorem fromUTF8?_bytesOf (lines : List String) : String.fromUTF8? (bytesOf lines) = some (Text.unlines lines) :=
  dif_pos (Text.unlines lines).isValidUTF8

theorem eq_toUTF8_of_fromUTF8? {text : String} (h : String.fromUTF8? bytes = some text) : bytes = text.toUTF8 := by
  unfold String.fromUTF8? at h
  split at h
  · cases h
    rfl
  · cases h

theorem bytesOf_append (lines lines' : List String) : bytesOf (lines ++ lines') = bytesOf lines ++ bytesOf lines' := by
  rw [bytesOf, Text.unlines_append]
  exact String.toByteArray_append

/-! ## Files that can be written -/

/-- A file can be written where it was written before. -/
theorem target?_put (h : d.target? path = some p) : (d.put p bytes).target? path = some p := by
  refine target?_eq_some.2 ⟨fun hparent => ?_, .inl ⟨bytes, spot_put_target h⟩⟩
  obtain ⟨q, hq⟩ := directoryExists_iff.1 ((target?_eq_some.1 h).1 hparent)
  refine directoryExists_iff.2 ⟨q, ?_⟩
  rcases spot_put d p bytes path.parent with hput | ⟨-, hmissing | ⟨-, q', hvacant⟩⟩
  · rw [hput, hq]
    rfl
  · cases hq.symm.trans hmissing
  · cases hq.symm.trans hvacant

theorem readText?_of_spot (h : d.spot path = .file p (bytesOf lines)) :
    d.readText? path = .ok (some (Text.unlines lines)) := by
  rw [readText?, h]
  simp only [fromUTF8?_bytesOf]

/-- A path at which a file can be written on disk and in memory, and where the file, if there is one, is on disk
the text of the lines that it has in memory. -/
structure Mirrors (d : Disk) (path : Path) (m : Memory) : Prop where
  target : (d.target? path).isSome = true
  parent : m.hasParent path = true
  text : d.readText? path = .ok ((m.lines? path.place).map Text.unlines)
  whole : ∀ lines, m.lines? path.place = some lines → ∀ line ∈ lines, Text.Whole line

namespace Mirrors

/-- So it is where there is no file yet. -/
theorem of_vacant (htarget : (d.target? path).isSome = true) (hdisk : d.fileExists path = false)
    (hparent : m.hasParent path = true) (hmemory : m.lines? path.place = none) : d.Mirrors path m := by
  refine ⟨htarget, hparent, ?_, fun lines hl => ?_⟩
  · obtain ⟨p, hp⟩ := Option.isSome_iff_exists.1 htarget
    rw [hmemory, readText?]
    rcases (target?_eq_some.1 hp).2 with ⟨bytes, hspot⟩ | ⟨hspot, -⟩
    · rw [fileExists, hspot] at hdisk
      cases hdisk
    · rw [hspot]
      rfl
  · cases hmemory.symm.trans hl

theorem put (h : d.Mirrors path m) (hp : d.target? path = some p) (hlines : ∀ line ∈ lines, Text.Whole line) :
    (d.put p (bytesOf lines)).Mirrors path (m.put path.place lines) := by
  refine ⟨by rw [target?_put hp]; rfl, h.parent, ?_, fun lines' hl => ?_⟩
  · rw [Memory.lines?_put_self]
    exact readText?_of_spot (spot_put_target hp)
  · cases Memory.lines?_put_self.symm.trans hl
    exact hlines

/-- On disk there is the text of the lines in memory, or there is no file in either. -/
theorem cases (h : d.Mirrors path m) : ∃ p, d.target? path = some p ∧
    ((∃ lines, m.lines? path.place = some lines ∧ d.spot path = .file p (bytesOf lines)) ∨
      m.lines? path.place = none ∧ d.spot path = .vacant p ∧ path.wantsDirectory = false) := by
  obtain ⟨p, hp⟩ := Option.isSome_iff_exists.1 h.target
  refine ⟨p, hp, ?_⟩
  have htext := h.text
  rcases (target?_eq_some.1 hp).2 with ⟨bytes, hspot⟩ | ⟨hspot, hwants⟩ <;> rw [readText?, hspot] at htext
  · cases hbytes : String.fromUTF8? bytes with
    | none => simp [hbytes] at htext
    | some text =>
      simp only [hbytes] at htext
      obtain ⟨lines, hlines, htext⟩ := Option.map_eq_some_iff.1 (Except.ok.inj htext).symm
      rw [eq_toUTF8_of_fromUTF8? hbytes, ← htext] at hspot
      exact .inl ⟨lines, hlines, hspot⟩
  · exact .inr ⟨Option.map_eq_none_iff.1 (Except.ok.inj htext).symm, hspot, hwants⟩

/-- An edit has the same outcome on disk and in memory, and afterwards the file is the same again. -/
theorem run (h : d.Mirrors path m) {operation : Operation} (hedit : operation.Edits path) :
    (∃ answer d' m', operation.run d = .ok answer d' ∧ operation.run m = .ok answer m' ∧ d'.Mirrors path m') ∨
      ∃ e, operation.run d = .error e d ∧ operation.run m = .error e m := by
  obtain ⟨p, hp, hfile⟩ := h.cases
  cases hedit with
  | createFile =>
    have hdisk : (Storage.createFile path : Action Disk Bool) d = createFile path d := rfl
    simp only [Operation.run, Action.bind_apply, Catalog.createFile_apply, if_pos h.parent, hdisk, createFile]
    rcases hfile with ⟨lines, hlines, hspot⟩ | ⟨hlines, hspot, hwants⟩
    · simp only [hlines, hspot, Option.isSome_some, if_true]
      exact .inl ⟨_, _, _, rfl, rfl, h⟩
    · simp only [hlines, hspot, hwants, Option.isSome_none, Bool.false_eq_true, if_false]
      have hput : (d.put p (bytesOf [])).Mirrors path (m.put path.place []) := h.put hp (List.forall_mem_nil _)
      exact .inl ⟨_, _, _, rfl, rfl, hput⟩
  | @write lines hlines =>
    obtain ⟨p', hp', hdisk⟩ : ∃ p', d.target? path = some p' ∧
        Storage.write path lines d = .ok () (d.put p' (bytesOf lines)) := by
      rcases write_apply path lines d with hwritten | ⟨hnone, -⟩
      · exact hwritten
      · cases hp.symm.trans hnone
    simp only [Operation.run, Action.bind_apply, Catalog.write_apply, if_pos h.parent, hdisk]
    exact .inl ⟨_, _, _, rfl, rfl, h.put hp' hlines⟩
  | @append line hline =>
    have hdisk : (Storage.append path line : Action Disk Unit) d = append path line d := rfl
    have hmemory : (Storage.append path line : Action Memory Unit) m = Memory.append path line m := rfl
    simp only [Operation.run, Action.bind_apply, hdisk, hmemory, append, Memory.append]
    rcases hfile with ⟨lines, hlines, hspot⟩ | ⟨hlines, hspot, -⟩
    · simp only [hlines, hspot, ← bytesOf_append]
      refine .inl ⟨_, _, _, rfl, rfl, h.put hp ?_⟩
      exact List.forall_mem_append.2 ⟨h.whole lines hlines, List.forall_mem_singleton.2 hline⟩
    · simp only [hlines, hspot]
      exact .inr ⟨_, rfl, rfl⟩

theorem after (h : d.Mirrors path m) {operations : List Operation}
    (hedits : ∀ operation ∈ operations, operation.Edits path) :
    (Operation.after operations d).Mirrors path (Operation.after operations m) := by
  induction operations generalizing d m with
  | nil => exact h
  | cons operation operations ih =>
    obtain ⟨hedit, hedits⟩ := List.forall_mem_cons.1 hedits
    rw [Operation.after_cons, Operation.after_cons]
    refine ih ?_ hedits
    rcases h.run hedit with ⟨answer, d', m', hd, hm, h'⟩ | ⟨e, hd, hm⟩
    · rwa [Action.after_ok hd, Action.after_ok hm]
    · rwa [Action.after_error hd, Action.after_error hm]

/-- What is read on disk are the lines in memory. -/
theorem read? (h : d.Mirrors path m) : Storage.read? path d = Storage.read? path m := by
  have hdisk : Storage.read? path d = (do return (← d.readText? path).map Text.stringLines) := rfl
  have hmemory : Storage.read? path m = .ok (m.lines? path.place) := rfl
  rw [hdisk, hmemory, h.text]
  cases hlines : m.lines? path.place with
  | none => rfl
  | some lines =>
    have hsame := Text.stringLines_unlines (h.whole lines hlines)
    simp [bind, Except.bind, pure, Except.pure, hsame]

end Mirrors

end Disk

end TextTables
