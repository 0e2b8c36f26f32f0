import TextTables.Proofs.Store.Lawful
import TextTables.Proofs.Store.Memory
import TextTables.Store.Disk
/-!
# What the store on disk keeps of its files

Where a path leads after the bytes of a file were replaced (`Disk.spot_put`), and from it the laws of
reading and writing: on disk, a file cannot be read if its bytes are not UTF-8, and neither read nor
written if its path leads nowhere.
-/

namespace TextTables

/-! ## Lines of a text -/

/-- The first line that is read starts as the text does, if it has a character at all. -/
theorem Text.firstChar?_stringLines {text : String} {c : Char}
    (h : firstChar? (Text.stringLines text) = some c) :
    text.toList.head? = some c ∧ c ≠ '\n' := by
  obtain ⟨cs, rfl⟩ : ∃ cs, text = String.ofList cs := ⟨text.toList, String.ofList_toList.symm⟩
  simp only [firstChar?, Text.stringLines, Text.lines, String.toList_ofList, List.head?_map] at h ⊢
  cases cs with
  | nil => cases h
  | cons a cs =>
    obtain ⟨piece, pieces, hpieces⟩ := List.exists_cons_of_ne_nil (List.splitOn_ne_nil '\n' cs)
    rw [List.splitOn_cons_eq_if_modifyHead, hpieces] at h
    by_cases ha : a = '\n'
    · -- A text that starts with a line feed has an empty first line.
      subst ha
      cases h
    · have hline : ∃ line, (Text.linesOfPieces ((a :: piece) :: pieces)).head? = some line ∧
          (line = [] ∨ line.head? = some a) := by
        cases pieces with
        | nil => exact ⟨_, rfl, .inr rfl⟩
        | cons next pieces =>
          refine ⟨Text.dropReturn (a :: piece), rfl, ?_⟩
          unfold Text.dropReturn
          split
          · cases piece <;> simp
          · exact .inr rfl
      obtain ⟨line, hhead, hline⟩ := hline
      have ha' : (a == '\n') = false := by simpa using ha
      simp only [ha', Bool.false_eq_true, if_false, List.modifyHead_cons, hhead, Option.map_some,
        Option.bind_some, String.toList_ofList] at h
      rcases hline with rfl | hline
      · cases h
      · rw [hline] at h
        cases h
        exact ⟨rfl, ha⟩

theorem Text.firstChar?_of_unlines {ls : List String} {c : Char}
    (h : (Text.unlines ls).toList.head? = some c) (hc : c ≠ '\n') : firstChar? ls = some c := by
  cases ls with
  | nil => cases h
  | cons first rest =>
    have htext : (Text.unlines (first :: rest)).toList =
        first.toList ++ '\n' :: (Text.unlines rest).toList := by
      simp [Text.unlines, String.join_cons]
    rw [htext] at h
    cases hfirst : first.toList with
    | nil =>
      rw [hfirst] at h
      exact absurd (Option.some.inj h).symm hc
    | cons a as =>
      rw [hfirst] at h
      simpa [firstChar?, hfirst] using h

namespace Spot

variable {spot : Spot} {place p : Place} {bytes b : ByteArray}

/-- What stands at the end of a path once there are other bytes at a place. -/
def overwrite (place : Place) (bytes : ByteArray) : Spot → Spot
  | .file p b => .file p (if p = place then bytes else b)
  | .vacant p => if p = place then .file p bytes else .vacant p
  | spot => spot

theorem of_overwrite_directory (h : spot.overwrite place bytes = .directory p) :
    spot = .directory p := by
  cases spot with
  | vacant p' => rw [overwrite] at h; split at h <;> cases h
  | _ => cases h <;> rfl

theorem of_overwrite_vacant (h : spot.overwrite place bytes = .vacant p) : spot = .vacant p := by
  cases spot with
  | vacant p' =>
    rw [overwrite] at h
    split at h
    · cases h
    · exact h
  | _ => cases h

theorem of_overwrite_file (h : spot.overwrite place bytes = .file p b) : spot = .file p b ∨
    p = place ∧ b = bytes ∧ ((∃ b', spot = .file p b') ∨ spot = .vacant p) := by
  cases spot with
  | file p' b' =>
    obtain ⟨rfl, hb⟩ := Spot.file.inj h
    split at hb
    · next hp => exact .inr ⟨hp, hb.symm, .inl ⟨b', rfl⟩⟩
    · exact .inl (by rw [hb])
  | vacant p' =>
    rw [overwrite] at h
    split at h
    · next hp =>
      obtain ⟨rfl, rfl⟩ := Spot.file.inj h
      exact .inr ⟨hp, rfl, .inr rfl⟩
    · cases h
  | _ => cases h

end Spot

namespace Disk

variable {d d' : Disk} {place p : Place} {bytes b : ByteArray} {path : Path} {ls : List String}

/-! ## Paths after a file was written -/

theorem bytes?_put : (d.put place bytes).bytes? p = if p = place then some bytes else d.bytes? p := by
  by_cases h : p = place
  · subst h
    simp [put, bytes?]
  · have hp : (p == place) = false := by simpa using h
    simp only [put, bytes?, List.lookup_cons, hp, if_neg h]
    exact Memory.lookup_filter_of_pos (· != place) (by simpa using h) d.files

/-- A way leads where it led, but for one that led through the place. -/
theorem walk_put (steps : List String) (here : Place) :
    (d.put place bytes).walk here steps = (d.walk here steps).overwrite place bytes ∨
      (d.put place bytes).walk here steps = .blocked ∧ d.walk here steps = .missing := by
  induction steps generalizing here with
  | nil => exact .inl rfl
  | cons step rest ih =>
    have hdirectories : (d.put place bytes).directories = d.directories := rfl
    simp only [walk, hdirectories, bytes?_put]
    by_cases hself : step = "."
    · simpa only [if_pos hself] using ih here
    by_cases habove : step = ".."
    · simpa only [if_neg hself, if_pos habove] using ih (up here)
    by_cases hroot : step = "/"
    · simpa only [if_neg hself, if_neg habove, if_pos hroot] using ih ["/"]
    by_cases hname : (!nameable step) = true
    · exact .inl (by simp only [if_neg hself, if_neg habove, if_neg hroot, if_pos hname]; rfl)
    simp only [if_neg hself, if_neg habove, if_neg hroot, if_neg hname]
    by_cases hdirectory : d.directories.contains (here ++ [step]) = true
    · simpa only [if_pos hdirectory] using ih (here ++ [step])
    simp only [if_neg hdirectory]
    by_cases hplace : here ++ [step] = place
    · -- The way leads to the place, or through it if there are steps left.
      simp only [if_pos hplace]
      cases hbytes : d.bytes? (here ++ [step]) <;> cases rest <;>
        simp [Spot.overwrite, hplace]
    · simp only [if_neg hplace]
      cases hbytes : d.bytes? (here ++ [step]) <;> cases rest <;>
        simp [Spot.overwrite, hplace]

/-- A path leads where it led, but for one through the place and one that wants a directory there. -/
theorem spot_put (d : Disk) (place : Place) (bytes : ByteArray) (path : Path) :
    (d.put place bytes).spot path = (d.spot path).overwrite place bytes ∨
      (d.put place bytes).spot path = .blocked ∧
        (d.spot path = .missing ∨ path.wantsDirectory = true ∧ ∃ p, d.spot path = .vacant p) := by
  unfold spot
  by_cases hempty : path.text.isEmpty = true
  · simp only [if_pos hempty]
    exact .inl rfl
  by_cases hwalkable : (!walkable path) = true
  · simp only [if_neg hempty, if_pos hwalkable]
    exact .inl rfl
  simp only [if_neg hempty, if_neg hwalkable]
  rcases walk_put path.place [] with h | ⟨h, hmissing⟩
  · rw [h]
    cases hwalk : d.walk [] path.place with
    | file p b => cases hwants : path.wantsDirectory <;> simp [Spot.overwrite]
    | vacant p =>
      by_cases hp : p = place <;> cases hwants : path.wantsDirectory <;> simp [Spot.overwrite, hp]
    | directory p => exact .inl rfl
    | missing => exact .inl rfl
    | blocked => exact .inl rfl
  · rw [h, hmissing]
    exact .inr ⟨rfl, .inl rfl⟩

/-- What stands at the end of a path that can be walked is what stood there, other bytes at the place
aside. -/
theorem overwrite_of_put {spot : Spot} (h : (d.put place bytes).spot path = spot)
    (hspot : spot ≠ .blocked) : (d.spot path).overwrite place bytes = spot := by
  rcases spot_put d place bytes path with hput | ⟨hput, -⟩
  · exact hput.symm.trans h
  · exact absurd (h.symm.trans hput) hspot

theorem directoryExists_iff : d.directoryExists path = true ↔ ∃ p, d.spot path = .directory p := by
  unfold directoryExists
  cases d.spot path <;> simp

theorem wantsDirectory_of_spot_file (h : d.spot path = .file p b) : path.wantsDirectory = false := by
  unfold spot at h
  split at h
  · cases h
  split at h
  · cases h
  cases hwalk : d.walk [] path.place with
  | file p' b' =>
    cases hwants : path.wantsDirectory with
    | false => rfl
    | true =>
      simp only [hwalk, hwants, if_true] at h
      cases h
  | _ => rw [hwalk] at h; cases h

/-! ## Reading and writing -/

theorem read?_eq_ok : Storage.read? path d = .ok (some ls) ↔
    ∃ p bytes text, d.spot path = .file p bytes ∧ String.fromUTF8? bytes = some text ∧
      Text.stringLines text = ls := by
  change (do return (← d.readText? path).map Text.stringLines) = _ ↔ _
  unfold readText?
  cases d.spot path with
  | file p bytes => cases h : String.fromUTF8? bytes <;> simp [bind, Except.bind, pure, Except.pure, h]
  | _ => simp [bind, Except.bind, pure, Except.pure]

/-- The place that a write to a path puts bytes at, if it succeeds. -/
def target? (path : Path) (d : Disk) : Option Place :=
  if !path.parent.text.isEmpty && !d.directoryExists path.parent then none
  else match d.spot path with
    | .file p _ => some p
    | .vacant p => if path.wantsDirectory then none else some p
    | .directory _ | .missing | .blocked => none

theorem write_apply (path : Path) (ls : List String) (d : Disk) : (∃ p, d.target? path = some p ∧
      Storage.write path ls d = .ok () (d.put p (bytesOf ls))) ∨
    d.target? path = none ∧ ∃ e, Storage.write path ls d = .error e d := by
  change (∃ p, _ ∧ write path ls d = _) ∨ _ ∧ ∃ e, write path ls d = _
  unfold write target?
  by_cases hparent : (!path.parent.text.isEmpty && !d.directoryExists path.parent) = true
  · simp only [if_pos hparent]
    exact .inr ⟨trivial, _, rfl⟩
  simp only [if_neg hparent]
  cases d.spot path with
  | vacant p => cases path.wantsDirectory <;> simp
  | _ => simp

theorem write_eq_ok : Storage.write path ls d = .ok () d' ↔
    ∃ p, d.target? path = some p ∧ d.put p (bytesOf ls) = d' := by
  rcases write_apply path ls d with ⟨p, hp, hw⟩ | ⟨hp, e, hw⟩ <;>
    simp [hw, hp]

theorem target?_eq_some : d.target? path = some p ↔
    (path.parent.text.isEmpty = false → d.directoryExists path.parent = true) ∧
      ((∃ b, d.spot path = .file p b) ∨ d.spot path = .vacant p ∧ path.wantsDirectory = false) := by
  have hguard : (!path.parent.text.isEmpty && !d.directoryExists path.parent) = false ↔
      (path.parent.text.isEmpty = false → d.directoryExists path.parent = true) := by
    cases path.parent.text.isEmpty <;> cases d.directoryExists path.parent <;> simp
  unfold target?
  rw [← hguard]
  cases !path.parent.text.isEmpty && !d.directoryExists path.parent with
  | true => simp
  | false =>
    cases d.spot path with
    | vacant p' => cases path.wantsDirectory <;> simp
    | _ => simp

/-- A file stands where it was written. -/
theorem spot_put_target (h : d.target? path = some p) :
    (d.put p bytes).spot path = .file p bytes := by
  rcases spot_put d p bytes path with hspot | ⟨-, hspot⟩ <;>
    rcases (target?_eq_some.1 h).2 with ⟨b, hbefore⟩ | ⟨hbefore, hwants⟩ <;>
    simp_all [Spot.overwrite]

/-- What can be written after a file was written could be written before, to the same place. -/
theorem target?_of_put (h : (d.put place bytes).target? path = some p) : d.target? path = some p := by
  obtain ⟨hparent, hspot⟩ := target?_eq_some.1 h
  refine target?_eq_some.2 ⟨fun hne => ?_, ?_⟩
  · obtain ⟨p', hp'⟩ := directoryExists_iff.1 (hparent hne)
    exact directoryExists_iff.2 ⟨p', Spot.of_overwrite_directory (overwrite_of_put hp' nofun)⟩
  · rcases hspot with ⟨b, hfile⟩ | ⟨hvacant, hwants⟩
    · rcases Spot.of_overwrite_file (overwrite_of_put hfile nofun) with
        hbefore | ⟨-, -, hbefore | hbefore⟩
      · exact .inl ⟨b, hbefore⟩
      · exact .inl hbefore
      · exact .inr ⟨hbefore, wantsDirectory_of_spot_file hfile⟩
    · exact .inr ⟨Spot.of_overwrite_vacant (overwrite_of_put hvacant nofun), hwants⟩

instance : Storage.Lawful Disk where
  exists_of_read {path d ls} h := by
    obtain ⟨p, bytes, text, hspot, -⟩ := read?_eq_ok.1 h
    change d.fileExists path = true
    rw [fileExists, hspot]
  write_error {path d d' ls e} h := by
    rcases write_apply path ls d with ⟨p, -, hw⟩ | ⟨-, e', hw⟩
    · rw [hw] at h
      cases h
    · rw [hw] at h
      cases h
      rfl
  read_written {path d d' ls ls' c} hwrite hread hfirst := by
    obtain ⟨p, hp, rfl⟩ := write_eq_ok.1 hwrite
    obtain ⟨p', bytes, text, hspot, htext, rfl⟩ := read?_eq_ok.1 hread
    rw [spot_put_target hp] at hspot
    cases hspot
    -- The bytes of a text are read as that text.
    have hsame : String.fromUTF8? (bytesOf ls) = some (Text.unlines ls) :=
      dif_pos (Text.unlines ls).isValidUTF8
    rw [hsame] at htext
    cases htext
    obtain ⟨hhead, hc⟩ := Text.firstChar?_stringLines hfirst
    exact Text.firstChar?_of_unlines hhead hc
  read_other {path other d d' ls ls'} hwrite hread := by
    obtain ⟨p, hp, rfl⟩ := write_eq_ok.1 hwrite
    obtain ⟨p', bytes, text, hspot, htext, hlines⟩ := read?_eq_ok.1 hread
    rcases Spot.of_overwrite_file (overwrite_of_put hspot nofun) with hspot | ⟨rfl, rfl, -⟩
    · exact .inl (read?_eq_ok.2 ⟨p', bytes, text, hspot, htext, hlines⟩)
    · exact .inr (read?_eq_ok.2 ⟨_, _, text, spot_put_target hp, htext, hlines⟩)
  write_other {path other d d' d'' ls ls'} hwrite hother := by
    obtain ⟨p, -, rfl⟩ := write_eq_ok.1 hwrite
    obtain ⟨p', hp', -⟩ := write_eq_ok.1 hother
    exact ⟨_, write_eq_ok.2 ⟨p', target?_of_put hp', rfl⟩⟩

end Disk

end TextTables
