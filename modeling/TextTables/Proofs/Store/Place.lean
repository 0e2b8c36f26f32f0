import TextTables.Proofs.Store.Catalog
import TextTables.Proofs.Text.Case
import TextTables.Proofs.Text.Words
/-!
# The places of tables

A name that is joined to a path adds its steps to the place. Names of databases and tables are words,
so each is one step, and two tables with names in lower case have the same file only if they are the
same.
-/

namespace TextTables

/-! ## Steps -/

/-- The steps between slashes. -/
def steps (cs : List Char) : List (List Char) := (cs.splitOn '/').filter isStep

theorem steps_append (as bs : List Char) : steps (as ++ '/' :: bs) = steps as ++ steps bs := by
  rw [steps, List.splitOn_append_cons_self, List.filter_append]
  rfl

theorem steps_append_slash (as : List Char) : steps (as ++ ['/']) = steps as := by
  rw [steps_append]
  exact List.append_nil _

theorem Path.place_eq (path : Path) : path.place =
    ((if path.split.1.isEmpty then [] else [path.split.1]) ++ steps path.split.2).map String.ofList := rfl

/-- A path that goes on has the same first step, unless it is a dot that goes on without a slash. -/
theorem Path.split_append {as bs : List Char} (has : as ≠ []) (hdot : as = ['.'] → bs.head? = some '/') :
    Path.split ⟨String.ofList (as ++ bs)⟩ =
      ((Path.split ⟨String.ofList as⟩).1, (Path.split ⟨String.ofList as⟩).2 ++ bs) := by
  simp only [Path.split, String.toList_ofList]
  obtain ⟨a, as, rfl⟩ := List.exists_cons_of_ne_nil has
  by_cases hslash : a = '/'
  · subst hslash
    rfl
  by_cases hpoint : a = '.'
  · subst hpoint
    cases as with
    | nil =>
      obtain ⟨tail, rfl⟩ := List.head?_eq_some_iff.1 (hdot rfl)
      rfl
    | cons b as =>
      by_cases hb : b = '/'
      · subst hb
        rfl
      · simp [hb]
  · simp [hslash, hpoint]

theorem Path.append_split (path : Path) : path.split.1 ++ path.split.2 = path.text.toList := by
  unfold Path.split
  split <;> simp_all

/-- Behind a slash, or at the start, steps begin anew. -/
theorem steps_append_of_slash {front : List Char} (h : ∀ last ∈ front.getLast?, last = '/') (back : List Char) :
    steps (front ++ back) = steps front ++ steps back := by
  cases hlast : front.getLast? with
  | none => rw [List.getLast?_eq_none_iff.1 hlast]; rfl
  | some last =>
    obtain rfl := h last hlast
    obtain ⟨front, rfl⟩ := List.getLast?_eq_some_iff.1 hlast
    rw [steps_append_slash, List.append_assoc]
    exact steps_append front back

/-- A name joined to a path adds its steps to the place. -/
theorem Path.place_join (path : Path) {name : String} {c : Char} {rest : List Char}
    (hname : name.toList = c :: rest) (hslash : c ≠ '/') (hpoint : c ≠ '.') :
    (path.join name).place = path.place ++ (steps name.toList).map String.ofList := by
  obtain ⟨text⟩ := path
  obtain ⟨cs, rfl⟩ : ∃ cs, text = String.ofList cs := ⟨text.toList, String.ofList_toList.symm⟩
  have hhead : name.toList.head? ≠ some '/' := by simp [hname, hslash]
  rw [Path.join, if_neg hhead]
  rcases eq_or_ne cs [] with rfl | hne
  · -- An empty path is the name alone.
    rw [if_pos (.inl rfl)]
    have hsplit : Path.split ⟨String.ofList [] ++ name⟩ = ([], name.toList) := by
      simp [Path.split, hname, hslash, hpoint]
    have hempty : Path.split ⟨String.ofList []⟩ = ([], []) := rfl
    rw [place_eq, place_eq, hsplit, hempty]
    rfl
  have htext : ¬ (String.ofList cs).isEmpty = true := by simpa using hne
  by_cases hlast : cs.getLast? = some '/'
  · -- The path ends with a slash already.
    rw [if_pos (.inr (by simpa using hlast))]
    have hjoin : (String.ofList cs ++ name) = String.ofList (cs ++ name.toList) := by
      apply String.toList_injective
      simp
    have hdot : cs = ['.'] → name.toList.head? = some '/' := by
      rintro rfl
      simp at hlast
    rw [hjoin, place_eq, place_eq, Path.split_append hne hdot]
    have hwhole := Path.append_split ⟨String.ofList cs⟩
    generalize Path.split ⟨String.ofList cs⟩ = split at hwhole
    obtain ⟨lead, body⟩ := split
    dsimp only at hwhole ⊢
    have hbody : ∀ last ∈ body.getLast?, last = '/' := by
      intro last hb
      rw [String.toList_ofList] at hwhole
      rw [← hwhole, List.getLast?_append, hb] at hlast
      exact Option.some.inj hlast
    rw [steps_append_of_slash hbody, ← List.append_assoc, List.map_append]
  · -- A slash is put between.
    rw [if_neg (by simpa [hne] using hlast)]
    have hjoin : (String.ofList cs ++ "/" ++ name) = String.ofList (cs ++ '/' :: name.toList) := by
      apply String.toList_injective
      simp
    rw [hjoin, place_eq, place_eq, Path.split_append hne fun _ => rfl]
    dsimp only
    rw [steps_append, ← List.append_assoc, List.map_append]

/-! ## Names -/

/-- A text that is one step of a path and has no point in it. -/
structure IsStepName (cs : List Char) : Prop where
  ne_nil : cs ≠ []
  slash : '/' ∉ cs
  point : '.' ∉ cs

namespace IsStepName

variable {cs : List Char}

theorem steps_eq (h : IsStepName cs) : steps cs = [cs] := by
  have hstep : isStep cs = true := by
    simp only [isStep, decide_eq_true_eq]
    refine ⟨h.ne_nil, fun hpoint => h.point ?_⟩
    rw [hpoint]
    exact List.mem_singleton_self _
  rw [steps, List.splitOn_eq_singleton h.slash]
  simp [hstep]

/-- A word in lower case is one step. -/
theorem lower (h : isWord cs = true) : IsStepName (Text.lower cs) := by
  obtain ⟨hne, hchars⟩ := Text.isWord_iff.1 h
  refine ⟨Text.lower_ne_nil hne, fun hslash => ?_, fun hpoint => ?_⟩
  · exact absurd (hchars '/' (Text.mem_of_mem_lowerAfter (by decide) (by decide) hslash)) (by decide)
  · exact absurd (hchars '.' (Text.mem_of_mem_lowerAfter (by decide) (by decide) hpoint)) (by decide)

end IsStepName

theorem isStepName_lowerCase {name : String} (h : isWord name.toList = true) :
    IsStepName (Text.lowerCase name).toList := by
  rw [Text.lowerCase, String.toList_ofList]
  exact .lower h

/-- A name that is a word in lower case. -/
structure PlainName (name : String) : Prop where
  word : isWord name.toList = true
  lower : Text.lowerCase name = name

/-- The directory of a database is one step below the root. -/
theorem Catalog.place_databasePath_of_isWord (files : Catalog) {name : String} (h : isWord name.toList = true) :
    (files.databasePath name).place = files.root.place ++ [Text.lowerCase name] := by
  have hname := isStepName_lowerCase h
  obtain ⟨c, tail, hcons⟩ := List.exists_cons_of_ne_nil hname.ne_nil
  have hc : c ∈ (Text.lowerCase name).toList := by simp [hcons]
  rw [databasePath, Path.place_join _ hcons (ne_of_mem_of_not_mem hc hname.slash)
    (ne_of_mem_of_not_mem hc hname.point), hname.steps_eq]
  simp

/-- The file of a table is a step in its database's directory and, if the extension has slashes,
some steps below. -/
theorem Catalog.place_of_isWord (files : Catalog) : ∃ first rest, ∀ id : TableId,
    isWord id.database.toList = true → isWord id.name.toList = true →
      files.place id = files.root.place ++
        Text.lowerCase id.database :: (Text.lowerCase id.name ++ "." ++ first) :: rest := by
  -- The extension's own steps, if it has slashes, are the same for all tables.
  obtain ⟨e, es, hext⟩ :=
    List.exists_cons_of_ne_nil (List.splitOn_ne_nil '/' files.extension.toList)
  refine ⟨String.ofList e, (es.filter isStep).map String.ofList, fun id hd hn => ?_⟩
  have hname := isStepName_lowerCase hn
  rw [place, tablePath]
  generalize Text.lowerCase id.name = name at hname
  obtain ⟨c, tail, hcons⟩ := List.exists_cons_of_ne_nil hname.ne_nil
  have hc : c ∈ name.toList := by simp [hcons]
  have hfile : (name ++ "." ++ files.extension).toList = c :: (tail ++ '.' :: files.extension.toList) := by
    simp [hcons]
  have hslash : '/' ∉ name.toList ++ ['.'] := by
    simp only [List.mem_append, List.mem_singleton, not_or]
    exact ⟨hname.slash, by decide⟩
  have hstep : isStep (name.toList ++ ['.'] ++ e) = true := by
    simp [isStep, hcons]
  have hsteps : steps (name ++ "." ++ files.extension).toList =
      (name.toList ++ ['.'] ++ e) :: es.filter isStep := by
    have hsplit : (name ++ "." ++ files.extension).toList = name.toList ++ ['.'] ++ files.extension.toList := by
      simp
    rw [steps, hsplit, Text.splitOn_append hslash, hext, List.modifyHead_cons,
      List.filter_cons_of_pos hstep]
  have hstring : String.ofList (name.toList ++ ['.'] ++ e) = name ++ "." ++ String.ofList e := by
    apply String.toList_injective
    simp
  rw [Path.place_join _ hfile (ne_of_mem_of_not_mem hc hname.slash) (ne_of_mem_of_not_mem hc hname.point), hsteps,
    files.place_databasePath_of_isWord hd, List.map_cons, hstring]
  simp

/-- Two tables have one file exactly if their names are the same in lower case. -/
theorem Catalog.place_eq_iff {files : Catalog} {id id' : TableId} (hd : isWord id.database.toList = true)
    (hn : isWord id.name.toList = true) (hd' : isWord id'.database.toList = true)
    (hn' : isWord id'.name.toList = true) : files.place id = files.place id' ↔
      Text.lowerCase id.database = Text.lowerCase id'.database ∧
        Text.lowerCase id.name = Text.lowerCase id'.name := by
  obtain ⟨first, rest, hplace⟩ := files.place_of_isWord
  rw [hplace id hd hn, hplace id' hd' hn', List.append_cancel_left_eq, List.cons.injEq, List.cons.injEq,
    String.append_left_inj, String.append_left_inj]
  exact and_congr_right' (and_iff_left rfl)

/-- The tables whose files lie below the directory of a database are those of its name in any case. -/
theorem Catalog.within_databasePath_iff {files : Catalog} {id : TableId} {name : String}
    (hd : isWord id.database.toList = true) (hn : isWord id.name.toList = true) (hname : isWord name.toList = true) :
    (files.place id).within (files.databasePath name).place = true ↔
      Text.lowerCase id.database = Text.lowerCase name := by
  obtain ⟨first, rest, hplace⟩ := files.place_of_isWord
  rw [hplace id hd hn, files.place_databasePath_of_isWord hname, Place.within, List.isPrefixOf_iff_prefix,
    List.prefix_append_right_inj, List.cons_prefix_cons]
  simp [eq_comm]

theorem Catalog.place_within {files : Catalog} {id : TableId} {name : String}
    (hd : PlainName id.database) (hn : PlainName id.name) (hname : PlainName name) :
    (files.place id).within (files.databasePath name).place = true ↔ id.database = name := by
  rw [within_databasePath_iff hd.word hn.word hname.word, hd.lower, hname.lower]

/-- The directories of two databases are the same if their names are in lower case. -/
theorem Catalog.place_databasePath_inj {files : Catalog} {database name : String}
    (hd : isWord database.toList = true) (hname : isWord name.toList = true) :
    (files.databasePath database).place = (files.databasePath name).place ↔
      Text.lowerCase database = Text.lowerCase name := by
  rw [files.place_databasePath_of_isWord hd, files.place_databasePath_of_isWord hname, List.append_cancel_left_eq,
    List.singleton_inj]

/-- The directory that a file is in lies below the directory of its database, or is that directory. -/
theorem Catalog.parent_within {files : Catalog} {id : TableId} (hd : isWord id.database.toList = true)
    (hn : isWord id.name.toList = true) :
    (files.place id).parent.within (files.databasePath id.database).place = true := by
  obtain ⟨first, rest, hplace⟩ := files.place_of_isWord
  rw [hplace id hd hn, files.place_databasePath_of_isWord hd, Place.within, List.isPrefixOf_iff_prefix, Place.parent,
    List.dropLast_append_of_ne_nil (List.cons_ne_nil _ _), List.dropLast_cons_cons, List.prefix_append_right_inj,
    List.cons_prefix_cons]
  exact ⟨rfl, List.nil_prefix⟩

/-- Once the directory of a database is removed, no file below it can be written. -/
theorem Catalog.hasDirectory_removeDirectory {files : Catalog} {id : TableId} {name : String} {m : Memory}
    (hd : isWord id.database.toList = true) (hn : isWord id.name.toList = true) (hname : isWord name.toList = true)
    (h : (files.place id).within (files.databasePath name).place = true) :
    files.hasDirectory id (m.removeDirectory (files.databasePath name).place) = false := by
  have hparent := @parent_within files id hd hn
  rw [(place_databasePath_inj hd hname).2 ((within_databasePath_iff hd hn hname).1 h)] at hparent
  rw [← Bool.not_eq_true, hasDirectory_iff]
  rintro (hnil | hmem)
  · rw [hnil, files.place_databasePath_of_isWord hname, Place.within, List.isPrefixOf_iff_prefix,
      List.prefix_nil] at hparent
    simp at hparent
  · have hout := (List.mem_filter.1 hmem).2
    rw [hparent] at hout
    cases hout

/-- Tables with different names in lower case have different files. -/
theorem Catalog.place_injective {files : Catalog} {id id' : TableId}
    (hd : PlainName id.database) (hn : PlainName id.name) (hd' : PlainName id'.database)
    (hn' : PlainName id'.name) (h : files.place id = files.place id') : id = id' := by
  rw [place_eq_iff hd.word hn.word hd'.word hn'.word, hd.lower, hn.lower, hd'.lower, hn'.lower] at h
  cases id
  cases id'
  exact congrArg₂ TableId.mk h.1 h.2

end TextTables
