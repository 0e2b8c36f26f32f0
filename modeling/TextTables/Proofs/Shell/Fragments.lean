import TextTables.Proofs.Shell.Splitting
import TextTables.Proofs.Text.Words
/-!
# Statements of lines

Lines give statements by their fragments alone (`fragments`). A splitter cuts these into groups, each of
which ends at the first fragment that ends in a semicolon, and joins every group to a statement; the
fragments that it holds back are those of the last group, which has no end yet.
-/

namespace TextTables

variable {line : String} {lines rest : List String} {text : List Char} {held : List (List Char)}

/-! ## Fragments -/

theorem LineKind.ofLine_eq_fragment {line : List Char} : LineKind.ofLine line = .fragment text ↔
    isIdleLine line = false ∧ isExit text = false ∧ text ≠ [] ∧ Text.trim (cutComment false line) = text := by
  rw [ofLine]
  cases isIdleLine line with
  | true => simp
  | false =>
    generalize Text.trim (cutComment false line) = trimmed
    have hempty : trimmed.isEmpty = true ↔ trimmed = [] := List.isEmpty_iff
    grind

theorem LineKind.ofLine_eq_idle {line : List Char} : LineKind.ofLine line = .idle ↔
    isIdleLine line = true ∨ Text.trim (cutComment false line) = [] := by
  rw [ofLine]
  cases isIdleLine line with
  | true => simp
  | false =>
    generalize Text.trim (cutComment false line) = trimmed
    have hempty : trimmed.isEmpty = true ↔ trimmed = [] := List.isEmpty_iff
    have hexit : isExit [] = false := by decide
    grind

/-- What some lines hold of statements: every line that is neither blank nor starts as a comment, without
its comment and the blanks around it, unless nothing is left of it. -/
def fragments (lines : List String) : List (List Char) :=
  ((lines.filter fun line => !isIdleLine line.toList).map fun line =>
    Text.trim (cutComment false line.toList)).filter fun text => !text.isEmpty

theorem fragments_cons_of_fragment (h : LineKind.ofLine line.toList = .fragment text) (rest : List String) :
    fragments (line :: rest) = text :: fragments rest := by
  obtain ⟨hidle, -, hne, rfl⟩ := LineKind.ofLine_eq_fragment.1 h
  simp [fragments, hidle, hne]

theorem fragments_cons_of_idle (h : LineKind.ofLine line.toList = .idle) (rest : List String) :
    fragments (line :: rest) = fragments rest := by
  by_cases hidle : isIdleLine line.toList = true
  · simp [fragments, hidle]
  · have hempty := (LineKind.ofLine_eq_idle.1 h).resolve_left hidle
    simp [fragments, hidle, hempty]

/-! ## Groups -/

/-- Whether a fragment ends a statement. -/
def EndsStatement (fragment : List Char) : Prop := fragment.getLast? = some ';'

/-- Fragments cut into groups that end statements, each with its last fragment only, and a rest without an
end. -/
structure Grouped (fragments : List (List Char)) (groups : List (List (List Char))) (rest : List (List Char)) :
    Prop where
  cover : groups.flatten ++ rest = fragments
  ended : ∀ group ∈ groups, ∃ front last, group = front ++ [last] ∧ EndsStatement last ∧
    ∀ fragment ∈ front, ¬ EndsStatement fragment
  open_rest : ∀ fragment ∈ rest, ¬ EndsStatement fragment

theorem Grouped.cons {fragments : List (List Char)} {groups : List (List (List Char))} {rest : List (List Char)}
    (h : Grouped fragments groups rest) (hheld : ∀ fragment ∈ held, ¬ EndsStatement fragment)
    (hlast : EndsStatement text) :
    Grouped (held ++ text :: fragments) ((held ++ [text]) :: groups) rest where
  cover := by simp [← h.cover]
  ended := List.forall_mem_cons.2 ⟨⟨held, text, rfl, hlast, hheld⟩, h.ended⟩
  open_rest := h.open_rest

/-- The statement that a group makes: its fragments with single spaces between them. -/
def Command.ofGroup (group : List (List Char)) : Command :=
  .statement (String.ofList (List.intercalate [' '] group))

/-! ## Lines one by one -/

namespace Splitter

/-- The splitter that holds some fragments back. -/
def holding (held : List (List Char)) : Splitter := ⟨List.intercalate [' '] held⟩

theorem joined_holding (hheld : ∀ fragment ∈ held, fragment ≠ []) (text : List Char) :
    (holding held).joined text = List.intercalate [' '] (held ++ [text]) := by
  cases held with
  | nil => simp [joined, holding]
  | cons first rest =>
    obtain ⟨c, tail, rfl⟩ := List.exists_cons_of_ne_nil (hheld first List.mem_cons_self)
    rw [Text.intercalate_concat (List.cons_ne_nil _ _)]
    simp [joined, holding]

theorem getLast?_joined (s : Splitter) (h : text ≠ []) : (s.joined text).getLast? = text.getLast? := by
  obtain ⟨last, hlast⟩ := Option.ne_none_iff_exists'.1 (mt List.getLast?_eq_none_iff.1 h)
  rw [joined]
  split
  · rfl
  · rw [List.getLast?_append, List.getLast?_cons, hlast]
    rfl

/-- A fragment that ends a statement ends the group of those held back. -/
theorem push_holding_of_ends (hheld : ∀ fragment ∈ held, fragment ≠ [])
    (hline : LineKind.ofLine line.toList = .fragment text) (hlast : EndsStatement text) :
    (holding held).push line = (empty, some (.ofGroup (held ++ [text]))) := by
  obtain ⟨-, -, hne, -⟩ := LineKind.ofLine_eq_fragment.1 hline
  have hends : ((holding held).joined text).getLast? = some ';' := (getLast?_joined _ hne).trans hlast
  rw [push, hline]
  dsimp only
  rw [if_pos hends, joined_holding hheld]
  rfl

/-- Any other fragment is held back with them. -/
theorem push_holding_of_not_ends (hheld : ∀ fragment ∈ held, fragment ≠ [])
    (hline : LineKind.ofLine line.toList = .fragment text) (hlast : ¬ EndsStatement text) :
    (holding held).push line = (holding (held ++ [text]), none) := by
  obtain ⟨-, -, hne, -⟩ := LineKind.ofLine_eq_fragment.1 hline
  have hends : ((holding held).joined text).getLast? ≠ some ';' := fun h => hlast ((getLast?_joined _ hne).symm.trans h)
  rw [push, hline]
  dsimp only
  rw [if_neg hends, joined_holding hheld]
  rfl

theorem finish_holding (hheld : ∀ fragment ∈ held, fragment ≠ []) :
    (holding held).finish = (empty, if held = [] then none else some (.ofGroup held)) := by
  cases held with
  | nil => rfl
  | cons first rest =>
    obtain ⟨c, tail, rfl⟩ := List.exists_cons_of_ne_nil (hheld first List.mem_cons_self)
    simp [finish, holding, Command.ofGroup]

/-- Lines complete the groups that their fragments make with those held back, and the rest is held back. -/
theorem pushAll_holding (hheld : ∀ fragment ∈ held, fragment ≠ [] ∧ ¬ EndsStatement fragment)
    (h : ∀ line ∈ lines, LineKind.ofLine line.toList ≠ .exit) :
    ∃ groups rest, Grouped (held ++ fragments lines) groups rest ∧ (∀ fragment ∈ rest, fragment ≠ []) ∧
      (holding held).pushAll lines = (holding rest, groups.map .ofGroup) := by
  induction lines generalizing held with
  | nil => exact ⟨[], held, ⟨(List.append_nil held).symm, List.forall_mem_nil _, fun f hf => (hheld f hf).2⟩,
      fun f hf => (hheld f hf).1, rfl⟩
  | cons line lines ih =>
    obtain ⟨hexit, hlines⟩ := List.forall_mem_cons.1 h
    cases hline : LineKind.ofLine line.toList with
    | exit => exact absurd hline hexit
    | idle =>
      have hpush : (holding held).push line = (holding held, none) := by rw [push, hline]
      rw [fragments_cons_of_idle hline, pushAll, hpush]
      exact ih hheld hlines
    | fragment text =>
      have hne := fun f hf => (hheld f hf).1
      rw [fragments_cons_of_fragment hline, pushAll]
      by_cases hlast : EndsStatement text
      · rw [push_holding_of_ends hne hline hlast]
        obtain ⟨groups, rest, hgrouped, hrest, hpush⟩ := @ih [] (List.forall_mem_nil _) hlines
        refine ⟨_, rest, hgrouped.cons (fun f hf => (hheld f hf).2) hlast, hrest, ?_⟩
        change ((holding []).pushAll lines).map id (.ofGroup (held ++ [text]) :: ·) = _
        rw [hpush]
        rfl
      · rw [push_holding_of_not_ends hne hline hlast]
        have htext := (LineKind.ofLine_eq_fragment.1 hline).2.2.1
        have hheld' : ∀ fragment ∈ held ++ [text], fragment ≠ [] ∧ ¬ EndsStatement fragment := by
          simpa [or_imp, forall_and, htext, hlast] using hheld
        obtain ⟨groups, rest, hgrouped, hrest, hpush⟩ := ih hheld' hlines
        refine ⟨groups, rest, by simpa using hgrouped, hrest, ?_⟩
        exact hpush

end Splitter

/-! ## Whole inputs -/

/-- Lines without the exit command give statements that are cut from their fragments: each ends at the first
fragment that ends in a semicolon, and the end of the input gives what is left as one more statement, after
which nothing is pending. A text of these lines is split into those statements. If the exit command comes
next instead, it is split into the statements that are complete by then and the exit command. -/
theorem statements_of_fragments {lines : List String}
    (h : ∀ line ∈ lines, LineKind.ofLine line.toList ≠ .exit) :
    ∃ groups rest, Grouped (fragments lines) groups rest ∧
      (Splitter.empty.pushAll lines).2 = groups.map .ofGroup ∧
      (Splitter.empty.pushAll lines).1.finish = (.empty, if rest = [] then none else some (.ofGroup rest)) ∧
      (∀ text, Text.stringLines text = lines →
        splitCommands text = groups.map .ofGroup ++ if rest = [] then [] else [.ofGroup rest]) ∧
      ∀ text line back, Text.stringLines text = lines ++ line :: back → LineKind.ofLine line.toList = .exit →
        splitCommands text = groups.map .ofGroup ++ [.exit] := by
  obtain ⟨groups, rest, hgrouped, hrest, hpush⟩ := @Splitter.pushAll_holding lines [] nofun h
  change Splitter.empty.pushAll lines = _ at hpush
  have hfinish := Splitter.finish_holding hrest
  refine ⟨groups, rest, hgrouped, by rw [hpush], by rw [hpush, hfinish], ?_, ?_⟩
  · rintro text rfl
    have hcommands := Splitter.commandsFrom_append .empty h []
    rw [List.append_nil, hpush, Splitter.commandsFrom, hfinish] at hcommands
    rw [splitCommands, hcommands]
    split <;> rfl
  · intro text line back htext hline
    rw [splitCommands, htext, Splitter.commandsFrom_append _ h, hpush, Splitter.commandsFrom_of_exit _ hline]

/-- A statement over two lines with a comment, and one that is pending at the end or dropped at the exit. -/
theorem statements_of_fragments_pending :
    let lines := ["-- all of them", " select 'a--b', n", "", "from t; -- note", "use", " db "]
    let text := "-- all of them\r\n select 'a--b', n\n\nfrom t; -- note\nuse\n db "
    (Splitter.empty.pushAll lines).2 = [.statement "select 'a--b', n from t;"] ∧
      splitCommands text = [.statement "select 'a--b', n from t;", .statement "use db"] ∧
      splitCommands (text ++ "\n.Exit;;\nbegin;") = [.statement "select 'a--b', n from t;", .exit] := by
  intro lines text
  obtain ⟨groups, rest, -, hcomplete, hfinish, hend, hexit⟩ := @statements_of_fragments lines (by decide)
  have hgroups : groups.map Command.ofGroup = [.statement "select 'a--b', n from t;"] :=
    hcomplete.symm.trans (by decide)
  have hrest : (if rest = [] then none else some (Command.ofGroup rest)) = some (.statement "use db") :=
    (congrArg Prod.snd hfinish).symm.trans (by decide)
  refine ⟨hcomplete.trans hgroups, ?_, ?_⟩
  · rw [hend text (by decide), hgroups]
    split at hrest
    · cases hrest
    · next hne => rw [if_neg hne, Option.some.inj hrest]; rfl
  · rw [hexit _ ".Exit;;" ["begin;"] (by decide) (by decide), hgroups]
    rfl

end TextTables
