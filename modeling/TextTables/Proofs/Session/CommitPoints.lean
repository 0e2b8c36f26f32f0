import TextTables.Proofs.Session.Alike
/-!
# Where a transaction is committed does not matter

A session that commits in the middle of a transaction and begins another answers all later statements
as if it had not, and its files are the same after the last commit: both sessions show the one that
writes every change at once.
-/

namespace TextTables

/-- What an action gives, without the state that it reaches. -/
def Action.answer {σ α : Type} (action : Action σ α) (s : σ) : Except Error α :=
  match action s with
  | .ok a _ => .ok a
  | .error e _ => .error e

namespace Immediate

/-- What the session answers to some statements, in order. -/
def answers (files : Catalog) (s : Immediate) : List String → List (Except Error Outcome)
  | [] => []
  | text :: rest =>
    Action.answer (execute files text) s :: answers files (Action.after (execute files text) s) rest

/-- The session after some statements. -/
def afterAll (files : Catalog) (s : Immediate) (texts : List String) : Immediate :=
  texts.foldl (fun s text => Action.after (execute files text) s) s

end Immediate

namespace Connection

variable {files : Catalog} {c d : Connection Memory} {s : Immediate} {text : String} {ticket : Ticket}

/-- What a session answers to some statements, in order. A transaction that a statement starts takes the
ticket beside it. -/
def answers (files : Catalog) (c : Connection Memory) :
    List (Ticket × String) → List (Except Error Outcome)
  | [] => []
  | (ticket, text) :: rest =>
    Action.answer (execute files ticket text) c ::
      answers files (Action.after (execute files ticket text) c) rest

/-! ## Sessions that show the same one -/

section Alike
variable {α β γ : Type} {R : α → β → Prop} {x : Action (Connection Memory) α} {y : Action Immediate β}

theorem Alike.after (h : Alike files R (x c) (y s)) : Shows files (Action.after x c) (Action.after y s) := by
  rw [Action.after, Action.after]
  generalize x c = r at h
  generalize y s = r' at h
  cases h with
  | ok _ hs => exact hs
  | error hs => exact hs

theorem Alike.answer {f : α → γ} {g : β → γ} (h : Alike files R (x c) (y s))
    (hR : ∀ a b, R a b → f a = g b) : (Action.answer x c).map f = (Action.answer y s).map g := by
  rw [Action.answer, Action.answer]
  generalize x c = r at h
  generalize y s = r' at h
  cases h with
  | ok hab _ => exact congrArg Except.ok (hR _ _ hab)
  | error _ => rfl

end Alike

namespace Shows

theorem answers_eq {statements : List (Ticket × String)} (h : Shows files c s)
    (hstatements : ∀ statement ∈ statements, Lower statement.2) :
    (answers files c statements).map (·.map Outcome.uncounted) =
      (s.answers files (statements.map Prod.snd)).map (·.map Outcome.uncounted) := by
  induction statements generalizing c s with
  | nil => rfl
  | cons statement rest ih =>
    obtain ⟨hlower, hrest⟩ := List.forall_mem_cons.1 hstatements
    have hexecute := h.execute hlower statement.1
    rw [answers, List.map_cons, List.map_cons, Immediate.answers, List.map_cons,
      hexecute.answer fun _ _ hab => hab, ih hexecute.after hrest]

theorem afterAll {statements : List (Ticket × String)} (h : Shows files c s)
    (hstatements : ∀ statement ∈ statements, Lower statement.2) :
    Shows files (c.afterAll files statements) (s.afterAll files (statements.map Prod.snd)) := by
  induction statements generalizing c s with
  | nil => exact h
  | cons statement rest ih =>
    obtain ⟨hlower, hrest⟩ := List.forall_mem_cons.1 hstatements
    exact ih (h.execute hlower statement.1).after hrest

/-- A session that has done nothing, on a store without files. -/
theorem start {m : Memory} (hm : m.files = []) : Shows files ⟨.start, m⟩ ⟨false, none, m⟩ where
  active := rfl
  database := rfl
  plain _ h := nomatch h
  sound := by
    have hlines (p : Place) : m.lines? p = none := by rw [Memory.lines?, hm, List.lookup_nil]
    exact ⟨fun p ls hl => by simp [hlines p] at hl, fun p ls hl => by simp [hlines p] at hl⟩
  settled := settled_start.2 ⟨rfl, fun _ => rfl⟩

/-- Committing and beginning again is nothing for the session that writes every change at once. -/
theorem commit_begin (h : Shows files c s) (hactive : c.transaction.isSome = true)
    {commit begin : Ticket × String} (hcommit : Plan.ofString commit.2 = .ok .commit)
    (hbegin : Plan.ofString begin.2 = .ok .begin) :
    Shows files (c.afterAll files [commit, begin]) s := by
  have hlower : ∀ statement ∈ [commit, begin], Lower statement.2 := by
    rintro statement hm plan hplan
    rcases List.mem_pair.1 hm with rfl | rfl
    · cases hcommit.symm.trans hplan
      exact ⟨rfl, nofun⟩
    · cases hbegin.symm.trans hplan
      exact ⟨rfl, nofun⟩
  have hs : s.afterAll files [commit.2, begin.2] = s := by
    obtain ⟨active, database, store⟩ := s
    obtain rfl : active = true := h.active.trans hactive
    have hended : Immediate.execute files commit.2 ⟨true, database, store⟩ =
        .ok (.committed 0) ⟨false, database, store⟩ := by
      rw [Immediate.execute, Action.bind_ok (Action.of_ok hcommit _)]
      rfl
    have hbegun : Immediate.execute files begin.2 ⟨false, database, store⟩ =
        .ok .begun ⟨true, database, store⟩ := by
      rw [Immediate.execute, Action.bind_ok (Action.of_ok hbegin _)]
      rfl
    rw [Immediate.afterAll, List.foldl_cons, List.foldl_cons, List.foldl_nil, Action.after_ok hended,
      Action.after_ok hbegun]
  have hafter := h.afterAll hlower
  rwa [List.map_cons, List.map_cons, List.map_nil, hs] at hafter

end Shows

/-! ## Inserting a commit -/

theorem transaction_commit (hcommit : Plan.ofString text = .ok .commit) :
    (Action.after (execute files ticket text) c).transaction = none := by
  cases ht : c.transaction with
  | none => rw [Action.after_error (execute_commit_idle ticket hcommit ht), ht]
  | some t =>
    rw [Action.after, execute_commit ticket hcommit ht]
    cases t.commit files c.store <;> rfl

theorem transaction_afterAll {statements : List (Ticket × String)} {last : Ticket × String}
    (hlast : statements.getLast? = some last) (hcommit : Plan.ofString last.2 = .ok .commit) :
    (c.afterAll files statements).transaction = none := by
  obtain ⟨init, rfl⟩ := List.getLast?_eq_some_iff.1 hlast
  rw [Connection.afterAll, List.foldl_append, List.foldl_cons, List.foldl_nil]
  exact transaction_commit hcommit

/-- Between two statements of a session whose store started without files a commit and the start of
another transaction change no later answer, the number of tables in the answer to a commit aside, nor,
after a last commit, any file. Transactions may take other tickets afterwards. -/
theorem commit_inserted (files : Catalog) (m : Memory) (hm : m.files = [])
    (before rest rest' : List (Ticket × String)) (htexts : rest'.map Prod.snd = rest.map Prod.snd)
    (hbefore : ∀ statement ∈ before, Lower statement.2) (hrest : ∀ statement ∈ rest, Lower statement.2)
    (commit begin : Ticket × String) (hcommit : Plan.ofString commit.2 = .ok .commit)
    (hbegin : Plan.ofString begin.2 = .ok .begin) :
    let c : Connection Memory := afterAll files ⟨.start, m⟩ before
    let d := c.afterAll files [commit, begin]
    c.transaction.isSome = true →
    (d.answers files rest').map (·.map Outcome.uncounted) =
      (c.answers files rest).map (·.map Outcome.uncounted) ∧
    ∀ last, rest.getLast? = some last → Plan.ofString last.2 = .ok .commit →
      Memory.Same (c.afterAll files rest).store (d.afterAll files rest').store := by
  intro c d hactive
  have hrest' : ∀ statement ∈ rest', Lower statement.2 := by
    intro statement hs
    have htext : statement.2 ∈ rest.map Prod.snd := htexts ▸ List.mem_map_of_mem hs
    obtain ⟨other, hother, heq⟩ := List.mem_map.1 htext
    exact heq ▸ hrest other hother
  obtain ⟨s, hc⟩ : ∃ s, Shows files c s := ⟨_, (Shows.start hm).afterAll hbefore⟩
  have hd : Shows files d s := hc.commit_begin hactive hcommit hbegin
  refine ⟨?_, fun last hlast hplan => ?_⟩
  · rw [hc.answers_eq hrest, hd.answers_eq hrest', htexts]
  · obtain ⟨last', hlast', heq⟩ : ∃ last', rest'.getLast? = some last' ∧ last'.2 = last.2 := by
      have hmap := congrArg List.getLast? htexts
      rw [List.getLast?_map, List.getLast?_map, hlast] at hmap
      exact Option.map_eq_some_iff.1 hmap
    have hstore := (hc.afterAll hrest).same (transaction_afterAll hlast hplan)
    have hstore' := (hd.afterAll hrest').same (transaction_afterAll hlast' (heq ▸ hplan))
    rw [htexts] at hstore'
    exact hstore.trans hstore'.symm

section Readings

/-- A table of readings, of which a transaction has changed one. -/
def readingsChanged : List (Ticket × String) :=
  [(⟨"1"⟩, "CREATE DATABASE d"), (⟨"2"⟩, "USE d"), (⟨"3"⟩, "CREATE TABLE r (n int, t text)"),
   (⟨"4"⟩, "INSERT INTO r VALUES (1, 'a'), (2, 'b')"), (⟨"5"⟩, "BEGIN"),
   (⟨"6"⟩, "UPDATE r SET n = 5 WHERE t = 'a'")]

/-- What the transaction goes on to do, with a statement that fails. -/
def readingsContinued : List (Ticket × String) :=
  [(⟨"7"⟩, "INSERT INTO r VALUES (3, 'c')"), (⟨"8"⟩, "SELECT * FROM r"), (⟨"9"⟩, "DELETE FROM r WHERE n = 2"),
   (⟨"10"⟩, "UPDATE r SET m = 0"), (⟨"11"⟩, "SELECT * FROM r"), (⟨"12"⟩, "COMMIT")]

set_option maxRecDepth 100000 in
/-- The change, the new record and the deletion are all in the file in the end, whether the change was
committed on its own or not. -/
theorem commit_inserted_readings :
    let files : Catalog := ⟨⟨"Databases"⟩, "tbl"⟩
    let c : Connection Memory := afterAll files ⟨.start, .empty⟩ readingsChanged
    let d := c.afterAll files [(⟨"20"⟩, "COMMIT"), (⟨"21"⟩, "BEGIN")]
    (d.answers files readingsContinued).map (·.map Outcome.uncounted) =
      (c.answers files readingsContinued).map (·.map Outcome.uncounted) ∧
    Memory.Same (c.afterAll files readingsContinued).store (d.afterAll files readingsContinued).store ∧
    files.lines? ⟨"d", "r"⟩ (d.afterAll files readingsContinued).store =
      some ["n int|t text", "5|a", "3|c"] := by
  intro files c d
  have hlower {statements : List (Ticket × String)}
      (hdecide : ∀ s ∈ statements, (Plan.ofString s.2).toOption.all (fun plan =>
        !plan.alters && plan.names.all fun name => Text.lowerCase name == name) = true) :
      ∀ s ∈ statements, Lower s.2 := by
    intro s hs plan hplan
    simpa [hplan, Except.toOption] using hdecide s hs
  have hinserted := commit_inserted files .empty rfl readingsChanged readingsContinued readingsContinued rfl
    (hlower (by decide +kernel)) (hlower (by decide +kernel)) (⟨"20"⟩, "COMMIT") (⟨"21"⟩, "BEGIN") rfl rfl
    (by decide +kernel)
  exact ⟨hinserted.1, hinserted.2 (⟨"12"⟩, "COMMIT") rfl rfl, by decide +kernel⟩

end Readings

end Connection

end TextTables
