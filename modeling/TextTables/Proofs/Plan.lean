import Mathlib
import TextTables.Plan
import TextTables.Proofs.Store.Action
/-!
# Conditions of queries

The condition of a query is handed down to its joins, and the first of them takes it. So a query is refused
exactly if that join has a condition of its own (`Relation.ofFromItemWhere_join`), and in the plan of a query
every condition stands once: those of the joins where they were, and the condition of the query on the topmost
join or in the projection above the tables (`Plan.conditions_ofStatement`).
-/

namespace TextTables

/-- The relation of a from item, every join with its own condition. -/
def Relation.ofFromItem : FromItem → Relation
  | .table name aliasName => .scan name aliasName
  | .join kind left right on => .join kind (ofFromItem left) (ofFromItem right) on

/-- The condition of the topmost join, if there is one and it has one. -/
def FromItem.on? : FromItem → Option Expression
  | .table _ _ => none
  | .join _ _ _ on => on

/-- The conditions of a from item: that of the topmost join, then those on its left and those on its right. -/
def FromItem.conditions : FromItem → List Expression
  | .table _ _ => []
  | .join _ left right on => on.toList ++ left.conditions ++ right.conditions

/-- The conditions of a relation, from the top. -/
def Relation.conditions : Relation → List Expression
  | .scan _ _ => []
  | .join _ left right on => on.toList ++ left.conditions ++ right.conditions
  | .select source _ condition => condition.toList ++ source.conditions

/-- The conditions of a plan, from the top. -/
def Plan.conditions : Plan → List Expression
  | .query relation | .aggregate relation _ _ => relation.conditions
  | .update _ _ condition | .delete _ condition => condition.toList
  | .createDatabase _ | .dropDatabase _ | .useDatabase _ | .createTable _ _ | .dropTable _ | .alterTable _ _
  | .insert _ _ | .begin | .commit => []

/-- A plan reads a source, keeps what a filter accepts directly above the source, and does above that what a
query returns. -/
inductive Plan.Selects (source : Relation) : Option Expression → Selection → Plan → Prop
  | all {filter : Option Expression} : Selects source filter .all (.query (.select source none filter))
  | fields {filter : Option Expression} {refs : List FieldRef} :
      Selects source filter (.fields refs) (.query (.select source (some refs) filter))
  | aggregate {function : String} {field : Option FieldRef} :
      Selects source none (.aggregate function field) (.aggregate source function field)
  | aggregateOf {e : Expression} {function : String} {field : Option FieldRef} :
      Selects source (some e) (.aggregate function field) (.aggregate (.select source none (some e)) function field)

/-! ## From items -/

namespace Relation

variable {left right : FromItem} {kind : JoinKind} {on condition : Option Expression}

theorem ofFromItemWhere_unfold (h : on = none ∨ condition = none) :
    ofFromItemWhere (.join kind left right on) condition = do
      let (l, rest) ← ofFromItemWhere left none
      let (r, rest) ← ofFromItemWhere right rest
      return (.join kind l r (on.or condition), rest) := by
  rcases h with rfl | rfl
  · rfl
  · cases on <;> rfl

/-- Without a condition from above, every join keeps its own. -/
theorem ofFromItemWhere_none (item : FromItem) : ofFromItemWhere item none = .ok (ofFromItem item, none) := by
  induction item with
  | table => rfl
  | join kind left right on ihl ihr =>
    rw [ofFromItemWhere_unfold (.inr rfl), ihl, Option.or_none]
    simp only [bind, Except.bind, ihr]
    rfl

/-- The first join takes the condition, and nothing of it is left below. -/
theorem ofFromItemWhere_join :
    ofFromItemWhere (.join kind left right on) condition =
      if on.isSome ∧ condition.isSome then .error (.parse .whereAfterOn)
      else .ok (.join kind (ofFromItem left) (ofFromItem right) (on.or condition), none) := by
  split
  · next h =>
    obtain ⟨⟨on, rfl⟩, condition, rfl⟩ := h.imp Option.isSome_iff_exists.1 Option.isSome_iff_exists.1
    rfl
  · next h =>
    have hone : on = none ∨ condition = none := by
      rwa [not_and_or, Option.not_isSome_iff_eq_none, Option.not_isSome_iff_eq_none] at h
    rw [ofFromItemWhere_unfold hone, ofFromItemWhere_none]
    simp only [bind, Except.bind, ofFromItemWhere_none]
    rfl

theorem conditions_ofFromItem (item : FromItem) : (ofFromItem item).conditions = item.conditions := by
  induction item with
  | table => rfl
  | join kind left right on ihl ihr => rw [ofFromItem, conditions, ihl, ihr, FromItem.conditions]

end Relation

/-! ## Plans of queries -/

namespace Plan

variable {selection : Selection} {source : Relation} {item : FromItem} {filter condition : Option Expression}
  {plan : Plan}

theorem ofString_eq {text : String} {statement : Statement} (h : Statement.ofString text = .ok statement) :
    ofString text = ofStatement statement := by
  rw [ofString, h]
  rfl

theorem selects_ofSelection (selection : Selection) (source : Relation) (filter : Option Expression) :
    Selects source filter selection (ofSelection selection source filter) := by
  cases selection with
  | all => exact .all
  | fields refs => exact .fields
  | aggregate function field =>
    cases filter with
    | none => exact .aggregate
    | some e => exact .aggregateOf

theorem Selects.conditions_eq (h : Selects source filter selection plan) :
    plan.conditions = filter.toList ++ source.conditions := by
  cases h <;> rfl

/-- A query is planned in one of three ways: its condition is left for the projection above a table, it is
taken by the topmost join, or it is refused. -/
theorem ofStatement_select (selection : Selection) (item : FromItem) (condition : Option Expression) :
    ofStatement (.select selection item condition) =
      match item with
      | .table name aliasName => .ok (ofSelection selection (.scan name aliasName) condition)
      | .join kind left right on =>
        if on.isSome ∧ condition.isSome then .error (.parse .whereAfterOn)
        else .ok (ofSelection selection
          (.join kind (.ofFromItem left) (.ofFromItem right) (on.or condition)) none) := by
  cases item with
  | table name aliasName => rfl
  | join kind left right on =>
    rw [ofStatement, Relation.ofFromItemWhere_join]
    dsimp only
    split <;> rfl

/-- A query has a plan unless it has a condition and its topmost join has one too. Its plan reads the tables as
the from item does, every join under the topmost one with its own condition or without one, and the conditions
in it are that of the query and those of the joins, each of them once. That of the query is on the topmost join,
or if there is no join in the projection directly above the table. -/
theorem conditions_ofStatement (selection : Selection) (item : FromItem) (condition : Option Expression) :
    ((∃ e, ofStatement (.select selection item condition) = .error e) ↔ item.on?.isSome ∧ condition.isSome) ∧
    (∀ e, ofStatement (.select selection item condition) = .error e → e = .parse .whereAfterOn) ∧
    ∀ plan, ofStatement (.select selection item condition) = .ok plan →
      plan.conditions = condition.toList ++ item.conditions ∧
      ∃ source filter, Selects source filter selection plan ∧
        match item with
        | .table name aliasName => source = .scan name aliasName ∧ filter = condition
        | .join kind left right on =>
          source = .join kind (.ofFromItem left) (.ofFromItem right) (on.or condition) ∧ filter = none := by
  rw [ofStatement_select]
  cases item with
  | table name aliasName =>
    dsimp only
    refine ⟨by simp [FromItem.on?], by simp, fun plan h => ?_⟩
    obtain rfl := Except.ok.inj h
    have hselects := selects_ofSelection selection (.scan name aliasName) condition
    exact ⟨hselects.conditions_eq, _, _, hselects, rfl, rfl⟩
  | join kind left right on =>
    dsimp only
    by_cases hboth : on.isSome ∧ condition.isSome
    · rw [if_pos hboth]
      refine ⟨iff_of_true ⟨_, rfl⟩ hboth, fun e h => (Except.error.inj h).symm, fun plan h => ?_⟩
      cases h
    · rw [if_neg hboth]
      refine ⟨iff_of_false (by simp) hboth, by simp, fun plan h => ?_⟩
      obtain rfl := Except.ok.inj h
      have hselects := selects_ofSelection selection
        (.join kind (.ofFromItem left) (.ofFromItem right) (on.or condition)) none
      refine ⟨?_, _, _, hselects, rfl, rfl⟩
      -- At most one of the two conditions is there, so nothing is dropped by taking the first.
      have honce : (on.or condition).toList = condition.toList ++ on.toList := by
        cases on <;> cases condition <;> simp at hboth ⊢
      rw [hselects.conditions_eq, Relation.conditions, Relation.conditions_ofFromItem,
        Relation.conditions_ofFromItem, honce, FromItem.conditions]
      simp only [Option.toList_none, List.nil_append, List.append_assoc]

/-- The topmost join is the one of the comma, and the condition of the left join stays below it. -/
theorem conditions_ofStatement_chain :
    let own : Expression := .binary (.compare .equal) (.field ⟨some "t", "a"⟩) (.field ⟨some "u", "a"⟩)
    let filter : Expression := .binary (.compare .greater) (.field ⟨none, "b"⟩) (.constant (.integer 1))
    ∃ plan source, ofString "SELECT count(*) FROM t LEFT JOIN u ON t.a = u.a, v x WHERE b > 1" = .ok plan ∧
      plan.conditions = [filter, own] ∧ plan.Selects source none (.aggregate "count" none) ∧
      source = .join .inner (.join .left (.scan "t" none) (.scan "u" none) (some own)) (.scan "v" (some "x"))
        (some filter) := by
  intro own filter
  let item : FromItem :=
    .join .inner (.join .left (.table "t" none) (.table "u" none) (some own)) (.table "v" (some "x")) none
  have hstatement : Statement.ofString "SELECT count(*) FROM t LEFT JOIN u ON t.a = u.a, v x WHERE b > 1" =
      .ok (.select (.aggregate "count" none) item (some filter)) := by
    cbv
  obtain ⟨hfails, -, hplanned⟩ := conditions_ofStatement (.aggregate "count" none) item (some filter)
  cases hplan : ofStatement (.select (.aggregate "count" none) item (some filter)) with
  | error e => exact absurd (hfails.1 ⟨e, hplan⟩).1 Bool.false_ne_true
  | ok plan =>
    obtain ⟨hconditions, source, _, hselects, rfl, rfl⟩ := hplanned plan hplan
    exact ⟨plan, _, Except.bind_eq_ok.2 ⟨_, hstatement, hplan⟩, hconditions, hselects, rfl⟩

end Plan

end TextTables
