import TextTables.Proofs.Plan
import TextTables.Proofs.Syntax.Forward
import TextTables.Proofs.Syntax.Lexemes
/-!
# Names in statements

The databases and tables of a plan are each named by one token of the text, and the tokens that are
names are words, so no such name has a slash or a point in it: `Plan.isWord_name`.
-/

namespace TextTables

/-- The names of the tables that a from item reads. -/
def FromItem.names : FromItem → List String
  | .table name _ => [name]
  | .join _ left right _ => left.names ++ right.names

/-- The names of the tables that a relation reads. -/
def Relation.names : Relation → List String
  | .scan name _ => [name]
  | .join _ left right _ => left.names ++ right.names
  | .select source _ _ => source.names

/-- The names of the databases and tables in a statement. -/
def Statement.names : Statement → List String
  | .createDatabase name | .dropDatabase name | .useDatabase name | .createTable name _
  | .dropTable name | .alterTable name _ | .insert name _ | .update name _ _ | .delete name _ =>
    [name]
  | .select _ item _ => item.names
  | .begin | .commit => []

/-- The names of the databases and tables that a plan changes, uses or reads. -/
def Plan.names : Plan → List String
  | .createDatabase name | .dropDatabase name | .useDatabase name | .createTable name _
  | .dropTable name | .alterTable name _ | .insert name _ | .update name _ _ | .delete name _ =>
    [name]
  | .query relation => relation.names
  | .aggregate source _ _ => source.names
  | .begin | .commit => []

/-- The database or table that a plan changes or uses. Queries change none. -/
def Plan.target? : Plan → Option String
  | .createDatabase name | .dropDatabase name | .useDatabase name | .createTable name _
  | .dropTable name | .alterTable name _ | .insert name _ | .update name _ _ | .delete name _ =>
    some name
  | .query _ | .aggregate .. | .begin | .commit => none

theorem Plan.mem_names_of_target? {plan : Plan} {name : String} (h : plan.target? = some name) :
    name ∈ plan.names := by
  cases plan with
  | query | aggregate | begin | commit => cases h
  | _ => cases h; exact List.mem_singleton_self _

theorem Relation.names_ofFromItem (item : FromItem) : (ofFromItem item).names = item.names := by
  induction item with
  | table => rfl
  | join kind left right on ihl ihr => rw [ofFromItem, names, ihl, ihr, FromItem.names]

theorem Relation.names_ofFromItemWhere {item : FromItem} {condition left : Option Expression}
    {relation : Relation} (h : ofFromItemWhere item condition = .ok (relation, left)) :
    relation.names = item.names := by
  cases item with
  | table =>
    cases h
    rfl
  | join kind l r on =>
    rw [ofFromItemWhere_join] at h
    split at h
    · cases h
    · cases h
      rw [names, names_ofFromItem, names_ofFromItem, FromItem.names]

theorem Plan.names_ofStatement {statement : Statement} {plan : Plan}
    (h : Plan.ofStatement statement = .ok plan) : plan.names = statement.names := by
  cases statement with
  | createTable name columns =>
    obtain ⟨schema, -, h⟩ := Except.bind_eq_ok.1 h
    cases h
    rfl
  | alterTable name column =>
    obtain ⟨field, -, h⟩ := Except.bind_eq_ok.1 h
    cases h
    rfl
  | select selection item condition =>
    obtain ⟨⟨relation, left⟩, hrelation, h⟩ := Except.bind_eq_ok.1 h
    cases h
    rw [Statement.names, ← Relation.names_ofFromItemWhere hrelation]
    cases selection with
    | all | fields => rfl
    | aggregate function field => cases left <;> rfl
  | _ => cases h; rfl

/-! ## Statements -/

namespace Statement

open Reading

variable {input rest : List Lexeme} {statement : Statement} {item first : FromItem} {name : String}

/-- Some databases or tables are named by lexemes. -/
def NamedBy (input : List Lexeme) (names : List String) : Prop :=
  ∀ name ∈ names, .ok (.name name) ∈ input

theorem NamedBy.mono {input' : List Lexeme} {names : List String} (h : NamedBy input' names)
    (hsuffix : input' <:+ input) : NamedBy input names :=
  fun name hname => hsuffix.subset (h name hname)

theorem NamedBy.cons {names : List String} (h : NamedBy input names) (lexeme : Lexeme) :
    NamedBy (lexeme :: input) names :=
  h.mono (List.suffix_cons lexeme input)

theorem namedBy_nil : NamedBy input [] := nofun

theorem namedBy_of_name (h : Reading.name.run input = .ok (name, rest)) : NamedBy input [name] := by
  intro name' hname
  rw [List.mem_singleton.1 hname, name_eq_ok h]
  exact List.mem_cons_self

/-- A statement that is read from a name alone. -/
theorem names_of_bind_name {f : String → Statement}
    (h : (do return f (← Reading.name) : Reading Error Statement).run input = .ok (statement, rest))
    (hnames : ∀ name, (f name).names = [name]) : NamedBy input statement.names := by
  obtain ⟨name, mid, hname, h⟩ := run_bind_eq_ok.1 h
  cases h
  rw [hnames]
  exact namedBy_of_name (run_lift_eq_ok.1 hname)

theorem createTableRest_names (h : createTableRest.run input = .ok (statement, rest)) :
    NamedBy input statement.names := by
  obtain ⟨name, _, hname, h⟩ := run_bind_eq_ok.1 h
  obtain ⟨_, _, -, h⟩ := run_bind_eq_ok.1 h
  obtain ⟨_, _, -, h⟩ := run_bind_eq_ok.1 h
  obtain ⟨_, _, -, h⟩ := run_bind_eq_ok.1 h
  cases h
  exact namedBy_of_name (run_lift_eq_ok.1 hname)

theorem createRest_names (h : createRest.run input = .ok (statement, rest)) :
    NamedBy input statement.names := by
  obtain ⟨t, mid, hnext, h⟩ := run_bind_eq_ok.1 h
  rw [next_eq_ok (run_lift_eq_ok.1 hnext)]
  split at h
  · exact (names_of_bind_name h fun _ => rfl).cons _
  · exact (createTableRest_names h).cons _
  · cases h

theorem dropRest_names (h : dropRest.run input = .ok (statement, rest)) :
    NamedBy input statement.names := by
  obtain ⟨t, mid, hnext, h⟩ := run_bind_eq_ok.1 h
  rw [next_eq_ok (run_lift_eq_ok.1 hnext)]
  split at h
  · exact (names_of_bind_name h fun _ => rfl).cons _
  · exact (names_of_bind_name h fun _ => rfl).cons _
  · cases h

theorem alterRest_names (h : alterRest.run input = .ok (statement, rest)) :
    NamedBy input statement.names := by
  obtain ⟨_, mid, htable, h⟩ := run_bind_eq_ok.1 h
  obtain ⟨name, _, hname, h⟩ := run_bind_eq_ok.1 h
  obtain ⟨_, _, -, h⟩ := run_bind_eq_ok.1 h
  obtain ⟨_, _, -, h⟩ := run_bind_eq_ok.1 h
  cases h
  rw [expect_eq_ok (run_lift_eq_ok.1 htable)]
  exact (namedBy_of_name (run_lift_eq_ok.1 hname)).cons _

theorem fromTable_names (h : fromTable.run input = .ok (item, rest)) : NamedBy input item.names := by
  obtain ⟨name, mid, hname, h⟩ := run_bind_eq_ok.1 h
  obtain ⟨t, mid', -, h⟩ := run_bind_eq_ok.1 h
  have hitem : ∃ aliasName, item = .table name aliasName := by
    split at h
    · obtain ⟨_, _, -, h⟩ := run_bind_eq_ok.1 h
      cases h
      exact ⟨_, rfl⟩
    · cases h
      exact ⟨_, rfl⟩
  obtain ⟨aliasName, rfl⟩ := hitem
  intro name' hmem
  rw [List.mem_singleton.1 hmem, name_eq_ok hname]
  exact List.mem_cons_self

/-- The joined tables are named by what is read, and the first ones were named in front of it. -/
theorem joinedTo_names {n : Nat} {whole : List Lexeme} (hinput : input <:+ whole)
    (hfirst : NamedBy whole first.names) (h : (joinedTo n first).run input = .ok (item, rest)) :
    NamedBy whole item.names := by
  induction n generalizing first input with
  | zero => cases h
  | succ n ih =>
    obtain ⟨how, mid, hjoint, h⟩ := run_bind_eq_ok.1 h
    have hmid := (advances_joint _ _ _ (run_lift_eq_ok.1 hjoint)).trans hinput
    -- A further table is read from what is left, and so is named in the whole as well.
    have hjoin {right : FromItem} {mid' : List Lexeme} (kind : JoinKind) (on : Option Expression)
        (hright : fromTable.run mid = .ok (right, mid')) :
        NamedBy whole (FromItem.join kind first right on).names ∧ mid' <:+ whole := by
      refine ⟨fun name hname => ?_, (advances_fromTable _ _ _ hright).trans hmid⟩
      rcases List.mem_append.1 hname with hname | hname
      · exact hfirst name hname
      · exact (fromTable_names hright).mono hmid name hname
    split at h
    · cases h
      exact hfirst
    · obtain ⟨right, mid', hright, h⟩ := run_bind_eq_ok.1 h
      obtain ⟨hnames, hmid'⟩ := hjoin .inner none (run_lift_eq_ok.1 hright)
      exact ih hmid' hnames h
    · next kind =>
      obtain ⟨right, mid', hright, h⟩ := run_bind_eq_ok.1 h
      obtain ⟨_, mid1, hon, h⟩ := run_bind_eq_ok.1 h
      obtain ⟨condition, mid2, hcondition, h⟩ := run_bind_eq_ok.1 h
      obtain ⟨hnames, hmid'⟩ := hjoin kind (some condition) (run_lift_eq_ok.1 hright)
      have h1 := (advances_expect _ _ _ _ (run_lift_eq_ok.1 hon)).trans hmid'
      exact ih ((advances_expression _ _ _ hcondition).trans h1) hnames h

theorem selectRest_names (h : selectRest.run input = .ok (statement, rest)) :
    NamedBy input statement.names := by
  obtain ⟨selection, mid, hselection, h⟩ := run_bind_eq_ok.1 h
  obtain ⟨_, mid1, hfrom, h⟩ := run_bind_eq_ok.1 h
  obtain ⟨first, mid2, hfirst, h⟩ := run_bind_eq_ok.1 h
  obtain ⟨n, mid3, hrounds, h⟩ := run_bind_eq_ok.1 h
  obtain ⟨item, mid4, hitem, h⟩ := run_bind_eq_ok.1 h
  obtain ⟨condition, _, -, h⟩ := run_bind_eq_ok.1 h
  cases h
  have h0 := advances_selection _ _ _ (run_lift_eq_ok.1 hselection)
  have h1 := (advances_expect _ _ _ _ (run_lift_eq_ok.1 hfrom)).trans h0
  have h2 := (advances_fromTable _ _ _ (run_lift_eq_ok.1 hfirst)).trans h1
  have h3 := (advances_rounds _ _ _ hrounds).trans h2
  exact joinedTo_names h3 ((fromTable_names (run_lift_eq_ok.1 hfirst)).mono h1) hitem

theorem insertRest_names (h : insertRest.run input = .ok (statement, rest)) :
    NamedBy input statement.names := by
  obtain ⟨_, mid, hinto, h⟩ := run_bind_eq_ok.1 h
  obtain ⟨table, _, hname, h⟩ := run_bind_eq_ok.1 h
  obtain ⟨_, _, -, h⟩ := run_bind_eq_ok.1 h
  obtain ⟨_, _, -, h⟩ := run_bind_eq_ok.1 h
  obtain ⟨_, _, -, h⟩ := run_bind_eq_ok.1 h
  cases h
  rw [expect_eq_ok (run_lift_eq_ok.1 hinto)]
  exact (namedBy_of_name (run_lift_eq_ok.1 hname)).cons _

theorem updateRest_names (h : updateRest.run input = .ok (statement, rest)) :
    NamedBy input statement.names := by
  obtain ⟨table, _, hname, h⟩ := run_bind_eq_ok.1 h
  obtain ⟨_, _, -, h⟩ := run_bind_eq_ok.1 h
  obtain ⟨_, _, -, h⟩ := run_bind_eq_ok.1 h
  obtain ⟨_, _, -, h⟩ := run_bind_eq_ok.1 h
  obtain ⟨_, _, -, h⟩ := run_bind_eq_ok.1 h
  cases h
  exact namedBy_of_name (run_lift_eq_ok.1 hname)

theorem deleteRest_names (h : deleteRest.run input = .ok (statement, rest)) :
    NamedBy input statement.names := by
  obtain ⟨_, mid, hfrom, h⟩ := run_bind_eq_ok.1 h
  obtain ⟨table, _, hname, h⟩ := run_bind_eq_ok.1 h
  obtain ⟨_, _, -, h⟩ := run_bind_eq_ok.1 h
  cases h
  rw [expect_eq_ok (run_lift_eq_ok.1 hfrom)]
  exact (namedBy_of_name (run_lift_eq_ok.1 hname)).cons _

theorem read_names (h : read.run input = .ok (statement, rest)) : NamedBy input statement.names := by
  obtain ⟨t, mid, hnext, h⟩ := run_bind_eq_ok.1 h
  rw [next_eq_ok (run_lift_eq_ok.1 hnext)]
  refine NamedBy.cons ?_ _
  split at h
  · exact createRest_names h
  · exact dropRest_names h
  · exact names_of_bind_name h fun _ => rfl
  · exact alterRest_names h
  · exact selectRest_names h
  · exact insertRest_names h
  · exact updateRest_names h
  · exact deleteRest_names h
  · obtain ⟨_, _, -, h⟩ := run_bind_eq_ok.1 h
    cases h
    exact namedBy_nil
  · cases h
    exact namedBy_nil
  · cases h

theorem ofString_names {text : String} (h : Statement.ofString text = .ok statement) :
    NamedBy (lex text) statement.names := by
  obtain ⟨⟨found, rest⟩, hread, h⟩ := Except.bind_eq_ok.1 h
  obtain ⟨statement', _, hstatement, hread⟩ := run_bind_eq_ok.1 hread
  obtain ⟨_, _, -, hread⟩ := run_bind_eq_ok.1 hread
  obtain ⟨_, _, -, hread⟩ := run_bind_eq_ok.1 hread
  split at hread
  · cases hread
    cases h
    exact read_names hstatement
  · cases hread

end Statement

/-- The databases and tables of a plan have words for names. -/
theorem Plan.isWord_name {text : String} {plan : Plan} (h : Plan.ofString text = .ok plan)
    {name : String} (hname : name ∈ plan.names) : isWord name.toList = true := by
  obtain ⟨statement, hstatement, hplan⟩ := Except.bind_eq_ok.1 h
  rw [Plan.names_ofStatement hplan] at hname
  exact lex_formed text (.name name) (Statement.ofString_names hstatement name hname)

end TextTables
