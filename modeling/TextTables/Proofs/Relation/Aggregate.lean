import TextTables.Execution
import TextTables.Proofs.Plan
import TextTables.Proofs.Reference
import TextTables.Proofs.Relation.Selection
import TextTables.Proofs.Value
import TextTables.Store.Memory
/-!
# What aggregates give

The loop of `MAX` and `MIN` keeps the best value so far. It fails unless all values can be compared with one
another, and ends with one that no other precedes (`exists_extremeFrom`), so that values in another order give
one that is level with it (`extreme?_perm`). An aggregate in a query takes the records that the query would
return (`Connection.aggregates_of_query`).
-/

namespace TextTables

open Value (Comparable)

/-! ## The best of some values -/

section Extremes
variable {wanted order : Ordering} {best value : Value} {values values' rest : List Value}

theorem extremeFrom_cons (h : value.order? best = some order) :
    extremeFrom wanted best (value :: rest) = extremeFrom wanted (if order = wanted then value else best) rest := by
  rw [extremeFrom, h]

/-- The loop ends with a value that no other precedes, which is the one it starts with or precedes that. -/
theorem exists_extremeFrom (hne : wanted ≠ .eq) (h : ∀ a ∈ values, Comparable a best) :
    ∃ last ∈ best :: values, extremeFrom wanted best values = .ok last ∧
      (last = best ∨ last.order? best = some wanted) ∧ ∀ a ∈ best :: values, a.order? last ≠ some wanted := by
  induction values generalizing best with
  | nil => exact ⟨best, List.mem_singleton_self best, rfl, .inl rfl, by simpa using Value.order?_self hne best⟩
  | cons value rest ih =>
    obtain ⟨hvalue, hrest⟩ := List.forall_mem_cons.1 h
    obtain ⟨order, horder⟩ := Value.comparable_iff.1 hvalue
    rw [extremeFrom_cons horder]
    by_cases hbetter : order = wanted
    · subst hbetter
      rw [if_pos rfl]
      obtain ⟨last, hlast, hok, hfrom, hall⟩ := ih fun a ha => (hrest a ha).trans hvalue.symm
      have hbest : last.order? best = some order := by
        rcases hfrom with rfl | hfrom
        · exact horder
        · exact Value.order?_trans hne hfrom horder
      refine ⟨last, List.mem_cons_of_mem best hlast, hok, .inr hbest, List.forall_mem_cons.2 ⟨fun hover => ?_, hall⟩⟩
      exact Value.order?_self hne _ (Value.order?_trans hne hover hbest)
    · rw [if_neg hbetter]
      obtain ⟨last, hlast, hok, hfrom, hall⟩ := ih hrest
      obtain ⟨hbest, hothers⟩ := List.forall_mem_cons.1 hall
      -- That `value` is level with `best` and `best` with `last` would not do: being level is not transitive.
      have hover : value.order? last ≠ some wanted := by
        intro hover
        rcases hfrom with rfl | hfrom
        · exact hbetter (Option.some.inj (horder.symm.trans hover))
        · exact hbetter (Option.some.inj (horder.symm.trans (Value.order?_trans hne hover hfrom)))
      refine ⟨last, ?_, hok, hfrom, List.forall_mem_cons.2 ⟨hbest, List.forall_mem_cons.2 ⟨hover, hothers⟩⟩⟩
      rcases List.mem_cons.1 hlast with rfl | hlast
      · exact List.mem_cons_self
      · exact List.mem_cons_of_mem best (List.mem_cons_of_mem value hlast)

theorem extremeFrom_error (wanted : Ordering) (h : ¬∀ a ∈ values, Comparable a best) :
    ∃ a b, extremeFrom wanted best values = .error (.typeMismatch (.incomparable a b)) := by
  induction values generalizing best with
  | nil => exact absurd (by simp) h
  | cons value rest ih =>
    by_cases hvalue : Comparable value best
    · obtain ⟨order, horder⟩ := Value.comparable_iff.1 hvalue
      rw [extremeFrom_cons horder]
      refine ih fun hrest => h (List.forall_mem_cons.2 ⟨hvalue, fun a ha => ?_⟩)
      split at hrest
      · exact (hrest a ha).trans hvalue
      · exact hrest a ha
    · rw [extremeFrom, Value.order?_eq_none.2 hvalue]
      exact ⟨_, _, rfl⟩

theorem pairwise_comparable_cons :
    (best :: values).Pairwise Comparable ↔ ∀ a ∈ values, Comparable a best := by
  rw [List.pairwise_cons]
  constructor
  · exact fun h a ha => (h.1 a ha).symm
  · refine fun h => ⟨fun a ha => (h a ha).symm, List.pairwise_of_forall_mem_list fun a ha b hb => ?_⟩
    exact (h a ha).trans (h b hb).symm

theorem exists_extreme? (hne : wanted ≠ .eq) (hvalues : values ≠ []) (h : values.Pairwise Comparable) :
    ∃ last ∈ values, extreme? wanted values = .ok (some last) ∧ ∀ a ∈ values, a.order? last ≠ some wanted := by
  obtain ⟨best, rest, rfl⟩ := List.exists_cons_of_ne_nil hvalues
  obtain ⟨last, hlast, hok, -, hall⟩ := exists_extremeFrom hne (pairwise_comparable_cons.1 h)
  exact ⟨last, hlast, by rw [extreme?, hok]; rfl, hall⟩

theorem extreme?_error (wanted : Ordering) (h : ¬values.Pairwise Comparable) :
    ∃ a b, extreme? wanted values = .error (.typeMismatch (.incomparable a b)) := by
  cases values with
  | nil => exact absurd .nil h
  | cons best rest =>
    obtain ⟨a, b, herror⟩ := extremeFrom_error wanted (mt pairwise_comparable_cons.2 h)
    exact ⟨a, b, by rw [extreme?, herror]; rfl⟩

/-- Two values that no other precedes are the same, or they are level. -/
theorem eq_or_level {last last' : Value} (hne : wanted ≠ .eq) (h : values.Pairwise Comparable)
    (hlast : last ∈ values) (hlast' : last' ∈ values) (hall : ∀ a ∈ values, a.order? last ≠ some wanted)
    (hall' : ∀ a ∈ values, a.order? last' ≠ some wanted) : last' = last ∨ last'.order? last = some .eq := by
  by_cases hsame : last' = last
  · exact .inl hsame
  · obtain ⟨order, horder⟩ := Value.comparable_iff.1 (h.forall hlast' hlast hsame)
    have hover := hall last' hlast'
    have hunder := hall' last hlast
    rw [horder, Ne, Option.some.injEq] at hover
    rw [Value.order?_swap, horder, Option.map_some, Ne, Option.some.injEq] at hunder
    cases order <;> cases wanted <;> simp_all

/-- Values in another order have the same extreme or one that is level with it, or in both orders some of them
cannot be compared. -/
theorem extreme?_perm (hne : wanted ≠ .eq) (h : values'.Perm values) :
    extreme? wanted values' = extreme? wanted values ∨
    (∃ last' last, extreme? wanted values' = .ok (some last') ∧ extreme? wanted values = .ok (some last) ∧
      last'.order? last = some .eq) ∨
    ∃ a' b' a b, extreme? wanted values' = .error (.typeMismatch (.incomparable a' b')) ∧
      extreme? wanted values = .error (.typeMismatch (.incomparable a b)) := by
  have hpairwise : values'.Pairwise Comparable ↔ values.Pairwise Comparable := h.pairwise_iff Comparable.symm
  by_cases hcomparable : values.Pairwise Comparable
  · by_cases hempty : values = []
    · have hempty' : values' = [] := (hempty ▸ h).eq_nil
      exact .inl (by rw [hempty, hempty'])
    · have hempty' : values' ≠ [] := fun hnil => hempty (hnil ▸ h).symm.eq_nil
      obtain ⟨last, hlast, hok, hall⟩ := exists_extreme? hne hempty hcomparable
      obtain ⟨last', hlast', hok', hall'⟩ := exists_extreme? hne hempty' (hpairwise.2 hcomparable)
      obtain rfl | hlevel := eq_or_level hne hcomparable hlast (h.mem_iff.1 hlast') hall
        fun a ha => hall' a (h.mem_iff.2 ha)
      · exact .inl (hok'.trans hok.symm)
      · exact .inr (.inl ⟨last', last, hok', hok, hlevel⟩)
  · obtain ⟨a, b, herror⟩ := extreme?_error wanted hcomparable
    obtain ⟨a', b', herror'⟩ := extreme?_error wanted (mt hpairwise.1 hcomparable)
    exact .inr (.inr ⟨a', b', a, b, herror', herror⟩)

end Extremes

/-! ## Values of a field -/

section Columns
variable {α : Type} {kind : α → Value} {position : Nat} {rows : List Row} {row : Row} {value : Value}

theorem mem_columnValues (hrow : row ∈ rows) (h : row[position]? = some value) :
    value ∈ columnValues position rows := by
  refine List.mem_map.2 ⟨row, hrow, ?_⟩
  rw [List.getD_eq_getElem?_getD, h, Option.getD_some]

theorem exists_of_mem_columnValues (hall : ∀ row ∈ rows, ∃ a, row[position]? = some (kind a))
    (h : value ∈ columnValues position rows) :
    ∃ row ∈ rows, ∃ a, row[position]? = some (kind a) ∧ kind a = value := by
  obtain ⟨row, hrow, rfl⟩ := List.mem_map.1 h
  obtain ⟨a, ha⟩ := hall row hrow
  exact ⟨row, hrow, a, ha, by rw [List.getD_eq_getElem?_getD, ha, Option.getD_some]⟩

end Columns

/-! ## Aggregates of tables -/

/-- Whether a function calls the value that no other value of a field precedes in one direction. -/
inductive Extremal (function : String) : Ordering → Prop
  | maximum : Text.upperCase function = "MAX" → Extremal function .gt
  | minimum : Text.upperCase function = "MIN" → Extremal function .lt

/-- Two results that are the same, two values that are level, or two failures to compare some values. -/
inductive Tied : Except Error (String × Value) → Except Error (String × Value) → Prop
  | refl (result : Except Error (String × Value)) : Tied result result
  | ok {label : String} {a b : Value} : a.order? b = some .eq → Tied (.ok (label, a)) (.ok (label, b))
  | incomparable (a b a' b' : Value) :
      Tied (.error (.typeMismatch (.incomparable a b))) (.error (.typeMismatch (.incomparable a' b')))

theorem Extremal.ne_eq {function : String} {wanted : Ordering} (h : Extremal function wanted) : wanted ≠ .eq := by
  cases h <;> nofun

theorem Tied.of_ok {label : String} {a b : Value} (h : Tied (.ok (label, a)) (.ok (label, b))) :
    a = b ∨ a.order? b = some .eq := by
  cases h with
  | refl => exact .inl rfl
  | ok hlevel => exact .inr hlevel

namespace Table

/-- The value of an aggregate with its label. -/
def labelled (label : String) : Option Value → Except Error (String × Value)
  | some value => .ok (label, value)
  | none => .error (.emptyAggregate label)

section Specification
variable (table : Table) (function : String)

/-- Whether a function gives the number of the records, in whatever order they stand. -/
def Counts (field : Option FieldRef) : Prop :=
  ∃ n : Int64, (table.rows.length < 2 ^ 63 → n.toInt = table.rows.length) ∧
    ∀ rows, rows.Perm table.rows →
      { table with rows }.aggregate function field = .ok (aggregateLabel function field, .integer n)

/-- Whether a function, if all values of a field are of one kind, gives one of them to which all others stand in
a relation, the same in whatever order the records stand. It fails if there are none. -/
def Picks {α : Type} (ref : FieldRef) (position : Nat) (kind : α → Value) (le : α → α → Prop) : Prop :=
  (∀ row ∈ table.rows, ∃ a, row[position]? = some (kind a)) →
    (table.aggregate function (some ref) = .error (.emptyAggregate (aggregateLabel function (some ref))) ↔
      table.rows = []) ∧
    (table.rows ≠ [] → ∃ best,
      table.aggregate function (some ref) = .ok (aggregateLabel function (some ref), kind best) ∧
      (∃ row ∈ table.rows, row[position]? = some (kind best)) ∧
      ∀ row ∈ table.rows, ∀ a, row[position]? = some (kind a) → le a best) ∧
    ∀ rows, rows.Perm table.rows →
      { table with rows }.aggregate function (some ref) = table.aggregate function (some ref)

end Specification

variable {table : Table} {function : String} {ref : FieldRef} {position : Nat} {wanted : Ordering}
  {rows : List Row}

/-- Only the mean depends on the type of the field. -/
theorem aggregate_eq {aggregate : Aggregate} (hname : Aggregate.ofName? function = some aggregate)
    (hne : aggregate ≠ .mean) (h : table.schema.resolve ref = .ok position) :
    table.aggregate function (some ref) =
      (aggregate.compute? (some position) table.rows).bind (labelled (aggregateLabel function (some ref))) := by
  have htakes (type : FieldType) : aggregate.takes type = true := by simp [Aggregate.takes, hne]
  have hposition : aggregate.position table.schema (aggregateLabel function (some ref)) (some ref) =
      .ok (some position) := by
    rw [Aggregate.position, h]
    dsimp only [bind, Except.bind]
    split
    · exact if_pos (htakes _)
    · rfl
  simp only [Table.aggregate, hname, hposition]
  refine congrArg (aggregate.compute? (some position) table.rows).bind (funext fun value? => ?_)
  cases value? <;> rfl

theorem aggregate_count (h : Aggregate.ofName? function = some .count) (table : Table) :
    table.aggregate function none =
      .ok (aggregateLabel function none, .integer (Int64.ofInt table.rows.length)) := by
  simp only [aggregate, h]
  rfl

theorem aggregate_extreme (table : Table) (hf : Extremal function wanted)
    (h : table.schema.resolve ref = .ok position) :
    table.aggregate function (some ref) =
      (extreme? wanted (columnValues position table.rows)).bind (labelled (aggregateLabel function (some ref))) := by
  cases hf with
  | maximum hmax =>
    have hname : Aggregate.ofName? function = some .maximum := by simp [Aggregate.ofName?, hmax]
    exact aggregate_eq hname (by nofun) h
  | minimum hmin =>
    have hname : Aggregate.ofName? function = some .minimum := by simp [Aggregate.ofName?, hmin]
    exact aggregate_eq hname (by nofun) h

/-- Another order of the records gives the same extreme, up to values that are level. -/
theorem aggregate_perm (hf : Extremal function wanted) (h : table.schema.resolve ref = .ok position)
    (hperm : rows.Perm table.rows) :
    Tied ({ table with rows }.aggregate function (some ref)) (table.aggregate function (some ref)) := by
  have hvalues : (columnValues position rows).Perm (columnValues position table.rows) := hperm.map _
  rw [aggregate_extreme table hf h, aggregate_extreme { table with rows } hf h]
  obtain hsame | ⟨_, _, hok', hok, hlevel⟩ | ⟨_, _, _, _, herror', herror⟩ := extreme?_perm hf.ne_eq hvalues
  · rw [hsame]
    exact .refl _
  · rw [hok', hok]
    exact .ok hlevel
  · rw [herror', herror]
    exact .incomparable ..

theorem counts {field : Option FieldRef} (hname : Aggregate.ofName? function = some .count)
    (h : ∀ ref ∈ field, ∃ position, table.schema.resolve ref = .ok position) : table.Counts function field := by
  refine ⟨Int64.ofInt table.rows.length, fun hlt => ?_, fun rows hperm => ?_⟩
  · exact Int64.toInt_ofInt_of_le (by omega) (by omega)
  · rw [← hperm.length_eq]
    cases field with
    | none => exact aggregate_count hname _
    | some ref =>
      obtain ⟨position, hposition⟩ := h ref rfl
      exact aggregate_eq hname (by nofun) hposition

section Picks
variable {α : Type} {kind : α → Value} {le : α → α → Prop}

theorem exists_aggregate_extreme (table : Table) (hf : Extremal function wanted)
    (h : table.schema.resolve ref = .ok position) (hcomparable : ∀ a b, Comparable (kind a) (kind b))
    (hne : table.rows ≠ []) (hall : ∀ row ∈ table.rows, ∃ a, row[position]? = some (kind a)) :
    ∃ best, table.aggregate function (some ref) = .ok (aggregateLabel function (some ref), kind best) ∧
      (∃ row ∈ table.rows, row[position]? = some (kind best)) ∧
      ∀ row ∈ table.rows, ∀ a, row[position]? = some (kind a) → (kind a).order? (kind best) ≠ some wanted := by
  have hpairwise : (columnValues position table.rows).Pairwise Comparable := by
    refine List.pairwise_of_forall_mem_list fun v hv w hw => ?_
    obtain ⟨-, -, a, -, rfl⟩ := exists_of_mem_columnValues hall hv
    obtain ⟨-, -, b, -, rfl⟩ := exists_of_mem_columnValues hall hw
    exact hcomparable a b
  have hvalues : columnValues position table.rows ≠ [] := mt List.map_eq_nil_iff.1 hne
  obtain ⟨last, hlast, hok, hover⟩ := exists_extreme? hf.ne_eq hvalues hpairwise
  obtain ⟨row, hrow, best, hbest, rfl⟩ := exists_of_mem_columnValues hall hlast
  refine ⟨best, ?_, ⟨row, hrow, hbest⟩, fun other hother a ha => hover _ (mem_columnValues hother ha)⟩
  rw [aggregate_extreme table hf h, hok]
  rfl

/-- The extreme of values of one kind is there, and with it the relation of the kind in which no value precedes
it. -/
theorem picks (hf : Extremal function wanted) (h : table.schema.resolve ref = .ok position)
    (hcomparable : ∀ a b, Comparable (kind a) (kind b))
    (hle : ∀ a b, (kind a).order? (kind b) ≠ some wanted → le a b)
    (hlevel : ∀ a b, (kind a).order? (kind b) = some .eq → a = b) :
    table.Picks function ref position kind le := by
  intro hall
  refine ⟨⟨fun hempty => ?_, fun hempty => ?_⟩, fun hne => ?_, fun rows hperm => ?_⟩
  · by_contra hne
    obtain ⟨best, hbest, -⟩ := exists_aggregate_extreme table hf h hcomparable hne hall
    cases hbest.symm.trans hempty
  · rw [aggregate_extreme table hf h, hempty]
    rfl
  · obtain ⟨best, hbest, hoccurs, hover⟩ := exists_aggregate_extreme table hf h hcomparable hne hall
    exact ⟨best, hbest, hoccurs, fun row hrow a ha => hle a best (hover row hrow a ha)⟩
  · by_cases hne : table.rows = []
    · obtain rfl : rows = [] := (hne ▸ hperm).eq_nil
      rw [← hne]
    · have hne' : rows ≠ [] := fun hnil => hne (hnil ▸ hperm).symm.eq_nil
      obtain ⟨best, hbest, -⟩ := exists_aggregate_extreme table hf h hcomparable hne hall
      obtain ⟨best', hbest', -⟩ := exists_aggregate_extreme { table with rows } hf h hcomparable hne'
        fun row hrow => hall row (hperm.mem_iff.1 hrow)
      have htied := aggregate_perm hf h hperm
      rw [hbest, hbest'] at htied ⊢
      rcases htied.of_ok with hsame | hsame
      · rw [hsame]
      · rw [hlevel _ _ hsame]

variable {κ : Type} [LinearOrder κ] (key : α → κ)

theorem picks_greatest (hmax : Text.upperCase function = "MAX") (h : table.schema.resolve ref = .ok position)
    (hkind : ∀ a b, (kind a).order? (kind b) = some (compare (key a) (key b))) (hkey : key.Injective) :
    table.Picks function ref position kind fun a b => key a ≤ key b := by
  refine picks (.maximum hmax) h (fun a b => Value.comparable_iff.2 ⟨_, hkind a b⟩) (fun a b hover => ?_)
    fun a b hsame => ?_
  · exact not_lt.1 fun hlt => hover ((hkind a b).trans (congrArg some (compare_gt_iff_gt.2 hlt)))
  · exact hkey (compare_eq_iff_eq.1 (Option.some.inj ((hkind a b).symm.trans hsame)))

theorem picks_least (hmin : Text.upperCase function = "MIN") (h : table.schema.resolve ref = .ok position)
    (hkind : ∀ a b, (kind a).order? (kind b) = some (compare (key a) (key b))) (hkey : key.Injective) :
    table.Picks function ref position kind fun a b => key b ≤ key a := by
  refine picks (.minimum hmin) h (fun a b => Value.comparable_iff.2 ⟨_, hkind a b⟩) (fun a b hover => ?_)
    fun a b hsame => ?_
  · exact not_lt.1 fun hlt => hover ((hkind a b).trans (congrArg some (compare_lt_iff_lt.2 hlt)))
  · exact hkey (compare_eq_iff_eq.1 (Option.some.inj ((hkind a b).symm.trans hsame)))

end Picks

end Table

/-! ## Aggregates of queries -/

theorem Relation.table_select_none {σ : Type} [Storage σ] {files : Catalog} {c : Connection σ} (source : Relation) :
    (Relation.select source none none).table files c = source.table files c := by
  simp only [Relation.table, Table.select_none]
  exact bind_pure _

namespace Connection

section Queries
variable {σ : Type} [Storage σ] {files : Catalog} {ticket : Ticket} {c : Connection σ} {table : Table}
  {relation : Relation} {function label text : String} {field : Option FieldRef} {value : Value} {plan : Plan}
  {e : Error}

theorem run_query_ok (h : relation.table files c = .ok table) :
    run files ticket (.query relation) c = .ok (.table table) c :=
  Action.bind_ok (Action.ask_ok h)

theorem run_query_error (h : relation.table files c = .error e) :
    run files ticket (.query relation) c = .error e c :=
  Action.bind_error (Action.ask_error h)

theorem run_aggregate_ok (h : relation.table files c = .ok table)
    (hvalue : table.aggregate function field = .ok (label, value)) :
    run files ticket (.aggregate relation function field) c = .ok (.aggregate label value) c := by
  have hask : Action.ask (fun c => relation.table files c) c = .ok table c := Action.ask_ok h
  rw [run, Action.bind_ok hask, Action.bind_ok (Action.of_ok hvalue c)]
  rfl

theorem run_aggregate_error (h : relation.table files c = .ok table)
    (herror : table.aggregate function field = .error e) :
    run files ticket (.aggregate relation function field) c = .error e c := by
  have hask : Action.ask (fun c => relation.table files c) c = .ok table c := Action.ask_ok h
  rw [run, Action.bind_ok hask, Action.bind_error (Action.of_error herror c)]

theorem run_aggregate_unreadable (h : relation.table files c = .error e) :
    run files ticket (.aggregate relation function field) c = .error e c :=
  Action.bind_error (Action.ask_error h)

section Statements
variable {statement : Statement} (h : Statement.ofString text = .ok statement)
include h

theorem execute_error (hplan : Plan.ofStatement statement = .error e) :
    execute files ticket text c = .error e c :=
  Action.bind_error (Action.of_error ((Plan.ofString_eq h).trans hplan) c)

theorem execute_ok (hplan : Plan.ofStatement statement = .ok plan) :
    execute files ticket text c = run files ticket plan c :=
  Action.bind_ok (Action.of_ok ((Plan.ofString_eq h).trans hplan) c)

end Statements

variable {item : FromItem} {condition : Option Expression} {query aggregation : String}

/-- An aggregation reads the records that the query with its condition returns. -/
theorem exists_source (files : Catalog) (c : Connection σ) (source : Relation) (function : String)
    (field : Option FieldRef) (condition : Option Expression) :
    ∃ source', Plan.ofSelection (.aggregate function field) source condition = .aggregate source' function field ∧
      source'.table files c = (Relation.select source none condition).table files c := by
  cases condition with
  | none => exact ⟨source, rfl, (Relation.table_select_none source).symm⟩
  | some e => exact ⟨.select source none (some e), rfl, rfl⟩

/-- A query of all fields and an aggregation of the same records are both refused, or both read them. -/
theorem plans_of_aggregation (files : Catalog) (c : Connection σ) (item : FromItem)
    (condition : Option Expression) (function : String) (field : Option FieldRef) :
    (∃ e, ∀ selection, Plan.ofStatement (.select selection item condition) = .error e) ∨
      ∃ relation source, Plan.ofStatement (.select .all item condition) = .ok (.query relation) ∧
        Plan.ofStatement (.select (.aggregate function field) item condition) =
          .ok (.aggregate source function field) ∧
        source.table files c = relation.table files c := by
  simp only [Plan.ofStatement_select]
  cases item with
  | table name aliasName =>
    obtain ⟨source, hsource, htable⟩ := exists_source files c (.scan name aliasName) function field condition
    exact .inr ⟨_, source, rfl, congrArg _ hsource, htable⟩
  | join kind left right on =>
    dsimp only
    split
    · exact .inl ⟨_, fun _ => rfl⟩
    · obtain ⟨source, hsource, htable⟩ := exists_source files c
        (.join kind (.ofFromItem left) (.ofFromItem right) (on.or condition)) function field none
      exact .inr ⟨_, source, rfl, congrArg _ hsource, htable⟩

/-- An aggregation fails as the query of all fields does, or it is its aggregate of the table that the query
returns. -/
theorem aggregation_of_query (hquery : Statement.ofString query = .ok (.select .all item condition))
    (haggregation : Statement.ofString aggregation = .ok (.select (.aggregate function field) item condition)) :
    (∀ e c', execute files ticket query c = .error e c' → execute files ticket aggregation c = .error e c') ∧
    ∀ outcome c', execute files ticket query c = .ok outcome c' → ∃ found, outcome = .table found ∧ c' = c ∧
      execute files ticket aggregation c =
        match found.aggregate function field with
        | .ok (label, value) => .ok (.aggregate label value) c
        | .error e => .error e c := by
  obtain ⟨e, hrefused⟩ | ⟨relation, source, hplan, hplan', htable⟩ :=
    plans_of_aggregation files c item condition function field
  · rw [execute_error hquery (hrefused _), execute_error haggregation (hrefused _)]
    exact ⟨fun _ _ h => h, fun _ _ h => by cases h⟩
  rw [execute_ok hquery hplan, execute_ok haggregation hplan']
  cases hread : relation.table files c with
  | error e =>
    rw [run_query_error hread, run_aggregate_unreadable (htable.trans hread)]
    exact ⟨fun _ _ h => by cases h; rfl, fun _ _ h => by cases h⟩
  | ok found =>
    rw [run_query_ok hread]
    refine ⟨fun _ _ h => (by cases h), fun outcome c' h => ?_⟩
    cases h
    refine ⟨found, rfl, rfl, ?_⟩
    cases hvalue : found.aggregate function field with
    | error e => exact run_aggregate_error (htable.trans hread) hvalue
    | ok result => exact run_aggregate_ok (htable.trans hread) hvalue

/-- A field that means one of a table is aggregated as the names of the functions say. `COUNT` gives the number
of the records, with the field or without. Of integers and of texts, `MAX` and `MIN` give the greatest and the
least, whatever the order of the records, and fail only if there are none. In general another order gives a
value that is level with the first, as `0.0` and `-0.0` are, or it fails to compare some values as the first
does. A query of an aggregate gives it for the records that the query of all fields returns. -/
theorem aggregates_of_query {σ : Type} [Storage σ] (files : Catalog) (ticket : Ticket) (c : Connection σ) :
    (∀ (table : Table) (ref : FieldRef) (position : Nat), table.schema.resolve ref = .ok position →
      ∀ function : String,
        (Text.upperCase function = "COUNT" → table.Counts function none ∧ table.Counts function (some ref)) ∧
        (Text.upperCase function = "MAX" →
          table.Picks function ref position .integer (fun a b : Int64 => a.toInt ≤ b.toInt) ∧
          table.Picks function ref position .text (fun a b : String => a ≤ b)) ∧
        (Text.upperCase function = "MIN" →
          table.Picks function ref position .integer (fun a b : Int64 => b.toInt ≤ a.toInt) ∧
          table.Picks function ref position .text (fun a b : String => b ≤ a)) ∧
        (Text.upperCase function = "MAX" ∨ Text.upperCase function = "MIN" →
          ∀ rows, rows.Perm table.rows →
            Tied ({ table with rows }.aggregate function (some ref)) (table.aggregate function (some ref)))) ∧
    ∀ query aggregation item condition function field,
      Statement.ofString query = .ok (.select .all item condition) →
      Statement.ofString aggregation = .ok (.select (.aggregate function field) item condition) →
      (∀ e c', execute files ticket query c = .error e c' → execute files ticket aggregation c = .error e c') ∧
      ∀ outcome c', execute files ticket query c = .ok outcome c' → ∃ found, outcome = .table found ∧ c' = c ∧
        execute files ticket aggregation c =
          match found.aggregate function field with
          | .ok (label, value) => .ok (.aggregate label value) c
          | .error e => .error e c := by
  refine ⟨fun table ref position h function => ⟨fun hcount => ?_, fun hmax => ?_, fun hmin => ?_, ?_⟩,
    fun _ _ _ _ _ _ => aggregation_of_query⟩
  · have hname : Aggregate.ofName? function = some .count := by simp [Aggregate.ofName?, hcount]
    exact ⟨Table.counts hname nofun, Table.counts hname fun r hr => ⟨position, Option.some.inj hr ▸ h⟩⟩
  · exact ⟨Table.picks_greatest Int64.toInt hmax h (fun _ _ => rfl) fun _ _ => Int64.toInt_inj.1,
      Table.picks_greatest id hmax h (fun _ _ => rfl) Function.injective_id⟩
  · exact ⟨Table.picks_least Int64.toInt hmin h (fun _ _ => rfl) fun _ _ => Int64.toInt_inj.1,
      Table.picks_least id hmin h (fun _ _ => rfl) Function.injective_id⟩
  · rintro (hmax | hmin) rows hperm
    · exact Table.aggregate_perm (.maximum hmax) h hperm
    · exact Table.aggregate_perm (.minimum hmin) h hperm

end Queries

/-- Marks of some pupils. -/
def marks : Table where
  id := ⟨"d", "marks"⟩
  schema := ⟨[⟨"pupil", "text", .text, some "marks"⟩, ⟨"mark", "int", .integer, some "marks"⟩]⟩
  rows := [[.text "ann", .integer 7], [.text "bob", .integer 3], [.text "cid", .integer 9]]

/-- Of the marks above five the least is the one of Ann, in whatever order they stand. -/
theorem aggregates_of_query_marks :
    let files : Catalog := ⟨⟨"Databases"⟩, "tbl"⟩
    let c : Connection Memory := ⟨⟨some ⟨⟨"1"⟩, [marks], [marks.id]⟩, some "d"⟩, ⟨[], []⟩⟩
    let found : List Row := [[.text "ann", .integer 7], [.text "cid", .integer 9]]
    execute files ⟨"2"⟩ "SELECT * FROM marks WHERE mark > 5" c = .ok (.table { marks with rows := found }) c ∧
    execute files ⟨"2"⟩ "SELECT min(mark) FROM marks WHERE mark > 5" c =
      .ok (.aggregate "MIN(mark)" (.integer 7)) c ∧
    { marks with rows := found.reverse }.aggregate "min" (some ⟨none, "mark"⟩) = .ok ("MIN(mark)", .integer 7) := by
  intro files c found
  let p : Expression := .binary (.compare .greater) (.field ⟨none, "mark"⟩) (.constant (.integer 5))
  have hquery : Statement.ofString "SELECT * FROM marks WHERE mark > 5" =
      .ok (.select .all (.table "marks" none) (some p)) := by
    cbv
  have haggregation : Statement.ofString "SELECT min(mark) FROM marks WHERE mark > 5" =
      .ok (.select (.aggregate "min" (some ⟨none, "mark"⟩)) (.table "marks" none) (some p)) := by
    cbv
  have hread : Relation.table files c (.select (.scan "marks" none) none (some p)) =
      .ok { marks with rows := found } := by
    rfl
  have hreturned : execute files ⟨"2"⟩ "SELECT * FROM marks WHERE mark > 5" c =
      .ok (.table { marks with rows := found }) c :=
    (execute_ok hquery rfl).trans (run_query_ok hread)
  have hvalue : { marks with rows := found }.aggregate "min" (some ⟨none, "mark"⟩) =
      .ok ("MIN(mark)", .integer 7) := by
    rfl
  obtain ⟨htables, hqueries⟩ := aggregates_of_query files ⟨"2"⟩ c
  obtain ⟨-, -, hmin, -⟩ := htables { marks with rows := found } ⟨none, "mark"⟩ 1 rfl "min"
  obtain ⟨-, -, hperm⟩ := (hmin (by decide +kernel)).1 (by simp [found])
  obtain ⟨-, hreturns⟩ := hqueries _ _ _ _ _ _ hquery haggregation
  obtain ⟨_, htable, -, hgiven⟩ := hreturns _ _ hreturned
  cases htable
  rw [hvalue] at hgiven
  exact ⟨hreturned, hgiven, (hperm _ found.reverse_perm).trans hvalue⟩

end Connection

end TextTables
