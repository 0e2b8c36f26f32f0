import TextTables.Proofs.Plan
import TextTables.Proofs.Reference
import TextTables.Proofs.Relation.Selection
import TextTables.Proofs.Session.Inserting
/-!
# Joins between commas

A query of tables with commas between them joins them from left to right without conditions, and its
condition goes to the last of the joins, where it sees two records side by side. That comes to filtering
the cross product, in which the condition sees one record of the concatenated schema: a reference means the
same field of the pair as of the one record (`Binding.lookup_pair`), so a condition does (`accepts_pair`),
and the nested loop visits the rows of the product in order (`Table.join_inner`).
-/

namespace TextTables

/-! ## Results -/

/-- Two errors that are the same, except that an ambiguous reference may be shown with its qualifier in
one of them and without in the other. -/
inductive Error.Similar : Error → Error → Prop
  | refl (e : Error) : Similar e e
  | ambiguous {ref ref' : FieldRef} : ref.name = ref'.name →
      Similar (.unknownField (.ambiguous ref)) (.unknownField (.ambiguous ref'))

/-- Two results that are the same up to the text of an ambiguity. -/
inductive Similar {α : Type} : Except Error α → Except Error α → Prop
  | ok (a : α) : Similar (.ok a) (.ok a)
  | error {e e' : Error} : e.Similar e' → Similar (.error e) (.error e')

namespace Similar

variable {α β : Type} {x y : Except Error α} {f g : α → Except Error β}

theorem refl (x : Except Error α) : Similar x x := by
  cases x with
  | error e => exact .error (.refl e)
  | ok a => exact .ok a

theorem bind (h : Similar x y) (hf : ∀ a, Similar (f a) (g a)) : Similar (x >>= f) (y >>= g) := by
  cases h with
  | ok a => exact hf a
  | error h => exact .error h

theorem eq_ok_iff (h : Similar x y) {a : α} : x = .ok a ↔ y = .ok a := by
  cases h with
  | ok => exact .rfl
  | error => exact iff_of_false (fun h => Except.ne_error h _ rfl) (fun h => Except.ne_error h _ rfl)

theorem exists_error (h : Similar x y) {e : Error} (hx : x = .error e) : ∃ e', y = .error e' ∧ e.Similar e' := by
  cases h with
  | ok => cases hx
  | error h =>
    cases hx
    exact ⟨_, rfl, h⟩

end Similar

/-! ## References -/

section References
variable {left right : Schema} {l r : Row} {ref : FieldRef}

/-- The fields of the right schema come behind those of the left. -/
theorem Schema.positions_append (left right : Schema) (ref : FieldRef) :
    (left ++ right).positions ref = left.positions ref ++ (right.positions ref).map (left.width + ·) := by
  change List.filterMap _ (left.fields ++ right.fields).zipIdx = _
  rw [List.zipIdx_append, List.filterMap_append, positions, positions, List.map_filterMap,
    Nat.zero_add, List.zipIdx_eq_map_add (l := right.fields) (i := left.fields.length), List.filterMap_map]
  congr 1
  refine List.filterMap_congr fun entry _ => ?_
  by_cases hanswers : entry.1.answers ref = true <;> simp [hanswers, Schema.width, Nat.add_comm]

/-- The two records of a pair are one record of both schemas: a reference means the same value, and is
ambiguous or missing in the one if it is in the other. -/
theorem Binding.lookup_pair (hl : l.length = left.width) (hr : r.length = right.width) :
    Similar (Binding.lookup [(left, l), (right, r)] ref) (Binding.lookup [(left ++ right, l ++ r)] ref) := by
  have hboth := Schema.positions_append left right ref
  have hleft : ∀ p ∈ left.positions ref, ∃ v, l[p]? = some v ∧ (l ++ r)[p]? = some v := fun p hp => by
    obtain ⟨v, hv⟩ := Schema.exists_value hl hp
    exact ⟨v, hv, by rw [List.getElem?_append_left (List.getElem?_eq_some_iff.1 hv).1, hv]⟩
  have hright : ∀ q ∈ right.positions ref,
      ∃ v, r[q]? = some v ∧ (l ++ r)[left.width + q]? = some v := fun q hq => by
    obtain ⟨v, hv⟩ := Schema.exists_value hr hq
    exact ⟨v, hv, by rw [← hl, List.getElem?_append_right (by omega), Nat.add_sub_cancel_left, hv]⟩
  -- Each side has no field for the reference, one or several.
  rcases hls : left.positions ref with _ | ⟨p, _ | ⟨p', ps⟩⟩ <;>
    rcases hrs : right.positions ref with _ | ⟨q, _ | ⟨q', qs⟩⟩ <;>
    simp only [hls, hrs, List.map_nil, List.map_cons, List.append_nil, List.nil_append, List.cons_append,
      List.mem_cons, List.not_mem_nil, or_false, forall_eq] at hboth hleft hright <;>
    simp only [lookup, lookupAfter, Schema.find?, hls, hrs, hboth]
  case nil.cons.nil =>
    obtain ⟨v, hv, hv'⟩ := hright
    simp only [bind, Except.bind, hv, hv']
    exact .refl _
  case cons.nil.nil =>
    obtain ⟨v, hv, hv'⟩ := hleft
    simp only [bind, Except.bind, hv, hv']
    exact .refl _
  case cons.nil.cons.nil =>
    obtain ⟨v, hv, -⟩ := hleft
    simp only [bind, Except.bind, hv]
    exact .error (.ambiguous rfl)
  all_goals exact .refl _

/-- Similar bindings give an expression similar results. -/
theorem Expression.datum_similar {binding binding' : Binding}
    (h : ∀ ref, Similar (binding.lookup ref) (binding'.lookup ref)) (e : Expression) :
    Similar (e.datum binding) (e.datum binding') := by
  induction e with
  | constant v => exact .refl _
  | field ref => exact (h ref).bind fun v => .refl _
  | negate e ih => exact ih.bind fun d => .refl _
  | binary op l r ihl ihr =>
    cases op with
    | and =>
      refine ihl.bind fun d => (Similar.refl d.toTruth).bind fun holds => ?_
      cases holds with
      | true => exact ihr.bind fun d => .refl _
      | false => exact .refl _
    | or =>
      refine ihl.bind fun d => (Similar.refl d.toTruth).bind fun holds => ?_
      cases holds with
      | true => exact .refl _
      | false => exact ihr.bind fun d => .refl _
    | compare comparison =>
      exact ihl.bind fun d => (Similar.refl d.toValue).bind fun a => ihr.bind fun d => .refl _
    | compute op =>
      exact ihl.bind fun d => (Similar.refl d.toValue).bind fun a => ihr.bind fun d => .refl _

theorem accepts_pair (condition : Option Expression) (hl : l.length = left.width) (hr : r.length = right.width) :
    Similar (accepts condition [(left, l), (right, r)]) (accepts condition [(left ++ right, l ++ r)]) := by
  cases condition with
  | none => exact .refl _
  | some e => exact (Expression.datum_similar (fun ref => Binding.lookup_pair hl hr) e).bind fun d => .refl _

end References

/-! ## Joins of two tables -/

/-- The product of two tables. -/
def Table.cross (left right : Table) : Table :=
  ⟨left.id, left.schema ++ right.schema, left.rows.flatMap fun l => right.rows.map (l ++ ·)⟩

section Joins
variable {condition : Option Expression} {schema : Schema} {test : Row → Row → Except Error Bool}
  {left right : Table} {l : Row} {lefts rights : List Row}

theorem pairRows_similar (h : ∀ r ∈ rights, Similar (test l r) (accepts condition [(schema, l ++ r)])) :
    Similar (pairRows test l rights) (acceptedRows condition schema (rights.map (l ++ ·))) := by
  induction rights with
  | nil => exact .ok []
  | cons r rest ih =>
    obtain ⟨hr, hrest⟩ := List.forall_mem_cons.1 h
    exact hr.bind fun accepted => (ih hrest).bind fun kept => .refl _

/-- A nested loop whose test is a condition on the joined records filters the product. -/
theorem innerRows_similar
    (h : ∀ l ∈ lefts, ∀ r ∈ rights, Similar (test l r) (accepts condition [(schema, l ++ r)])) :
    Similar (innerRows test rights lefts)
      (acceptedRows condition schema (lefts.flatMap fun l => rights.map (l ++ ·))) := by
  induction lefts with
  | nil => exact .ok []
  | cons l rest ih =>
    obtain ⟨hl, hrest⟩ := List.forall_mem_cons.1 h
    rw [List.flatMap_cons, acceptedRows_append]
    exact (pairRows_similar hl).bind fun kept => (ih hrest).bind fun kept' => .refl _

/-- An inner join on a condition filters the product of the two tables. -/
theorem Table.join_inner (hl : left.Rectangular) (hr : right.Rectangular) (condition : Option Expression) :
    Similar (left.join right condition .inner) ((left.cross right).select none condition) :=
  (innerRows_similar fun l hlmem r hrmem => accepts_pair condition (hl l hlmem) (hr r hrmem)).bind
    fun _ => .refl _

theorem Table.join_none (hl : left.Rectangular) (hr : right.Rectangular) :
    left.join right none .inner = .ok (left.cross right) :=
  (join_inner hl hr none).eq_ok_iff.2 (select_none _)

theorem Table.Rectangular.cross (hl : left.Rectangular) (hr : right.Rectangular) : (left.cross right).Rectangular := by
  intro row hrow
  obtain ⟨l, hlmem, hrow⟩ := List.mem_flatMap.1 hrow
  obtain ⟨r, hrmem, rfl⟩ := List.mem_map.1 hrow
  rw [List.length_append, hl l hlmem, hr r hrmem]
  exact (List.length_append ..).symm

end Joins

/-! ## Joins of many tables -/

/-- The rows of several tables side by side, in the order of the records of the first, then of those of
the second and so on. -/
def crossRows : List (List Row) → List Row
  | [] => [[]]
  | rows :: rest => rows.flatMap fun row => (crossRows rest).map (row ++ ·)

/-- A table as a query names it, with the table that is read under the name. -/
structure Source where
  name : String
  aliasName : Option String
  table : Table

namespace Source

/-- What a query says of it. -/
def item (source : Source) : FromItem := .table source.name source.aliasName

/-- What a query reads, its fields answering to the alias or else to the name. -/
def scanned (source : Source) : Table :=
  { source.table with schema := source.table.schema.qualify (source.aliasName.getD source.name) }

end Source

/-- Tables with commas between them. -/
def FromItem.commas (first : Source) (rest : List Source) : FromItem :=
  rest.foldl (fun item source => .join .inner item source.item none) first.item

/-- The product of some tables. -/
def Table.crossAll (first : Table) (rest : List Table) : Table := rest.foldl cross first

section Products
variable {first : Table} {rest : List Table}

theorem Table.rows_crossAll (first : Table) (rest : List Table) :
    (first.crossAll rest).rows = crossRows (first.rows :: rest.map (·.rows)) := by
  induction rest generalizing first with
  | nil => simp [crossAll, crossRows]
  | cons second rest ih =>
    have hcross := ih (first.cross second)
    rw [crossAll, List.foldl_cons, ← crossAll, hcross]
    simp only [cross, crossRows, List.map_cons, List.flatMap_assoc, List.map_flatMap, List.flatMap_map, List.map_map,
      Function.comp_def, List.append_assoc]

theorem Table.schema_crossAll (first : Table) (rest : List Table) :
    (first.crossAll rest).schema = ⟨(first :: rest).flatMap (·.schema.fields)⟩ := by
  induction rest generalizing first with
  | nil => simp [crossAll]
  | cons second rest ih =>
    rw [crossAll, List.foldl_cons, ← crossAll, ih (first.cross second)]
    simp only [List.flatMap_cons, ← List.append_assoc]
    rfl

theorem Table.id_crossAll (first : Table) (rest : List Table) : (first.crossAll rest).id = first.id := by
  induction rest generalizing first with
  | nil => rfl
  | cons second rest ih => exact ih (first.cross second)

theorem Table.Rectangular.crossAll (hfirst : first.Rectangular) (hrest : ∀ table ∈ rest, table.Rectangular) :
    (first.crossAll rest).Rectangular := by
  induction rest generalizing first with
  | nil => exact hfirst
  | cons second rest ih =>
    obtain ⟨hsecond, hrest⟩ := List.forall_mem_cons.1 hrest
    exact ih (hfirst.cross hsecond) hrest

end Products

/-! ## Queries -/

namespace Source

/-- The fields of the tables of a query, each read through its alias or else its name. -/
def productSchema (sources : List Source) : Schema := ⟨sources.flatMap (·.scanned.schema.fields)⟩

/-- The rows of the cross product of the tables of a query. -/
def productRows (sources : List Source) : List Row := crossRows (sources.map (·.table.rows))

/-- The cross product of the tables of a query. -/
def product (first : Source) (rest : List Source) : Table :=
  ⟨first.table.id, productSchema (first :: rest), productRows (first :: rest)⟩

end Source

section Queries
variable {σ : Type} [Storage σ] {files : Catalog} {c : Connection σ} {first source : Source} {rest : List Source}
  {condition : Option Expression}

theorem Source.forall_concat {P : Source → Prop} {last : Source} :
    (∀ source ∈ first :: (rest ++ [last]), P source) ↔ (∀ source ∈ first :: rest, P source) ∧ P last := by
  rw [← List.cons_append, List.forall_mem_append, List.forall_mem_singleton]

theorem Relation.table_item (h : Connection.table files source.name c = .ok source.table) :
    (ofFromItem source.item).table files c = .ok source.scanned := by
  rw [Source.item, ofFromItem, table, h]
  rfl

theorem Source.rectangular_scanned (h : source.table.Rectangular) : source.scanned.Rectangular := by
  intro row hrow
  rw [h row hrow]
  exact (List.length_map ..).symm

theorem FromItem.commas_concat (first last : Source) (rest : List Source) :
    commas first (rest ++ [last]) = .join .inner (commas first rest) last.item none := by
  rw [commas, List.foldl_concat, ← commas]

theorem Table.crossAll_concat (first last : Table) (rest : List Table) :
    first.crossAll (rest ++ [last]) = (first.crossAll rest).cross last := by
  rw [crossAll, List.foldl_concat, ← crossAll]

theorem Source.rectangular_crossAll (hrows : ∀ source ∈ first :: rest, source.table.Rectangular) :
    (first.scanned.crossAll (rest.map scanned)).Rectangular := by
  obtain ⟨hfirst, hrest⟩ := List.forall_mem_cons.1 hrows
  refine (rectangular_scanned hfirst).crossAll fun table htable => ?_
  obtain ⟨source, hsource, rfl⟩ := List.mem_map.1 htable
  exact rectangular_scanned (hrest source hsource)

/-- Tables with commas between them are read as their product. -/
theorem Relation.table_commas
    (hread : ∀ source ∈ first :: rest, Connection.table files source.name c = .ok source.table)
    (hrows : ∀ source ∈ first :: rest, source.table.Rectangular) :
    (ofFromItem (.commas first rest)).table files c = .ok (first.scanned.crossAll (rest.map Source.scanned)) := by
  -- The last table is the right side of the topmost join.
  induction rest using List.reverseRecOn with
  | nil => exact table_item (hread first List.mem_cons_self)
  | append_singleton rest last ih =>
    obtain ⟨hread, hlast⟩ := Source.forall_concat.1 hread
    obtain ⟨hrows, hlastRows⟩ := Source.forall_concat.1 hrows
    rw [FromItem.commas_concat, List.map_append, List.map_singleton, Table.crossAll_concat, ofFromItem, table,
      ih hread hrows, table_item hlast]
    exact Table.join_none (Source.rectangular_crossAll hrows) (Source.rectangular_scanned hlastRows)

/-- A condition behind such tables goes to the topmost join. -/
theorem Plan.ofStatement_commas (first last : Source) (init : List Source) (condition : Option Expression) :
    Plan.ofStatement (.select .all (.commas first (init ++ [last])) condition) =
      .ok (.query (.select (.join .inner (Relation.ofFromItem (.commas first init)) (Relation.ofFromItem last.item)
        condition) none none)) := by
  rw [FromItem.commas_concat, ofStatement, Relation.ofFromItemWhere_join, if_neg (fun h => Bool.false_ne_true h.1)]
  rfl

/-- A query of such tables filters their product, up to the text of an ambiguity. -/
theorem Relation.table_commasWhere (condition : Option Expression) {last : Source} {init : List Source}
    (hread : ∀ source ∈ first :: (init ++ [last]), Connection.table files source.name c = .ok source.table)
    (hrows : ∀ source ∈ first :: (init ++ [last]), source.table.Rectangular) :
    Similar (table files c (.select (.join .inner (ofFromItem (.commas first init)) (ofFromItem last.item) condition)
      none none)) ((first.scanned.crossAll ((init ++ [last]).map Source.scanned)).select none condition) := by
  obtain ⟨hread, hlast⟩ := Source.forall_concat.1 hread
  obtain ⟨hrows, hlastRows⟩ := Source.forall_concat.1 hrows
  have hjoin := Table.join_inner (Source.rectangular_crossAll hrows) (Source.rectangular_scanned hlastRows) condition
  rw [← Table.crossAll_concat, ← List.map_singleton, ← List.map_append, ← bind_pure (Table.join ..)] at hjoin
  rw [table, table, table_commas hread hrows, table_item hlast]
  simp only [Table.select_none]
  exact hjoin

theorem Source.crossAll_eq (first : Source) (rest : List Source) :
    first.scanned.crossAll (rest.map scanned) =
      product first rest := by
  rw [Table.mk.injEq, Table.id_crossAll, Table.schema_crossAll, Table.rows_crossAll, product, productSchema, productRows,
    ← List.map_cons, List.flatMap_map, List.map_map]
  exact ⟨rfl, rfl, rfl⟩

/-- The outcome of a query of tables with commas between them is that of filtering their product. -/
theorem Connection.execute_commas (ticket : Ticket) {text : String} (hrest : rest ≠ [])
    (htext : Statement.ofString text = .ok (.select .all (.commas first rest) condition))
    (hread : ∀ source ∈ first :: rest, Connection.table files source.name c = .ok source.table)
    (hrows : ∀ source ∈ first :: rest, source.table.Rectangular) :
    (∃ table, (Source.product first rest).select none condition = .ok table ∧
        execute files ticket text c = .ok (.table table) c) ∨
      ∃ e e', (Source.product first rest).select none condition = .error e' ∧ e.Similar e' ∧
        execute files ticket text c = .error e c := by
  obtain rfl | ⟨init, last, rfl⟩ := List.eq_nil_or_concat' rest
  · exact absurd rfl hrest
  have hplan : Plan.ofString text = .ok (.query (.select (.join .inner (.ofFromItem (.commas first init))
      (.ofFromItem last.item) condition) none none)) :=
    Except.bind_eq_ok.2 ⟨_, htext, Plan.ofStatement_commas first last init condition⟩
  have hsimilar := Relation.table_commasWhere condition hread hrows
  rw [Source.crossAll_eq] at hsimilar
  rw [execute, Action.bind_ok (Action.of_ok hplan c)]
  cases htable : Relation.table files c (.select (.join .inner (.ofFromItem (.commas first init))
      (.ofFromItem last.item) condition) none none) with
  | ok table => exact .inl ⟨table, hsimilar.eq_ok_iff.1 htable, Action.bind_ok (Action.ask_ok htable)⟩
  | error e =>
    obtain ⟨e', he', hsame⟩ := hsimilar.exists_error htable
    exact .inr ⟨e, e', he', hsame, Action.bind_error (Action.ask_error htable)⟩

/-- A query `SELECT * FROM t₁ a₁, …, tₖ aₖ WHERE P` of at least two tables succeeds exactly if its condition
has a truth value for every row of the cross product of the tables, as one record of all their fields, each
read through its alias or else its name. It then gives the rows of which the condition holds, in the order of
the product, and otherwise fails as the condition does for the first row for which it fails, except that an
ambiguous reference may be shown with its qualifier. In the same sense an inner join of two tables on a
condition is the join without one, filtered afterwards. -/
theorem Connection.commas_filter_product (ticket : Ticket) {text : String} (hrest : rest ≠ [])
    (htext : Statement.ofString text = .ok (.select .all (.commas first rest) condition))
    (hread : ∀ source ∈ first :: rest, table files source.name c = .ok source.table)
    (hrows : ∀ source ∈ first :: rest, source.table.Rectangular) :
    ((∃ outcome c', execute files ticket text c = .ok outcome c') ↔
        ∀ row ∈ (Source.product first rest).rows, Decides condition (Source.product first rest).schema row) ∧
      (∀ outcome c', execute files ticket text c = .ok outcome c' → c' = c ∧
        outcome = .table { Source.product first rest with
          rows := satisfying condition (Source.product first rest).schema (Source.product first rest).rows }) ∧
      (∀ e c', execute files ticket text c = .error e c' → c' = c ∧
        ∃ before row after e', (Source.product first rest).rows = before ++ row :: after ∧
          (∀ row ∈ before, Decides condition (Source.product first rest).schema row) ∧
          accepts condition [((Source.product first rest).schema, row)] = .error e' ∧ e.Similar e') ∧
      ∀ left right : Table, left.Rectangular → right.Rectangular → ∀ p : Expression,
        Similar (left.join right (some p) .inner)
          (left.join right none .inner >>= fun product => product.select none (some p)) := by
  have hjoin (left right : Table) (hl : left.Rectangular) (hr : right.Rectangular) (p : Expression) :
      Similar (left.join right (some p) .inner)
        (left.join right none .inner >>= fun product => product.select none (some p)) := by
    rw [Table.join_none hl hr]
    exact Table.join_inner hl hr (some p)
  rcases execute_commas ticket hrest htext hread hrows with ⟨table, hselect, hok⟩ | ⟨e, e', hselect, hsame, herror⟩
  · obtain ⟨hdecides, rfl⟩ := Table.select_eq_ok.1 hselect
    refine ⟨iff_of_true ⟨_, _, hok⟩ hdecides, fun outcome c' h => ?_, fun e c' h => ?_, hjoin⟩
    · cases hok.symm.trans h
      exact ⟨rfl, rfl⟩
    · cases hok.symm.trans h
  · obtain ⟨before, row, after, hsplit, hbefore, he⟩ := Table.failing_of_select hselect
    refine ⟨iff_of_false ?_ fun hdecides => ?_, fun outcome c' h => ?_, fun e c' h => ?_, hjoin⟩
    · rintro ⟨outcome, c', hok⟩
      cases herror.symm.trans hok
    · exact Except.ne_error (Table.select_eq_ok.2 ⟨hdecides, rfl⟩) e' hselect
    · cases herror.symm.trans h
    · cases herror.symm.trans h
      exact ⟨rfl, before, row, after, e', hsplit, hbefore, he, hsame⟩

end Queries

/-- The files of two tables of a database in use. -/
def pairOfTables (files : Catalog) : Connection Memory where
  transaction := none
  database := some "d"
  store :=
    { files := [(files.place ⟨"d", "t"⟩, ["a int", "1", "2"]), (files.place ⟨"d", "u"⟩, ["a int", "2", "3"])]
      directories := [] }

/-- Of the four pairs of records the condition holds of one. -/
theorem commas_filter_product_pairOfTables :
    let files : Catalog := ⟨⟨"Databases"⟩, "tbl"⟩
    ∃ table, Connection.execute files ⟨"1"⟩ "SELECT * FROM t, u x WHERE t.a = x.a" (pairOfTables files) =
      .ok (.table table) (pairOfTables files) ∧ table.rows.map renderRow = ["2|2"] := by
  intro files
  let t : Source :=
    ⟨"t", none, ⟨"d", "t"⟩, ⟨[⟨"a", "int", .integer, some "t"⟩]⟩, [[.integer 1], [.integer 2]]⟩
  let u : Source :=
    ⟨"u", some "x", ⟨"d", "u"⟩, ⟨[⟨"a", "int", .integer, some "u"⟩]⟩, [[.integer 2], [.integer 3]]⟩
  have ht : Connection.table files "t" (pairOfTables files) = .ok t.table :=
    Connection.table_stored rfl rfl (by decide +kernel : _ = some ["a int", "1", "2"]) (by cbv)
  have hu : Connection.table files "u" (pairOfTables files) = .ok u.table :=
    Connection.table_stored rfl rfl (by decide +kernel : _ = some ["a int", "2", "3"]) (by cbv)
  have hread : ∀ source ∈ [t, u], Connection.table files source.name (pairOfTables files) = .ok source.table := by
    simp only [List.mem_cons, List.not_mem_nil, or_false, forall_eq_or_imp, forall_eq]
    exact ⟨ht, hu⟩
  have hrows : ∀ source ∈ [t, u], source.table.Rectangular := by
    simp [Table.Rectangular, t, u, Schema.width]
  have htext : Statement.ofString "SELECT * FROM t, u x WHERE t.a = x.a" = .ok (.select .all (.commas t [u])
      (some (.binary (.compare .equal) (.field ⟨some "t", "a"⟩) (.field ⟨some "x", "a"⟩)))) := by
    cbv
  have hdone : (Action.result? (Connection.execute files ⟨"1"⟩ "SELECT * FROM t, u x WHERE t.a = x.a")
      (pairOfTables files)).isSome = true := by
    decide +kernel
  obtain ⟨outcome, c', hexecute⟩ := Action.exists_ok hdone
  obtain ⟨-, hok, -⟩ := Connection.commas_filter_product ⟨"1"⟩ (List.cons_ne_nil u []) htext hread hrows
  obtain ⟨rfl, rfl⟩ := hok outcome c' hexecute
  exact ⟨_, hexecute, by decide +kernel⟩

end TextTables
