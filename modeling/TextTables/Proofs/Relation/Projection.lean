import TextTables.Proofs.Reference
import TextTables.Proofs.Relation.Selection
/-!
# Projections of projections

The fields that a projection keeps are found again in its result by the references that have found them in the
table, each at the place of its reference in the list, unless a field was taken twice: then both of its copies
answer (`Schema.mem_positions_taken`). So projecting a second time gives the same table or is refused as ambiguous.
-/

namespace TextTables

variable {schema : Schema} {refs : List FieldRef} {ref : FieldRef} {positions : List Nat} {i : Nat}

/-! ## Fields of a projection -/

namespace Schema

theorem getElem?_pick (h : ∀ position ∈ positions, position < schema.fields.length) (i : Nat) :
    (schema.pick positions).fields[i]? = positions[i]?.bind (schema.fields[·]?) := by
  induction positions generalizing i with
  | nil => simp [pick]
  | cons position rest ih =>
    obtain ⟨hposition, hrest⟩ := List.forall_mem_cons.1 h
    have hcons : (schema.pick (position :: rest)).fields =
        schema.fields[position] :: (schema.pick rest).fields := by
      simp [pick, hposition]
    rw [hcons]
    cases i with
    | zero => simp [hposition]
    | succ i => simpa using ih hrest i

theorem length_pick (h : ∀ position ∈ positions, position < schema.fields.length) :
    (schema.pick positions).fields.length = positions.length := by
  rw [pick, List.filterMap_length_eq_length]
  exact fun position hposition => by simp [h position hposition]

theorem pick_range (schema : Schema) : schema.pick (List.range schema.fields.length) = schema := by
  have hfields : (schema.pick (List.range schema.fields.length)).fields = schema.fields := by
    refine List.ext_getElem? fun i => ?_
    rw [getElem?_pick (fun position hposition => List.mem_range.1 hposition)]
    by_cases hi : i < schema.fields.length <;> simp [hi]
  exact congrArg Schema.mk hfields

/-- A reference answers to the copies of the field that it means, wherever they are in the projection. -/
theorem mem_positions_pick (h : ∀ position ∈ positions, position < schema.fields.length) :
    i ∈ (schema.pick positions).positions ref ↔ ∃ position, positions[i]? = some position ∧
      position ∈ schema.positions ref := by
  simp only [mem_positions, getElem?_pick h, Option.bind_eq_some_iff]
  constructor
  · rintro ⟨field, ⟨position, hposition, hfield⟩, hanswers⟩
    exact ⟨position, hposition, field, hfield, hanswers⟩
  · rintro ⟨position, hposition, field, hfield, hanswers⟩
    exact ⟨field, ⟨position, hposition, hfield⟩, hanswers⟩

theorem lt_of_resolved (h : refs.map schema.resolve = positions.map .ok) :
    ∀ position ∈ positions, position < schema.fields.length := by
  intro position hposition
  have hok : Except.ok position ∈ refs.map schema.resolve := h ▸ List.mem_map_of_mem hposition
  obtain ⟨ref, -, href⟩ := List.mem_map.1 hok
  have hmem : position ∈ schema.positions ref := (resolve_eq_ok_iff_mem.1 href position).2 rfl
  exact lt_of_mem_positions hmem

/-- A reference answers to all copies of the field that was taken for it. -/
theorem mem_positions_taken (h : refs.map schema.resolve = positions.map .ok) (href : refs[i]? = some ref) {j : Nat} :
    j ∈ (schema.pick positions).positions ref ↔ j < positions.length ∧ positions[j]? = positions[i]? := by
  have hi : (refs.map schema.resolve)[i]? = some (schema.resolve ref) := by
    rw [List.getElem?_map, href, Option.map_some]
  rw [h, List.getElem?_map, Option.map_eq_some_iff] at hi
  obtain ⟨position, hposition, hresolve⟩ := hi
  rw [mem_positions_pick (lt_of_resolved h), resolve_eq_ok_iff.1 hresolve.symm, hposition]
  simp only [List.mem_singleton, exists_eq_right]
  exact ⟨fun hj => ⟨(List.getElem?_eq_some_iff.1 hj).1, hj⟩, And.right⟩

/-- Where no field was taken twice, every reference means the field that was taken for it. -/
theorem resolve_pick (h : refs.map schema.resolve = positions.map .ok) (hnodup : positions.Nodup) :
    refs.map (schema.pick positions).resolve = (List.range positions.length).map .ok := by
  have hlength : refs.length = positions.length := by
    simpa using congrArg List.length h
  refine List.ext_getElem (by simpa using hlength) fun i hi _ => ?_
  rw [List.length_map] at hi
  rw [List.getElem_map, List.getElem_map, List.getElem_range, resolve_eq_ok_iff_mem]
  intro j
  rw [mem_positions_taken h (List.getElem?_eq_getElem hi)]
  constructor
  · rintro ⟨hj, hsame⟩
    exact (List.getElem?_inj hj hnodup).1 hsame
  · rintro rfl
    exact ⟨hlength ▸ hi, rfl⟩

/-- Where every reference means a field, no field was taken twice. -/
theorem nodup_of_resolve_pick (h : refs.map schema.resolve = positions.map .ok) {again : List Nat}
    (hagain : refs.map (schema.pick positions).resolve = again.map .ok) : positions.Nodup := by
  have hlength : refs.length = positions.length := by
    simpa using congrArg List.length h
  rw [List.nodup_iff_getElem?_ne_getElem?]
  intro i j hij hj hsame
  have hi : i < refs.length := by omega
  have href : refs[i]? = some refs[i] := List.getElem?_eq_getElem hi
  have hok : (schema.pick positions).resolve refs[i] ∈ again.map .ok :=
    hagain ▸ List.mem_map_of_mem (List.getElem_mem hi)
  obtain ⟨position, -, hposition⟩ := List.mem_map.1 hok
  have hone := resolve_eq_ok_iff.1 hposition.symm
  have himem := (mem_positions_taken h href).2 ⟨hlength ▸ hi, rfl⟩
  have hjmem := (mem_positions_taken h href).2 ⟨hj, hsame.symm⟩
  rw [hone, List.mem_singleton] at himem hjmem
  omega

end Schema

/-! ## Selections -/

namespace Table

variable {table result : Table} {condition : Option Expression} {refs : List FieldRef}

theorem select_some_eq_ok :
    table.select (some refs) condition = .ok result ↔ ∃ positions,
      refs.map table.schema.resolve = positions.map .ok ∧ (∀ row ∈ table.rows, Decides condition table.schema row) ∧
      result = ⟨table.id, table.schema.pick positions,
        (satisfying condition table.schema table.rows).map (pickValues · positions)⟩ := by
  rw [select, Except.bind_eq_ok]
  refine exists_congr fun positions => ?_
  rw [Except.mapM_eq_ok, Except.bind_eq_ok]
  refine and_congr_right fun _ => ?_
  constructor
  · rintro ⟨kept, hkept, h⟩
    obtain ⟨hdecides, rfl⟩ := acceptedRows_eq_ok.1 hkept
    exact ⟨hdecides, (Except.ok.inj h).symm⟩
  · rintro ⟨hdecides, rfl⟩
    exact ⟨_, acceptedRows_eq_ok.2 ⟨hdecides, rfl⟩, rfl⟩

theorem pickValues_range (row : Row) : pickValues row (List.range row.length) = row := by
  refine List.ext_getElem (by simp [pickValues]) fun i _ hi => ?_
  simp [pickValues, hi]

theorem select_pick {positions : List Nat} {rows : List Row} (h : refs.map table.schema.resolve = positions.map .ok)
    (hnodup : positions.Nodup) :
    let picked : Table := ⟨table.id, table.schema.pick positions, rows.map (pickValues · positions)⟩
    picked.select (some refs) none = .ok picked := by
  intro picked
  refine select_some_eq_ok.2 ⟨_, Schema.resolve_pick h hnodup, fun row _ => ⟨true, rfl⟩, ?_⟩
  have hschema : picked.schema.pick (List.range positions.length) = picked.schema := by
    rw [← Schema.length_pick (Schema.lt_of_resolved h)]
    exact picked.schema.pick_range
  have hrows : picked.rows.map (pickValues · (List.range positions.length)) = picked.rows := by
    rw [List.map_map]
    refine List.map_congr_left fun row _ => ?_
    have hlength : (pickValues row positions).length = positions.length := List.length_map ..
    rw [Function.comp_apply, ← hlength, pickValues_range]
  rw [satisfying_none, hschema, hrows]

theorem select_pick_error {positions : List Nat} {rows : List Row}
    (h : refs.map table.schema.resolve = positions.map .ok) (hnodup : ¬positions.Nodup) :
    ∃ ref ∈ refs, Table.select ⟨table.id, table.schema.pick positions, rows⟩ (some refs) none =
      .error (.unknownField (.ambiguous ⟨none, ref.name⟩)) := by
  cases hagain : refs.mapM (table.schema.pick positions).resolve with
  | ok again => exact absurd (Schema.nodup_of_resolve_pick h (Except.mapM_eq_ok.1 hagain)) hnodup
  | error e =>
    obtain ⟨ref, href, he⟩ := Except.exists_of_mapM_error hagain
    obtain ⟨i, hi⟩ := List.mem_iff_getElem?.1 href
    have hlength : i < positions.length := by
      have hle : refs.length = positions.length := by simpa using congrArg List.length h
      exact hle ▸ (List.getElem?_eq_some_iff.1 hi).1
    refine ⟨ref, href, ?_⟩
    rcases Schema.resolve_of_mem_positions ((Schema.mem_positions_taken h hi).2 ⟨hlength, rfl⟩) with
      ⟨position, hok⟩ | hambiguous
    · exact absurd he (Except.ne_error hok e)
    · obtain rfl := Except.error.inj (hambiguous.symm.trans he)
      rw [select, hagain]
      rfl

/-- A projection to some fields is projected to them once more without a change exactly if they are distinct
fields of the table; otherwise the second projection is refused, since a field that was taken twice cannot be
told from its copy. A selection with all fields is selected on its condition once more without a change. -/
theorem select_again (table : Table) (condition : Option Expression) :
    (∀ refs result, table.select (some refs) condition = .ok result →
      ((∃ again, result.select (some refs) none = .ok again) ↔ (refs.map table.schema.resolve).Nodup) ∧
      ((refs.map table.schema.resolve).Nodup → result.select (some refs) none = .ok result) ∧
      (¬(refs.map table.schema.resolve).Nodup → ∃ ref ∈ refs,
        result.select (some refs) none = .error (.unknownField (.ambiguous ⟨none, ref.name⟩)))) ∧
    ∀ result, table.select none condition = .ok result → result.select none condition = .ok result := by
  refine ⟨fun refs result h => ?_, fun result h => ?_⟩
  · obtain ⟨positions, hresolve, -, rfl⟩ := select_some_eq_ok.1 h
    rw [hresolve, List.nodup_map_iff fun _ _ => Except.ok.inj]
    refine ⟨⟨?_, fun hnodup => ⟨_, select_pick hresolve hnodup⟩⟩, select_pick hresolve, select_pick_error hresolve⟩
    rintro ⟨again, hagain⟩
    obtain ⟨_, hresolve', -, -⟩ := select_some_eq_ok.1 hagain
    exact Schema.nodup_of_resolve_pick hresolve hresolve'
  · obtain ⟨hdecides, rfl⟩ := select_eq_ok.1 h
    refine select_eq_ok.2 ⟨fun row hrow => hdecides row (List.mem_filter.1 hrow).1, ?_⟩
    have hagain : satisfying condition table.schema (satisfying condition table.schema table.rows) =
        satisfying condition table.schema table.rows :=
      List.filter_eq_self.2 fun row hrow => (List.mem_filter.1 hrow).2
    dsimp only
    rw [hagain]

/-- A table of names and ages. -/
def ages : Table where
  id := ⟨"d", "people"⟩
  schema := ⟨[⟨"name", "text", .text, some "p"⟩, ⟨"age", "int", .integer, some "p"⟩]⟩
  rows := [[.text "ann", .integer 30], [.text "bob", .integer 25], [.text "cid", .integer 41]]

/-- Two references to two fields may be read again, and two references to one field may not. -/
theorem select_again_ages :
    let older := some (Expression.binary (.compare .greater) (.field ⟨none, "age"⟩) (.constant (.integer 26)))
    let both : List FieldRef := [⟨some "p", "age"⟩, ⟨none, "name"⟩]
    let twice : List FieldRef := [⟨none, "age"⟩, ⟨some "p", "age"⟩]
    (∃ result, ages.select (some both) older = .ok result ∧
      result.rows = [[.integer 30, .text "ann"], [.integer 41, .text "cid"]] ∧
      result.select (some both) none = .ok result) ∧
    (∃ result, ages.select (some twice) older = .ok result ∧
      result.select (some twice) none = .error (.unknownField (.ambiguous ⟨none, "age"⟩))) ∧
    ∃ result, ages.select none older = .ok result ∧ result.select none older = .ok result := by
  intro older both twice
  obtain ⟨hprojected, hselected⟩ := select_again ages older
  have hboth : ages.select (some both) older = .ok ⟨ages.id, ages.schema.pick [1, 0],
      [[.integer 30, .text "ann"], [.integer 41, .text "cid"]]⟩ := by
    rfl
  have htwice : ages.select (some twice) older = .ok ⟨ages.id, ages.schema.pick [1, 1],
      [[.integer 30, .integer 30], [.integer 41, .integer 41]]⟩ := by
    rfl
  have hall : ages.select none older =
      .ok { ages with rows := [[.text "ann", .integer 30], [.text "cid", .integer 41]] } := by
    rfl
  have hdistinct : both.map ages.schema.resolve = [.ok 1, .ok 0] := by
    rfl
  have hsame : twice.map ages.schema.resolve = [.ok 1, .ok 1] := by
    rfl
  obtain ⟨-, hagain, -⟩ := hprojected both _ hboth
  obtain ⟨-, -, hrefused⟩ := hprojected twice _ htwice
  rw [hdistinct] at hagain
  rw [hsame] at hrefused
  refine ⟨⟨_, hboth, rfl, hagain (by simp)⟩, ⟨_, htwice, ?_⟩, _, hall, hselected _ hall⟩
  obtain ⟨ref, href, herror⟩ := hrefused (by simp)
  simp only [twice, List.mem_cons, List.not_mem_nil, or_false] at href
  rcases href with rfl | rfl <;> exact herror

end Table

end TextTables
