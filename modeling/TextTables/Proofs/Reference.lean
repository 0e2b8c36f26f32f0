import Mathlib.Data.List.Sigma
import TextTables.Evaluation
import TextTables.Proofs.Schema
/-!
# References to fields

A reference means the one position of a schema whose field answers to it (`Schema.find?_eq_some`), and an
expression depends on what its references mean and on nothing else (`Expression.datum_congr`).
-/

namespace TextTables

variable {schema : Schema} {ref : FieldRef} {position : Nat} {row : Row} {source : Option String}

/-! ## Positions -/

theorem Schema.mem_positions :
    position ∈ schema.positions ref ↔ ∃ field, schema.fields[position]? = some field ∧ field.answers ref = true := by
  simp only [positions, List.mem_filterMap, Prod.exists, Option.ite_none_right_eq_some, Option.some.injEq]
  constructor
  · rintro ⟨field, i, hmem, hanswers, rfl⟩
    exact ⟨field, List.mem_zipIdx_iff_getElem?.1 hmem, hanswers⟩
  · rintro ⟨field, hfield, hanswers⟩
    exact ⟨field, position, List.mem_zipIdx_iff_getElem?.2 hfield, hanswers, rfl⟩

theorem Schema.nodup_positions (schema : Schema) (ref : FieldRef) : (schema.positions ref).Nodup := by
  have hzip := List.nodup_zipIdx_map_snd schema.fields
  rw [List.Nodup, List.pairwise_map] at hzip
  rw [positions, List.Nodup, List.pairwise_filterMap]
  refine hzip.imp fun {a b} hne i hi j hj => ?_
  simp only [Option.ite_none_right_eq_some, Option.some.injEq] at hi hj
  rw [← hi.2, ← hj.2]
  exact hne

theorem Schema.find?_eq_some : schema.find? ref = .ok (some position) ↔ schema.positions ref = [position] := by
  unfold find?
  split <;> simp_all

theorem Schema.find?_eq_none (h : ∀ field ∈ schema.fields, field.answers ref = false) :
    schema.find? ref = .ok none := by
  have hnone : schema.positions ref = [] := by
    refine List.eq_nil_iff_forall_not_mem.2 fun position hposition => ?_
    obtain ⟨field, hfield, hanswers⟩ := mem_positions.1 hposition
    rw [h field (List.mem_of_getElem? hfield)] at hanswers
    cases hanswers
  rw [find?, hnone]

/-- A reference without a qualifier does not see the names that fields are read through. -/
theorem Schema.find?_under (h : ref.qualifier = none) : (schema.under source).find? ref = schema.find? ref := by
  have hanswers (field : Field) : ({ field with source } : Field).answers ref = field.answers ref := by
    simp [Field.answers, h]
  have hpositions : (schema.under source).positions ref = schema.positions ref := by
    simp only [positions, Schema.under, List.zipIdx_map, List.filterMap_map]
    exact List.filterMap_congr fun entry _ => by simp [hanswers]
  rw [find?, hpositions, find?]

theorem Schema.lt_of_mem_positions (h : position ∈ schema.positions ref) : position < schema.fields.length := by
  obtain ⟨field, hfield, -⟩ := mem_positions.1 h
  exact (List.getElem?_eq_some_iff.1 hfield).1

theorem Schema.resolve_eq_ok_iff :
    schema.resolve ref = .ok position ↔ schema.positions ref = [position] := by
  rw [resolve, Except.bind_eq_ok, ← find?_eq_some]
  constructor
  · rintro ⟨_ | found, hfound, h⟩
    · cases h
    · obtain rfl := Except.ok.inj h
      exact hfound
  · exact fun h => ⟨_, h, rfl⟩

theorem Schema.resolve_eq_ok_iff_mem :
    schema.resolve ref = .ok position ↔ ∀ p, p ∈ schema.positions ref ↔ p = position := by
  rw [resolve_eq_ok_iff]
  constructor
  · intro h p
    rw [h, List.mem_singleton]
  · intro h
    refine List.perm_singleton.1 ((List.perm_ext_iff_of_nodup (schema.nodup_positions ref)
      (List.nodup_singleton position)).2 fun p => ?_)
    rw [h, List.mem_singleton]

/-- A reference that some field answers means one, or it is ambiguous. -/
theorem Schema.resolve_of_mem_positions (h : position ∈ schema.positions ref) :
    (∃ found, schema.resolve ref = .ok found) ∨
      schema.resolve ref = .error (.unknownField (.ambiguous ⟨none, ref.name⟩)) := by
  rw [resolve, find?]
  match hpositions : schema.positions ref with
  | [] =>
    rw [hpositions] at h
    cases h
  | [found] => exact .inl ⟨found, rfl⟩
  | _ :: _ :: _ => exact .inr rfl

theorem Schema.exists_value (hrow : row.length = schema.width)
    (h : position ∈ schema.positions ref) : ∃ value, row[position]? = some value :=
  ⟨_, List.getElem?_eq_getElem (hrow ▸ lt_of_mem_positions h)⟩

/-! ## Values -/

theorem Binding.lookup_congr {schema' : Schema} (h : schema.find? ref = schema'.find? ref) :
    Binding.lookup [(schema, row)] ref = Binding.lookup [(schema', row)] ref := by
  simp only [lookup, lookupAfter, h]

theorem Binding.lookup_of_find?_none (h : schema.find? ref = .ok none) :
    Binding.lookup [(schema, row)] ref = .error (.unknownField (.missing ref)) := by
  simp only [lookup, lookupAfter, h]
  rfl

theorem Binding.lookup_of_find?_some {value : Value} (h : schema.find? ref = .ok (some position))
    (hvalue : row[position]? = some value) : Binding.lookup [(schema, row)] ref = .ok value := by
  have hafter : lookupAfter ref none [(schema, row)] = .ok (some value) := by
    simp only [lookupAfter, h, ← hvalue]
    rfl
  simp only [lookup, hafter]
  rfl

theorem Binding.lookup_of_find?_error {e : Error} (h : schema.find? ref = .error e) :
    Binding.lookup [(schema, row)] ref = .error e := by
  simp only [lookup, lookupAfter, h]
  rfl

/-! ## Expressions -/

/-- The references in an expression. -/
def Expression.refs : Expression → List FieldRef
  | .constant _ => []
  | .field ref => [ref]
  | .negate e => e.refs
  | .binary _ l r => l.refs ++ r.refs

/-- An expression whose references have no qualifiers. -/
def Expression.Unqualified (e : Expression) : Prop := ∀ ref ∈ e.refs, ref.qualifier = none

/-- An expression depends on what its references mean and on nothing else. -/
theorem Expression.datum_congr {e : Expression} {binding binding' : Binding}
    (h : ∀ ref ∈ e.refs, binding.lookup ref = binding'.lookup ref) : e.datum binding = e.datum binding' := by
  induction e with
  | constant => rfl
  | field ref => simp only [datum, h ref (List.mem_singleton_self ref)]
  | negate e ih => simp only [datum, ih h]
  | binary op l r ihl ihr =>
    have hl := ihl fun ref href => h ref (List.mem_append_left _ href)
    have hr := ihr fun ref href => h ref (List.mem_append_right _ href)
    cases op <;> simp only [datum, hl, hr]

theorem accepts_under {condition : Option Expression} (h : ∀ e ∈ condition, e.Unqualified) :
    accepts condition [(schema.under source, row)] = accepts condition [(schema, row)] := by
  cases condition with
  | none => rfl
  | some e =>
    have hdatum : e.datum [(schema.under source, row)] = e.datum [(schema, row)] :=
      Expression.datum_congr fun ref href => Binding.lookup_congr (Schema.find?_under (h e rfl ref href))
    simp only [accepts, Expression.holds, hdatum]

/-- No value of a field is a truth value. -/
theorem accepts_field (binding : Binding) :
    accepts (some (.field ref)) binding =
      (binding.lookup ref).bind fun value => .error (.typeMismatch (.notCondition value)) := by
  simp only [accepts, Expression.holds, Expression.datum]
  cases binding.lookup ref <;> rfl

/-- A field that is read through no name is not found by a qualified reference, which finds it once the
schema is read through the qualifier. -/
theorem Schema.accepts_ne_qualify (name : String) {field : Field} (hfield : field ∈ schema.fields)
    (hdistinct : (schema.fields.map (·.name)).Nodup) (hsource : field.source = none) :
    ∃ condition row, accepts condition [(schema, row)] ≠ accepts condition [(schema.qualify name, row)] := by
  let ref : FieldRef := ⟨some name, field.name⟩
  let row : Row := schema.fields.map (·.type.zero)
  have hnone : schema.find? ref = .ok none := by
    refine find?_eq_none fun other hother => ?_
    by_cases hname : other.name = field.name
    · obtain rfl := List.inj_on_of_nodup_map hdistinct hother hfield hname
      simp [Field.answers, ref, hsource]
    · simp [Field.answers, ref, hname]
  obtain ⟨position, hposition⟩ := List.mem_iff_getElem?.1 hfield
  have hmem : position ∈ (schema.qualify name).positions ref := by
    refine mem_positions.2 ⟨{ field with source := some name }, ?_, by simp [Field.answers, ref]⟩
    rw [qualify, List.getElem?_map, hposition]
    rfl
  refine ⟨some (.field ref), row, ?_⟩
  rw [accepts_field, accepts_field, Binding.lookup_of_find?_none hnone]
  -- The reference means one field, whose value is no truth value, or it is ambiguous.
  match hpositions : (schema.qualify name).positions ref with
  | [] =>
    rw [hpositions] at hmem
    cases hmem
  | [p] =>
    obtain rfl : position = p := by rwa [hpositions, List.mem_singleton] at hmem
    have hvalue : row[position]? = some field.type.zero := by
      rw [List.getElem?_map, hposition]
      rfl
    rw [Binding.lookup_of_find?_some (by rw [find?, hpositions]) hvalue]
    nofun
  | p :: q :: rest =>
    rw [Binding.lookup_of_find?_error (by rw [find?, hpositions])]
    nofun

end TextTables
