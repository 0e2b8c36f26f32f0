import TextTables.Proofs.Evaluation.Integers
import TextTables.Proofs.File.Written
import TextTables.Proofs.Value
/-!
# Types of expressions

The typing rules of expressions (`Expression.HasType`) and their soundness: an expression of a type evaluates to a
result of that type or fails in one of three ways that no type rules out, a division by zero, an integer overflow
and a comparison with a float that is not a number (`Expression.evaluation_sound`).
-/

namespace TextTables

variable {schema : Schema} {ref : FieldRef} {field : Field} {binding : Binding} {α β : Type}

/-! ## Typing rules -/

/-- The type of a result: that of a value, or a truth value. -/
inductive ResultType where
  | value (type : FieldType)
  | truth

/-- The types that arithmetic operations take and give. -/
inductive Arithmetic.Types : Arithmetic → FieldType → FieldType → FieldType → Prop
  | texts : Types .add .text .text .text
  | integers {op : Arithmetic} : op ≠ .divide → Types op .integer .integer .integer
  | floatLeft {op : Arithmetic} {right : FieldType} : op ≠ .divide → right ≠ .text → Types op .float right .float
  | floatRight {op : Arithmetic} {left : FieldType} : op ≠ .divide → left ≠ .text → Types op left .float .float
  | quotient {left right : FieldType} : left ≠ .text → right ≠ .text → Types .divide left right .float

/-- The types of what can be compared: two numbers or two texts. -/
def FieldType.Comparable (left right : FieldType) : Prop := left = .text ↔ right = .text

instance (left right : FieldType) : Decidable (left.Comparable right) := inferInstanceAs (Decidable (_ ↔ _))

/-- The fields of a schema that a reference may mean. -/
def Schema.answering (schema : Schema) (ref : FieldRef) : List Field :=
  schema.fields.filter (·.answers ref)

/-- The typing rules of expressions over records of some schemas. -/
inductive Expression.HasType (schemas : List Schema) : Expression → ResultType → Prop
  | constant (v : Value) : HasType schemas (.constant v) (.value v.type)
  | field {ref : FieldRef} {field : Field} : schemas.flatMap (·.answering ref) = [field] →
      HasType schemas (.field ref) (.value field.type)
  | negate {e : Expression} {type : FieldType} : HasType schemas e (.value type) → type ≠ .text →
      HasType schemas (.negate e) (.value type)
  | compute {op : Arithmetic} {l r : Expression} {left right type : FieldType} :
      HasType schemas l (.value left) → HasType schemas r (.value right) → op.Types left right type →
      HasType schemas (.binary (.compute op) l r) (.value type)
  | compare {op : Comparison} {l r : Expression} {left right : FieldType} :
      HasType schemas l (.value left) → HasType schemas r (.value right) → left.Comparable right →
      HasType schemas (.binary (.compare op) l r) .truth
  | and {l r : Expression} : HasType schemas l .truth → HasType schemas r .truth →
      HasType schemas (.binary .and l r) .truth
  | or {l r : Expression} : HasType schemas l .truth → HasType schemas r .truth →
      HasType schemas (.binary .or l r) .truth

/-! ## Errors that types do not rule out -/

/-- Whether a value is a float that is not a number. -/
def Value.IsNaN (v : Value) : Prop := ∃ x : Float, v = .float x ∧ x.isNaN = true

/-- The errors that no type rules out: a division by zero, an integer overflow and a comparison of two numbers
of which one is not a number. -/
inductive Unavoidable : Error → Prop
  | divideByZero : Unavoidable .divideByZero
  | overflow {fault : TypeFault} : fault.Overflow → Unavoidable (.typeMismatch fault)
  | incomparable {a b : Value} : a.IsNaN ∨ b.IsNaN → a.type ≠ .text → b.type ≠ .text →
      Unavoidable (.typeMismatch (.incomparable a b))

/-- A computation gives a result with a property or fails in a way that no type rules out. -/
def Yields (P : α → Prop) : Except Error α → Prop
  | .ok a => P a
  | .error e => Unavoidable e

theorem Yields.bind {P : α → Prop} {Q : β → Prop} {x : Except Error α} {f : α → Except Error β}
    (h : Yields P x) (hf : ∀ a, P a → Yields Q (f a)) : Yields Q (x >>= f) := by
  cases x with
  | error e => exact h
  | ok a => exact hf a h

/-! ## References -/

theorem Schema.map_positions (schema : Schema) (ref : FieldRef) :
    (schema.positions ref).map (schema.fields[·]?) = (schema.answering ref).map some := by
  unfold positions answering
  rw [List.map_filterMap]
  nth_rewrite 3 [← List.zipIdx_map_fst 0 schema.fields]
  rw [List.filter_map, List.map_map, ← List.filterMap_eq_map, List.filterMap_filter]
  apply List.filterMap_congr
  rintro ⟨field, i⟩ hmem
  have hfield : schema.fields[i]? = some field := List.mem_zipIdx_iff_getElem?.1 hmem
  by_cases hanswers : field.answers ref = true <;> simp [hanswers, hfield]

theorem Schema.find?_of_answering_nil (h : schema.answering ref = []) : schema.find? ref = .ok none := by
  refine find?_eq_none fun field hfield => ?_
  simpa using List.filter_eq_nil_iff.1 h field hfield

theorem Schema.find?_of_answering_singleton (h : schema.answering ref = [field]) :
    ∃ position, schema.find? ref = .ok (some position) ∧ schema.fields[position]? = some field := by
  have hmap := schema.map_positions ref
  rw [h] at hmap
  obtain ⟨position, hposition, hfield⟩ := List.map_eq_singleton_iff.1 hmap
  exact ⟨position, find?_eq_some.2 hposition, hfield⟩

theorem HasTypes.getElem? {fields : List Field} {row : Row} {position : Nat} (h : HasTypes fields row)
    (hfield : fields[position]? = some field) : ∃ v, row[position]? = some v ∧ v.type = field.type := by
  have hposition := congrArg (·[position]?) h
  rwa [List.getElem?_map, List.getElem?_map, hfield, Option.map_some, Option.map_eq_some_iff] at hposition

theorem Binding.lookupAfter_of_answering_nil {found : Option Value}
    (h : (binding.map (·.1)).flatMap (·.answering ref) = []) : binding.lookupAfter ref found = .ok found := by
  induction binding with
  | nil => rfl
  | cons scope rest ih =>
    obtain ⟨schema, row⟩ := scope
    rw [List.map_cons, List.flatMap_cons, List.append_eq_nil_iff] at h
    rw [lookupAfter, Schema.find?_of_answering_nil h.1]
    exact ih h.2

/-- The one field that a reference means holds a value of its type. -/
theorem Binding.lookupAfter_typed (hrows : ∀ scope ∈ binding, HasTypes scope.1.fields scope.2)
    (h : (binding.map (·.1)).flatMap (·.answering ref) = [field]) :
    ∃ v, binding.lookupAfter ref none = .ok (some v) ∧ v.type = field.type := by
  induction binding with
  | nil => cases h
  | cons scope rest ih =>
    obtain ⟨schema, row⟩ := scope
    rw [List.map_cons, List.flatMap_cons, List.append_eq_singleton_iff] at h
    rcases h with ⟨hhead, hrest⟩ | ⟨hhead, hrest⟩
    · rw [lookupAfter, Schema.find?_of_answering_nil hhead]
      exact ih (fun scope hscope => hrows scope (List.mem_cons_of_mem _ hscope)) hrest
    · obtain ⟨position, hfind, hfield⟩ := Schema.find?_of_answering_singleton hhead
      obtain ⟨v, hv, htype⟩ := (hrows _ List.mem_cons_self).getElem? hfield
      refine ⟨v, ?_, htype⟩
      rw [lookupAfter, hfind, ← hv]
      exact lookupAfter_of_answering_nil hrest

theorem Binding.lookup_typed (hrows : ∀ scope ∈ binding, HasTypes scope.1.fields scope.2)
    (h : (binding.map (·.1)).flatMap (·.answering ref) = [field]) :
    ∃ v, binding.lookup ref = .ok v ∧ v.type = field.type := by
  obtain ⟨v, hv, htype⟩ := lookupAfter_typed hrows h
  refine ⟨v, ?_, htype⟩
  rw [lookup, hv]
  rfl

/-! ## Operations -/

/-- The type of a result. -/
def Datum.type : Datum → ResultType
  | .value v => .value v.type
  | .truth _ => .truth

theorem Datum.toValue_typed {datum : Datum} {type : FieldType} (h : datum.type = .value type) :
    Yields (fun v => v.type = type) datum.toValue := by
  cases datum with
  | value v =>
    cases h
    rfl
  | truth b => cases h

theorem Datum.toTruth_typed {datum : Datum} (h : datum.type = .truth) :
    Yields (fun _ => True) datum.toTruth := by
  cases datum with
  | value v => cases h
  | truth b => trivial

theorem Value.negate_typed {v : Value} (h : v.type ≠ .text) : Yields (fun w => w.type = v.type) v.negate := by
  cases v with
  | text s => exact absurd rfl h
  | float x => rfl
  | integer n =>
    simp only [Value.negate]
    split
    · rfl
    · next hnone => exact .overflow (.opposite (Decimal.int64?_eq_none.1 hnone))

theorem Value.number?_of_type_ne_text {v : Value} (h : v.type ≠ .text) : ∃ x, v.number? = some x := by
  cases v with
  | text s => exact absurd rfl h
  | integer n => exact ⟨_, rfl⟩
  | float x => exact ⟨_, rfl⟩

theorem Arithmetic.onNumbers_typed {op : Arithmetic} {a b : Value} (ha : a.type ≠ .text) (hb : b.type ≠ .text) :
    Yields (fun v => v.type = .float) (op.onNumbers a b) := by
  obtain ⟨x, hx⟩ := Value.number?_of_type_ne_text ha
  obtain ⟨y, hy⟩ := Value.number?_of_type_ne_text hb
  simp only [onNumbers, hx, hy]
  split
  · exact .divideByZero
  · rfl

theorem Arithmetic.integers_typed {op : Arithmetic} (h : op ≠ .divide) (a b : Int64) :
    Yields (fun v => v.type = .integer) (op.apply (.integer a) (.integer b)) := by
  have hchecked {f : ℤ → ℤ → ℤ} (hop : op.onIntegers? = some f)
      (hoverflow : ¬InInt64 (f a.toInt b.toInt) → (TypeFault.overflow a op.symbol b).Overflow) :
      Yields (fun v => v.type = .integer) (op.apply (.integer a) (.integer b)) := by
    simp only [Arithmetic.apply, hop]
    split
    · rfl
    · next hnone => exact .overflow (hoverflow (Decimal.int64?_eq_none.1 hnone))
  cases op with
  | add => exact hchecked rfl .sum
  | subtract => exact hchecked rfl .difference
  | multiply => exact hchecked rfl .product
  | divide => exact absurd rfl h

/-- An operation on numbers of which one is a float works on floats. -/
theorem Arithmetic.apply_eq_onNumbers {op : Arithmetic} {a b : Value} (ha : a.type ≠ .text)
    (h : op = .divide ∨ a.type = .float ∨ b.type = .float) : op.apply a b = op.onNumbers a b := by
  cases a with
  | text s => exact absurd rfl ha
  | float x => rfl
  | integer m =>
    cases b with
    | text t => rfl
    | float y => rfl
    | integer n =>
      obtain rfl | h | h := h
      · rfl
      · cases h
      · cases h

theorem Arithmetic.apply_typed {op : Arithmetic} {a b : Value} {type : FieldType}
    (h : op.Types a.type b.type type) : Yields (fun v => v.type = type) (op.apply a b) := by
  generalize ha : a.type = left at h
  generalize hb : b.type = right at h
  cases h with
  | texts =>
    cases a <;> cases ha
    cases b <;> cases hb
    rfl
  | integers hop =>
    cases a <;> cases ha
    cases b <;> cases hb
    exact integers_typed hop _ _
  | floatLeft hop hright =>
    have hleft : a.type ≠ .text := by simp [ha]
    rw [apply_eq_onNumbers hleft (.inr (.inl ha))]
    exact onNumbers_typed hleft (hb ▸ hright)
  | floatRight hop hleft =>
    rw [apply_eq_onNumbers (ha ▸ hleft) (.inr (.inr hb))]
    exact onNumbers_typed (ha ▸ hleft) (by simp [hb])
  | quotient hleft hright =>
    rw [apply_eq_onNumbers (ha ▸ hleft) (.inl rfl)]
    exact onNumbers_typed (ha ▸ hleft) (hb ▸ hright)

theorem Decimal.isNaN_of_not_isNumber {x : Float} (h : ¬IsNumber x) : x.isNaN = true := by
  change x.toModel.unpack.isNaN = true
  rw [unpack_eq_notANumber h]
  rfl

theorem Value.isNaN_of_not_isNumber {v : Value} (htype : v.type ≠ .text) (h : ¬v.IsNumber) : v.IsNaN := by
  cases v with
  | text s => exact absurd rfl htype
  | integer n => exact absurd trivial h
  | float x => exact ⟨x, rfl, Decimal.isNaN_of_not_isNumber h⟩

theorem Comparison.apply_typed {op : Comparison} {a b : Value} (h : a.type.Comparable b.type) :
    Yields (fun _ => True) (op.apply a b) := by
  unfold Comparison.apply
  split
  · trivial
  · next hnone =>
    have hnot : ¬a.Comparable b := Value.order?_eq_none.1 hnone
    by_cases ha : a.type = .text
    · have hb : b.type = .text := h.1 ha
      cases a <;> cases ha
      cases b <;> cases hb
      exact absurd (.texts _ _) hnot
    · have hb : b.type ≠ .text := mt h.2 ha
      refine .incomparable ?_ ha hb
      by_contra hneither
      rw [not_or] at hneither
      refine hnot (.numbers ?_ ?_)
      · exact by_contra fun hnumber => hneither.1 (Value.isNaN_of_not_isNumber ha hnumber)
      · exact by_contra fun hnumber => hneither.2 (Value.isNaN_of_not_isNumber hb hnumber)

/-! ## Soundness -/

theorem Arithmetic.Types.unique {op : Arithmetic} {left right type type' : FieldType}
    (h : op.Types left right type) (h' : op.Types left right type') : type' = type := by
  cases h <;> cases h' <;> first | rfl | contradiction

namespace Expression

variable {e : Expression} {result : ResultType}

theorem HasType.unique {schemas : List Schema} {result' : ResultType} (h : e.HasType schemas result)
    (h' : e.HasType schemas result') : result' = result := by
  induction h generalizing result' with
  | constant v =>
    cases h'
    rfl
  | field hfield =>
    cases h' with
    | field hfield' =>
      rw [hfield] at hfield'
      cases hfield'
      rfl
  | negate _ _ ih =>
    cases h' with
    | negate he _ => exact ih he
  | compute _ _ htypes ihl ihr =>
    cases h' with
    | compute hl hr htypes' =>
      cases ihl hl
      cases ihr hr
      rw [htypes.unique htypes']
  | compare =>
    cases h'
    rfl
  | and =>
    cases h'
    rfl
  | or =>
    cases h'
    rfl

/-- Each typing rule is kept by evaluation. -/
theorem HasType.datum_typed (hrows : ∀ scope ∈ binding, HasTypes scope.1.fields scope.2)
    (h : e.HasType (binding.map (·.1)) result) : Yields (fun datum => datum.type = result) (e.datum binding) := by
  induction h with
  | constant v => rfl
  | field hfield =>
    obtain ⟨v, hv, htype⟩ := Binding.lookup_typed hrows hfield
    rw [datum, hv]
    exact congrArg ResultType.value htype
  | negate _ hnumber ih =>
    refine ih.bind fun d hd => (Datum.toValue_typed hd).bind fun v hv => ?_
    subst hv
    exact (Value.negate_typed hnumber).bind fun w hw => congrArg ResultType.value hw
  | compute _ _ htypes ihl ihr =>
    refine ihl.bind fun d hd => (Datum.toValue_typed hd).bind fun a ha => ?_
    refine ihr.bind fun d' hd' => (Datum.toValue_typed hd').bind fun b hb => ?_
    subst ha hb
    exact (Arithmetic.apply_typed htypes).bind fun w hw => congrArg ResultType.value hw
  | compare _ _ htypes ihl ihr =>
    refine ihl.bind fun d hd => (Datum.toValue_typed hd).bind fun a ha => ?_
    refine ihr.bind fun d' hd' => (Datum.toValue_typed hd').bind fun b hb => ?_
    subst ha hb
    exact (Comparison.apply_typed htypes).bind fun _ _ => rfl
  | and _ _ ihl ihr =>
    refine ihl.bind fun d hd => (Datum.toTruth_typed hd).bind fun holds _ => ?_
    cases holds with
    | false => rfl
    | true => exact ihr.bind fun d' hd' => (Datum.toTruth_typed hd').bind fun _ _ => rfl
  | or _ _ ihl ihr =>
    refine ihl.bind fun d hd => (Datum.toTruth_typed hd).bind fun holds _ => ?_
    cases holds with
    | true => rfl
    | false => exact ihr.bind fun d' hd' => (Datum.toTruth_typed hd').bind fun _ _ => rfl

/-- Type soundness. Over records of the types of their fields, an expression of a type evaluates to a result of
that type and no other, or it fails with a division by zero, an integer overflow or a comparison with a float that
is not a number. So does the value of an expression that has a type of values, and the truth of a condition. -/
theorem evaluation_sound (hrows : ∀ scope ∈ binding, HasTypes scope.1.fields scope.2)
    (h : e.HasType (binding.map (·.1)) result) :
    Yields (fun datum => datum.type = result) (e.datum binding) ∧
      (∀ type, result = .value type → Yields (fun v => v.type = type) (e.evaluate binding)) ∧
      (result = .truth → Yields (fun _ => True) (e.holds binding)) ∧
      ∀ result', e.HasType (binding.map (·.1)) result' → result' = result := by
  have hdatum := h.datum_typed hrows
  refine ⟨hdatum, ?_, ?_, fun _ h' => h.unique h'⟩
  · rintro type rfl
    exact hdatum.bind fun _ hd => Datum.toValue_typed hd
  · rintro rfl
    exact hdatum.bind fun _ hd => Datum.toTruth_typed hd

/-- Under a join, a number of goods times their price is a float that can be compared with an integer. -/
theorem evaluation_sound_joined :
    let orders : Schema := ⟨[⟨"id", "int", .integer, some "o"⟩, ⟨"count", "int", .integer, some "o"⟩]⟩
    let goods : Schema := ⟨[⟨"id", "int", .integer, some "g"⟩, ⟨"price", "float", .float, some "g"⟩]⟩
    let binding : Binding := [(orders, [.integer 1, .integer 3]), (goods, [.integer 7, .float 0.5])]
    let total : Expression := .binary (.compute .multiply) (.field ⟨none, "count"⟩) (.field ⟨some "g", "price"⟩)
    let condition : Expression := .binary (.compare .greater) total (.constant (.integer 0))
    Yields (fun v => v.type = .float) (total.evaluate binding) ∧
      Yields (fun _ => True) (condition.holds binding) := by
  intro orders goods binding total condition
  have hrows : ∀ scope ∈ binding, HasTypes scope.1.fields scope.2 := by
    simp [binding, orders, goods, HasTypes, Value.type]
  have hcount : (binding.map (·.1)).flatMap (·.answering ⟨none, "count"⟩) = [⟨"count", "int", .integer, some "o"⟩] := by
    decide
  have hprice : (binding.map (·.1)).flatMap (·.answering ⟨some "g", "price"⟩) =
      [⟨"price", "float", .float, some "g"⟩] := by
    decide
  have htotal : total.HasType (binding.map (·.1)) (.value .float) :=
    .compute (.field hcount) (.field hprice) (.floatRight (by decide) (by decide))
  have hcondition : condition.HasType (binding.map (·.1)) .truth :=
    .compare htotal (.constant (.integer 0)) (by decide)
  exact ⟨(evaluation_sound hrows htotal).2.1 _ rfl, (evaluation_sound hrows hcondition).2.2.1 rfl⟩

end Expression

end TextTables
