import TextTables.Proofs.Store.Action
import TextTables.Proofs.Text.Words
import TextTables.File.Lock
import TextTables.Schema
/-!
# Schemas as lines

A field that was read from a descriptor can be read again from its own descriptor, and a schema of
such fields from its own line. `Schema.WellFormed` is what reading a schema establishes and adding
fields keeps.
-/

namespace TextTables

open Text (isBlank isWordChar isPlain)

/-! ## Descriptors -/

theorem mem_lowerAfter_of_bar {before cs : List Char} (h : '|' ∈ cs) : '|' ∈ Text.lowerAfter before cs := by
  induction cs generalizing before with
  | nil => cases h
  | cons c rest ih =>
    simp only [Text.lowerAfter, List.mem_append]
    rcases List.mem_cons.1 h with rfl | h
    · left
      rw [if_neg (by decide)]
      decide
    · exact .inr (ih h)

/-- No word that declares a type holds a bar. -/
theorem FieldType.bar_not_mem_of_ofWord? {word : List Char} {type : FieldType}
    (h : FieldType.ofWord? (String.ofList word) = some type) : '|' ∉ word := by
  intro hbar
  -- A bar is still there in lower case, and no word for a type has one.
  have hlower : '|' ∈ (Text.lowerCase (String.ofList word)).toList := by
    rw [Text.lowerCase, String.toList_ofList, String.toList_ofList]
    exact mem_lowerAfter_of_bar hbar
  simp only [FieldType.ofWord?] at h
  generalize Text.lowerCase (String.ofList word) = lowered at h hlower
  have hno : lowered ∉ ["int", "integer", "float", "double", "varchar", "char", "text", "string"] := by
    intro hmem
    simp only [List.mem_cons, List.not_mem_nil, or_false] at hmem
    rcases hmem with rfl | rfl | rfl | rfl | rfl | rfl | rfl | rfl <;> revert hlower <;> decide
  simp_all

theorem isPlain_of_isHints {scan : HintScan} {cs : List Char} (h : isHints scan cs = true) :
    ∀ c ∈ cs, isPlain c = true := by
  induction cs generalizing scan with
  | nil => simp
  | cons c rest ih =>
    have hopen : isPlain '(' = true := by decide
    have hclose : isPlain ')' = true := by decide
    cases scan with
    | outside =>
      simp only [isHints, Bool.and_eq_true, beq_iff_eq] at h
      obtain ⟨rfl, h⟩ := h
      simpa [hopen] using ih h
    | inside started =>
      simp only [isHints] at h
      split at h
      · next hc =>
        subst hc
        simp only [Bool.and_eq_true] at h
        simpa [hclose] using ih h.2
      · simp only [Bool.and_eq_true] at h
        simpa [Text.isPlain_of_isWordChar h.1] using ih h.2

/-! ## Fields -/

/-- A field whose descriptor can be read. -/
structure Field.WellFormed (field : Field) : Prop where
  name : isWord field.name.toList = true
  declared : field.declared.toList ≠ [] ∧ ∀ c ∈ field.declared.toList, isBlank c = false
  hints : isHints .outside (field.declared.toList.dropWhile (· ≠ '(')) = true
  type : FieldType.ofWord? (String.ofList (field.declared.toList.takeWhile (· ≠ '('))) =
    some field.type

theorem Field.wellFormed_of_ofDescriptor {descriptor : String} {field : Field}
    (h : Field.ofDescriptor descriptor = .ok field) : field.WellFormed ∧ field.source = none := by
  simp only [Field.ofDescriptor] at h
  split at h
  · next name declared hwords =>
    split at h
    · cases h
    · next hcheck =>
      simp only [Bool.or_eq_true, Bool.not_eq_true', not_or, Bool.not_eq_false] at hcheck
      split at h
      · next type htype =>
        cases h
        have hdeclared : declared ∈ Text.words descriptor.toList := by simp [hwords]
        refine ⟨⟨?_, ?_, ?_, ?_⟩, rfl⟩ <;> simp only [String.toList_ofList]
        · exact hcheck.1
        · exact Text.mem_words hdeclared
        · exact hcheck.2
        · exact htype
      · cases h
  · cases h

namespace Field.WellFormed

variable {field : Field} {c : Char}

theorem name_ne_nil (h : field.WellFormed) : field.name.toList ≠ [] := by
  exact (Text.isWord_iff.1 h.name).1

theorem name_plain (h : field.WellFormed) (hc : c ∈ field.name.toList) : isPlain c = true := by
  exact Text.isPlain_of_isWordChar ((Text.isWord_iff.1 h.name).2 c hc)

theorem bar_not_mem_declared (h : field.WellFormed) : '|' ∉ field.declared.toList := by
  rw [← List.takeWhile_append_dropWhile (p := (· ≠ '(')) (l := field.declared.toList),
    List.mem_append, not_or]
  exact ⟨FieldType.bar_not_mem_of_ofWord? h.type, fun hc =>
    Text.ne_bar_of_isPlain (isPlain_of_isHints h.hints _ hc) rfl⟩

theorem toList_descriptor (field : Field) :
    field.descriptor.toList = field.name.toList ++ ' ' :: field.declared.toList := by
  simp [Field.descriptor]

theorem bar_not_mem_descriptor (h : field.WellFormed) : '|' ∉ field.descriptor.toList := by
  rw [toList_descriptor, List.mem_append, List.mem_cons, not_or, not_or]
  exact ⟨fun hc => Text.ne_bar_of_isPlain (h.name_plain hc) rfl, by decide, h.bar_not_mem_declared⟩

/-- A well-formed field is read back from its descriptor, without the name it is read through. -/
theorem ofDescriptor (h : field.WellFormed) :
    Field.ofDescriptor field.descriptor = .ok { field with source := none } := by
  have hwords : Text.words field.descriptor.toList = [field.name.toList, field.declared.toList] := by
    rw [toList_descriptor]
    exact Text.words_two h.name_ne_nil h.declared.1
      (fun c hc => Text.isBlank_of_isPlain (h.name_plain hc)) h.declared.2
  simp only [Field.ofDescriptor, hwords, h.name, h.hints, h.type, Bool.not_true, Bool.or_self,
    Bool.false_eq_true, if_false, String.ofList_toList]

end Field.WellFormed

/-! ## Schemas -/

/-- Fields that can be read from their descriptors, with distinct names. -/
structure Schema.Proper (schema : Schema) : Prop where
  distinct : (schema.fields.map (·.name)).Nodup
  fields : ∀ field ∈ schema.fields, field.WellFormed

/-- A schema that can be read from its line. -/
structure Schema.WellFormed (schema : Schema) : Prop extends Schema.Proper schema where
  nonempty : schema.fields ≠ []

/-- The schema read through another name or alias, or through none. -/
def Schema.under (schema : Schema) (source : Option String) : Schema :=
  ⟨schema.fields.map fun field => { field with source }⟩

namespace Schema

variable {schema schema' : Schema} {field : Field}

theorem add_eq_ok : schema.add field = .ok schema' ↔
    field.name ∉ schema.fields.map (·.name) ∧ schema' = ⟨schema.fields ++ [field]⟩ := by
  have hany : (schema.fields.any (·.name == field.name)) = true ↔
      field.name ∈ schema.fields.map (·.name) := by
    simp only [List.any_eq_true, beq_iff_eq, List.mem_map]
  by_cases hmem : field.name ∈ schema.fields.map (·.name)
  · rw [add, if_pos (hany.2 hmem)]
    exact ⟨nofun, fun h => absurd hmem h.1⟩
  · rw [add, if_neg (mt hany.1 hmem)]
    exact ⟨fun h => ⟨hmem, (Except.ok.inj h).symm⟩, fun h => by rw [h.2]⟩

theorem Proper.add (h : schema.Proper) (hfield : field.WellFormed)
    (hadd : schema.add field = .ok schema') : schema'.Proper := by
  obtain ⟨hnew, rfl⟩ := add_eq_ok.1 hadd
  refine ⟨?_, fun f hf => ?_⟩
  · rw [List.map_append, List.nodup_append]
    refine ⟨h.distinct, by simp, fun a ha b hb => ?_⟩
    rw [List.map_singleton, List.mem_singleton] at hb
    rintro rfl
    exact hnew (hb ▸ ha)
  · rcases List.mem_append.1 hf with hf | hf
    · exact h.fields f hf
    · rwa [List.mem_singleton.1 hf]

theorem Proper.addDescriptors {descriptors : List String} (h : schema.Proper)
    (hadd : schema.addDescriptors descriptors = .ok schema') : schema'.Proper := by
  induction descriptors generalizing schema with
  | nil => cases hadd; exact h
  | cons descriptor rest ih =>
    obtain ⟨field, hfield, hadd⟩ := Except.bind_eq_ok.1 hadd
    obtain ⟨next, hnext, hadd⟩ := Except.bind_eq_ok.1 hadd
    exact ih (h.add (Field.wellFormed_of_ofDescriptor hfield).1 hnext) hadd

theorem wellFormed_of_ofDescriptors {descriptors : List String}
    (h : ofDescriptors descriptors = .ok schema) : schema.WellFormed := by
  obtain ⟨schema', hadd, h⟩ := Except.bind_eq_ok.1 h
  have hempty : Proper ⟨[]⟩ := ⟨List.nodup_nil, by simp⟩
  have hproper := hempty.addDescriptors hadd
  cases hnone : schema'.fields.isEmpty with
  | true => simp only [hnone] at h; cases h
  | false =>
    simp only [hnone] at h
    cases h
    exact ⟨hproper, by simpa using hnone⟩

theorem WellFormed.add (h : schema.WellFormed) (hfield : field.WellFormed)
    (hadd : schema.add field = .ok schema') : schema'.WellFormed := by
  refine ⟨h.toProper.add hfield hadd, ?_⟩
  obtain ⟨-, rfl⟩ := add_eq_ok.1 hadd
  simp

theorem qualify_eq_under (schema : Schema) (source : String) :
    schema.qualify source = schema.under (some source) := rfl

@[simp] theorem types_under (schema : Schema) (source : Option String) :
    (schema.under source).fields.map (·.type) = schema.fields.map (·.type) := by
  simp [under, Function.comp_def]

@[simp] theorem under_under (schema : Schema) (first second : Option String) :
    (schema.under first).under second = schema.under second := by
  simp [under, Function.comp_def]

theorem WellFormed.under (h : schema.WellFormed) (source : Option String) :
    (schema.under source).WellFormed := by
  refine ⟨⟨?_, fun field hfield => ?_⟩, ?_⟩
  · simpa [Schema.under, Function.comp_def] using h.distinct
  · obtain ⟨field', hfield', rfl⟩ := List.mem_map.1 hfield
    obtain ⟨hname, hdeclared, hhints, htype⟩ := h.fields field' hfield'
    exact ⟨hname, hdeclared, hhints, htype⟩
  · simpa [Schema.under] using h.nonempty

/-! ## Schema lines -/

theorem addDescriptors_descriptors {fields added : List Field}
    (hfields : ∀ field ∈ fields, field.WellFormed)
    (hdistinct : ((added ++ fields).map (·.name)).Nodup) :
    addDescriptors ⟨added⟩ (fields.map Field.descriptor) =
      .ok ⟨added ++ fields.map fun field => { field with source := none }⟩ := by
  induction fields generalizing added with
  | nil => simp [addDescriptors]
  | cons field rest ih =>
    have hnew : Schema.add ⟨added⟩ { field with source := none } =
        .ok ⟨added ++ [{ field with source := none }]⟩ := by
      refine add_eq_ok.2 ⟨fun hmem => ?_, rfl⟩
      rw [List.map_append, List.nodup_append] at hdistinct
      exact hdistinct.2.2 field.name hmem field.name (by simp) rfl
    have hrest := @ih (added ++ [{ field with source := none }])
      (fun f hf => hfields f (List.mem_cons_of_mem field hf)) (by simpa using hdistinct)
    rw [List.map_cons, addDescriptors, List.map_cons]
    refine Except.bind_eq_ok.2 ⟨_, (hfields field List.mem_cons_self).ofDescriptor,
      Except.bind_eq_ok.2 ⟨_, hnew, ?_⟩⟩
    simpa using hrest

theorem toList_encode (schema : Schema) : schema.encode.toList =
    List.intercalate ['|'] (schema.fields.map fun field => field.descriptor.toList) := by
  simp [encode, String.toList_intercalate, Function.comp_def]

/-- The line of a well-formed schema starts with the name of its first field. -/
theorem WellFormed.isPlain_head?_encode (h : schema.WellFormed) :
    ∀ c ∈ schema.encode.toList.head?, isPlain c = true := by
  obtain ⟨field, rest, hfields⟩ := List.exists_cons_of_ne_nil h.nonempty
  have hfield : field.WellFormed := h.fields field (by simp [hfields])
  obtain ⟨c, tail, hname⟩ := List.exists_cons_of_ne_nil hfield.name_ne_nil
  have hhead : schema.encode.toList.head? = some c := by
    rw [toList_encode, hfields, List.map_cons, Text.head?_intercalate] <;>
      simp [Field.WellFormed.toList_descriptor, hname]
  rintro c' hc'
  obtain rfl := Option.some.inj (hhead.symm.trans hc')
  exact hfield.name_plain (by simp [hname])

/-- The line of a well-formed schema ends with the type of its last field. -/
theorem WellFormed.isBlank_getLast?_encode (h : schema.WellFormed) :
    ∀ c ∈ schema.encode.toList.getLast?, isBlank c = false := by
  have hne : (schema.fields.map fun field => field.descriptor.toList) ≠ [] := by simpa using h.nonempty
  obtain ⟨l, hl, hlast⟩ := Text.getLast?_intercalate hne fun l hl => by
    obtain ⟨field, -, rfl⟩ := List.mem_map.1 hl
    simp [Field.WellFormed.toList_descriptor]
  obtain ⟨field, hfield, rfl⟩ := List.mem_map.1 hl
  obtain ⟨hdeclared, hblank⟩ := (h.fields field hfield).declared
  obtain ⟨last, hdlast⟩ := Option.ne_none_iff_exists'.1 (mt List.getLast?_eq_none_iff.1 hdeclared)
  have henc : schema.encode.toList.getLast? = some last := by
    rw [toList_encode, hlast, Field.WellFormed.toList_descriptor, List.getLast?_append,
      List.getLast?_cons, hdlast]
    rfl
  rintro c hc
  obtain rfl := Option.some.inj (henc.symm.trans hc)
  exact hblank _ (List.mem_of_getLast? hdlast)

/-- A well-formed schema is read back from its line, without the name that it is read through. -/
theorem WellFormed.decode_encode (h : schema.WellFormed) :
    decode schema.encode = .ok (schema.under none) := by
  -- No descriptor has a bar in it, so the line is split where it was joined.
  have hsplit : schema.encode.toList.splitOn '|' =
      schema.fields.map fun field => field.descriptor.toList := by
    rw [toList_encode, List.splitOn_intercalate]
    · intro l hl
      obtain ⟨field, hfield, rfl⟩ := List.mem_map.1 hl
      exact (h.fields field hfield).bar_not_mem_descriptor
    · simpa using h.nonempty
  have hfirst := fun c hc => Text.isBlank_of_isPlain (h.isPlain_head?_encode c hc)
  have hadd := @addDescriptors_descriptors schema.fields [] h.fields h.distinct
  rw [decode, Text.trim_eq_self hfirst h.isBlank_getLast?_encode, hsplit, ofDescriptors]
  simp only [List.map_map, Function.comp_def, String.ofList_toList]
  refine Except.bind_eq_ok.2 ⟨_, hadd, ?_⟩
  simp [h.nonempty, Schema.under, pure, Except.pure]

theorem WellFormed.isLockLine_encode (h : schema.WellFormed) : isLockLine schema.encode = false := by
  rw [isLockLine, beq_eq_false_iff_ne]
  exact fun hhead => Text.ne_ampersand_of_isPlain (h.isPlain_head?_encode '&' hhead) rfl

end Schema

end TextTables
