import TextTables.Proofs.File.Unbroken
import TextTables.Proofs.Text.Case
/-!
# Schema lines

A line is read as a schema exactly if every piece between its bars describes a field and the names of the
fields are distinct (`Schema.decode_eq_ok`). What describes a field is said apart from the reading: two words,
a name and a declared type, which is a word for the type in any case with groups `(word)` glued to it
(`Field.DescribedBy`). A schema that was read, and any that fields are added to afterwards, is read back from
its own line.
-/

namespace TextTables

/-! ## Words for types -/

/-- The words that declare a type, in lower case. -/
def FieldType.words : FieldType → List String
  | .integer => ["int", "integer"]
  | .float => ["float", "double"]
  | .text => ["varchar", "char", "text", "string"]

theorem FieldType.small_of_mem_words {type : FieldType} :
    ∀ word ∈ type.words, ∀ c ∈ word.toList, c.isLower = true ∧ c ≠ 'k' := by
  have hall : type.words.all (fun word => word.toList.all fun c => c.isLower && c != 'k') = true := by
    cases type <;> decide +kernel
  simpa using hall

/-- A type is declared by its words in any case. -/
theorem FieldType.ofWord?_eq_some {word : String} {type : FieldType} :
    ofWord? word = some type ↔ ∃ known ∈ type.words, Text.sameIgnoringCase word known = true := by
  have hmem : ofWord? word = some type ↔ Text.lowerCase word ∈ type.words := by
    rw [ofWord?]
    generalize Text.lowerCase word = lowered
    cases type <;> grind [words]
  rw [hmem]
  constructor
  · intro h
    exact ⟨_, h, (Text.lowerCase_eq_iff_sameIgnoringCase (small_of_mem_words _ h)).1 rfl⟩
  · rintro ⟨known, hknown, hsame⟩
    rwa [(Text.lowerCase_eq_iff_sameIgnoringCase (small_of_mem_words known hknown)).2 hsame]

/-! ## Hints -/

/-- A hint in its parentheses. -/
def hintGroup (hint : List Char) : List Char := '(' :: (hint ++ [')'])

section Hints
variable {cs body rest : List Char} {hints : List (List Char)} {started : Bool}

theorem isHints_inside_append (hbody : ∀ c ∈ body, Text.isWordChar c = true) (h : started = true ∨ body ≠ [])
    (hrest : isHints .outside rest = true) : isHints (.inside started) (body ++ ')' :: rest) = true := by
  induction body generalizing started with
  | nil =>
    have hstarted := h.resolve_right (not_not.2 rfl)
    simp [isHints, hstarted, hrest]
  | cons c body ih =>
    obtain ⟨hc, hbody⟩ := List.forall_mem_cons.1 hbody
    have hclose : c ≠ ')' := by
      rintro rfl
      exact absurd hc (by decide)
    rw [List.cons_append, isHints, if_neg hclose, hc, Bool.true_and]
    exact ih hbody (.inl rfl)

theorem isHints_flatMap (h : ∀ hint ∈ hints, isWord hint = true) :
    isHints .outside (hints.flatMap hintGroup) = true := by
  induction hints with
  | nil => rfl
  | cons hint hints ih =>
    obtain ⟨hhint, hhints⟩ := List.forall_mem_cons.1 h
    obtain ⟨hne, hchars⟩ := Text.isWord_iff.1 hhint
    have hinside : isHints (.inside false) (hint ++ ')' :: hints.flatMap hintGroup) = true :=
      isHints_inside_append hchars (.inr hne) (ih hhints)
    simpa [hintGroup, isHints] using hinside

/-- What a scan accepts is made of groups; inside of one, the rest of its word comes first. -/
theorem exists_hints (cs : List Char) :
    (isHints .outside cs = true →
      ∃ hints : List (List Char), cs = hints.flatMap hintGroup ∧ ∀ hint ∈ hints, isWord hint = true) ∧
    ∀ started, isHints (.inside started) cs = true → ∃ (body : List Char) (hints : List (List Char)),
        cs = body ++ ')' :: hints.flatMap hintGroup ∧
      (∀ c ∈ body, Text.isWordChar c = true) ∧ (started = true ∨ body ≠ []) ∧ ∀ hint ∈ hints, isWord hint = true := by
  induction cs with
  | nil => exact ⟨fun _ => ⟨[], rfl, List.forall_mem_nil _⟩, fun _ h => absurd h Bool.false_ne_true⟩
  | cons c rest ih =>
    constructor
    · intro h
      rw [isHints, Bool.and_eq_true, beq_iff_eq] at h
      obtain ⟨rfl, h⟩ := h
      obtain ⟨body, hints, rfl, hbody, hne, hhints⟩ := ih.2 false h
      refine ⟨body :: hints, by simp [hintGroup], List.forall_mem_cons.2 ⟨?_, hhints⟩⟩
      exact Text.isWord_iff.2 ⟨hne.resolve_left Bool.false_ne_true, hbody⟩
    · intro started h
      rw [isHints] at h
      split at h
      · next hclose =>
        obtain ⟨hstarted, h⟩ := Bool.and_eq_true_iff.1 h
        obtain ⟨hints, rfl, hhints⟩ := ih.1 h
        exact ⟨[], hints, by rw [hclose]; rfl, List.forall_mem_nil _, .inl hstarted, hhints⟩
      · obtain ⟨hc, h⟩ := Bool.and_eq_true_iff.1 h
        obtain ⟨body, hints, rfl, hbody, -, hhints⟩ := ih.2 true h
        exact ⟨c :: body, hints, rfl, List.forall_mem_cons.2 ⟨hc, hbody⟩, .inr (List.cons_ne_nil c body), hhints⟩

end Hints

/-! ## Declared types -/

/-- A text that declares a type: a word for it in any case, and any number of hints glued to it. -/
def FieldType.DeclaredBy (type : FieldType) (declared : List Char) : Prop :=
  ∃ (word : List Char) (hints : List (List Char)), declared = word ++ hints.flatMap hintGroup ∧
    (∃ known ∈ type.words, Text.sameIgnoringCase (String.ofList word) known = true) ∧
    ∀ hint ∈ hints, isWord hint = true

/-- Hints start where the first parenthesis is. -/
theorem FieldType.declaredBy_iff {type : FieldType} {declared : List Char} : type.DeclaredBy declared ↔
    isHints .outside (declared.dropWhile (· ≠ '(')) = true ∧
      ofWord? (String.ofList (declared.takeWhile (· ≠ '('))) = some type := by
  rw [ofWord?_eq_some]
  constructor
  · rintro ⟨word, hints, rfl, ⟨known, hknown, hsame⟩, hhints⟩
    have hsmall := fun c hc => (small_of_mem_words known hknown c hc).1
    obtain ⟨-, hletters⟩ := Text.letters_of_sameIgnoringCase hsmall hsame
    rw [String.toList_ofList] at hletters
    have hword : ∀ c ∈ word, decide (c ≠ '(') = true := by
      rintro c hc
      rw [decide_eq_true_eq]
      rintro rfl
      exact absurd (hletters _ hc) (by decide)
    have htake : (hints.flatMap hintGroup).takeWhile (· ≠ '(') = [] := by cases hints <;> simp [hintGroup]
    have hdrop : (hints.flatMap hintGroup).dropWhile (· ≠ '(') = hints.flatMap hintGroup := by
      cases hints <;> simp [hintGroup]
    rw [List.takeWhile_append_of_pos hword, List.dropWhile_append_of_pos hword, htake, hdrop, List.append_nil]
    exact ⟨isHints_flatMap hhints, known, hknown, hsame⟩
  · rintro ⟨hscan, hknown⟩
    obtain ⟨hints, heq, hhints⟩ := (exists_hints _).1 hscan
    exact ⟨_, hints, by rw [← heq, List.takeWhile_append_dropWhile], hknown, hhints⟩

/-! ## Descriptors -/

/-- The parts of a text that describes a field: there are two, the name and a text that declares the type. -/
structure Field.DescribedBy (field : Field) (parts : List (List Char)) : Prop where
  parts : parts = [field.name.toList, field.declared.toList]
  name : isWord field.name.toList = true
  declared : field.type.DeclaredBy field.declared.toList
  source : field.source = none

theorem Field.ofDescriptor_eq_ok {descriptor : String} {field : Field} :
    Field.ofDescriptor descriptor = .ok field ↔ field.DescribedBy (Text.words descriptor.toList) := by
  constructor
  · intro h
    obtain ⟨hfield, hsource⟩ := Field.wellFormed_of_ofDescriptor h
    refine ⟨?_, hfield.name, FieldType.declaredBy_iff.2 ⟨hfield.hints, hfield.type⟩, hsource⟩
    simp only [Field.ofDescriptor] at h
    split at h
    · next name declared hwords =>
      split at h
      · cases h
      split at h
      · cases h
        simpa using hwords
      · cases h
    · cases h
  · rintro ⟨hwords, hname, hdeclared, hsource⟩
    obtain ⟨hhints, htype⟩ := FieldType.declaredBy_iff.1 hdeclared
    simp only [Field.ofDescriptor, hwords, hname, hhints, htype, Bool.not_true, Bool.or_self, Bool.false_eq_true,
      if_false, String.ofList_toList, ← hsource]

/-! ## Lines -/

namespace Schema

variable {schema schema' : Schema} {descriptors : List String}

theorem distinct_concat {fields : List Field} {field : Field} : ((fields ++ [field]).map (·.name)).Nodup ↔
    field.name ∉ fields.map (·.name) ∧ (fields.map (·.name)).Nodup := by
  rw [List.map_append, List.map_singleton, ← List.concat_eq_append, List.nodup_concat]

/-- The fields of descriptors are added one by one, as long as their names are new. -/
theorem addDescriptors_eq_ok (hdistinct : (schema.fields.map (·.name)).Nodup) :
    schema.addDescriptors descriptors = .ok schema' ↔ ∃ fields, schema'.fields = schema.fields ++ fields ∧
      List.Forall₂ (fun descriptor field => Field.ofDescriptor descriptor = .ok field) descriptors fields ∧
      (schema'.fields.map (·.name)).Nodup := by
  induction descriptors generalizing schema with
  | nil =>
    constructor
    · intro h
      cases h
      exact ⟨[], (List.append_nil _).symm, .nil, hdistinct⟩
    · rintro ⟨fields, hfields, hdescribed, -⟩
      cases hdescribed
      rw [List.append_nil] at hfields
      exact congrArg Except.ok (congrArg Schema.mk hfields.symm)
  | cons descriptor rest ih =>
    constructor
    · intro h
      obtain ⟨field, hfield, h⟩ := Except.bind_eq_ok.1 h
      obtain ⟨next, hnext, h⟩ := Except.bind_eq_ok.1 h
      obtain ⟨hnew, rfl⟩ := add_eq_ok.1 hnext
      obtain ⟨fields, hfields, hdescribed, hnames⟩ := (ih (distinct_concat.2 ⟨hnew, hdistinct⟩)).1 h
      exact ⟨field :: fields, by simpa using hfields, .cons hfield hdescribed, hnames⟩
    · rintro ⟨fields, hfields, hdescribed, hnames⟩
      cases hdescribed with
      | @cons _ field _ fields hfield hdescribed =>
        rw [List.append_cons] at hfields
        have hnext : ((schema.fields ++ [field]).map (·.name)).Nodup := by
          rw [hfields, List.map_append] at hnames
          exact hnames.of_append_left
        refine Except.bind_eq_ok.2 ⟨field, hfield, Except.bind_eq_ok.2 ⟨_, add_eq_ok.2 ⟨?_, rfl⟩, ?_⟩⟩
        · exact (distinct_concat.1 hnext).1
        · exact (ih hnext).2 ⟨fields, hfields, hdescribed, hnames⟩

theorem ofDescriptors_eq_ok : ofDescriptors descriptors = .ok schema ↔ descriptors ≠ [] ∧
    List.Forall₂ (fun descriptor field => Field.ofDescriptor descriptor = .ok field) descriptors schema.fields ∧
    (schema.fields.map (·.name)).Nodup := by
  have hadd {schema' : Schema} := @addDescriptors_eq_ok ⟨[]⟩ schema' descriptors List.nodup_nil
  simp only [List.nil_append, exists_eq_left'] at hadd
  constructor
  · intro h
    have hne := (wellFormed_of_ofDescriptors h).nonempty
    obtain ⟨schema', hall, h⟩ := Except.bind_eq_ok.1 h
    obtain rfl : schema' = schema := by
      cases hempty : schema'.fields.isEmpty with
      | true => simp only [hempty] at h; cases h
      | false => simp only [hempty] at h; cases h; rfl
    obtain ⟨hdescribed, hnames⟩ := hadd.1 hall
    refine ⟨?_, hdescribed, hnames⟩
    rintro rfl
    exact hne (List.forall₂_nil_left_iff.1 hdescribed)
  · rintro ⟨hne, hdescribed, hnames⟩
    refine Except.bind_eq_ok.2 ⟨schema, hadd.2 ⟨hdescribed, hnames⟩, ?_⟩
    have hfields : schema.fields ≠ [] := fun hnil => hne (by rwa [hnil, List.forall₂_nil_right_iff] at hdescribed)
    simp [hfields, pure, Except.pure]

/-- A line is read as a schema exactly if the parts of each piece between bars describe a field of it, in
order, and the names are distinct. -/
theorem decode_eq_ok {line : String} : decode line = .ok schema ↔
    List.Forall₂ (fun parts field => field.DescribedBy parts) ((line.toList.splitOn '|').map Text.words)
      schema.fields ∧ (schema.fields.map (·.name)).Nodup := by
  -- Blanks around the line are blanks around its first and its last piece.
  rw [← Text.words_pieces_trim (by decide : Text.isBlank '|' = false) line.toList, decode, ofDescriptors_eq_ok]
  simp [List.forall₂_map_left_iff, Field.ofDescriptor_eq_ok]

/-! ## Schemas that were read -/

/-- A schema that was read from a line or from descriptors, and then given fields from descriptors. -/
inductive Built : Schema → Prop
  | decode {line : String} {schema : Schema} : Schema.decode line = .ok schema → Built schema
  | ofDescriptors {descriptors : List String} {schema : Schema} :
      Schema.ofDescriptors descriptors = .ok schema → Built schema
  | add {schema schema' : Schema} {descriptor : String} {field : Field} : Built schema →
      Field.ofDescriptor descriptor = .ok field → schema.add field = .ok schema' → Built schema'

theorem source_of_ofDescriptors (h : ofDescriptors descriptors = .ok schema) :
    ∀ field ∈ schema.fields, field.source = none := by
  obtain ⟨-, hdescribed, -⟩ := ofDescriptors_eq_ok.1 h
  clear h
  generalize schema.fields = fields at hdescribed ⊢
  induction hdescribed with
  | nil => nofun
  | cons hfield _ ih => exact List.forall_mem_cons.2 ⟨(Field.wellFormed_of_ofDescriptor hfield).2, ih⟩

theorem Built.wellFormed (h : schema.Built) : schema.WellFormed := by
  induction h with
  | decode h => exact wellFormed_of_ofDescriptors h
  | ofDescriptors h => exact wellFormed_of_ofDescriptors h
  | add _ hfield hadd ih => exact ih.add (Field.wellFormed_of_ofDescriptor hfield).1 hadd

theorem Built.source (h : schema.Built) : ∀ field ∈ schema.fields, field.source = none := by
  induction h with
  | decode h => exact source_of_ofDescriptors h
  | ofDescriptors h => exact source_of_ofDescriptors h
  | add _ hfield hadd ih =>
    obtain ⟨-, rfl⟩ := add_eq_ok.1 hadd
    exact List.forall_mem_append.2 ⟨ih, List.forall_mem_singleton.2 (Field.wellFormed_of_ofDescriptor hfield).2⟩

theorem Built.under_none (h : schema.Built) : schema.under none = schema := by
  rw [Schema.under, Schema.mk.injEq]
  refine (List.map_congr_left fun field hfield => ?_).trans (List.map_id _)
  rw [← h.source field hfield]
  rfl

/-- A line is read as a schema exactly if the parts of each piece between bars are a name and a declared type
and the names are distinct. Whatever was read, and given further fields that were read, has distinct names; its
line has no line break, is no lock line, and is read as that schema again. -/
theorem lines_accepted :
    (∀ line schema, Schema.decode line = .ok schema ↔
      List.Forall₂ (fun parts field => field.DescribedBy parts) ((line.toList.splitOn '|').map Text.words)
        schema.fields ∧ (schema.fields.map (·.name)).Nodup) ∧
    ∀ schema : Schema, schema.Built → (schema.fields.map (·.name)).Nodup ∧
      (∀ c ∈ schema.encode.toList, c ≠ '\n' ∧ c ≠ '\r') ∧ schema.encode.toList.head? ≠ some '&' ∧
      Schema.decode schema.encode = .ok schema := by
  refine ⟨fun line schema => decode_eq_ok, fun schema h => ⟨h.wellFormed.distinct, h.wellFormed.lined_encode, ?_, ?_⟩⟩
  · have hlock := h.wellFormed.isLockLine_encode
    rwa [isLockLine, beq_eq_false_iff_ne] at hlock
  · rw [h.wellFormed.decode_encode, h.under_none]

/-- A schema with hints and a name that is not ASCII, and a field added to it. -/
theorem lines_accepted_extended :
    let name : Field := ⟨"näme", "VarChar(20)(x_1)", .text, none⟩
    let rate : Field := ⟨"rate", "DOUBLE", .float, none⟩
    Schema.decode " id\tInteger|näme VarChar(20)(x_1) " = .ok ⟨[⟨"id", "Integer", .integer, none⟩, name]⟩ ∧
      Schema.decode "id Integer|näme VarChar(20)(x_1)|rate DOUBLE" =
        .ok ⟨[⟨"id", "Integer", .integer, none⟩, name, rate]⟩ := by
  intro name rate
  have hdecode : Schema.decode " id\tInteger|näme VarChar(20)(x_1) " =
    .ok ⟨[⟨"id", "Integer", .integer, none⟩, name]⟩ := rfl
  have hfield : Field.ofDescriptor "rate  DOUBLE" = .ok rate := rfl
  obtain ⟨-, hbuilt⟩ := lines_accepted
  obtain ⟨-, -, -, hagain⟩ := hbuilt _ (.add (.decode hdecode) hfield rfl)
  exact ⟨hdecode, hagain⟩

end Schema

end TextTables
