import TextTables.Error
import TextTables.Text.Numeral
/-!
Fields and schemas. A field is written as a descriptor, its name and its declared type; a schema is
written as one line of descriptors between bars. `Schema.find?` looks a reference up and refuses one
that answers to two fields.
-/

namespace TextTables

/-! ## Fields -/

/-- A field of a table. -/
structure Field where
  name : String
  /-- The type as declared, hints such as a size included. -/
  declared : String
  type : FieldType
  /-- The table name or alias that the field is read through; it is never written. -/
  source : Option String
deriving Repr, DecidableEq

/-- Whether a text is a word: one or more letters, numerals and underscores. -/
def isWord (cs : List Char) : Bool := !cs.isEmpty && cs.all Text.isWordChar

/-- Where a scan of hints stands. -/
inductive HintScan where
  | outside
  /-- inside a group, of which a character has been seen or not -/
  | inside (started : Bool)

/-- Whether a text is a row of groups `(word)`, with nothing between them. -/
def isHints : HintScan → List Char → Bool
  | .outside, [] => true
  | .outside, c :: rest => c == '(' && isHints (.inside false) rest
  | .inside _, [] => false
  | .inside started, c :: rest =>
    if c = ')' then started && isHints .outside rest
    else Text.isWordChar c && isHints (.inside true) rest

/-- The field that a descriptor writes: a name and a type word with its hints, apart by blanks. -/
def Field.ofDescriptor (descriptor : String) : Except Error Field :=
  match Text.words descriptor.toList with
  | [name, declared] =>
    let word := declared.takeWhile (· ≠ '(')
    let hints := declared.dropWhile (· ≠ '(')
    if !isWord name || !isHints .outside hints then
      .error (.invalidMetadata (.descriptor descriptor))
    else
      match FieldType.ofWord? (String.ofList word) with
      | some type => .ok ⟨String.ofList name, String.ofList declared, type, none⟩
      | none => .error (.invalidMetadata (.unknownType (String.ofList word) (String.ofList name)))
  | _ => .error (.invalidMetadata (.descriptor descriptor))

/-- The descriptor of a field. -/
def Field.descriptor (field : Field) : String := field.name ++ " " ++ field.declared

/-- Whether a field is one that a reference may mean. -/
def Field.answers (field : Field) (ref : FieldRef) : Bool :=
  field.name == ref.name && (ref.qualifier.isNone || field.source == ref.qualifier)

/-! ## Schemas -/

/-- The fields of a table, in order. -/
structure Schema where
  fields : List Field
deriving Repr, DecidableEq

/-- The number of fields. -/
def Schema.width (schema : Schema) : Nat := schema.fields.length

/-- The schema with a field at the end. Names are distinct within a table. -/
def Schema.add (schema : Schema) (field : Field) : Except Error Schema :=
  if schema.fields.any (·.name == field.name) then .error (.duplicateField field.name)
  else .ok ⟨schema.fields ++ [field]⟩

/-- The schema with the fields of some descriptors at the end. -/
def Schema.addDescriptors (schema : Schema) : List String → Except Error Schema
  | [] => .ok schema
  | descriptor :: rest => do
    let field ← Field.ofDescriptor descriptor
    (← schema.add field).addDescriptors rest

/-- The schema of some descriptors, of which there is at least one. -/
def Schema.ofDescriptors (descriptors : List String) : Except Error Schema := do
  let schema ← Schema.addDescriptors ⟨[]⟩ descriptors
  if schema.fields.isEmpty then throw (.invalidMetadata .noFields)
  return schema

/-- The schema that a line writes. -/
def Schema.decode (line : String) : Except Error Schema :=
  Schema.ofDescriptors (((Text.trim line.toList).splitOn '|').map String.ofList)

/-- The line that writes a schema. -/
def Schema.encode (schema : Schema) : String :=
  String.intercalate "|" (schema.fields.map Field.descriptor)

/-- The schema read through a table name or alias. -/
def Schema.qualify (schema : Schema) (source : String) : Schema :=
  ⟨schema.fields.map fun field => { field with source := some source }⟩

/-- The fields of both schemas. A name may stand in both. -/
def Schema.append (left right : Schema) : Schema := ⟨left.fields ++ right.fields⟩

instance : Append Schema := ⟨Schema.append⟩

/-! ## References -/

/-- The positions of the fields that a reference may mean, in order. -/
def Schema.positions (schema : Schema) (ref : FieldRef) : List Nat :=
  schema.fields.zipIdx.filterMap fun (field, i) => if field.answers ref then some i else none

/-- The position of the field that a reference means, if there is one. -/
def Schema.find? (schema : Schema) (ref : FieldRef) : Except Error (Option Nat) :=
  match schema.positions ref with
  | [] => .ok none
  | [position] => .ok (some position)
  | _ => .error (.unknownField (.ambiguous ⟨none, ref.name⟩))

/-- The position of the field that a reference means. -/
def Schema.resolve (schema : Schema) (ref : FieldRef) : Except Error Nat := do
  match ← schema.find? ref with
  | some position => return position
  | none => throw (.unknownField (.missing ref))

end TextTables
