import TextTables.FieldRef
import TextTables.Syntax.Token
import TextTables.Text.Escaped
import TextTables.Value
/-!
Everything that can go wrong with a statement, as a cause; `Error.message` words it.
-/

namespace TextTables

/-! ## Causes -/

/-- What makes a text no statement or no expression. -/
inductive SyntaxFault where
  /-- a character that starts no token -/
  | strayCharacter (c : Char)
  /-- an exclamation mark without an equals sign after it -/
  | loneBang
  /-- a text literal without its closing quote -/
  | openText
  | unexpectedEnd
  | unexpectedToken (t : Token)
  /-- a token where a name has to stand -/
  | notName (t : Token)
  | expected (wanted got : Token)
  /-- a token that starts no operand of an expression -/
  | notOperand (t : Token)
  /-- a token after a whole expression -/
  | trailingToken (t : Token)
  | integerTooLarge
  /-- the star as the argument of an aggregate other than the count -/
  | starArgument (function : String)
  | duplicateColumn (name : String)
  | whereAfterOn
  | unknownAggregate (function : String)
  /-- an aggregate other than the count, of whole records -/
  | countsOnly
deriving Repr, DecidableEq

/-- What makes a text no field or schema. -/
inductive MetadataFault where
  | statement (fault : SyntaxFault)
  | descriptor (text : String)
  | unknownType (word field : String)
  | noFields
  | noSchemaLine (table : String)
deriving Repr, DecidableEq

/-- Why values and records do not convert. -/
inductive ConversionFault where
  | notOfType (raw : String) (type : FieldType)
  | tableWidth (table : String) (fields values : Nat)
  | tupleWidth (fields values : Nat)
  | recordWidth (line table : String) (fields values : Nat)
  /-- a text that holds a character that ends a field or a line -/
  | separatorInText (text : String)
  /-- a text at the start of a record that would read as a lock line -/
  | sentinelInText (text : String)
deriving Repr, DecidableEq

/-- Why a reference names no single field. -/
inductive ReferenceFault where
  | missing (ref : FieldRef)
  | ambiguous (ref : FieldRef)
deriving Repr, DecidableEq

/-- Why an operation does not apply to values. -/
inductive TypeFault where
  | notStorable (value : Value) (type : FieldType)
  | notCondition (value : Value)
  | conditionAsValue
  | incomparable (left right : Value)
  | overflow (left : Int64) (symbol : String) (right : Int64)
  | negationOverflow (n : Int64)
  | negatedText (s : String)
  | notComputable (left : Value) (symbol : String) (right : Value)
  | notAggregable (label : String) (type : FieldType)
  | averagedText (s : String)

/-- Why a store refuses an operation. -/
inductive StorageFault where
  | directoryMissing (path : String)
  | fileMissing (path : String)
  /-- a file that does not hold text -/
  | notText (path : String)
  /-- a path that stands for something of another kind -/
  | wrongKind (path : String)
deriving Repr, DecidableEq

/-- Why a configuration is refused. -/
inductive ConfigFault where
  | malformedLine (line : String)
  | notString (key : String)
  | repeatedKey (key : String)
deriving Repr, DecidableEq

/-- Why a statement fails. -/
inductive Error where
  | tableNotFound (name : String)
  | tableAlreadyExists (name : String)
  | databaseNotFound (name : String)
  | databaseAlreadyExists (name : String)
  | noDatabaseSelected
  | duplicateField (name : String)
  | invalidMetadata (fault : MetadataFault)
  | tableLocked (name : String)
  | recordConversion (fault : ConversionFault)
  | unknownField (fault : ReferenceFault)
  | typeMismatch (fault : TypeFault)
  | malformedExpression (fault : SyntaxFault)
  | divideByZero
  | emptyAggregate (label : String)
  | noActiveTransaction
  | transactionAlreadyActive
  | parse (fault : SyntaxFault)
  | config (fault : ConfigFault)
  | io (fault : StorageFault)
  | fieldPosition (position : Nat)

/-! ## Messages -/

/-- The wording of a syntax fault. -/
def SyntaxFault.message : SyntaxFault → String
  | .strayCharacter c => "[Lexer] Unexpected character " ++ c.toString
  | .loneBang => "[Lexer] Expected = after !"
  | .openText => "[Lexer] Unexpected end of string"
  | .unexpectedEnd => "[Parser] Unexpected end of input"
  | .unexpectedToken t => "[Parser] Unexpected token " ++ t.render
  | .notName t => "[Parser] Expected ident, got token " ++ t.render
  | .expected wanted got => "[Parser] Expected token " ++ wanted.render ++ ", got " ++ got.render
  | .notOperand t => "[Parser] Unexpected expression token " ++ t.render
  | .trailingToken t => "unexpected token " ++ t.render
  | .integerTooLarge => "number too large to fit in target type"
  | .starArgument function => "[Parser] " ++ function ++ "(*) is not supported"
  | .duplicateColumn name => "[Parser] Duplicate column " ++ name ++ " for update"
  | .whereAfterOn => "WHERE cannot follow a JOIN ... ON condition"
  | .unknownAggregate function => "unknown aggregate function " ++ function
  | .countsOnly => "only COUNT accepts *"

/-- The wording of a metadata fault. -/
def MetadataFault.message : MetadataFault → String
  | .statement fault => fault.message
  | .descriptor text => "invalid field descriptor '" ++ text ++ "'"
  | .unknownType word field => "unknown type '" ++ word ++ "' for field " ++ field
  | .noFields => "a table needs at least one field"
  | .noSchemaLine table => "table " ++ table ++ " has no schema line"

/-- The wording of a conversion fault. -/
def ConversionFault.message : ConversionFault → String
  | .notOfType raw type => "cannot convert '" ++ raw ++ "' to " ++ type.name
  | .tableWidth table fields values =>
    "table " ++ table ++ " has " ++ toString fields ++ " fields, got " ++ toString values
      ++ " values"
  | .tupleWidth fields values =>
    "expected " ++ toString fields ++ " values, got " ++ toString values
  | .recordWidth line table fields values =>
    "record '" ++ line ++ "' of table " ++ table ++ " has " ++ toString values
      ++ " values, expected " ++ toString fields
  | .separatorInText text => "text '" ++ Text.escape text ++ "' contains a field or line separator"
  | .sentinelInText text => "text '" ++ text ++ "' cannot start a record"

/-- The wording of a reference fault. -/
def ReferenceFault.message : ReferenceFault → String
  | .missing ref => ref.render
  | .ambiguous ref => ref.render ++ " is ambiguous"

/-- The wording of a type fault. -/
def TypeFault.message : TypeFault → String
  | .notStorable value type =>
    "cannot store " ++ value.type.name ++ " value " ++ value.render ++ " in a " ++ type.name
      ++ " field"
  | .notCondition value => "condition evaluates to " ++ value.render ++ ", not a boolean"
  | .conditionAsValue => "a condition cannot be stored as a value"
  | .incomparable left right => "cannot compare " ++ left.render ++ " with " ++ right.render
  | .overflow left symbol right =>
    "integer overflow in " ++ toString left.toInt ++ " " ++ symbol ++ " " ++ toString right.toInt
  | .negationOverflow n => "integer overflow in -" ++ toString n.toInt
  | .negatedText s => "cannot negate text '" ++ s ++ "'"
  | .notComputable left symbol right =>
    "cannot compute " ++ left.render ++ " " ++ symbol ++ " " ++ right.render
  | .notAggregable label type => label ++ " does not accept a " ++ type.name ++ " field"
  | .averagedText s => "cannot average text '" ++ s ++ "'"

/-- The wording of a storage fault. -/
def StorageFault.message : StorageFault → String
  | .directoryMissing path => "directory " ++ path ++ " does not exist"
  | .fileMissing path => "file " ++ path ++ " does not exist"
  | .notText path => "file " ++ path ++ " does not hold text"
  | .wrongKind path => path ++ " is of another kind"

/-- The wording of a configuration fault. -/
def ConfigFault.message : ConfigFault → String
  | .malformedLine line => "malformed line " ++ line
  | .notString key => key ++ " is not a string"
  | .repeatedKey key => key ++ " is given twice"

/-- The wording of an error. -/
def Error.message : Error → String
  | .tableNotFound name => "table " ++ name ++ " does not exist"
  | .tableAlreadyExists name => "table " ++ name ++ " already exists"
  | .databaseNotFound name => "database " ++ name ++ " does not exist"
  | .databaseAlreadyExists name => "database " ++ name ++ " already exists"
  | .noDatabaseSelected => "no database is being used"
  | .duplicateField name => "field " ++ name ++ " has already been declared"
  | .invalidMetadata fault => "invalid metadata: " ++ fault.message
  | .tableLocked name => "table " ++ name ++ " is locked"
  | .recordConversion fault => "record conversion error: " ++ fault.message
  | .unknownField fault => "unknown field " ++ fault.message
  | .typeMismatch fault => "type mismatch: " ++ fault.message
  | .malformedExpression fault => "malformed expression: " ++ fault.message
  | .divideByZero => "division by zero"
  | .emptyAggregate label => "cannot aggregate " ++ label ++ " over an empty table"
  | .noActiveTransaction => "no transaction is active"
  | .transactionAlreadyActive => "a transaction is already active"
  | .parse fault => "parse error " ++ fault.message
  | .config fault => "config error " ++ fault.message
  | .io fault => "io error " ++ fault.message
  | .fieldPosition position =>
    "internal error field position " ++ toString position ++ " out of range"

end TextTables
