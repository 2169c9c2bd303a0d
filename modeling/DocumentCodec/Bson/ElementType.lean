import DocumentCodec.Error

namespace DocumentCodec.Bson

/-!
# Element types

Every element of a BSON document starts with a byte that tells its type.
-/

/-- The byte that ends a document. -/
def terminator : UInt8 := 0x00

/-- The size of a document without elements. -/
def minimumSize : Nat := 5

/-- The types of elements. -/
inductive ElementType
  | double
  | string
  | document
  | array
  | binary
  | objectId
  | boolean
  | dateTime
  | null
  | int32
  | int64
  | decimal128
  deriving Repr, DecidableEq

namespace ElementType

/-- Every type, in the order of the tags. -/
def all : List ElementType :=
  [double, string, document, array, binary, objectId, boolean, dateTime, null,
    int32, int64, decimal128]

/-- The byte that announces an element of a type. -/
def tag : ElementType → UInt8
  | double => 0x01
  | string => 0x02
  | document => 0x03
  | array => 0x04
  | binary => 0x05
  | objectId => 0x07
  | boolean => 0x08
  | dateTime => 0x09
  | null => 0x0a
  | int32 => 0x10
  | int64 => 0x12
  | decimal128 => 0x13

/-- The name of a type. -/
def name : ElementType → String
  | double => "DOUBLE"
  | string => "STRING"
  | document => "DOCUMENT"
  | array => "ARRAY"
  | binary => "BINARY"
  | objectId => "OBJECT_ID"
  | boolean => "BOOLEAN"
  | dateTime => "DATETIME"
  | null => "NULL"
  | int32 => "INT32"
  | int64 => "INT64"
  | decimal128 => "DECIMAL128"

/-- The type that a byte announces. -/
def ofTag? (byte : UInt8) : Option ElementType :=
  all.find? fun type => type.tag == byte

/-- The type of a kind of values; single-precision floats and extensions have none. -/
def ofKind? : Kind → Option ElementType
  | .null => some null
  | .bool => some boolean
  | .int32 => some int32
  | .int64 => some int64
  | .float32 => none
  | .float64 => some double
  | .string => some string
  | .binary => some binary
  | .objectId => some objectId
  | .dateTime => some dateTime
  | .decimal => some decimal128
  | .extension => none
  | .array => some array
  | .map => some document

/-- The type of a value, or why it has none. -/
def ofValue (value : Value) : Except EncodeFault ElementType :=
  match ofKind? value.kind with
  | some type => .ok type
  | none => .error (.unsupportedKind value.kind .bson)

/-- Every type is found by its tag. -/
theorem ofTag?_tag (type : ElementType) : ofTag? type.tag = some type := by
  cases type <;> decide

/-- A byte is the tag of the type it announces. -/
theorem tag_of_ofTag?
    {byte : UInt8}
    {type : ElementType}
    (found : ofTag? byte = some type) :
    type.tag = byte := by
  simpa using List.find?_some found

end ElementType

end DocumentCodec.Bson
