import DocumentCodec.Value.DateTime
import DocumentCodec.Value.Decimal
import DocumentCodec.Value.Ieee
import DocumentCodec.Value.ObjectId

namespace DocumentCodec

/-!
# Values

A value is a scalar, an array of values or a map from text keys to values.
The entries of a map keep the order in which their keys were first inserted.
-/

/-- Bytes with a tag that tells what they are for. -/
structure Binary where
  subtype : UInt8
  bytes : ByteArray
  deriving Inhabited

instance : DecidableEq Binary
  | ⟨subtype, bytes⟩, ⟨otherSubtype, otherBytes⟩ =>
      if sameSubtype : subtype = otherSubtype then
        match ByteArray.instDecidableEq bytes otherBytes with
        | .isTrue sameBytes => .isTrue (by rw [sameSubtype, sameBytes])
        | .isFalse differ => .isFalse fun same => differ (congrArg Binary.bytes same)
      else
        .isFalse fun same => sameSubtype (congrArg Binary.subtype same)

namespace Binary

/-- The subtype of bytes without a special meaning. -/
def generic : UInt8 := 0x00

/-- The subtype of a function. -/
def function : UInt8 := 0x01

/-- The subtype whose payload repeats its own length. -/
def old : UInt8 := 0x02

/-- The subtype of a universally unique identifier. -/
def uuid : UInt8 := 0x04

/-- The subtype of an MD5 digest. -/
def md5 : UInt8 := 0x05

/-- The first subtype free for applications. -/
def user : UInt8 := 0x80

/-- Bytes without a special meaning. -/
def ofBytes (bytes : ByteArray) : Binary :=
  ⟨generic, bytes⟩

end Binary

/-- Application data with a signed type number. -/
structure Extension where
  kind : Int8
  data : ByteArray
  deriving Inhabited

instance : DecidableEq Extension
  | ⟨kind, data⟩, ⟨otherKind, otherData⟩ =>
      if sameKind : kind = otherKind then
        match ByteArray.instDecidableEq data otherData with
        | .isTrue sameData => .isTrue (by rw [sameKind, sameData])
        | .isFalse differ => .isFalse fun same => differ (congrArg Extension.data same)
      else
        .isFalse fun same => sameKind (congrArg Extension.kind same)

/-- A document tree or a leaf of one. -/
inductive Value
  | null
  | bool (value : Bool)
  | int32 (value : Int32)
  | int64 (value : Int64)
  | float32 (bits : UInt32)
  | float64 (bits : UInt64)
  | string (text : String)
  | binary (binary : Binary)
  | objectId (identifier : ObjectId)
  | dateTime (time : DateTime)
  | decimal (decimal : Decimal)
  | extension (extension : Extension)
  | array (items : List Value)
  | map (entries : List (String × Value))
  deriving Inhabited

/-- The kinds of values. -/
inductive Kind
  | null | bool | int32 | int64 | float32 | float64 | string | binary
  | objectId | dateTime | decimal | extension | array | map
  deriving Repr, DecidableEq

namespace Kind

/-- The name of a kind in error texts. -/
def name : Kind → String
  | null => "null"
  | bool => "bool"
  | int32 => "int32"
  | int64 => "int64"
  | float32 => "float32"
  | float64 => "float64"
  | string => "string"
  | binary => "binary"
  | objectId => "object id"
  | dateTime => "datetime"
  | decimal => "decimal128"
  | extension => "extension"
  | array => "array"
  | map => "map"

end Kind

namespace Value

/-- The kind of a value. -/
def kind : Value → Kind
  | null => .null
  | bool _ => .bool
  | int32 _ => .int32
  | int64 _ => .int64
  | float32 _ => .float32
  | float64 _ => .float64
  | string _ => .string
  | binary _ => .binary
  | objectId _ => .objectId
  | dateTime _ => .dateTime
  | decimal _ => .decimal
  | extension _ => .extension
  | array _ => .array
  | map _ => .map

/-- Whether a value is the null value. -/
def isNull : Value → Bool
  | null => true
  | _ => false

/-- Whether a value holds other values. -/
def isContainer : Value → Bool
  | array _ => true
  | map _ => true
  | _ => false

/-- The values held directly by a value. -/
def children : Value → List Value
  | array items => items
  | map entries => entries.map Prod.snd
  | _ => []

/-- No value has size zero. -/
theorem sizeOf_pos (value : Value) : 0 < sizeOf value :=
  Nat.pos_of_ne_zero (by cases value <;> simp)

/-- The truth value held by a value. -/
def bool? : Value → Option Bool
  | bool value => some value
  | _ => none

/-- The integer held by a value of either width, when 32 bits hold it. -/
def int32? : Value → Option Int32
  | int32 value => some value
  | int64 value =>
      if value.toInt32.toInt64 = value then some value.toInt32 else none
  | _ => none

/-- The integer held by a value of either width. -/
def int64? : Value → Option Int64
  | int32 value => some value.toInt64
  | int64 value => some value
  | _ => none

/-- The floating-point number held by a value, widened to double precision. -/
def float64? : Value → Option UInt64
  | float32 bits => some (Ieee.widen bits)
  | float64 bits => some bits
  | _ => none

/-- The text held by a value. -/
def string? : Value → Option String
  | string text => some text
  | _ => none

/-- The tagged bytes held by a value. -/
def binary? : Value → Option Binary
  | binary value => some value
  | _ => none

/-- The identifier held by a value. -/
def objectId? : Value → Option ObjectId
  | objectId identifier => some identifier
  | _ => none

/-- The point in time held by a value. -/
def dateTime? : Value → Option DateTime
  | dateTime time => some time
  | _ => none

/-- The decimal held by a value. -/
def decimal? : Value → Option Decimal
  | decimal value => some value
  | _ => none

/-- The application data held by a value. -/
def extension? : Value → Option Extension
  | extension value => some value
  | _ => none

/-- The items of an array. -/
def array? : Value → Option (List Value)
  | array items => some items
  | _ => none

/-- The entries of a map. -/
def map? : Value → Option (List (String × Value))
  | map entries => some entries
  | _ => none

end Value

end DocumentCodec
