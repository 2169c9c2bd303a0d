import DocumentCodec.Bson.Decimal128
import DocumentCodec.Bson.ElementType
import DocumentCodec.Bytes.Scan
import DocumentCodec.Text.Numeral
import DocumentCodec.Traversal.Writing

namespace DocumentCodec.Bson

/-!
# Writing BSON

An element is its type's tag, its key with a zero byte, and its payload.  All
numbers are little-endian.  Elements of arrays are keyed by the decimal
numerals of their positions.
-/

/-- A length as four bytes, which a part of a document must not outgrow. -/
def length (part : Measured) (size : Nat) : Emission :=
  if size ≤ Framing.maximumLength then
    .field .int32 size
  else
    .refuse (.tooManyBytes part size)

/-- A key and the zero byte behind it; a name must not hold one itself. -/
def key : Key → Emission
  | .name text =>
      if (Scan.findByte? text.toUTF8 0 0).isSome then
        .refuse (.keyWithZero text)
      else
        .piece text.toUTF8 ++ .byte 0
  | .index position =>
      .ofList (Numeral.ofNat position) ++ .byte 0

/-- A text with its length and a zero byte behind it, both counted. -/
def string (text : String) : Emission :=
  length .string (text.utf8ByteSize + 1) ++ .piece text.toUTF8 ++ .byte 0

/-- Tagged bytes with their length; the old subtype repeats it. -/
def binary (binary : Binary) : Emission :=
  let size := binary.bytes.size
  let header :=
    if binary.subtype = Binary.old then
      length .binary (size + 4) ++ .byte binary.subtype ++ length .binary size
    else
      length .binary size ++ .byte binary.subtype
  header ++ .piece binary.bytes

/-- A decimal's words, low word first. -/
def decimal (decimal : Decimal) : Emission :=
  match Decimal128.ofDecimal decimal with
  | .ok words =>
      .field .uint64 words.low.toNat ++
        .field .uint64 words.high.toNat
  | .error fault => .refuse fault

/-- The payload of a scalar. -/
def payload : Value → Emission
  | .null => .empty
  | .bool value => .byte value.toUInt8
  | .int32 value => .field .int32 value.toInt
  | .int64 value => .field .int64 value.toInt
  | .float64 bits => .field .float64 bits.toNat
  | .string text => string text
  | .binary value => binary value
  | .objectId identifier => .ofList identifier.toList
  | .dateTime time => .field .int64 time.millis.toInt
  | .decimal value => decimal value
  | value => .refuse (.unsupportedKind value.kind .bson)

/-- An element that is not a container. -/
def scalar (name : Key) (value : Value) : Emission :=
  match ElementType.ofValue value with
  | .ok type => .byte type.tag ++ key name ++ payload value
  | .error fault => .refuse fault

/-- The header of a nested container, up to its length. -/
def header (name : Key) (container : Container) : Emission :=
  let type :=
    match container.kind with
    | .map => ElementType.document
    | .array => ElementType.array
  .byte type.tag ++ key name

/-- The rules for writing BSON. -/
def writer : ElementWriter where
  framing := .measured
  root := fun _ => .empty
  header := header
  scalar := scalar

end DocumentCodec.Bson
