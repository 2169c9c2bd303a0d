import DocumentCodec.MessagePack.Marker
import DocumentCodec.Traversal.Writing

namespace DocumentCodec.MessagePack

/-!
# Writing MessagePack

Integers, lengths and counts are written with the shortest header that holds
them, and all numbers are big-endian.  A map's entry is its key, as a string,
and its value; an array's item is its value alone.
-/

/-- A marker's byte. -/
def marker (marker : Marker) : Emission :=
  .byte marker.byte

/-- A marker with a number in the layout of a field type behind it. -/
def marked (lead : Marker) (type : FieldType) (value : Int) : Emission :=
  marker lead ++ .field type value

/-- An integer in the shortest form that holds it. -/
def int (value : Int) : Emission :=
  if 0 ≤ value then
    if value < 0x80 then
      .field .uint8 value
    else if value < 0x100 then
      marked .uint8 .uint8 value
    else if value < 0x10000 then
      marked .uint16 .uint16BE value
    else if value < 0x100000000 then
      marked .uint32 .uint32BE value
    else
      marked .uint64 .uint64BE value
  else if -32 ≤ value then
    .field .int8 value
  else if -0x80 ≤ value then
    marked .int8 .int8 value
  else if -0x8000 ≤ value then
    marked .int16 .int16BE value
  else if -0x80000000 ≤ value then
    marked .int32 .int32BE value
  else
    marked .int64 .int64BE value

/-- A text with its length in the shortest form that holds it. -/
def string (text : String) : Emission :=
  let length := text.utf8ByteSize
  let lengthHeader :=
    if length ≤ 31 then
      .byte (fixString + UInt8.ofNat length)
    else if length < 0x100 then
      marked .str8 .uint8 length
    else if length < 0x10000 then
      marked .str16 .uint16BE length
    else if length < 0x100000000 then
      marked .str32 .uint32BE length
    else
      .refuse (.tooLong .string length)
  lengthHeader ++ .piece text.toUTF8

/-- Bytes with their length in the shortest form that holds it. -/
def bytes (content : ByteArray) : Emission :=
  let length := content.size
  let lengthHeader :=
    if length < 0x100 then
      marked .bin8 .uint8 length
    else if length < 0x10000 then
      marked .bin16 .uint16BE length
    else if length < 0x100000000 then
      marked .bin32 .uint32BE length
    else
      .refuse (.tooLong .binary length)
  lengthHeader ++ .piece content

/-- The marker that tells an extension's length itself, for five lengths. -/
def fixedExtension? : Nat → Option Marker
  | 1 => some .fixExt1
  | 2 => some .fixExt2
  | 4 => some .fixExt4
  | 8 => some .fixExt8
  | 16 => some .fixExt16
  | _ => none

/-- Application data with its length in the shortest form, and its type number. -/
def extension (content : Extension) : Emission :=
  let length := content.data.size
  let lengthHeader :=
    match fixedExtension? length with
    | some fixed => marker fixed
    | none =>
        if length < 0x100 then
          marked .ext8 .uint8 length
        else if length < 0x10000 then
          marked .ext16 .uint16BE length
        else if length < 0x100000000 then
          marked .ext32 .uint32BE length
        else
          .refuse (.tooLong .extension length)
  lengthHeader ++ .field .int8 content.kind.toInt ++ .piece content.data

/-- The count of a container's elements in the shortest form that holds it. -/
def count (kind : ContainerKind) (size : Nat) : Emission :=
  let (small, medium, large) :=
    match kind with
    | .map => (fixMap, Marker.map16, Marker.map32)
    | .array => (fixArray, Marker.array16, Marker.array32)
  if size ≤ 15 then
    .byte (small + UInt8.ofNat size)
  else if size < 0x10000 then
    marked medium .uint16BE size
  else if size < 0x100000000 then
    marked large .uint32BE size
  else
    .refuse (.tooLong .container size)

/-- A map's key; an array's item has none. -/
def key : Key → Emission
  | .name text => string text
  | .index _ => .empty

/-- A value that is not a container. -/
def payload : Value → Emission
  | .null => marker .nil
  | .bool .false => marker .false
  | .bool .true => marker .true
  | .int32 value => int value.toInt
  | .int64 value => int value.toInt
  | .float32 bits => marked .float32 .float32BE bits.toNat
  | .float64 bits => marked .float64 .float64BE bits.toNat
  | .string text => string text
  | .binary content =>
      if content.subtype = Binary.generic then
        bytes content.bytes
      else
        .refuse (.unsupportedSubtype content.subtype)
  | .extension content => extension content
  | value => .refuse (.unsupportedKind value.kind .messagePack)

/-- An element that is not a container. -/
def scalar (name : Key) (value : Value) : Emission :=
  key name ++ payload value

/-- The header of a nested container. -/
def header (name : Key) (container : Container) : Emission :=
  key name ++ count container.kind container.size

/-- The rules for writing MessagePack. -/
def writer : ElementWriter where
  framing := .counted
  root := fun document => count .map document.size
  header := header
  scalar := scalar

end DocumentCodec.MessagePack
