import DocumentCodec.Value.Basic

namespace DocumentCodec.MessagePack

/-!
# Lead bytes

Every MessagePack value starts with a lead byte.  Some lead bytes hold a small
integer or a short length themselves; the others are markers that tell what
follows.  One byte is never used.
-/

/-- The lead bytes that hold no value and no length. -/
inductive Marker
  | nil
  | false
  | true
  | bin8
  | bin16
  | bin32
  | ext8
  | ext16
  | ext32
  | float32
  | float64
  | uint8
  | uint16
  | uint32
  | uint64
  | int8
  | int16
  | int32
  | int64
  | fixExt1
  | fixExt2
  | fixExt4
  | fixExt8
  | fixExt16
  | str8
  | str16
  | str32
  | array16
  | array32
  | map16
  | map32
  deriving Repr, DecidableEq

namespace Marker

/-- Every marker, in the order of their bytes. -/
def all : List Marker :=
  [nil, .false, .true, bin8, bin16, bin32, ext8, ext16, ext32, float32, float64,
    uint8, uint16, uint32, uint64, int8, int16, int32, int64, fixExt1, fixExt2,
    fixExt4, fixExt8, fixExt16, str8, str16, str32, array16, array32, map16,
    map32]

/-- The byte of a marker. -/
def byte : Marker → UInt8
  | nil => 0xc0
  | false => 0xc2
  | true => 0xc3
  | bin8 => 0xc4
  | bin16 => 0xc5
  | bin32 => 0xc6
  | ext8 => 0xc7
  | ext16 => 0xc8
  | ext32 => 0xc9
  | float32 => 0xca
  | float64 => 0xcb
  | uint8 => 0xcc
  | uint16 => 0xcd
  | uint32 => 0xce
  | uint64 => 0xcf
  | int8 => 0xd0
  | int16 => 0xd1
  | int32 => 0xd2
  | int64 => 0xd3
  | fixExt1 => 0xd4
  | fixExt2 => 0xd5
  | fixExt4 => 0xd6
  | fixExt8 => 0xd7
  | fixExt16 => 0xd8
  | str8 => 0xd9
  | str16 => 0xda
  | str32 => 0xdb
  | array16 => 0xdc
  | array32 => 0xdd
  | map16 => 0xde
  | map32 => 0xdf

/-- The name of a marker. -/
def name : Marker → String
  | nil => "NIL"
  | false => "FALSE"
  | true => "TRUE"
  | bin8 => "BIN8"
  | bin16 => "BIN16"
  | bin32 => "BIN32"
  | ext8 => "EXT8"
  | ext16 => "EXT16"
  | ext32 => "EXT32"
  | float32 => "FLOAT32"
  | float64 => "FLOAT64"
  | uint8 => "UINT8"
  | uint16 => "UINT16"
  | uint32 => "UINT32"
  | uint64 => "UINT64"
  | int8 => "INT8"
  | int16 => "INT16"
  | int32 => "INT32"
  | int64 => "INT64"
  | fixExt1 => "FIXEXT1"
  | fixExt2 => "FIXEXT2"
  | fixExt4 => "FIXEXT4"
  | fixExt8 => "FIXEXT8"
  | fixExt16 => "FIXEXT16"
  | str8 => "STR8"
  | str16 => "STR16"
  | str32 => "STR32"
  | array16 => "ARRAY16"
  | array32 => "ARRAY32"
  | map16 => "MAP16"
  | map32 => "MAP32"

/-- The marker of a byte. -/
def ofByte? (lead : UInt8) : Option Marker :=
  all.find? fun marker => marker.byte == lead

/-- Every marker is found by its byte. -/
theorem ofByte?_byte (marker : Marker) : ofByte? marker.byte = some marker := by
  cases marker <;> decide

end Marker

/-- The first lead byte of small maps. -/
def fixMap : UInt8 := 0x80

/-- The first lead byte of small arrays. -/
def fixArray : UInt8 := 0x90

/-- The first lead byte of short strings. -/
def fixString : UInt8 := 0xa0

/-- The first lead byte of small negative integers. -/
def fixNegative : UInt8 := 0xe0

/-- What a lead byte announces. -/
inductive Lead
  /-- A small integer. -/
  | integer (value : Int32)
  /-- A map with so many entries. -/
  | map (count : Nat)
  /-- An array with so many items. -/
  | array (count : Nat)
  /-- A string of so many bytes. -/
  | string (length : Nat)
  /-- What a marker tells. -/
  | marker (marker : Marker)
  /-- Nothing: the byte is not used. -/
  | reserved
  deriving Repr, DecidableEq

/-- The meaning of a lead byte. -/
def Lead.ofByte (lead : UInt8) : Lead :=
  if lead < fixMap then
    integer (Int32.ofNat lead.toNat)
  else if lead < fixArray then
    map (lead - fixMap).toNat
  else if lead < fixString then
    array (lead - fixArray).toNat
  else if lead < 0xc0 then
    string (lead - fixString).toNat
  else if fixNegative ≤ lead then
    integer lead.toInt8.toInt32
  else
    match Marker.ofByte? lead with
    | some found => marker found
    | none => reserved

end DocumentCodec.MessagePack
