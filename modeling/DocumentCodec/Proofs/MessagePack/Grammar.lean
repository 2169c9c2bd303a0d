import DocumentCodec.MessagePack.Marker
import DocumentCodec.Proofs.Bytes.Recognition
import DocumentCodec.Proofs.Traversal.Contents

namespace DocumentCodec.MessagePack

/-!
# The grammar of MessagePack

Which bytes are a document, and which one, said without a reader.  Headers may
be wider than they need to be.  What follows a marker is told by its layout.
-/

/-- What follows a marker. -/
inductive Layout
  /-- Nothing: the marker is a value. -/
  | constant (value : Value)
  | integer (type : FieldType)
  | float32
  | float64
  /-- A length in the layout of a field type, and so many bytes of text. -/
  | string (type : FieldType)
  /-- A length and so many bytes. -/
  | binary (type : FieldType)
  /-- A length, a type number and so many bytes. -/
  | extension (type : FieldType)
  /-- A type number and a fixed number of bytes. -/
  | fixedExtension (length : Nat)
  /-- A count and so many elements. -/
  | container (kind : ContainerKind) (type : FieldType)

/-- What follows each marker. -/
def Marker.layout : Marker → Layout
  | nil => .constant .null
  | .false => .constant (.bool .false)
  | .true => .constant (.bool .true)
  | bin8 => .binary .uint8
  | bin16 => .binary .uint16BE
  | bin32 => .binary .uint32BE
  | ext8 => .extension .uint8
  | ext16 => .extension .uint16BE
  | ext32 => .extension .uint32BE
  | float32 => .float32
  | float64 => .float64
  | uint8 => .integer .uint8
  | uint16 => .integer .uint16BE
  | uint32 => .integer .uint32BE
  | uint64 => .integer .uint64BE
  | int8 => .integer .int8
  | int16 => .integer .int16BE
  | int32 => .integer .int32BE
  | int64 => .integer .int64BE
  | fixExt1 => .fixedExtension 1
  | fixExt2 => .fixedExtension 2
  | fixExt4 => .fixedExtension 4
  | fixExt8 => .fixedExtension 8
  | fixExt16 => .fixedExtension 16
  | str8 => .string .uint8
  | str16 => .string .uint16BE
  | str32 => .string .uint32BE
  | array16 => .container .array .uint16BE
  | array32 => .container .array .uint32BE
  | map16 => .container .map .uint16BE
  | map32 => .container .map .uint32BE

/-- The integers that 32 bits do not hold. -/
def IsWide (number : Int) : Prop :=
  number < -0x80000000 ∨ 0x80000000 ≤ number

instance (number : Int) : Decidable (IsWide number) := by
  unfold IsWide
  infer_instance

/-- What may follow the markers of scalars, with the values they make up. -/
inductive IsPayload : Layout → Language Value
  | constant (value : Value) : IsPayload (.constant value) [] value
  | int32 {type} (value : Int32)
      (holds : type.Holds value.toInt) :
      IsPayload (.integer type) (type.bytes value.toInt) (.int32 value)
  | int64 {type} (value : Int64)
      (holds : type.Holds value.toInt)
      (wide : IsWide value.toInt) :
      IsPayload (.integer type) (type.bytes value.toInt) (.int64 value)
  | float32 (bits : UInt32) :
      IsPayload .float32 (FieldType.float32BE.bytes bits.toNat) (.float32 bits)
  | float64 (bits : UInt64) :
      IsPayload .float64 (FieldType.float64BE.bytes bits.toNat) (.float64 bits)
  | string {type} (text : String)
      (holds : type.Holds text.utf8ByteSize) :
      IsPayload (.string type)
        (type.bytes text.utf8ByteSize ++ Utf8.encode text)
        (.string text)
  | binary {type} (bytes : ByteArray)
      (holds : type.Holds bytes.size) :
      IsPayload (.binary type)
        (type.bytes bytes.size ++ bytes.data.toList)
        (.binary (.ofBytes bytes))
  | extension {type} (kind : Int8) (data : ByteArray)
      (holds : type.Holds data.size) :
      IsPayload (.extension type)
        (type.bytes data.size ++ (FieldType.int8.bytes kind.toInt ++ data.data.toList))
        (.extension ⟨kind, data⟩)
  | fixedExtension (kind : Int8) (data : ByteArray) :
      IsPayload (.fixedExtension data.size)
        (FieldType.int8.bytes kind.toInt ++ data.data.toList)
        (.extension ⟨kind, data⟩)

/-- The bytes of values that are not containers. -/
inductive IsScalar : Language Value
  | small (value : Int32)
      (lower : -32 ≤ value.toInt)
      (upper : value.toInt < 128) :
      IsScalar (FieldType.int8.bytes value.toInt) (.int32 value)
  | shortString (text : String)
      (short : text.utf8ByteSize ≤ 31) :
      IsScalar
        ([fixString + UInt8.ofNat text.utf8ByteSize] ++ Utf8.encode text)
        (.string text)
  | marked {marker : Marker} {taken value}
      (payload : IsPayload marker.layout taken value) :
      IsScalar ([marker.byte] ++ taken) value

/-- A key in front of a value: a string in a map, nothing in an array. -/
def IsKey : ContainerKind → Language (Option String)
  | .map, taken, key => ∃ text, IsScalar taken (.string text) ∧ key = some text
  | .array, taken, key => taken = [] ∧ key = none

/-- The first lead byte of small containers. -/
def fixContainer : ContainerKind → UInt8
  | .map => fixMap
  | .array => fixArray

/-- The headers of containers, with the numbers of elements they declare. -/
inductive IsHeader (kind : ContainerKind) : Language Nat
  | short {count : Nat}
      (small : count ≤ 15) :
      IsHeader kind [fixContainer kind + UInt8.ofNat count] count
  | marked {marker : Marker} {type : FieldType} {count : Nat}
      (declares : marker.layout = .container kind type)
      (holds : type.Holds count) :
      IsHeader kind ([marker.byte] ++ type.bytes count) count

/-- The bytes of a container's elements, with the elements as they stand. -/
inductive Elements : ContainerKind → Language Contents
  | none {kind : ContainerKind} : Elements kind [] []
  | scalar {kind name key taken value body contents}
      (named : IsKey kind name key)
      (held : IsScalar taken value)
      (others : Elements kind body contents) :
      Elements kind (name ++ taken ++ body) ((key, value) :: contents)
  | nested {kind inner name key header inside held body contents}
      (named : IsKey kind name key)
      (declared : IsHeader inner header held.length)
      (within : Elements inner inside held)
      (others : Elements kind body contents) :
      Elements kind
        (name ++ header ++ inside ++ body)
        ((key, inner.gather held) :: contents)

/-- The bytes of documents, with the documents they stand for. -/
def IsDocument (bytes : List UInt8) (document : Document) : Prop :=
  ∃ header body contents,
    IsHeader .map header contents.length ∧ Elements .map body contents ∧
      bytes = header ++ body ∧ document = ⟨Entries.settled contents.entries⟩

/-- A scalar takes a byte at least. -/
theorem IsScalar.length_pos
    {taken : List UInt8}
    {value : Value}
    (scalar : IsScalar taken value) :
    1 ≤ taken.length := by
  cases scalar with
  | small value lower upper => exact Nat.le_of_eq (FieldType.int8.length_bytes value.toInt).symm
  | shortString text short => exact Nat.succ_le_succ (Nat.zero_le _)
  | marked payload => exact Nat.succ_le_succ (Nat.zero_le _)

/-- A header takes a byte at least. -/
theorem IsHeader.length_pos
    {kind : ContainerKind}
    {taken : List UInt8}
    {count : Nat}
    (header : IsHeader kind taken count) :
    1 ≤ taken.length := by
  cases header with
  | short small => exact Nat.le_refl 1
  | marked declares holds => exact Nat.succ_le_succ (Nat.zero_le _)

end DocumentCodec.MessagePack
