import DocumentCodec.MessagePack.Marker
import DocumentCodec.Traversal.Reading

namespace DocumentCodec.MessagePack

/-!
# Reading MessagePack

Containers declare how many elements follow.  A declared count is held against
the bytes that are left, of which every element takes at least one, and every
entry of a map at least two.
-/

/-- An integer in the narrower width when that holds it. -/
def narrow (value : Int) : Value :=
  if -0x80000000 ≤ value ∧ value < 0x80000000 then
    .int32 (Int32.ofInt value)
  else
    .int64 (Int64.ofInt value)

/-- Read some bytes of text. -/
def readString (length : Nat) : Decode String := do
  let offset ← Decode.position
  let bytes ← Decode.readBytes length
  Decode.decodeText bytes offset

/-- Read a length or count in the layout of an unsigned field type. -/
def readLength (type : FieldType) : Decode Nat :=
  Int.toNat <$> Decode.readField type

/-- Read the length of a string from behind its lead byte, which stands at an offset. -/
def readKeyLength (offset : Nat) (lead : UInt8) : Decode Nat :=
  match Lead.ofByte lead with
  | .string length => pure length
  | .marker .str8 => readLength .uint8
  | .marker .str16 => readLength .uint16BE
  | .marker .str32 => readLength .uint32BE
  | _ => Decode.malformed (.keyNotString offset lead)

/-- Read a map's key, which must be a string. -/
def readKey : Decode String := do
  let offset ← Decode.position
  let lead ← Decode.readByte
  let length ← readKeyLength offset lead
  readString length

/-- The least number of bytes that so many elements of a container take. -/
def minimumBytes (kind : ContainerKind) (count : Nat) : Nat :=
  match kind with
  | .map => count * 2
  | .array => count

/-- Hold a declared count against the bytes that are left. -/
def checkCount (kind : ContainerKind) (count offset : Nat) : Decode Unit := do
  let remaining ← Decode.remaining
  Decode.ensure (minimumBytes kind count ≤ remaining)
    (.corruption (.countTooLarge count offset remaining))

/-- Read the count of a map's entries from behind its lead byte. -/
def readRootCount (lead : UInt8) : Decode Nat :=
  match Lead.ofByte lead with
  | .map count => pure count
  | .marker .map16 => readLength .uint16BE
  | .marker .map32 => readLength .uint32BE
  | _ => Decode.malformed (.rootNotMap lead)

/-- Read the root's header; the whole input must be within the size limit. -/
def readRoot (options : DecodeOptions) : Decode Bounds := do
  let size ← Decode.remaining
  Decode.ensure (size ≤ options.maximumSize)
    (.capacity size options.maximumSize)
  let offset ← Decode.position
  let lead ← Decode.readByte
  let count ← readRootCount lead
  checkCount .map count offset
  let stop ← Decode.limit
  pure ⟨stop, count⟩

/-- Read so many bytes of application data behind their type number. -/
def readExtension (options : DecodeOptions) (length : Nat) :
    Decode Value := do
  let kind ← Decode.readField .int8
  let data ← options.readPayload length
  pure (.extension ⟨Int8.ofInt kind, data⟩)

/-- Read so many bytes without a special meaning. -/
def readBinary (options : DecodeOptions) (length : Nat) : Decode Value := do
  let bytes ← options.readPayload length
  pure (.binary (.ofBytes bytes))

/-- Read an unsigned 64-bit integer, which must fit a signed one. -/
def readUnsigned (offset : Nat) : Decode Value := do
  let value ← Decode.readField .uint64BE
  if value < 0x8000000000000000 then
    pure (narrow value)
  else
    Decode.malformed (.unsignedTooLarge value.toNat offset)

/-- Begin a container that declares so many elements. -/
def openContainer (key : Option String) (parent : Bounds) (offset : Nat)
    (kind : ContainerKind) (count : Nat) : Decode (Element × Bounds) := do
  checkCount kind count offset
  pure (.opened key kind ⟨parent.stop, count⟩, parent)

/-- Finish a scalar element. -/
def readScalar (key : Option String) (parent : Bounds) (payload : Decode Value) :
    Decode (Element × Bounds) := do
  let value ← payload
  pure (.scalar key value, parent)

/-- Read what stands behind a marker, which stands at an offset. -/
def readMarked (options : DecodeOptions) (key : Option String)
    (parent : Bounds) (offset : Nat) : Marker → Decode (Element × Bounds)
  | .nil => readScalar key parent (pure .null)
  | .false => readScalar key parent (pure (.bool false))
  | .true => readScalar key parent (pure (.bool true))
  | .bin8 => readScalar key parent (readLength .uint8 >>= readBinary options)
  | .bin16 => readScalar key parent (readLength .uint16BE >>= readBinary options)
  | .bin32 => readScalar key parent (readLength .uint32BE >>= readBinary options)
  | .ext8 => readScalar key parent (readLength .uint8 >>= readExtension options)
  | .ext16 => readScalar key parent (readLength .uint16BE >>= readExtension options)
  | .ext32 => readScalar key parent (readLength .uint32BE >>= readExtension options)
  | .float32 =>
      readScalar key parent <|
        (fun bits => .float32 (UInt32.ofInt bits)) <$> Decode.readField .float32BE
  | .float64 =>
      readScalar key parent <|
        (fun bits => .float64 (UInt64.ofInt bits)) <$> Decode.readField .float64BE
  | .uint8 => readScalar key parent (narrow <$> Decode.readField .uint8)
  | .uint16 => readScalar key parent (narrow <$> Decode.readField .uint16BE)
  | .uint32 => readScalar key parent (narrow <$> Decode.readField .uint32BE)
  | .uint64 => readScalar key parent (readUnsigned offset)
  | .int8 => readScalar key parent (narrow <$> Decode.readField .int8)
  | .int16 => readScalar key parent (narrow <$> Decode.readField .int16BE)
  | .int32 => readScalar key parent (narrow <$> Decode.readField .int32BE)
  | .int64 => readScalar key parent (narrow <$> Decode.readField .int64BE)
  | .fixExt1 => readScalar key parent (readExtension options 1)
  | .fixExt2 => readScalar key parent (readExtension options 2)
  | .fixExt4 => readScalar key parent (readExtension options 4)
  | .fixExt8 => readScalar key parent (readExtension options 8)
  | .fixExt16 => readScalar key parent (readExtension options 16)
  | .str8 =>
      readScalar key parent (Value.string <$> (readLength .uint8 >>= readString))
  | .str16 =>
      readScalar key parent (Value.string <$> (readLength .uint16BE >>= readString))
  | .str32 =>
      readScalar key parent (Value.string <$> (readLength .uint32BE >>= readString))
  | .array16 => readLength .uint16BE >>= openContainer key parent offset .array
  | .array32 => readLength .uint32BE >>= openContainer key parent offset .array
  | .map16 => readLength .uint16BE >>= openContainer key parent offset .map
  | .map32 => readLength .uint32BE >>= openContainer key parent offset .map

/-- Read what stands behind a value's lead byte, which stands at an offset. -/
def readContents (options : DecodeOptions) (key : Option String)
    (parent : Bounds) (offset : Nat) (lead : UInt8) :
    Decode (Element × Bounds) :=
  match Lead.ofByte lead with
  | .integer value => readScalar key parent (pure (.int32 value))
  | .map count => openContainer key parent offset .map count
  | .array count => openContainer key parent offset .array count
  | .string length =>
      readScalar key parent (Value.string <$> readString length)
  | .marker marker => readMarked options key parent offset marker
  | .reserved => Decode.malformed (.reservedMarker lead offset)

/-- Read an entry's key in a map, and nothing in an array. -/
def readEntryKey (kind : ContainerKind) : Decode (Option String) :=
  match kind with
  | .map => some <$> readKey
  | .array => pure none

/-- Read the next of the declared elements of a container. -/
def readDeclared (options : DecodeOptions) (kind : ContainerKind)
    (bounds : Bounds) : Decode (Element × Bounds) := do
  let key ← readEntryKey kind
  let offset ← Decode.position
  let lead ← Decode.readByte
  readContents options key bounds offset lead

/-- Read the next element of a container, or its end when none is left. -/
def readElement (options : DecodeOptions) (kind : ContainerKind)
    (bounds : Bounds) : Decode (Element × Bounds) :=
  if bounds.remaining = 0 then
    pure (.finished, bounds)
  else
    readDeclared options kind ⟨bounds.stop, bounds.remaining - 1⟩

/-- A string takes its bytes, which may be none, and gives none back. -/
theorem readString_shrinking (length : Nat) :
    Decode.Shrinking (readString length) :=
  Decode.position_shrinking.bind fun _ =>
    (Decode.readBytes_shrinking _).bind fun _ =>
      Decode.decodeText_shrinking _ _

/-- A length takes its field. -/
theorem readLength_shrinking (type : FieldType) :
    Decode.Shrinking (readLength type) :=
  (Decode.readField_shrinking type).map _

/-- The length of a key takes its field, if it is not in the leading byte. -/
theorem readKeyLength_shrinking (offset : Nat) (lead : UInt8) :
    Decode.Shrinking (readKeyLength offset lead) := by
  unfold readKeyLength
  split
  · exact Decode.Shrinking.pure _
  · exact readLength_shrinking .uint8
  · exact readLength_shrinking .uint16BE
  · exact readLength_shrinking .uint32BE
  · exact Decode.malformed_shrinking _

/-- A key takes its length and its bytes. -/
theorem readKey_shrinking : Decode.Shrinking readKey :=
  Decode.position_shrinking.bind fun _ =>
    Decode.readByte_consuming.shrinking.bind fun _ =>
      (readKeyLength_shrinking _ _).bind fun _ =>
        readString_shrinking _

/-- The count of a container is checked against what follows, and nothing is read. -/
theorem checkCount_shrinking (kind : ContainerKind) (count offset : Nat) :
    Decode.Shrinking (checkCount kind count offset) :=
  Decode.remaining_shrinking.bind fun _ => Decode.ensure_shrinking _ _

/-- An extension takes its type and its bytes. -/
theorem readExtension_shrinking (options : DecodeOptions) (length : Nat) :
    Decode.Shrinking (readExtension options length) :=
  (Decode.readField_shrinking _).bind fun _ =>
    (options.readPayload_shrinking _).bind fun _ =>
      Decode.Shrinking.pure _

/-- A binary takes its bytes, copied or shared. -/
theorem readBinary_shrinking (options : DecodeOptions) (length : Nat) :
    Decode.Shrinking (readBinary options length) :=
  (options.readPayload_shrinking _).bind fun _ =>
    Decode.Shrinking.pure _

/-- An unsigned integer takes its eight bytes, even when it is too large. -/
theorem readUnsigned_shrinking (offset : Nat) :
    Decode.Shrinking (readUnsigned offset) := by
  refine (Decode.readField_shrinking _).bind fun _ => ?_
  split
  · exact Decode.Shrinking.pure _
  · exact Decode.malformed_shrinking _

/-- A container is opened and its elements are left. -/
theorem openContainer_shrinking
    (key : Option String)
    (parent : Bounds)
    (offset : Nat)
    (kind : ContainerKind)
    (count : Nat) :
    Decode.Shrinking (openContainer key parent offset kind count) :=
  (checkCount_shrinking _ _ _).bind fun _ => Decode.Shrinking.pure _

/-- A scalar takes what its payload takes. -/
theorem readScalar_shrinking
    (key : Option String)
    (parent : Bounds)
    {payload : Decode Value}
    (shrinking : Decode.Shrinking payload) :
    Decode.Shrinking (readScalar key parent payload) :=
  shrinking.bind fun _ => Decode.Shrinking.pure _

/-- What stands behind a marker is taken as the marker has it. -/
theorem readMarked_shrinking
    (options : DecodeOptions)
    (key : Option String)
    (parent : Bounds)
    (offset : Nat)
    (marker : Marker) :
    Decode.Shrinking (readMarked options key parent offset marker) := by
  have opened (type : FieldType) (kind : ContainerKind) :
      Decode.Shrinking
        (readLength type >>= openContainer key parent offset kind) :=
    (readLength_shrinking type).bind fun _ => openContainer_shrinking _ _ _ _ _
  have texts (type : FieldType) :
      Decode.Shrinking (Value.string <$> (readLength type >>= readString)) :=
    ((readLength_shrinking type).bind fun _ => readString_shrinking _).map _
  have extensions (type : FieldType) :
      Decode.Shrinking (readLength type >>= readExtension options) :=
    (readLength_shrinking type).bind fun _ => readExtension_shrinking _ _
  have binaries (type : FieldType) :
      Decode.Shrinking (readLength type >>= readBinary options) :=
    (readLength_shrinking type).bind fun _ => readBinary_shrinking _ _
  cases marker with
  | nil => exact readScalar_shrinking _ _ (Decode.Shrinking.pure _)
  | false => exact readScalar_shrinking _ _ (Decode.Shrinking.pure _)
  | true => exact readScalar_shrinking _ _ (Decode.Shrinking.pure _)
  | bin8 => exact readScalar_shrinking _ _ (binaries .uint8)
  | bin16 => exact readScalar_shrinking _ _ (binaries .uint16BE)
  | bin32 => exact readScalar_shrinking _ _ (binaries .uint32BE)
  | ext8 => exact readScalar_shrinking _ _ (extensions .uint8)
  | ext16 => exact readScalar_shrinking _ _ (extensions .uint16BE)
  | ext32 => exact readScalar_shrinking _ _ (extensions .uint32BE)
  | float32 => exact readScalar_shrinking _ _ ((Decode.readField_shrinking _).map _)
  | float64 => exact readScalar_shrinking _ _ ((Decode.readField_shrinking _).map _)
  | uint8 => exact readScalar_shrinking _ _ ((Decode.readField_shrinking _).map _)
  | uint16 => exact readScalar_shrinking _ _ ((Decode.readField_shrinking _).map _)
  | uint32 => exact readScalar_shrinking _ _ ((Decode.readField_shrinking _).map _)
  | uint64 => exact readScalar_shrinking _ _ (readUnsigned_shrinking _)
  | int8 => exact readScalar_shrinking _ _ ((Decode.readField_shrinking _).map _)
  | int16 => exact readScalar_shrinking _ _ ((Decode.readField_shrinking _).map _)
  | int32 => exact readScalar_shrinking _ _ ((Decode.readField_shrinking _).map _)
  | int64 => exact readScalar_shrinking _ _ ((Decode.readField_shrinking _).map _)
  | fixExt1 => exact readScalar_shrinking _ _ (readExtension_shrinking _ _)
  | fixExt2 => exact readScalar_shrinking _ _ (readExtension_shrinking _ _)
  | fixExt4 => exact readScalar_shrinking _ _ (readExtension_shrinking _ _)
  | fixExt8 => exact readScalar_shrinking _ _ (readExtension_shrinking _ _)
  | fixExt16 => exact readScalar_shrinking _ _ (readExtension_shrinking _ _)
  | str8 => exact readScalar_shrinking _ _ (texts .uint8)
  | str16 => exact readScalar_shrinking _ _ (texts .uint16BE)
  | str32 => exact readScalar_shrinking _ _ (texts .uint32BE)
  | array16 => exact opened .uint16BE .array
  | array32 => exact opened .uint32BE .array
  | map16 => exact opened .uint16BE .map
  | map32 => exact opened .uint32BE .map

/-- What stands behind a leading byte is taken and not given back. -/
theorem readContents_shrinking
    (options : DecodeOptions)
    (key : Option String)
    (parent : Bounds)
    (offset : Nat)
    (lead : UInt8) :
    Decode.Shrinking (readContents options key parent offset lead) := by
  unfold readContents
  split
  · exact readScalar_shrinking _ _ (Decode.Shrinking.pure _)
  · exact openContainer_shrinking _ _ _ _ _
  · exact openContainer_shrinking _ _ _ _ _
  · exact readScalar_shrinking _ _ ((readString_shrinking _).map _)
  · exact readMarked_shrinking _ _ _ _ _
  · exact Decode.malformed_shrinking _

/-- The key in front of an element takes its bytes, if there is one. -/
theorem readEntryKey_shrinking (kind : ContainerKind) :
    Decode.Shrinking (readEntryKey kind) := by
  cases kind with
  | map => exact readKey_shrinking.map _
  | array => exact Decode.Shrinking.pure _

/-- Every declared element takes at least its lead byte. -/
theorem readDeclared_consuming
    (options : DecodeOptions) (kind : ContainerKind) (bounds : Bounds) :
    Decode.Consuming (readDeclared options kind bounds) :=
  Decode.Consuming.after (readEntryKey_shrinking kind) fun _ =>
    Decode.Consuming.after Decode.position_shrinking fun _ =>
      Decode.readByte_consuming.bind fun _ =>
        readContents_shrinking _ _ _ _ _

/-- Every element but the end of a container takes at least its lead byte. -/
theorem readElement_progress
    {options : DecodeOptions}
    {kind : ContainerKind}
    {bounds after : Bounds}
    {reader rest : ByteReader}
    {element : Element}
    (ran : readElement options kind bounds reader = .ok ((element, after), rest)) :
    rest.unread + element.minimumSize ≤ reader.unread := by
  unfold readElement at ran
  split at ran
  · cases ran
    exact Nat.le_refl _
  · have consumed := readDeclared_consuming _ _ _ ran
    cases element <;> simp only [Element.minimumSize] <;> omega

/-- The rules for reading MessagePack. -/
def reader : ElementReader where
  root := readRoot
  next := readElement
  progress := readElement_progress

end DocumentCodec.MessagePack
