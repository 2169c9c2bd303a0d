import DocumentCodec.Bson.Decimal128
import DocumentCodec.Bson.ElementType
import DocumentCodec.Traversal.Reading

namespace DocumentCodec.Bson

/-!
# Reading BSON

A document declares its length, and so does every container in it.  An
element must lie inside its container, a container inside its parent, and a
container must end with a zero byte exactly where it declared.
-/

/-- Read a document's length, which the size limit and the input must allow. -/
def readRoot (options : DecodeOptions) : Decode Bounds := do
  let start ← Decode.position
  let available ← Decode.remaining
  let declared ← Decode.readField .int32
  Decode.ensure ((minimumSize : Int) ≤ declared)
    (.corruption (.documentTooShort declared minimumSize))
  let length := declared.toNat
  Decode.ensure (length ≤ options.maximumSize)
    (.capacity length options.maximumSize)
  Decode.ensure (length ≤ available) (.truncated length available)
  pure ⟨start + length, 0⟩

/-- Read a text with its length in front and a zero byte behind it. -/
def readString : Decode String := do
  let offset ← Decode.position
  let length ← Decode.readField .int32
  Decode.ensure (1 ≤ length)
    (.format (.stringTooShort length offset))
  let bytes ← Decode.readBytes (length.toNat - 1)
  let last ← Decode.readByte
  Decode.ensure (last == 0) (.format (.stringNotTerminated offset))
  Decode.decodeText bytes offset

/-- Read tagged bytes; the old subtype must repeat their length. -/
def readBinary (options : DecodeOptions) : Decode Binary := do
  let offset ← Decode.position
  let length ← Decode.readField .int32
  Decode.ensure (0 ≤ length)
    (.format (.negativeBinaryLength length offset))
  let subtype ← Decode.readByte
  if subtype = Binary.old then
    Decode.ensure (4 ≤ length)
      (.corruption (.oldBinaryTooShort length offset))
    let inner ← Decode.readField .int32
    Decode.ensure (inner == length - 4)
      (.corruption
        (.oldBinaryMismatch offset inner (length - 4)))
    let bytes ← options.readPayload inner.toNat
    pure ⟨subtype, bytes⟩
  else
    let bytes ← options.readPayload length.toNat
    pure ⟨subtype, bytes⟩

/-- Read a truth value. -/
def readBoolean : Decode Bool := do
  let offset ← Decode.position
  let byte ← Decode.readByte
  if byte = 0 then
    pure false
  else if byte = 1 then
    pure true
  else
    Decode.malformed (.invalidBoolean byte offset)

/-- Read the twelve bytes of an identifier. -/
def readObjectId : Decode ObjectId := do
  let bytes ← Decode.readBytes ObjectId.size
  pure (.ofList bytes.data.toList)

/-- Read the milliseconds of a point in time. -/
def readDateTime : Decode DateTime := do
  let millis ← Decode.readField .int64
  pure ⟨Int64.ofInt millis⟩

/-- Read a decimal's words, low word first. -/
def readDecimal : Decode Decimal := do
  let low ← Decode.readField .uint64
  let high ← Decode.readField .uint64
  match Decimal128.toDecimal ⟨UInt64.ofInt low, UInt64.ofInt high⟩ with
  | .ok decimal => pure decimal
  | .error fault => Decode.malformed fault

/-- Read a nested container's length, which must stay inside the parent. -/
def readNested (key : Option String) (kind : ContainerKind)
    (parent : Bounds) : Decode (Element × Bounds) := do
  let start ← Decode.position
  let length ← Decode.readField .int32
  Decode.ensure ((minimumSize : Int) ≤ length)
    (.corruption (.nestedTooShort length start minimumSize))
  let stop := start + length.toNat
  Decode.ensure (stop ≤ parent.stop)
    (.corruption (.nestedTooLong length.toNat start parent.stop))
  pure (.opened key kind ⟨stop, 0⟩, parent)

/-- Read a key up to its zero byte; in an array it is passed over. -/
def readKey (kind : ContainerKind) (offset : Nat) : Decode (Option String) := do
  let bytes ← Decode.readZeroTerminated
  match kind with
  | .map => some <$> Decode.decodeText bytes offset
  | .array => pure none

/-- Read a scalar element's payload. -/
def readScalar (key : Option String) (parent : Bounds) (payload : Decode Value) :
    Decode (Element × Bounds) := do
  let value ← payload
  pure (.scalar key value, parent)

/-- Read what stands behind an element's key. -/
def readContents (options : DecodeOptions) (key : Option String)
    (parent : Bounds) : ElementType → Decode (Element × Bounds)
  | .double => readScalar key parent <|
      (fun bits => .float64 (UInt64.ofInt bits)) <$> Decode.readField .float64
  | .string => readScalar key parent (Value.string <$> readString)
  | .document => readNested key .map parent
  | .array => readNested key .array parent
  | .binary => readScalar key parent (Value.binary <$> readBinary options)
  | .objectId => readScalar key parent (Value.objectId <$> readObjectId)
  | .boolean => readScalar key parent (Value.bool <$> readBoolean)
  | .dateTime => readScalar key parent (Value.dateTime <$> readDateTime)
  | .null => readScalar key parent (pure .null)
  | .int32 => readScalar key parent <|
      (fun value => .int32 (Int32.ofInt value)) <$> Decode.readField .int32
  | .int64 => readScalar key parent <|
      (fun value => .int64 (Int64.ofInt value)) <$> Decode.readField .int64
  | .decimal128 => readScalar key parent (Value.decimal <$> readDecimal)

/-- Read what stands behind an element's tag, which stands at an offset. -/
def readTagged (options : DecodeOptions) (kind : ContainerKind)
    (parent : Bounds) (offset : Nat) (tag : UInt8) :
    Decode (Element × Bounds) := do
  match ElementType.ofTag? tag with
  | none => Decode.malformed (.unknownElementType tag offset)
  | some type =>
      let key ← readKey kind (offset + 1)
      readContents options key parent type

/-- Read the next element of a container, or its end. -/
def readElement (options : DecodeOptions) (kind : ContainerKind)
    (bounds : Bounds) : Decode (Element × Bounds) := do
  let offset ← Decode.position
  Decode.ensure (offset < bounds.stop)
    (.corruption (.missingTerminator bounds.stop))
  let tag ← Decode.readByte
  if tag = terminator then
    Decode.ensure (offset + 1 == bounds.stop)
      (.corruption (.misplacedTerminator offset bounds.stop))
    pure (.finished, bounds)
  else
    readTagged options kind bounds offset tag

/-- A string takes its bytes and gives none back. -/
theorem readString_shrinking : Decode.Shrinking readString :=
  Decode.position_shrinking.bind fun _ =>
    (Decode.readField_shrinking _).bind fun _ =>
      (Decode.ensure_shrinking _ _).bind fun _ =>
        (Decode.readBytes_shrinking _).bind fun _ =>
          Decode.readByte_consuming.shrinking.bind fun _ =>
            (Decode.ensure_shrinking _ _).bind fun _ =>
              Decode.decodeText_shrinking _ _

/-- A binary takes its bytes, copied or shared, and gives none back. -/
theorem readBinary_shrinking (options : DecodeOptions) :
    Decode.Shrinking (readBinary options) := by
  refine Decode.position_shrinking.bind fun _ =>
    (Decode.readField_shrinking _).bind fun _ =>
      (Decode.ensure_shrinking _ _).bind fun _ =>
        Decode.readByte_consuming.shrinking.bind fun _ => ?_
  split
  · exact (Decode.ensure_shrinking _ _).bind fun _ =>
      (Decode.readField_shrinking _).bind fun _ =>
        (Decode.ensure_shrinking _ _).bind fun _ =>
          (options.readPayload_shrinking _).bind fun _ =>
            Decode.Shrinking.pure _
  · exact (options.readPayload_shrinking _).bind fun _ =>
      Decode.Shrinking.pure _

/-- A boolean takes its byte, even when that is none of the two values. -/
theorem readBoolean_shrinking : Decode.Shrinking readBoolean := by
  refine Decode.position_shrinking.bind fun _ =>
    Decode.readByte_consuming.shrinking.bind fun _ => ?_
  split
  · exact Decode.Shrinking.pure _
  · split
    · exact Decode.Shrinking.pure _
    · exact Decode.malformed_shrinking _

/-- A decimal takes its two words, even when they stand for no number. -/
theorem readDecimal_shrinking : Decode.Shrinking readDecimal := by
  refine (Decode.readField_shrinking _).bind fun _ =>
    (Decode.readField_shrinking _).bind fun _ => ?_
  split
  · exact Decode.Shrinking.pure _
  · exact Decode.malformed_shrinking _

/-- The length of a nested container is taken, and its contents are left. -/
theorem readNested_shrinking
    (key : Option String) (kind : ContainerKind) (parent : Bounds) :
    Decode.Shrinking (readNested key kind parent) :=
  Decode.position_shrinking.bind fun _ =>
    (Decode.readField_shrinking _).bind fun _ =>
      (Decode.ensure_shrinking _ _).bind fun _ =>
        (Decode.ensure_shrinking _ _).bind fun _ =>
          Decode.Shrinking.pure _

/-- A key takes its bytes, of a map as of an array. -/
theorem readKey_shrinking (kind : ContainerKind) (offset : Nat) :
    Decode.Shrinking (readKey kind offset) := by
  refine Decode.readZeroTerminated_shrinking.bind fun _ => ?_
  cases kind with
  | map => exact (Decode.decodeText_shrinking _ _).map some
  | array => exact Decode.Shrinking.pure none

/-- A scalar takes what its payload takes. -/
theorem readScalar_shrinking
    (key : Option String)
    (parent : Bounds)
    {payload : Decode Value}
    (shrinking : Decode.Shrinking payload) :
    Decode.Shrinking (readScalar key parent payload) :=
  shrinking.bind fun _ => Decode.Shrinking.pure _

/-- What stands behind an element's key is taken and not given back. -/
theorem readContents_shrinking
    (options : DecodeOptions)
    (key : Option String)
    (parent : Bounds)
    (type : ElementType) :
    Decode.Shrinking (readContents options key parent type) := by
  cases type with
  | double => exact readScalar_shrinking _ _ ((Decode.readField_shrinking _).map _)
  | string => exact readScalar_shrinking _ _ (readString_shrinking.map _)
  | document => exact readNested_shrinking _ _ _
  | array => exact readNested_shrinking _ _ _
  | binary => exact readScalar_shrinking _ _ ((readBinary_shrinking _).map _)
  | objectId =>
      refine readScalar_shrinking _ _ (Decode.Shrinking.map ?_ _)
      exact (Decode.readBytes_shrinking _).bind fun _ => Decode.Shrinking.pure _
  | boolean => exact readScalar_shrinking _ _ (readBoolean_shrinking.map _)
  | dateTime =>
      refine readScalar_shrinking _ _ (Decode.Shrinking.map ?_ _)
      exact (Decode.readField_shrinking _).bind fun _ => Decode.Shrinking.pure _
  | null => exact readScalar_shrinking _ _ (Decode.Shrinking.pure _)
  | int32 => exact readScalar_shrinking _ _ ((Decode.readField_shrinking _).map _)
  | int64 => exact readScalar_shrinking _ _ ((Decode.readField_shrinking _).map _)
  | decimal128 => exact readScalar_shrinking _ _ (readDecimal_shrinking.map _)

/-- An element goes on behind its tag, whatever the tag is. -/
theorem readTagged_shrinking
    (options : DecodeOptions)
    (kind : ContainerKind)
    (parent : Bounds)
    (offset : Nat)
    (tag : UInt8) :
    Decode.Shrinking (readTagged options kind parent offset tag) := by
  unfold readTagged
  split
  · exact Decode.malformed_shrinking _
  · exact (readKey_shrinking _ _).bind fun _ => readContents_shrinking _ _ _ _

/-- Every element takes at least its tag, and so does the end of a container. -/
theorem readElement_consuming
    (options : DecodeOptions) (kind : ContainerKind) (bounds : Bounds) :
    Decode.Consuming (readElement options kind bounds) := by
  refine Decode.Consuming.after Decode.position_shrinking fun _ =>
    Decode.Consuming.after (Decode.ensure_shrinking _ _) fun _ =>
      Decode.readByte_consuming.bind fun _ => ?_
  split
  · exact (Decode.ensure_shrinking _ _).bind fun _ => Decode.Shrinking.pure _
  · exact readTagged_shrinking _ _ _ _ _

/-- Every element takes at least one byte, its tag. -/
theorem readElement_progress
    {options : DecodeOptions}
    {kind : ContainerKind}
    {bounds after : Bounds}
    {reader rest : ByteReader}
    {element : Element}
    (ran : readElement options kind bounds reader = .ok ((element, after), rest)) :
    rest.unread + element.minimumSize ≤ reader.unread := by
  have consumed := readElement_consuming options kind bounds ran
  cases element <;> simp only [Element.minimumSize] <;> omega

/-- The rules for reading BSON. -/
def reader : ElementReader where
  root := readRoot
  next := readElement
  progress := readElement_progress

end DocumentCodec.Bson
