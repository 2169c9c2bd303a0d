import DocumentCodec.Bson.Decimal128
import DocumentCodec.Bson.ElementType
import DocumentCodec.Proofs.Bytes.Recognition
import DocumentCodec.Proofs.Traversal.Contents
import DocumentCodec.Traversal.Writing

namespace DocumentCodec.Bson

/-!
# The grammar of BSON

Which bytes are a document, and which one, said without a reader: an element
is a tag, a key and a payload, and a container has its length in front and a
zero byte at its end.
-/

/-- The type that announces a nested container. -/
def ElementType.ofContainer : ContainerKind → ElementType
  | .map => .document
  | .array => .array

/--
A key with the zero byte behind it.  In a map it is a text; in an array it may
be any bytes, which stand for nothing.
-/
def IsKey (kind : ContainerKind) : Language (Option String) :=
  fun taken key =>
    ∃ name : List UInt8, 0 ∉ name ∧ taken = name ++ [0] ∧
      match kind with
      | .map => ∃ text, name = Utf8.encode text ∧ key = some text
      | .array => key = none

/-- The payloads of scalar elements, with what they stand for. -/
inductive IsPayload : ElementType → Language Value
  | double (bits : UInt64) :
      IsPayload .double (FieldType.float64.bytes bits.toNat) (.float64 bits)
  | string (text : String)
      (fits : text.utf8ByteSize + 1 ≤ Framing.maximumLength) :
      IsPayload .string
        (FieldType.int32.bytes (text.utf8ByteSize + 1) ++ Utf8.encode text ++ [0])
        (.string text)
  | binary (subtype : UInt8) (bytes : ByteArray)
      (plain : subtype ≠ Binary.old)
      (fits : bytes.size ≤ Framing.maximumLength) :
      IsPayload .binary
        (FieldType.int32.bytes bytes.size ++ [subtype] ++ bytes.data.toList)
        (.binary ⟨subtype, bytes⟩)
  | oldBinary (bytes : ByteArray)
      (fits : bytes.size + 4 ≤ Framing.maximumLength) :
      IsPayload .binary
        (FieldType.int32.bytes (bytes.size + 4) ++ [Binary.old] ++
          FieldType.int32.bytes bytes.size ++ bytes.data.toList)
        (.binary ⟨Binary.old, bytes⟩)
  | objectId (identifier : ObjectId) :
      IsPayload .objectId identifier.toList (.objectId identifier)
  | boolean (value : Bool) :
      IsPayload .boolean [value.toUInt8] (.bool value)
  | dateTime (time : DateTime) :
      IsPayload .dateTime (FieldType.int64.bytes time.millis.toInt) (.dateTime time)
  | null : IsPayload .null [] .null
  | int32 (value : Int32) :
      IsPayload .int32 (FieldType.int32.bytes value.toInt) (.int32 value)
  | int64 (value : Int64) :
      IsPayload .int64 (FieldType.int64.bytes value.toInt) (.int64 value)
  | decimal (words : Decimal128) (decimal : Decimal)
      (number : words.isNaN = false)
      (finite : words.isInfinite = false)
      (meaning : words.toDecimal = .ok decimal) :
      IsPayload .decimal128
        (FieldType.uint64.bytes words.low.toNat ++
          FieldType.uint64.bytes words.high.toNat)
        (.decimal decimal)

/-- The elements of a container between its length and the zero byte at its end. -/
def framed (body : List UInt8) : List UInt8 :=
  FieldType.int32.bytes (body.length + minimumSize) ++ body ++ [terminator]

/-- The bytes of a container's elements, with the elements as they stand. -/
inductive Elements : ContainerKind → Language Contents
  | none {kind : ContainerKind} : Elements kind [] []
  | scalar {kind type name key payload value body contents}
      (named : IsKey kind name key)
      (held : IsPayload type payload value)
      (others : Elements kind body contents) :
      Elements kind
        ([type.tag] ++ name ++ payload ++ body)
        ((key, value) :: contents)
  | nested {kind inner name key inside held body contents}
      (named : IsKey kind name key)
      (within : Elements inner inside held)
      (fits : inside.length + minimumSize ≤ Framing.maximumLength)
      (others : Elements kind body contents) :
      Elements kind
        ([(ElementType.ofContainer inner).tag] ++ name ++ framed inside ++ body)
        ((key, inner.gather held) :: contents)

/-- The bytes of documents, with the documents they stand for. -/
def IsDocument (bytes : List UInt8) (document : Document) : Prop :=
  ∃ body contents,
    Elements .map body contents ∧
      body.length + minimumSize ≤ Framing.maximumLength ∧
        bytes = framed body ∧ document = ⟨Entries.settled contents.entries⟩

/-- A frame adds the length in front and the zero behind. -/
theorem length_framed (body : List UInt8) :
    (framed body).length = body.length + minimumSize := by
  rw [framed, List.length_append, List.length_append, FieldType.length_bytes,
    List.length_singleton]
  change 4 + body.length + 1 = body.length + 5
  omega

/-- No document is longer than its length can tell. -/
theorem IsDocument.length_le
    {bytes : List UInt8}
    {document : Document}
    (isDocument : IsDocument bytes document) :
    bytes.length ≤ Framing.maximumLength := by
  obtain ⟨body, contents, _, fits, rfl, _⟩ := isDocument
  rwa [length_framed]

end DocumentCodec.Bson
