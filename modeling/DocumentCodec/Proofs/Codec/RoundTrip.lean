import DocumentCodec.Proofs.Bson.Encoding
import DocumentCodec.Proofs.Codec.Decoding
import DocumentCodec.Proofs.Codec.Results
import DocumentCodec.Proofs.MessagePack.Encoding

namespace DocumentCodec.Codec

/-!
# From documents to bytes and back

What a codec encodes it decodes to the document it came from: in BSON to the
very same tree, in MessagePack to the tree with its integers narrowed.
-/

variable {codec : Codec} {format : Format} {document : Document} {encoded : List UInt8}

/-- With a slot free, a codec encodes what has an encoding, and keeps its settings. -/
theorem encode_of_encodeDocument
    (reachable : codec.Reachable)
    (free : codec.buffers.gate.inUse < codec.buffers.gate.ceiling)
    (encodes : format.writer.encodeDocument document = .ok encoded) :
    (codec.encode format document).1 = .ok ⟨encoded.toArray⟩ ∧
      (codec.encode format document).2.config = codec.config := by
  refine ⟨?_, config_encode codec format document⟩
  rw [encode_eq_encoding reachable.clean free, Format.encoding, encodes]

/-- What a codec encodes it decodes to what the grammar derives from the encoding. -/
theorem exists_encode_decode
    {derived : Document}
    (reachable : codec.Reachable)
    (free : codec.buffers.gate.inUse < codec.buffers.gate.ceiling)
    (encodes : format.writer.encodeDocument document = .ok encoded)
    (isDocument : format.IsDocument encoded derived) :
    ∃ bytes, (codec.encode format document).1 = .ok bytes ∧
      bytes.size = encoded.length ∧
        (bytes.size ≤ codec.config.maximumDocumentSize →
          ((codec.encode format document).2.decode format bytes).1 = .ok derived) := by
  obtain ⟨result, sameConfig⟩ := encode_of_encodeDocument reachable free encodes
  refine ⟨_, result, rfl, fun accepted => ?_⟩
  rw [decode_eq_ok_iff format (reachable.encode format document), sameConfig]
  exact ⟨accepted, isDocument⟩

/--
Decoding undoes encoding: a tree that BSON can express, with an encoding that
its length fields and the size limit allow, comes back as it was.
-/
theorem decode_encode_bson
    (reachable : codec.Reachable)
    (free : codec.buffers.gate.inUse < codec.buffers.gate.ceiling)
    (wellFormed : document.WellFormed)
    (expressible : document.toValue.Everywhere Bson.IsExpressible)
    (fits : Bson.encodedSize document.toValue ≤ Framing.maximumLength)
    (accepted : Bson.encodedSize document.toValue ≤ codec.config.maximumDocumentSize) :
    ∃ bytes, (codec.encode .bson document).1 = .ok bytes ∧
      bytes.size = Bson.encodedSize document.toValue ∧
        ((codec.encode .bson document).2.decode .bson bytes).1 = .ok document := by
  obtain ⟨encoded, encodes, sized, isDocument⟩ :=
    Bson.exists_encodeDocument wellFormed expressible fits
  obtain ⟨bytes, result, sameSize, decodes⟩ :=
    @exists_encode_decode _ .bson _ _ _ reachable free encodes isDocument
  have size := sameSize.trans sized
  exact ⟨bytes, result, size, decodes (size ▸ accepted)⟩

/-- A document with old binary data in an array and a decimal in a map comes back. -/
theorem decode_encode_bson_nested :
    let document : Document :=
      ⟨[("a", .array [.binary ⟨Binary.old, ⟨#[7]⟩⟩]),
        ("", .map [("b", .decimal ⟨-10, 1⟩), ("a", .int64 1)])]⟩
    ∃ bytes,
      ((failFast .standard).encode .bson document).1 = .ok bytes ∧ bytes.size = 63 ∧
        (((failFast .standard).encode .bson document).2.decode .bson bytes).1 =
          .ok document := by
  intro document
  have absent :
      0 ∉ Utf8.encode "a" ∧ 0 ∉ Utf8.encode "" ∧ 0 ∉ Utf8.encode "b" := by
    decide
  have wellFormed : document.WellFormed := by
    simp (disch := decide) [document, Document.WellFormed, Document.toValue,
      Value.everywhere_map, Value.everywhere_array, Value.everywhere_scalar,
      Value.KeysDistinct]
  have holds : Decimal128.Holds ⟨-10, 1⟩ := ⟨by decide, by decide, by decide⟩
  have expressible : document.toValue.Everywhere Bson.IsExpressible := by
    simp (disch := decide) [document, Document.toValue, Value.everywhere_map,
      Value.everywhere_array, Value.everywhere_scalar, Bson.IsExpressible, absent, holds]
  have size : Bson.encodedSize document.toValue = 63 := by decide
  obtain ⟨bytes, result, sized, decoded⟩ :=
    decode_encode_bson (.new .standard .failFast) (by decide) wellFormed expressible
      (by rw [size]; decide) (by rw [size]; decide)
  exact ⟨bytes, result, sized.trans size, decoded⟩

/--
Decoding undoes encoding up to narrowing: a tree that MessagePack can express
is encoded, and unless its encoding is too long it comes back with its
integers narrowed, which makes it no different when it holds no NaN.
-/
theorem decode_encode_messagePack
    (reachable : codec.Reachable)
    (free : codec.buffers.gate.inUse < codec.buffers.gate.ceiling)
    (wellFormed : document.WellFormed)
    (expressible : document.toValue.Everywhere MessagePack.IsExpressible) :
    ∃ bytes, (codec.encode .messagePack document).1 = .ok bytes ∧
      (bytes.size ≤ codec.config.maximumDocumentSize →
        ((codec.encode .messagePack document).2.decode .messagePack bytes).1 =
          .ok document.narrowed) ∧
      (document.toValue.Everywhere Value.NotNaN →
        (document.narrowed == document) = true) := by
  obtain ⟨encoded, encodes, isDocument⟩ :=
    MessagePack.exists_encodeDocument wellFormed expressible
  obtain ⟨bytes, result, _, decodes⟩ :=
    @exists_encode_decode _ .messagePack _ _ _ reachable free encodes isDocument
  exact ⟨bytes, result, decodes, Document.narrowed_beq wellFormed⟩

/-- A document comes back with its small integer as a 32-bit one, and is equal to that. -/
theorem decode_encode_messagePack_nested :
    let document : Document :=
      ⟨[("a", .array [.int64 1, .int64 0x80000000, .extension ⟨-1, ⟨#[1, 2]⟩⟩]),
        ("", .map [("a", .float32 0)])]⟩
    let narrowed : Document :=
      ⟨[("a", .array [.int32 1, .int64 0x80000000, .extension ⟨-1, ⟨#[1, 2]⟩⟩]),
        ("", .map [("a", .float32 0)])]⟩
    ∃ bytes,
      ((failFast .standard).encode .messagePack document).1 = .ok bytes ∧
        (((failFast .standard).encode .messagePack document).2.decode .messagePack
            bytes).1 = .ok narrowed ∧
          (narrowed == document) = true := by
  intro document narrowed
  have wellFormed : document.WellFormed := by
    simp (disch := decide) [document, Document.WellFormed, Document.toValue,
      Value.everywhere_map, Value.everywhere_array, Value.everywhere_scalar,
      Value.KeysDistinct]
  have short : "a".utf8ByteSize < 0x100000000 := by decide
  have small : (ByteArray.mk #[1, 2]).size < 0x100000000 := by decide
  have expressible : document.toValue.Everywhere MessagePack.IsExpressible := by
    simp (disch := decide) [document, Document.toValue, Value.everywhere_map,
      Value.everywhere_array, Value.everywhere_scalar, MessagePack.IsExpressible,
      MessagePack.IsShort, short, small]
  have numbers : document.toValue.Everywhere Value.NotNaN := by
    have zero : Ieee.isNaN32 0 = false := by decide
    simp (disch := decide) [document, Document.toValue, Value.everywhere_map,
      Value.everywhere_array, Value.everywhere_scalar, Value.NotNaN, zero]
  obtain ⟨bytes, result, decoded, equal⟩ :=
    decode_encode_messagePack (.new .standard .failFast) (by decide) wellFormed
      expressible
  have encodes :
      MessagePack.writer.encodeDocument document =
        .ok [0x82, 0xa1, 97, 0x93, 1, 0xce, 0x80, 0, 0, 0, 0xd5, 0xff, 1, 2, 0xa0, 0x81,
          0xa1, 97, 0xca, 0, 0, 0, 0] :=
    rfl
  have spelled :=
    (@encode_of_encodeDocument _ .messagePack _ _ (.new .standard .failFast) (by decide)
      encodes).1
  refine ⟨bytes, result, decoded ?_, equal numbers⟩
  cases result.symm.trans spelled
  decide

end DocumentCodec.Codec
