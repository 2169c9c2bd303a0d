import DocumentCodec.Proofs.Bson.Normal
import DocumentCodec.Proofs.Codec.RoundTrip
import DocumentCodec.Proofs.MessagePack.Shortest

namespace DocumentCodec.Codec

/-!
# What decoded documents are encoded as

A document that was decoded has one encoding, on every codec with a buffer
left.  In MessagePack it is the shortest of those that decode to the document,
and in BSON it is the normal one.
-/

variable {codec : Codec} {bytes : ByteArray} {document : Document}

/--
A document decoded from MessagePack is encoded in no more bytes than it was
decoded from, always in the same ones, and they decode to it again.
-/
theorem encode_decoded_messagePack
    (reachable : codec.Reachable)
    (accepted : (codec.decode .messagePack bytes).1 = .ok document) :
    ∃ shortest : ByteArray, shortest.size ≤ bytes.size ∧
      (∀ encoder : Codec, encoder.Reachable →
        encoder.buffers.gate.inUse < encoder.buffers.gate.ceiling →
          (encoder.encode .messagePack document).1 = .ok shortest) ∧
      ∀ decoder : Codec, decoder.Reachable → decoder.config = codec.config →
        (decoder.decode .messagePack shortest).1 = .ok document := by
  obtain ⟨within, isDocument⟩ := (decode_eq_ok_iff .messagePack reachable _ _).mp accepted
  obtain ⟨wellFormed, expressible, narrowed, bound⟩ :=
    MessagePack.spelling_of_isDocument isDocument
  have encodes := MessagePack.encodeDocument_of_expressible expressible
  obtain ⟨derived, encodesDerived, derivedDocument⟩ :=
    MessagePack.exists_encodeDocument wellFormed expressible
  rw [encodes, Except.ok.injEq] at encodesDerived
  rw [narrowed, ← encodesDerived] at derivedDocument
  have smaller : (ByteArray.mk (MessagePack.spelling.document document).toArray).size ≤
      bytes.size := bound
  refine ⟨⟨(MessagePack.spelling.document document).toArray⟩, smaller, ?_, ?_⟩
  · intro encoder encoderReachable free
    exact (@encode_of_encodeDocument _ .messagePack _ _ encoderReachable free encodes).1
  · intro decoder decoderReachable same
    rw [decode_eq_ok_iff .messagePack decoderReachable, same]
    exact ⟨Nat.le_trans smaller within, derivedDocument⟩

/-- A wide header, a wide integer and a replaced entry are not encoded again. -/
theorem encode_decoded_wide_header :
    let bytes : ByteArray :=
      ⟨#[0xde, 0, 2, 0xa1, 97, 0xc0, 0xd9, 1, 97, 0xd3, 0, 0, 0, 0, 0, 0, 0, 5]⟩
    let document : Document := ⟨[("a", .int32 5)]⟩
    ((failFast .standard).decode .messagePack bytes).1 = .ok document ∧
      ∃ shortest : ByteArray, shortest.size ≤ bytes.size ∧
        ((failFast .standard).encode .messagePack document).1 = .ok shortest ∧
          ((blocking .standard).decode .messagePack shortest).1 = .ok document := by
  intro bytes document
  have header : MessagePack.IsHeader .map [0xde, 0, 2] 2 :=
    @MessagePack.IsHeader.marked .map .map16 .uint16BE 2 rfl (by decide)
  have short : MessagePack.IsKey .map [0xa1, 97] (some "a") :=
    ⟨"a", .shortString "a" (by decide), rfl⟩
  have long : MessagePack.IsKey .map [0xd9, 1, 97] (some "a") :=
    ⟨"a", @MessagePack.IsScalar.marked .str8 [1, 97] _ (.string "a" (by decide)), rfl⟩
  have null : MessagePack.IsScalar [0xc0] .null :=
    @MessagePack.IsScalar.marked .nil [] _ (.constant .null)
  have five : MessagePack.IsScalar [0xd3, 0, 0, 0, 0, 0, 0, 0, 5] (.int32 5) :=
    @MessagePack.IsScalar.marked .int64 [0, 0, 0, 0, 0, 0, 0, 5] _ (.int32 5 (by decide))
  have accepted : ((failFast .standard).decode .messagePack bytes).1 = .ok document :=
    (decode_eq_ok_iff .messagePack (.new .standard .failFast) _ _).mpr
      ⟨by decide, _, _, _, header, .scalar short null (.scalar long five .none), by decide,
        rfl⟩
  obtain ⟨shortest, bound, encodes, decodes⟩ :=
    encode_decoded_messagePack (.new .standard .failFast) accepted
  exact ⟨accepted, shortest, bound, encodes _ (.new .standard .failFast) (by decide),
    decodes _ (.new .standard (.waiting _)) rfl⟩

/--
A document decoded from BSON is encoded in normal bytes, which decode to it
again.  They are the bytes that it was decoded from exactly if those are normal.
-/
theorem encode_decoded_bson
    (reachable : codec.Reachable)
    (accepted : (codec.decode .bson bytes).1 = .ok document)
    (fits : Bson.encodedSize document.toValue ≤ Framing.maximumLength) :
    ∃ normal : ByteArray, normal.size = Bson.encodedSize document.toValue ∧
      Bson.IsNormal normal.data.toList ∧
      (∀ encoder : Codec, encoder.Reachable →
        encoder.buffers.gate.inUse < encoder.buffers.gate.ceiling →
          (encoder.encode .bson document).1 = .ok normal) ∧
      (∀ decoder : Codec, decoder.Reachable →
        normal.size ≤ decoder.config.maximumDocumentSize →
          (decoder.decode .bson normal).1 = .ok document) ∧
      (normal = bytes ↔ Bson.IsNormal bytes.data.toList) := by
  obtain ⟨_, isDocument⟩ := (decode_eq_ok_iff .bson reachable _ _).mp accepted
  have legible := Bson.IsDocument.isLegible isDocument
  obtain ⟨encodes, derived⟩ := Bson.encodeDocument_of_isLegible legible fits
  refine ⟨⟨(Bson.spelling.document document).toArray⟩,
    Bson.length_document legible.expressible, (Bson.isNormal_iff derived).mp rfl, ?_, ?_, ?_⟩
  · intro encoder encoderReachable free
    exact (@encode_of_encodeDocument _ .bson _ _ encoderReachable free encodes).1
  · intro decoder decoderReachable within
    exact (decode_eq_ok_iff .bson decoderReachable _ _).mpr ⟨within, derived⟩
  · rw [← Bson.isNormal_iff isDocument, ByteArray.ext_iff, ← Array.toList_inj]
    exact eq_comm

/-- An item whose key is not the text of its place is encoded with another key. -/
theorem encode_decoded_misnumbered :
    let bytes : ByteArray :=
      ⟨#[17, 0, 0, 0, 0x04, 97, 0, 9, 0, 0, 0, 0x08, 55, 0, 1, 0, 0]⟩
    let document : Document := ⟨[("a", .array [.bool true])]⟩
    ((failFast .standard).decode .bson bytes).1 = .ok document ∧
      ∃ normal : ByteArray, normal.size = 17 ∧ normal ≠ bytes ∧
        ((failFast .standard).encode .bson document).1 = .ok normal ∧
          ((blocking .standard).decode .bson normal).1 = .ok document := by
  intro bytes document
  have item : Bson.IsKey .array [55, 0] none := ⟨[55], by decide, rfl, rfl⟩
  have name : Bson.IsKey .map [97, 0] (some "a") := ⟨[97], by decide, rfl, "a", by decide, rfl⟩
  have items : Bson.Elements .array [0x08, 55, 0, 1] [(none, .bool true)] :=
    .scalar item (.boolean true) .none
  have elements :
      Bson.Elements .map [0x04, 97, 0, 9, 0, 0, 0, 0x08, 55, 0, 1, 0]
        [(some "a", .array [.bool true])] :=
    .nested name items (by decide) .none
  have accepted : ((failFast .standard).decode .bson bytes).1 = .ok document :=
    (decode_eq_ok_iff .bson (.new .standard .failFast) _ _).mpr
      ⟨by decide, _, _, elements, by decide, by decide, rfl⟩
  have size : Bson.encodedSize document.toValue = 17 := by decide
  obtain ⟨normal, sized, _, encodes, decodes, unchanged⟩ :=
    encode_decoded_bson (.new .standard .failFast) accepted (by rw [size]; decide)
  have total : normal.size = 17 := sized.trans size
  refine ⟨accepted, normal, total, fun same => ?_,
    encodes _ (.new .standard .failFast) (by decide),
    decodes _ (.new .standard (.waiting _)) (by rw [total]; decide)⟩
  have isNormal := unchanged.mp same
  have root : Bson.HasContainer bytes.data.toList (.root _) := .root elements rfl
  have array := Bson.HasContainer.nested root (.intro .none name) items .none rfl
  have key := isNormal.numbered array rfl
    (@Bson.Site.HasElement.intro _ [] [] .boolean _ _ [1] .none item rfl)
  exact absurd key (by decide)

end DocumentCodec.Codec
