import DocumentCodec.Proofs.Bson.Decoding
import DocumentCodec.Proofs.Codec.Reachable
import DocumentCodec.Proofs.MessagePack.Decoding

namespace DocumentCodec

/-!
# What codecs decode

A codec decodes exactly the bytes of the formats' grammars that are within its
size limit, to the documents that the grammars say they stand for.  This holds
whatever the codec did before, and for copied and shared payloads alike.
-/

/-- The bytes of documents in a format, with the documents they stand for. -/
def Format.IsDocument : Format → Language Document
  | .bson => Bson.IsDocument
  | .messagePack => MessagePack.IsDocument

namespace Codec

variable {codec : Codec} {bytes : ByteArray} {shared? : Option ByteArray}

/-- What is decoded is what the grammar derives from the whole input, within the size limit. -/
theorem read_eq_ok_iff
    (format : Format)
    (reachable : codec.Reachable)
    (owned : ∀ owner ∈ shared?, owner = bytes)
    (target document : Document) :
    (codec.read format bytes shared? target).1 = .ok document ↔
      bytes.size ≤ codec.config.maximumDocumentSize ∧
        format.IsDocument bytes.data.toList document := by
  obtain ⟨accepts, _, _⟩ := reachable.clean.read format bytes shared? target
  have whole : bytes.data.toList.take bytes.size = bytes.data.toList :=
    List.take_of_length_le (Nat.le_of_eq Array.length_toList)
  have present : bytes.size ≤ bytes.size := Nat.le_refl _
  have reads :
      (format.reader.read ⟨codec.config.maximumDocumentSize, shared?⟩ bytes target
            []).result = .ok (bytes.size, document) ↔
        bytes.size ≤ bytes.size ∧ bytes.size ≤ codec.config.maximumDocumentSize ∧
          format.IsDocument (bytes.data.toList.take bytes.size) document := by
    cases format with
    | bson => exact Bson.read_eq_ok_iff owned target document bytes.size
    | messagePack => exact MessagePack.read_eq_ok_iff owned target document bytes.size
  rw [accepts, wholeInput_eq_ok_iff, reads, whole]
  exact ⟨fun both => both.2, fun both => ⟨present, both⟩⟩

/-- Decoding succeeds exactly on the documents of the grammar within the size limit. -/
theorem decode_eq_ok_iff
    (format : Format)
    (reachable : codec.Reachable)
    (bytes : ByteArray)
    (document : Document) :
    (codec.decode format bytes).1 = .ok document ↔
      bytes.size ≤ codec.config.maximumDocumentSize ∧
        format.IsDocument bytes.data.toList document := by
  refine read_eq_ok_iff format reachable ?_ .empty document
  intro owner member
  cases member

/-- BSON is decoded exactly when it is a document of the grammar, and to that document. -/
theorem decode_bson_eq_ok_iff
    (reachable : codec.Reachable)
    (bytes : ByteArray)
    (document : Document) :
    (codec.decode .bson bytes).1 = .ok document ↔
      bytes.size ≤ codec.config.maximumDocumentSize ∧
        Bson.IsDocument bytes.data.toList document :=
  decode_eq_ok_iff .bson reachable bytes document

/-- A key that occurs twice keeps its place and takes the later value. -/
theorem decode_bson_repeated_key :
    ((failFast .standard).decode .bson
        ⟨#[12, 0, 0, 0, 0x0a, 97, 0, 0x08, 97, 0, 1, 0]⟩).1 =
      .ok ⟨[("a", .bool true)]⟩ := by
  have named : Bson.IsKey .map [97, 0] (some "a") :=
    ⟨[97], by decide, rfl, "a", by decide, rfl⟩
  have elements :
      Bson.Elements .map [0x0a, 97, 0, 0x08, 97, 0, 1]
        [(some "a", .null), (some "a", .bool true)] :=
    .scalar named .null (.scalar named (.boolean true) .none)
  exact (decode_bson_eq_ok_iff (.new .standard .failFast) _ _).mpr
    ⟨by decide, _, _, elements, by decide, by decide, rfl⟩

/-- MessagePack is decoded exactly when it is a document of the grammar, and to that document. -/
theorem decode_messagePack_eq_ok_iff
    (reachable : codec.Reachable)
    (bytes : ByteArray)
    (document : Document) :
    (codec.decode .messagePack bytes).1 = .ok document ↔
      bytes.size ≤ codec.config.maximumDocumentSize ∧
        MessagePack.IsDocument bytes.data.toList document :=
  decode_eq_ok_iff .messagePack reachable bytes document

/-- A header wider than it needs to be is read like the shortest one. -/
theorem decode_messagePack_wide_header :
    ((failFast .standard).decode .messagePack
        ⟨#[0xde, 0, 2, 0xa1, 97, 0xc0, 0xa1, 97, 0xc3]⟩).1 =
      .ok ⟨[("a", .bool true)]⟩ := by
  have named : MessagePack.IsKey .map [0xa1, 97] (some "a") :=
    ⟨"a", .shortString "a" (by decide), rfl⟩
  have null : MessagePack.IsScalar [0xc0] .null :=
    @MessagePack.IsScalar.marked .nil [] _ (.constant .null)
  have truth : MessagePack.IsScalar [0xc3] (.bool true) :=
    @MessagePack.IsScalar.marked .true [] _ (.constant (.bool true))
  have elements :
      MessagePack.Elements .map [0xa1, 97, 0xc0, 0xa1, 97, 0xc3]
        [(some "a", .null), (some "a", .bool true)] :=
    .scalar named null (.scalar named truth .none)
  have header : MessagePack.IsHeader .map [0xde, 0, 2] 2 :=
    @MessagePack.IsHeader.marked .map .map16 .uint16BE 2 rfl (by decide)
  exact (decode_messagePack_eq_ok_iff (.new .standard .failFast) _ _).mpr
    ⟨by decide, _, _, _, header, elements, by decide, rfl⟩

end Codec

end DocumentCodec
