import DocumentCodec.Codec
import DocumentCodec.Proofs.Bson.Spelling
import DocumentCodec.Proofs.MessagePack.Spelling

namespace DocumentCodec.Format

/-!
# What documents are written as

In either format the writer, which keeps the open containers on a list and
patches their lengths, writes what is spelled by recursion on the tree, and
when an element is refused its fault is that of the first one in the tree.
-/

/-- The spelling of a format. -/
def spelling : Format → Spelling
  | bson => Bson.spelling
  | messagePack => MessagePack.spelling

/-- The lengths of a document are ones that the format's fields for them can tell. -/
def LengthsFit (format : Format) (document : Document) : Prop :=
  match format with
  | bson => (Bson.spelling.document document).length ≤ Framing.maximumLength
  | messagePack => MessagePack.HasShortLengths document

instance (format : Format) (document : Document) :
    Decidable (format.LengthsFit document) := by
  cases format <;> unfold LengthsFit <;> infer_instance

/-- A document whose lengths fit is encoded as it is spelled, unless a value of it is refused. -/
theorem encodeDocument_eq
    {format : Format}
    {document : Document}
    (fits : format.LengthsFit document) :
    format.writer.encodeDocument document =
      unlessFault (format.spelling.firstRefusal? document.preorder)
        (format.spelling.document document) := by
  cases format with
  | bson => exact Bson.encodeDocument_eq fits
  | messagePack => exact MessagePack.encodeDocument_eq fits

/--
Started without open containers, the writer appends a document as it is
spelled and leaves none open; if elements are refused, it reports the fault of
the first one, each element standing in front of those inside it.
-/
theorem write_eq_spelling
    (format : Format)
    (document : Document)
    (fits : format.LengthsFit document)
    (buffer : ByteBuffer) :
    match format.spelling.firstRefusal? document.preorder with
    | none =>
        ∃ after, format.writer.write document buffer [] = ⟨none, after, []⟩ ∧
          buffer.Appended (format.spelling.document document) after
    | some fault => (format.writer.write document buffer []).fault? = some fault := by
  have written := format.writer.write_eq_encodeDocument document buffer
  rw [encodeDocument_eq fits] at written
  cases refusal : format.spelling.firstRefusal? document.preorder with
  | none =>
      rw [refusal] at written
      exact written
  | some fault =>
      rw [refusal] at written
      exact written

/--
An array's first item is refused before the float behind it and before the
name of the entry behind the array; as MessagePack the same array is only
refused for its decimal.
-/
theorem write_refused_in_order :
    let document : Document :=
      ⟨[("a", .array [.map [], .decimal ⟨1, 7000⟩, .float32 0]), ("b\x00", .null)]⟩
    let written : Document := ⟨[("a", .array [.map [], .float32 0]), ("b\x00", .null)]⟩
    Format.bson.LengthsFit document ∧ Format.messagePack.LengthsFit written ∧
      (Format.bson.writer.write document .empty []).fault? =
          some (.decimalExponent 7000 (-6176) 6111) ∧
        ∃ after, Format.messagePack.writer.write written .empty [] = ⟨none, after, []⟩ ∧
          after.bytes.data.toList =
            [0x82, 0xa1, 97, 0x92, 0x80, 0xca, 0, 0, 0, 0, 0xa2, 98, 0, 0xc0] := by
  intro document written
  have documentFits : Format.bson.LengthsFit document := by decide +kernel
  have writtenFits : Format.messagePack.LengthsFit written := by decide +kernel
  have refused :
      Format.bson.spelling.firstRefusal? document.preorder =
        some (.decimalExponent 7000 (-6176) 6111) := rfl
  have accepted : Format.messagePack.spelling.firstRefusal? written.preorder = none := rfl
  have stopped := write_eq_spelling .bson document documentFits .empty
  have finished := write_eq_spelling .messagePack written writtenFits .empty
  rw [refused] at stopped
  rw [accepted] at finished
  obtain ⟨after, same, appended⟩ := finished
  exact ⟨documentFits, writtenFits, stopped, after, same, appended.bytes_eq⟩

end DocumentCodec.Format
