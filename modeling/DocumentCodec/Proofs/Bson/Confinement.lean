import DocumentCodec.Proofs.Bson.Sharing
import DocumentCodec.Proofs.Bytes.Mirroring

namespace DocumentCodec.Bson

/-!
# Elements do not cross the limit

No part of the reader looks at the bytes behind the limit, be it a length in
front of a text, a key whose end has to be searched for or the header of a
nested container.  Elements that were found are found again in every input that
begins with the same bytes.
-/

open Decode

variable {options : DecodeOptions}

/-- A string is read from inside the limit. -/
theorem readString_confined : Confined readString :=
  position_confined.bind fun _ =>
    (readField_confined _).bind fun _ =>
      (ensure_confined _ _).bind fun _ =>
        (readBytes_confined _).bind fun _ =>
          readByte_confined.bind fun _ =>
            (ensure_confined _ _).bind fun _ => decodeText_confined _ _

/-- Binary data that is copied comes from inside the limit. -/
theorem readBinary_confined (copied : options.shared? = none) :
    Confined (readBinary options) := by
  refine position_confined.bind fun _ =>
    (readField_confined _).bind fun _ =>
      (ensure_confined _ _).bind fun _ =>
        readByte_confined.bind fun _ => ?_
  split
  · exact (ensure_confined _ _).bind fun _ =>
      (readField_confined _).bind fun _ =>
        (ensure_confined _ _).bind fun _ =>
          (DecodeOptions.readPayload_confined copied _).bind fun _ => Confined.pure _
  · exact (DecodeOptions.readPayload_confined copied _).bind fun _ => Confined.pure _

/-- A boolean is read from inside the limit. -/
theorem readBoolean_confined : Confined readBoolean := by
  refine position_confined.bind fun _ => readByte_confined.bind fun _ => ?_
  split
  · exact Confined.pure _
  · split
    · exact Confined.pure _
    · exact Confined.malformed _

/-- An identifier is read from inside the limit. -/
theorem readObjectId_confined : Confined readObjectId :=
  (readBytes_confined _).bind fun _ => Confined.pure _

/-- A time is read from inside the limit. -/
theorem readDateTime_confined : Confined readDateTime :=
  (readField_confined _).bind fun _ => Confined.pure _

/-- A decimal is read from inside the limit. -/
theorem readDecimal_confined : Confined readDecimal := by
  refine (readField_confined _).bind fun _ => (readField_confined _).bind fun _ => ?_
  split
  · exact Confined.pure _
  · exact Confined.malformed _

/-- A container is opened by its length, which is inside the parent's limit. -/
theorem readNested_confined (key : Option String) (kind : ContainerKind) (parent : Bounds) :
    Confined (readNested key kind parent) :=
  position_confined.bind fun _ =>
    (readField_confined _).bind fun _ =>
      (ensure_confined _ _).bind fun _ =>
        (ensure_confined _ _).bind fun _ => Confined.pure _

/-- A key is read from inside the limit. -/
theorem readKey_confined (kind : ContainerKind) (offset : Nat) :
    Confined (readKey kind offset) := by
  refine readZeroTerminated_confined.bind fun _ => ?_
  cases kind with
  | map => exact (decodeText_confined _ _).map some
  | array => exact Confined.pure none

/-- What an element holds is read from inside the limit, whatever its type. -/
theorem readContents_confined
    (copied : options.shared? = none)
    (key : Option String)
    (parent : Bounds)
    (type : ElementType) :
    Confined (readContents options key parent type) := by
  have scalar {payload : Decode Value} (confined : Confined payload) :
      Confined (readScalar key parent payload) :=
    confined.bind fun _ => Confined.pure _
  cases type with
  | double => exact scalar ((readField_confined _).map _)
  | string => exact scalar (readString_confined.map _)
  | document => exact readNested_confined key .map parent
  | array => exact readNested_confined key .array parent
  | binary => exact scalar ((readBinary_confined copied).map _)
  | objectId => exact scalar (readObjectId_confined.map _)
  | boolean => exact scalar (readBoolean_confined.map _)
  | dateTime => exact scalar (readDateTime_confined.map _)
  | null => exact scalar (Confined.pure _)
  | int32 => exact scalar ((readField_confined _).map _)
  | int64 => exact scalar ((readField_confined _).map _)
  | decimal128 => exact scalar (readDecimal_confined.map _)

/-- An element behind its tag is read from inside the limit. -/
theorem readTagged_confined
    (copied : options.shared? = none)
    (kind : ContainerKind)
    (parent : Bounds)
    (offset : Nat)
    (tag : UInt8) :
    Confined (readTagged options kind parent offset tag) := by
  unfold readTagged
  split
  · exact Confined.malformed _
  · exact (readKey_confined _ _).bind fun _ => readContents_confined copied _ _ _

/-- An element, or the end of its container, is read from inside the limit. -/
theorem readElement_confined
    (copied : options.shared? = none)
    (kind : ContainerKind)
    (bounds : Bounds) :
    Confined (readElement options kind bounds) := by
  refine position_confined.bind fun _ =>
    (ensure_confined _ _).bind fun _ => readByte_confined.bind fun _ => ?_
  split
  · exact (ensure_confined _ _).bind fun _ => Confined.pure _
  · exact readTagged_confined copied kind bounds _ _

/-- An element that ends before the offset is found in the other input as well. -/
theorem Found.exists_mirror
    {front : Nat}
    {kind : ContainerKind}
    {bounds : Bounds}
    {reader twin rest : ByteReader}
    {element : Element}
    (found : Found kind bounds reader element rest)
    (mirrors : reader.Mirrors front twin)
    (before : rest.cursor ≤ front) :
    ∃ twinRest, Found kind bounds twin element twinRest ∧ rest.Mirrors front twinRest := by
  cases found with
  | finished passes last =>
      obtain ⟨twinRest, twinPasses, mirrorsRest⟩ := mirrors.exists_passes passes before
      exact ⟨twinRest, .finished twinPasses (mirrorsRest.cursor_eq.trans last), mirrorsRest⟩
  | scalar named held passes =>
      obtain ⟨twinRest, twinPasses, mirrorsRest⟩ := mirrors.exists_passes passes before
      exact ⟨twinRest, .scalar named held twinPasses, mirrorsRest⟩
  | opened named fits passes inside =>
      obtain ⟨twinRest, twinPasses, mirrorsRest⟩ := mirrors.exists_passes passes before
      rw [← mirrorsRest.cursor_eq] at inside ⊢
      exact ⟨twinRest, .opened named fits twinPasses inside, mirrorsRest⟩

end DocumentCodec.Bson
