import DocumentCodec.Bson.Reading
import DocumentCodec.Proofs.Traversal.Curtailment

namespace DocumentCodec.Bson

/-!
# Reading BSON with less before the limit

Every part of the reader degrades.  Where a bound is lowered, the checks on it
are those whose failures are length faults.
-/

open Decode

variable {bounds lower : Bounds}

/-- A string that is still there is the same one. -/
theorem readString_curtailable : Curtailable readString :=
  position_curtailable.bind fun _ =>
    (readField_curtailable _).bind fun _ =>
      (ensure_curtailable _ _).bind fun _ =>
        (readBytes_curtailable _).bind fun _ =>
          readByte_curtailable.bind fun _ =>
            (ensure_curtailable _ _).bind fun _ => decodeText_curtailable _ _

/-- Binary data that is still there is the same, copied or shared. -/
theorem readBinary_curtailable (options : DecodeOptions) : Curtailable (readBinary options) := by
  refine position_curtailable.bind fun _ =>
    (readField_curtailable _).bind fun _ =>
      (ensure_curtailable _ _).bind fun _ =>
        readByte_curtailable.bind fun _ => ?_
  split
  · exact (ensure_curtailable _ _).bind fun _ =>
      (readField_curtailable _).bind fun _ =>
        (ensure_curtailable _ _).bind fun _ =>
          (options.readPayload_curtailable _).bind fun _ => Curtailable.pure _
  · exact (options.readPayload_curtailable _).bind fun _ => Curtailable.pure _

/-- A boolean that is still there is the same one, and a malformed one stays so. -/
theorem readBoolean_curtailable : Curtailable readBoolean := by
  refine position_curtailable.bind fun _ => readByte_curtailable.bind fun _ => ?_
  split
  · exact Curtailable.pure _
  · split
    · exact Curtailable.pure _
    · exact Curtailable.malformed _

/-- An identifier that is still there is the same one. -/
theorem readObjectId_curtailable : Curtailable readObjectId :=
  (readBytes_curtailable _).bind fun _ => Curtailable.pure _

/-- A time that is still there is the same one. -/
theorem readDateTime_curtailable : Curtailable readDateTime :=
  (readField_curtailable _).bind fun _ => Curtailable.pure _

/-- A decimal that is still there is the same one, and a malformed one stays so. -/
theorem readDecimal_curtailable : Curtailable readDecimal := by
  refine (readField_curtailable _).bind fun _ => (readField_curtailable _).bind fun _ => ?_
  split
  · exact Curtailable.pure _
  · exact Curtailable.malformed _

/-- A key that is still there is the same one. -/
theorem readKey_curtailable (kind : ContainerKind) (offset : Nat) :
    Curtailable (readKey kind offset) := by
  refine readZeroTerminated_curtailable.bind fun _ => ?_
  cases kind with
  | map => exact (decodeText_curtailable _ _).map some
  | array => exact Curtailable.pure none

/-- An element with a payload is found as before, with the lower bound kept. -/
theorem readScalar_degrades
    (lowered : lower.Curtails bounds)
    (key : Option String)
    {payload : Decode Value}
    (curtailable : Curtailable payload) :
    Degrades Element.ShortenedWith (readScalar key bounds payload)
      (readScalar key lower payload) :=
  curtailable.bind fun value => Degrades.pure ⟨.scalar key value, lowered⟩

/-- A nested container's own bound is kept, or is found to be too far. -/
theorem readNested_degrades
    (lowered : lower.Curtails bounds)
    (key : Option String)
    (kind : ContainerKind) :
    Degrades Element.ShortenedWith (readNested key kind bounds)
      (readNested key kind lower) :=
  position_curtailable.bind fun _ =>
    (readField_curtailable _).bind fun _ =>
      (ensure_curtailable _ _).bind fun _ =>
        (Degrades.ensure (.corruption _) _ _ _).bind fun _ _ _ =>
          Degrades.pure ⟨.opened key kind (.refl _), lowered⟩

/-- What an element holds is found as before, or its container would be longer than its parent. -/
theorem readContents_degrades
    (lowered : lower.Curtails bounds)
    (options : DecodeOptions)
    (key : Option String)
    (type : ElementType) :
    Degrades Element.ShortenedWith (readContents options key bounds type)
      (readContents options key lower type) := by
  have scalar {payload : Decode Value} (curtailable : Curtailable payload) :=
    readScalar_degrades lowered key curtailable
  cases type with
  | double => exact scalar ((readField_curtailable _).map _)
  | string => exact scalar (readString_curtailable.map _)
  | document => exact readNested_degrades lowered key .map
  | array => exact readNested_degrades lowered key .array
  | binary => exact scalar ((readBinary_curtailable _).map _)
  | objectId => exact scalar (readObjectId_curtailable.map _)
  | boolean => exact scalar (readBoolean_curtailable.map _)
  | dateTime => exact scalar (readDateTime_curtailable.map _)
  | null => exact scalar (Curtailable.pure _)
  | int32 => exact scalar ((readField_curtailable _).map _)
  | int64 => exact scalar ((readField_curtailable _).map _)
  | decimal128 => exact scalar (readDecimal_curtailable.map _)

/-- An element behind its tag is found as before, with the lower bound kept. -/
theorem readTagged_degrades
    (lowered : lower.Curtails bounds)
    (options : DecodeOptions)
    (kind : ContainerKind)
    (offset : Nat)
    (tag : UInt8) :
    Degrades Element.ShortenedWith (readTagged options kind bounds offset tag)
      (readTagged options kind lower offset tag) := by
  unfold readTagged
  split
  · exact Degrades.fail _ _
  · exact (readKey_curtailable _ _).bind fun _ => readContents_degrades lowered _ _ _

/-- The end of a container is not where a lower bound says, which is a length fault. -/
theorem next_degrades (options : DecodeOptions) : reader.NextDegrades options := by
  intro kind bounds lower lowered
  refine position_curtailable.bind fun _ =>
    (Degrades.ensure (.corruption _) _ _ _).bind fun _ _ _ =>
      readByte_curtailable.bind fun _ => ?_
  split
  · exact (Degrades.ensure (.corruption _) _ _ _).bind fun _ _ _ =>
      Degrades.pure ⟨.finished, lowered⟩
  · exact readTagged_degrades lowered options kind _ _

end DocumentCodec.Bson
