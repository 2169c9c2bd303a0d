import DocumentCodec.MessagePack.Reading
import DocumentCodec.Proofs.Traversal.Curtailment

namespace DocumentCodec.MessagePack

/-!
# Reading MessagePack with less before the limit

Every part of the reader degrades.  A declared count is held against the bytes
that are left, and when these are too few that is a length fault.
-/

open Decode

variable {bounds lower : Bounds}

/-- A text that is still there is the same one. -/
theorem readString_curtailable (length : Nat) : Curtailable (readString length) :=
  position_curtailable.bind fun _ =>
    (readBytes_curtailable _).bind fun _ => decodeText_curtailable _ _

/-- A length that is still there is the same one. -/
theorem readLength_curtailable (type : FieldType) : Curtailable (readLength type) :=
  (readField_curtailable type).map _

/--
A key's length that is still there is the same one, and a lead that begins no
text is refused as before.
-/
theorem readKeyLength_curtailable (offset : Nat) (lead : UInt8) :
    Curtailable (readKeyLength offset lead) := by
  unfold readKeyLength
  split
  · exact Curtailable.pure _
  · exact readLength_curtailable .uint8
  · exact readLength_curtailable .uint16BE
  · exact readLength_curtailable .uint32BE
  · exact Curtailable.malformed _

/-- A key that is still there is the same one. -/
theorem readKey_curtailable : Curtailable readKey :=
  position_curtailable.bind fun _ =>
    readByte_curtailable.bind fun _ =>
      (readKeyLength_curtailable _ _).bind fun _ => readString_curtailable _

/-- A key that is still there is the same one, and an array's elements have none. -/
theorem readEntryKey_curtailable (kind : ContainerKind) : Curtailable (readEntryKey kind) := by
  cases kind with
  | map => exact readKey_curtailable.map _
  | array => exact Curtailable.pure _

/-- Fewer bytes left may be too few for a count. -/
theorem checkCount_degrades (kind : ContainerKind) (count offset : Nat) :
    Degrades (fun _ _ => True) (checkCount kind count offset) (checkCount kind count offset) :=
  remaining_degrades.bind fun _ _ _ => Degrades.ensure (.corruption _) _ _ _

/-- An extension that is still there is the same one. -/
theorem readExtension_curtailable (options : DecodeOptions) (length : Nat) :
    Curtailable (readExtension options length) :=
  (readField_curtailable _).bind fun _ =>
    (options.readPayload_curtailable _).bind fun _ => Curtailable.pure _

/-- Binary data that is still there is the same, copied or shared. -/
theorem readBinary_curtailable (options : DecodeOptions) (length : Nat) :
    Curtailable (readBinary options length) :=
  (options.readPayload_curtailable _).bind fun _ => Curtailable.pure _

/--
An unsigned number that is still there is the same one, and one too large is
refused as before.
-/
theorem readUnsigned_curtailable (offset : Nat) : Curtailable (readUnsigned offset) := by
  refine (readField_curtailable _).bind fun _ => ?_
  split
  · exact Curtailable.pure _
  · exact Curtailable.malformed _

/-- An element with a payload is found as before, with the lower bound kept. -/
theorem readScalar_degrades
    (lowered : lower.Curtails bounds)
    (key : Option String)
    {payload : Decode Value}
    (curtailable : Curtailable payload) :
    Degrades Element.ShortenedWith (readScalar key bounds payload)
      (readScalar key lower payload) :=
  curtailable.bind fun value => Degrades.pure ⟨.scalar key value, lowered⟩

/-- A container is opened as before, or has no room for its elements. -/
theorem openContainer_degrades
    (lowered : lower.Curtails bounds)
    (key : Option String)
    (offset : Nat)
    (kind : ContainerKind)
    (count : Nat) :
    Degrades Element.ShortenedWith (openContainer key bounds offset kind count)
      (openContainer key lower offset kind count) :=
  (checkCount_degrades _ _ _).bind fun _ _ _ =>
    Degrades.pure ⟨.opened key kind ⟨lowered.stop_le, rfl⟩, lowered⟩

/-- An element behind its marker is found as before, with the lower bound kept. -/
theorem readMarked_degrades
    (lowered : lower.Curtails bounds)
    (options : DecodeOptions)
    (key : Option String)
    (offset : Nat)
    (marker : Marker) :
    Degrades Element.ShortenedWith (readMarked options key bounds offset marker)
      (readMarked options key lower offset marker) := by
  have scalar {payload : Decode Value} (curtailable : Curtailable payload) :=
    readScalar_degrades lowered key curtailable
  have opened (type : FieldType) (kind : ContainerKind) :
      Degrades Element.ShortenedWith
        (readLength type >>= openContainer key bounds offset kind)
        (readLength type >>= openContainer key lower offset kind) :=
    (readLength_curtailable type).bind fun _ => openContainer_degrades lowered _ _ _ _
  have texts (type : FieldType) :
      Curtailable (Value.string <$> (readLength type >>= readString)) :=
    Curtailable.map ((readLength_curtailable type).bind fun _ => readString_curtailable _) _
  have extensions (type : FieldType) :
      Curtailable (readLength type >>= readExtension options) :=
    (readLength_curtailable type).bind fun _ => readExtension_curtailable _ _
  have binaries (type : FieldType) :
      Curtailable (readLength type >>= readBinary options) :=
    (readLength_curtailable type).bind fun _ => readBinary_curtailable _ _
  cases marker with
  | nil => exact scalar (Curtailable.pure _)
  | false => exact scalar (Curtailable.pure _)
  | true => exact scalar (Curtailable.pure _)
  | bin8 => exact scalar (binaries .uint8)
  | bin16 => exact scalar (binaries .uint16BE)
  | bin32 => exact scalar (binaries .uint32BE)
  | ext8 => exact scalar (extensions .uint8)
  | ext16 => exact scalar (extensions .uint16BE)
  | ext32 => exact scalar (extensions .uint32BE)
  | float32 => exact scalar ((readField_curtailable _).map _)
  | float64 => exact scalar ((readField_curtailable _).map _)
  | uint8 => exact scalar ((readField_curtailable _).map _)
  | uint16 => exact scalar ((readField_curtailable _).map _)
  | uint32 => exact scalar ((readField_curtailable _).map _)
  | uint64 => exact scalar (readUnsigned_curtailable _)
  | int8 => exact scalar ((readField_curtailable _).map _)
  | int16 => exact scalar ((readField_curtailable _).map _)
  | int32 => exact scalar ((readField_curtailable _).map _)
  | int64 => exact scalar ((readField_curtailable _).map _)
  | fixExt1 => exact scalar (readExtension_curtailable _ _)
  | fixExt2 => exact scalar (readExtension_curtailable _ _)
  | fixExt4 => exact scalar (readExtension_curtailable _ _)
  | fixExt8 => exact scalar (readExtension_curtailable _ _)
  | fixExt16 => exact scalar (readExtension_curtailable _ _)
  | str8 => exact scalar (texts .uint8)
  | str16 => exact scalar (texts .uint16BE)
  | str32 => exact scalar (texts .uint32BE)
  | array16 => exact opened .uint16BE .array
  | array32 => exact opened .uint32BE .array
  | map16 => exact opened .uint16BE .map
  | map32 => exact opened .uint32BE .map

/-- An element behind its lead is found as before, with the lower bound kept. -/
theorem readContents_degrades
    (lowered : lower.Curtails bounds)
    (options : DecodeOptions)
    (key : Option String)
    (offset : Nat)
    (lead : UInt8) :
    Degrades Element.ShortenedWith (readContents options key bounds offset lead)
      (readContents options key lower offset lead) := by
  unfold readContents
  split
  · exact readScalar_degrades lowered key (Curtailable.pure _)
  · exact openContainer_degrades lowered _ _ _ _
  · exact openContainer_degrades lowered _ _ _ _
  · exact readScalar_degrades lowered key ((readString_curtailable _).map _)
  · exact readMarked_degrades lowered _ _ _ _
  · exact Degrades.fail _ _

/-- An element that its container has declared is found as before. -/
theorem readDeclared_degrades
    (lowered : lower.Curtails bounds)
    (options : DecodeOptions)
    (kind : ContainerKind) :
    Degrades Element.ShortenedWith (readDeclared options kind bounds)
      (readDeclared options kind lower) :=
  (readEntryKey_curtailable kind).bind fun _ =>
    position_curtailable.bind fun _ =>
      readByte_curtailable.bind fun _ => readContents_degrades lowered _ _ _ _

/-- A step of reading finds the same on fewer bytes, or stops with a length fault. -/
theorem next_degrades (options : DecodeOptions) : reader.NextDegrades options := by
  intro kind bounds lower lowered
  change Degrades _ (readElement options kind bounds) (readElement options kind lower)
  rw [readElement, readElement, ← lowered.remaining_eq]
  split
  · exact Degrades.pure ⟨.finished, lowered⟩
  · have counted : Bounds.Curtails ⟨lower.stop, lower.remaining - 1⟩
        ⟨bounds.stop, lower.remaining - 1⟩ := ⟨lowered.stop_le, rfl⟩
    exact readDeclared_degrades counted options kind

/-- The root's header may be cut short, or declare more than there is. -/
theorem readRootCount_curtailable (lead : UInt8) : Curtailable (readRootCount lead) := by
  unfold readRootCount
  split
  · exact Curtailable.pure _
  · exact readLength_curtailable .uint16BE
  · exact readLength_curtailable .uint32BE
  · exact Curtailable.malformed _

/-- An input that is not too long stays so when bytes are missing at its end. -/
theorem readRoot_degrades (options : DecodeOptions) :
    Degrades (fun bounds lower => lower.Curtails bounds) (readRoot options)
      (readRoot options) := by
  refine remaining_degrades.bind fun size fewer less => ?_
  have small : decide (size ≤ options.maximumSize) = true →
      decide (fewer ≤ options.maximumSize) = true := fun within =>
    decide_eq_true (Nat.le_trans less (of_decide_eq_true within))
  refine (Degrades.ensure_of_imp small _ _).bind fun _ _ _ =>
    position_curtailable.bind fun _ =>
      readByte_curtailable.bind fun _ =>
        (readRootCount_curtailable _).bind fun _ =>
          (checkCount_degrades _ _ _).bind fun _ _ _ =>
            limit_degrades.bind fun _ _ lowered => Degrades.pure ⟨lowered, rfl⟩

end DocumentCodec.MessagePack
