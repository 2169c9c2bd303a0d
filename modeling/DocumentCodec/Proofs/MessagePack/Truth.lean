import DocumentCodec.Proofs.Bytes.Naming
import DocumentCodec.Proofs.MessagePack.Leads
import DocumentCodec.Proofs.MessagePack.Sharing
import DocumentCodec.Proofs.Traversal.Truth

namespace DocumentCodec.MessagePack

/-!
# What MessagePack errors say about the input

The parts of the reader are plain, but for lead bytes.  One of these that is
refused, as a value or as a key, is the byte at the offset that the error names.
-/

open Decode

variable {input : ByteArray}

/-- Reading a text reports truly, and names no byte. -/
theorem readString_plain (length : Nat) : Plain input (readString length) :=
  .at_position fun _ => (readBytes_plain _).bind fun _ => decodeText_plain _ _

/-- Reading a length reports truly, and names no byte. -/
theorem readLength_plain (type : FieldType) : Plain input (readLength type) :=
  (readField_plain type).map _

/-- A lead byte that announces no string is none of theirs. -/
theorem not_isStringLead
    {lead : UInt8}
    (noString : ∀ length, Lead.ofByte lead ≠ .string length)
    (noStr8 : Lead.ofByte lead ≠ .marker .str8)
    (noStr16 : Lead.ofByte lead ≠ .marker .str16)
    (noStr32 : Lead.ofByte lead ≠ .marker .str32) :
    ¬ IsStringLead lead := by
  rintro (⟨lower, upper⟩ | rfl | rfl | rfl)
  · have behind {first : UInt8} (before : first ≤ fixString) : ¬ lead < first :=
      UInt8.not_lt.mpr (UInt8.le_trans before lower)
    refine noString (lead - fixString).toNat ?_
    rw [Lead.ofByte, if_neg (behind (by decide)), if_neg (behind (by decide)),
      if_neg (behind (by decide)), if_pos upper]
  · exact noStr8 (Lead.ofByte_marker _)
  · exact noStr16 (Lead.ofByte_marker _)
  · exact noStr32 (Lead.ofByte_marker _)

/-- The length of a key is read plainly, or the lead byte in front of it is refused. -/
theorem readKeyLength_plain_or (offset : Nat) (lead : UInt8) :
    Plain input (readKeyLength offset lead) ∨
      readKeyLength offset lead = malformed (.keyNotString offset lead) ∧
        ¬ IsStringLead lead := by
  unfold readKeyLength
  split
  · exact .inl (.pure _)
  · exact .inl (readLength_plain .uint8)
  · exact .inl (readLength_plain .uint16BE)
  · exact .inl (readLength_plain .uint32BE)
  · rename_i noString noStr8 noStr16 noStr32
    exact .inr ⟨rfl, not_isStringLead noString noStr8 noStr16 noStr32⟩

/-- The lead that begins no key is the byte at the offset that is told. -/
theorem readKeyLength_truthful
    {offset : Nat}
    {lead : UInt8}
    (stands : HoldsAt input offset lead) :
    Truthful input (readKeyLength offset lead) := by
  obtain plain | ⟨refused, noString⟩ := readKeyLength_plain_or offset lead
  · exact plain.truthful
  · rw [refused]
    exact Truthful.fail ⟨stands, noString⟩

/-- What is told of a key is true of the input. -/
theorem readKey_truthful : Truthful input readKey :=
  .at_byte fun _ _ stands =>
    (readKeyLength_truthful stands).bind fun _ => (readString_plain _).truthful

/-- What is told of an element's key is true of the input. -/
theorem readEntryKey_truthful (kind : ContainerKind) : Truthful input (readEntryKey kind) := by
  cases kind with
  | map => exact readKey_truthful.map _
  | array => exact Truthful.pure _

/-- A count too large for the bytes is told with what remains, and no byte is named. -/
theorem checkCount_plain (kind : ContainerKind) (count offset : Nat) :
    Plain input (checkCount kind count offset) :=
  .at_remaining fun _ _ => .ensure (fun _ => trivial) rfl

/-- Reading an extension reports truly, and names no byte. -/
theorem readExtension_plain (options : DecodeOptions) (length : Nat) :
    Plain input (readExtension options length) :=
  (readField_plain _).bind fun _ =>
    (options.readPayload_plain _).bind fun _ => .pure _

/-- Reading binary data reports truly, and names no byte. -/
theorem readBinary_plain (options : DecodeOptions) (length : Nat) :
    Plain input (readBinary options length) :=
  (options.readPayload_plain _).bind fun _ => .pure _

/-- Reading an unsigned number reports truly, and names no byte. -/
theorem readUnsigned_plain (offset : Nat) : Plain input (readUnsigned offset) := by
  refine (readField_plain _).bind fun _ => ?_
  split
  · exact .pure _
  · exact .fail trivial rfl

/-- An element reports as its payload does. -/
theorem readScalar_plain
    (key : Option String)
    (parent : Bounds)
    {payload : Decode Value}
    (plain : Plain input payload) :
    Plain input (readScalar key parent payload) :=
  plain.bind fun _ => .pure _

/-- Opening a container reports truly, and names no byte. -/
theorem openContainer_plain
    (key : Option String)
    (parent : Bounds)
    (offset : Nat)
    (kind : ContainerKind)
    (count : Nat) :
    Plain input (openContainer key parent offset kind count) :=
  (checkCount_plain _ _ _).bind fun _ => .pure _

/-- Reading behind a marker reports truly, and names no byte. -/
theorem readMarked_plain
    (options : DecodeOptions)
    (key : Option String)
    (parent : Bounds)
    (offset : Nat)
    (marker : Marker) :
    Plain input (readMarked options key parent offset marker) := by
  have scalar {payload : Decode Value} (plain : Plain input payload) :=
    readScalar_plain key parent plain
  have opened (type : FieldType) (kind : ContainerKind) :
      Plain input (readLength type >>= openContainer key parent offset kind) :=
    (readLength_plain type).bind fun _ => openContainer_plain _ _ _ _ _
  have texts (type : FieldType) :
      Plain input (Value.string <$> (readLength type >>= readString)) :=
    Plain.map ((readLength_plain type).bind fun _ => readString_plain _) _
  have extensions (type : FieldType) :
      Plain input (readLength type >>= readExtension options) :=
    (readLength_plain type).bind fun _ => readExtension_plain _ _
  have binaries (type : FieldType) : Plain input (readLength type >>= readBinary options) :=
    (readLength_plain type).bind fun _ => readBinary_plain _ _
  cases marker with
  | nil | false | true => exact scalar (.pure _)
  | bin8 | bin16 | bin32 => exact scalar (binaries _)
  | ext8 | ext16 | ext32 => exact scalar (extensions _)
  | float32 | float64 => exact scalar ((readField_plain _).map _)
  | uint8 | uint16 | uint32 => exact scalar ((readField_plain _).map _)
  | uint64 => exact scalar (readUnsigned_plain _)
  | int8 | int16 | int32 | int64 => exact scalar ((readField_plain _).map _)
  | fixExt1 | fixExt2 | fixExt4 | fixExt8 | fixExt16 =>
      exact scalar (readExtension_plain _ _)
  | str8 | str16 | str32 => exact scalar (texts _)
  | array16 | array32 => exact opened _ .array
  | map16 | map32 => exact opened _ .map

/-- A value is read plainly, or its lead byte is refused. -/
theorem readContents_plain_or
    (options : DecodeOptions)
    (key : Option String)
    (parent : Bounds)
    (offset : Nat)
    (lead : UInt8) :
    Plain input (readContents options key parent offset lead) ∨
      readContents options key parent offset lead =
          malformed (.reservedMarker lead offset) ∧
        lead = 0xc1 := by
  have begins := Lead.begins_ofByte lead
  unfold readContents
  split
  · exact .inl (readScalar_plain key parent (.pure _))
  · exact .inl (openContainer_plain _ _ _ _ _)
  · exact .inl (openContainer_plain _ _ _ _ _)
  · exact .inl (readScalar_plain key parent ((readString_plain _).map _))
  · exact .inl (readMarked_plain _ _ _ _ _)
  · rename_i reserved
    rw [reserved] at begins
    exact .inr ⟨rfl, begins⟩

/-- The lead that is reserved is the byte at the offset that is told. -/
theorem readContents_truthful
    (options : DecodeOptions)
    (key : Option String)
    (parent : Bounds)
    {offset : Nat}
    {lead : UInt8}
    (stands : HoldsAt input offset lead) :
    Truthful input (readContents options key parent offset lead) := by
  obtain plain | ⟨refused, reserved⟩ := readContents_plain_or options key parent offset lead
  · exact plain.truthful
  · rw [refused]
    exact Truthful.fail ⟨stands, reserved⟩

/-- What is told of an element is true of the input. -/
theorem readDeclared_truthful
    (options : DecodeOptions)
    (kind : ContainerKind)
    (bounds : Bounds) :
    Truthful input (readDeclared options kind bounds) :=
  (readEntryKey_truthful kind).bind fun _ =>
    .at_byte fun _ _ stands => readContents_truthful _ _ _ stands

/-- Reading a document's count reports truly, and names no byte. -/
theorem readRootCount_plain (lead : UInt8) : Plain input (readRootCount lead) := by
  unfold readRootCount
  split
  · exact .pure _
  · exact readLength_plain .uint16BE
  · exact readLength_plain .uint32BE
  · exact .fail trivial rfl

/-- Opening a document reports truly, and names no byte. -/
theorem readRoot_plain (options : DecodeOptions) : Plain input (readRoot options) :=
  .at_remaining fun _ _ =>
    .ensure_then (fun _ => trivial) rfl <|
      .at_position fun _ =>
        readByte_plain.bind fun _ =>
          (readRootCount_plain _).bind fun _ =>
            (checkCount_plain _ _ _).bind fun _ => .at_limit fun _ => .pure _

/-- Every error of the reader is true of the input. -/
theorem reportsTruly : MessagePack.reader.ReportsTruly where
  root options input := (readRoot_plain options).truthful
  next options kind bounds reader := by
    rcases bounds with ⟨stop, _ | count⟩
    · rfl
    · change Decode.ReportsOn reader.bytes (readElement options kind ⟨stop, count + 1⟩ reader)
      rw [readElement_declared]
      by_cases inBounds : reader.InBounds
      · exact (readDeclared_truthful options kind ⟨stop, count⟩ rfl inBounds).reportsOn
      · rw [readDeclared_of_not_inBounds inBounds]
        exact Truthful.truncated_of_not_inBounds inBounds

end DocumentCodec.MessagePack
