import DocumentCodec.Proofs.Bson.Sharing
import DocumentCodec.Proofs.Bytes.Naming
import DocumentCodec.Proofs.Traversal.Truth

namespace DocumentCodec.Bson

/-!
# What BSON errors say about the input

The parts of the reader are plain, but for tags and truth values.  One of these
that is refused is the byte at the offset that the error names.
-/

open Decode

variable {input : ByteArray}

/-- Opening a document reports sizes, and names no byte. -/
theorem readRoot_plain (options : DecodeOptions) : Plain input (readRoot options) := by
  refine .at_position fun start => .at_remaining fun available inside =>
    (readField_plain _).bind fun declared =>
      .ensure_then (fun _ => trivial) rfl <| .ensure_then (fun _ => trivial) rfl <|
        .ensure_then (fun longer => ?_) rfl (.pure _)
  exact ⟨Nat.lt_of_not_le (of_decide_eq_false longer), inside⟩

/-- Reading a string reports truly, and names no byte. -/
theorem readString_plain : Plain input readString :=
  .at_position fun _ =>
    (readField_plain _).bind fun _ =>
      .ensure_then (fun _ => trivial) rfl <|
        (readBytes_plain _).bind fun _ =>
          readByte_plain.bind fun _ =>
            .ensure_then (fun _ => trivial) rfl (decodeText_plain _ _)

/-- Reading binary data reports truly, and names no byte. -/
theorem readBinary_plain (options : DecodeOptions) : Plain input (readBinary options) := by
  refine .at_position fun _ =>
    (readField_plain _).bind fun _ =>
      .ensure_then (fun _ => trivial) rfl <| readByte_plain.bind fun _ => ?_
  split
  · exact .ensure_then (fun _ => trivial) rfl <|
      (readField_plain _).bind fun _ =>
        .ensure_then (fun _ => trivial) rfl <|
          (options.readPayload_plain _).bind fun _ => .pure _
  · exact (options.readPayload_plain _).bind fun _ => .pure _

/-- The byte that is not a boolean is the one at the offset that is told. -/
theorem readBoolean_truthful : Truthful input readBoolean := by
  refine .at_byte fun offset byte stands => ?_
  split
  · exact Truthful.pure _
  · rename_i notFalse
    split
    · exact Truthful.pure _
    · rename_i notTrue
      exact Truthful.fail ⟨stands, notFalse, notTrue⟩

/-- Reading an identifier reports truly, and names no byte. -/
theorem readObjectId_plain : Plain input readObjectId :=
  (readBytes_plain _).bind fun _ => .pure _

/-- Reading a time reports truly, and names no byte. -/
theorem readDateTime_plain : Plain input readDateTime :=
  (readField_plain _).bind fun _ => .pure _

/-- The faults of decimals do not name bytes. -/
theorem fault_of_toDecimal
    {words : Decimal128}
    {fault : FormatFault}
    (meant : words.toDecimal = .error fault) :
    fault.IsTrueOf input ∧ fault.named? = none := by
  unfold Decimal128.toDecimal at meant
  split at meant
  · cases meant
    exact ⟨trivial, rfl⟩
  · split at meant
    · cases meant
      exact ⟨trivial, rfl⟩
    · cases meant

/-- Reading a decimal reports truly, and names no byte. -/
theorem readDecimal_plain : Plain input readDecimal := by
  refine (readField_plain _).bind fun _ => (readField_plain _).bind fun _ => ?_
  split
  · exact .pure _
  · rename_i meant
    obtain ⟨holds, unnamed⟩ := fault_of_toDecimal meant
    exact .fail holds unnamed

/-- Opening a container reports truly, and names no byte. -/
theorem readNested_plain (key : Option String) (kind : ContainerKind) (parent : Bounds) :
    Plain input (readNested key kind parent) :=
  .at_position fun _ =>
    (readField_plain _).bind fun _ =>
      .ensure_then (fun _ => trivial) rfl <| .ensure_then (fun _ => trivial) rfl (.pure _)

/-- Reading a key reports truly, and names no byte. -/
theorem readKey_plain (kind : ContainerKind) (offset : Nat) :
    Plain input (readKey kind offset) := by
  refine readZeroTerminated_plain.bind fun _ => ?_
  cases kind with
  | map => exact (decodeText_plain _ _).map some
  | array => exact Plain.pure none

/-- Of the types of elements only booleans have bytes that are refused by name. -/
theorem readContents_plain
    (options : DecodeOptions)
    (key : Option String)
    (parent : Bounds)
    {type : ElementType}
    (other : type ≠ .boolean) :
    Plain input (readContents options key parent type) := by
  have scalar {payload : Decode Value} (plain : Plain input payload) :
      Plain input (readScalar key parent payload) :=
    plain.bind fun _ => Plain.pure _
  cases type with
  | double => exact scalar ((readField_plain _).map _)
  | string => exact scalar (readString_plain.map _)
  | document => exact readNested_plain key .map parent
  | array => exact readNested_plain key .array parent
  | binary => exact scalar ((readBinary_plain options).map _)
  | objectId => exact scalar (readObjectId_plain.map _)
  | boolean => exact absurd rfl other
  | dateTime => exact scalar (readDateTime_plain.map _)
  | null => exact scalar (Plain.pure _)
  | int32 => exact scalar ((readField_plain _).map _)
  | int64 => exact scalar ((readField_plain _).map _)
  | decimal128 => exact scalar (readDecimal_plain.map _)

/-- What is told of an element's contents is true of the input. -/
theorem readContents_truthful
    (options : DecodeOptions)
    (key : Option String)
    (parent : Bounds)
    (type : ElementType) :
    Truthful input (readContents options key parent type) := by
  by_cases boolean : type = .boolean
  · subst boolean
    exact (readBoolean_truthful.map _).bind fun _ => Truthful.pure _
  · exact (readContents_plain options key parent boolean).truthful

/-- The tag that is not known is the byte at the offset that is told. -/
theorem readTagged_truthful
    (options : DecodeOptions)
    (kind : ContainerKind)
    (parent : Bounds)
    {offset : Nat}
    {tag : UInt8}
    (stands : HoldsAt input offset tag)
    (other : tag ≠ terminator) :
    Truthful input (readTagged options kind parent offset tag) := by
  unfold readTagged
  split
  · rename_i unknown
    refine Truthful.fail ⟨stands, other, fun type same => ?_⟩
    rw [← same, ElementType.ofTag?_tag] at unknown
    cases unknown
  · exact (readKey_plain _ _).truthful.bind fun _ => readContents_truthful _ _ _ _

/-- What is told of an element is true of the input. -/
theorem readElement_truthful
    (options : DecodeOptions)
    (kind : ContainerKind)
    (bounds : Bounds) :
    Truthful input (readElement options kind bounds) := by
  intro reader ofInput inBounds
  rw [readElement, position_bind, ensure_bind]
  split
  · refine Truthful.byte_then ofInput inBounds fun tag stands => ?_
    split
    · exact .ensure_then (fun _ => trivial) (.pure _)
    · rename_i other
      exact readTagged_truthful options kind bounds stands other
  · exact trivial

/-- Every error of the reader is true of the input. -/
theorem reportsTruly : Bson.reader.ReportsTruly where
  root options input := (readRoot_plain options).truthful
  next options kind bounds reader := by
    change Decode.ReportsOn reader.bytes (readElement options kind bounds reader)
    by_cases inBounds : reader.InBounds
    · exact (readElement_truthful options kind bounds rfl inBounds).reportsOn
    · have missing := readByte_of_not_inBounds inBounds
      rw [readElement, position_bind, ensure_bind, run_bind_of_error missing]
      split
      · exact Truthful.truncated_of_not_inBounds inBounds
      · exact trivial

end DocumentCodec.Bson
