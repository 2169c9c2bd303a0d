import DocumentCodec.MessagePack.Reading
import DocumentCodec.Proofs.MessagePack.Leads

namespace DocumentCodec.MessagePack

/-!
# Reading the parts of an element

Keys, scalars and container headers are recognized as the grammar has them.
-/

open Decode

variable {input : ByteArray} {options : DecodeOptions}

/-- A number of 32 bits becomes one of that width. -/
theorem narrow_of_not_isWide
    {number : Int}
    (narrowed : ¬ IsWide number) :
    narrow number = .int32 (Int32.ofInt number) := by
  unfold IsWide at narrowed
  exact if_pos (by omega)

/-- A number that needs more than 32 bits becomes one of 64. -/
theorem narrow_of_isWide
    {number : Int}
    (wide : IsWide number) :
    narrow number = .int64 (Int64.ofInt number) := by
  unfold IsWide at wide
  exact if_neg (by omega)

/-- A 32-bit number stays what it is. -/
theorem narrow_int32 (value : Int32) : narrow value.toInt = .int32 value := by
  have lower := value.le_toInt
  have upper := value.toInt_lt
  rw [narrow_of_not_isWide (by unfold IsWide; omega), Int32.ofInt_toInt]

/-- A 64-bit number stays what it is if it needs the width. -/
theorem narrow_int64 {value : Int64} (wide : IsWide value.toInt) :
    narrow value.toInt = .int64 value := by
  rw [narrow_of_isWide wide, Int64.ofInt_toInt]

/-- A number in the range of 64 bits is the payload that its narrowing is read from. -/
theorem isPayload_narrow
    {type : FieldType}
    {number : Int}
    (holds : type.Holds number)
    (lower : -0x8000000000000000 ≤ number)
    (upper : number < 0x8000000000000000) :
    IsPayload (.integer type) (type.bytes number) (narrow number) := by
  by_cases wide : IsWide number
  · have same := Int64.toInt_ofInt_of_le lower upper
    rw [narrow_of_isWide wide]
    have payload := @IsPayload.int64 type (Int64.ofInt number)
    rw [same] at payload
    exact payload holds wide
  · have same : (Int32.ofInt number).toInt = number := by
      unfold IsWide at wide
      exact Int32.toInt_ofInt_of_le (by omega) (by omega)
    rw [narrow_of_not_isWide wide]
    have payload := @IsPayload.int32 type (Int32.ofInt number)
    rw [same] at payload
    exact payload holds

/-- An integer behind a marker is a number of its field, in the narrowest kind that holds it. -/
theorem exists_number_of_isPayload
    {type : FieldType}
    {taken : List UInt8}
    {value : Value}
    (payload : IsPayload (.integer type) taken value) :
    ∃ number, type.Holds number ∧ number < 0x8000000000000000 ∧
      taken = type.bytes number ∧ value = narrow number := by
  cases payload with
  | int32 value holds =>
      have upper := value.toInt_lt
      exact ⟨value.toInt, holds, by omega, rfl, (narrow_int32 value).symm⟩
  | int64 value holds wide =>
      exact ⟨value.toInt, holds, value.toInt_lt, rfl, (narrow_int64 wide).symm⟩

/-- The numbers of a field are within the range of 64 bits with a sign. -/
def InRange (type : FieldType) : Prop :=
  ∀ number, type.Holds number →
    -0x8000000000000000 ≤ number ∧ number < 0x8000000000000000

/-- Signed fields of up to eight bytes and unsigned ones of up to four are in range. -/
theorem inRange_of_modulus
    {type : FieldType}
    (small :
      if type.isSigned then type.modulus ≤ 0x10000000000000000
      else type.modulus ≤ 0x8000000000000000) :
    InRange type := by
  intro number holds
  unfold FieldType.Holds at holds
  by_cases signed : type.isSigned
  · rw [if_pos signed] at holds small
    omega
  · rw [if_neg signed] at holds small
    omega

/-- Behind a marker whose numbers all have a kind, an integer is its field. -/
theorem readInteger_recognizes
    {type : FieldType}
    (range : InRange type) :
    Recognizes input (narrow <$> readField type) (IsPayload (.integer type)) := by
  refine ((readField_recognizes type).map narrow).congr fun taken value => ?_
  constructor
  · rintro ⟨number, ⟨holds, rfl⟩, rfl⟩
    exact isPayload_narrow holds (range number holds).1 (range number holds).2
  · intro payload
    obtain ⟨number, holds, _, rfl, rfl⟩ := exists_number_of_isPayload payload
    exact ⟨number, ⟨holds, rfl⟩, rfl⟩

/-- An unsigned number of 64 bits is accepted if a signed one holds it. -/
theorem readUnsigned_recognizes (offset : Nat) :
    Recognizes input (readUnsigned offset) (IsPayload (.integer .uint64BE)) := by
  unfold readUnsigned
  refine Recognizes.congr
    (.bind (readField_recognizes .uint64BE) fun number =>
      .ite (.pure (narrow number)) (.fail _))
    fun taken value => ?_
  constructor
  · rintro ⟨number, _, _, ⟨holds, rfl⟩, ⟨small, rfl, rfl⟩ | ⟨_, never⟩, rfl⟩
    · rw [List.append_nil]
      have lower : 0 ≤ number := And.left holds
      exact isPayload_narrow holds (by omega) small
    · exact never.elim
  · intro payload
    obtain ⟨number, holds, small, rfl, rfl⟩ := exists_number_of_isPayload payload
    exact ⟨number, _, [], ⟨holds, rfl⟩, .inl ⟨small, rfl, rfl⟩,
      (List.append_nil _).symm⟩

/-- A length is an unsigned field. -/
theorem readLength_recognizes
    {type : FieldType}
    (unsigned : type.isSigned = false) :
    Recognizes input (readLength type) fun taken length =>
      type.Holds length ∧ taken = type.bytes length := by
  refine ((readField_recognizes type).map Int.toNat).congr fun taken length => ?_
  constructor
  · rintro ⟨number, ⟨holds, rfl⟩, rfl⟩
    have nonnegative : 0 ≤ number := by
      rw [FieldType.Holds, unsigned] at holds
      exact holds.1
    rw [Int.toNat_of_nonneg nonnegative]
    exact ⟨holds, rfl⟩
  · rintro ⟨holds, rfl⟩
    exact ⟨length, ⟨holds, rfl⟩, rfl⟩

/-- A text of a known length is its bytes. -/
theorem readString_recognizes (length : Nat) :
    Recognizes input (readString length) fun taken text =>
      text.utf8ByteSize = length ∧ taken = Utf8.encode text := by
  refine Recognizes.congr
    (.at_position fun offset => .bind (readBytes_recognizes length) fun bytes =>
      decodeText_recognizes bytes offset)
    fun taken text => ?_
  constructor
  · rintro ⟨_, raw, _, ⟨sized, rfl⟩, ⟨rfl, spelled⟩, rfl⟩
    change raw = Utf8.encode text at spelled
    rw [List.append_nil, ← sized, spelled]
    exact ⟨Array.length_toList.symm, rfl⟩
  · rintro ⟨rfl, rfl⟩
    exact ⟨_, Utf8.encode text, [], ⟨Array.length_toList, rfl⟩, ⟨rfl, rfl⟩,
      (List.append_nil _).symm⟩

/-- A text is its length and its bytes. -/
theorem readMeasuredString_recognizes
    {type : FieldType}
    (unsigned : type.isSigned = false) :
    Recognizes input (Value.string <$> (readLength type >>= readString))
      (IsPayload (.string type)) := by
  refine Recognizes.congr
    (.map (.bind (readLength_recognizes unsigned) readString_recognizes) Value.string)
    fun taken value => ?_
  constructor
  · rintro ⟨text, ⟨_, _, _, ⟨holds, rfl⟩, ⟨rfl, rfl⟩, rfl⟩, rfl⟩
    exact .string text holds
  · intro payload
    cases payload with
    | string text holds =>
        exact ⟨text, ⟨_, _, _, ⟨holds, rfl⟩, ⟨rfl, rfl⟩, rfl⟩, rfl⟩

/-- Binary data is its length and its bytes, copied or shared. -/
theorem readMeasuredBinary_recognizes
    {type : FieldType}
    (owned : ∀ owner ∈ options.shared?, owner = input)
    (unsigned : type.isSigned = false) :
    Recognizes input (readLength type >>= readBinary options)
      (IsPayload (.binary type)) := by
  refine Recognizes.congr
    (.bind (readLength_recognizes unsigned) fun length =>
      .bind (readPayload_recognizes owned length) fun bytes => .pure _)
    fun taken value => ?_
  constructor
  · rintro ⟨_, _, _, ⟨holds, rfl⟩, ⟨_, raw, _, ⟨rfl, rfl⟩, ⟨rfl, rfl⟩, rfl⟩, rfl⟩
    rw [List.append_nil]
    exact .binary ⟨raw.toArray⟩ holds
  · intro payload
    cases payload with
    | binary bytes holds =>
        exact ⟨_, _, _, ⟨holds, rfl⟩, ⟨_, bytes.data.toList, [],
          ⟨Array.length_toList, rfl⟩, ⟨rfl, rfl⟩, (List.append_nil _).symm⟩, rfl⟩

/-- An extension of a known length is its kind and its bytes. -/
theorem readExtension_recognizes
    (owned : ∀ owner ∈ options.shared?, owner = input)
    (length : Nat) :
    Recognizes input (readExtension options length) fun taken value =>
      ∃ kind data, data.size = length ∧
        taken = FieldType.int8.bytes kind.toInt ++ data.data.toList ∧
          value = .extension ⟨kind, data⟩ := by
  refine Recognizes.congr
    (.bind (readField_recognizes .int8) fun kind =>
      .bind (readPayload_recognizes owned length) fun data => .pure _)
    fun taken value => ?_
  have carries := FieldType.carries_int8
  constructor
  · rintro ⟨number, _, _, ⟨holds, rfl⟩, ⟨_, raw, _, ⟨sized, rfl⟩, ⟨rfl, rfl⟩, rfl⟩, rfl⟩
    refine ⟨Int8.ofInt number, ⟨raw.toArray⟩, sized, ?_, rfl⟩
    rw [carries.number_convert holds, List.append_nil]
  · rintro ⟨kind, data, sized, rfl, rfl⟩
    refine ⟨kind.toInt, _, data.data.toList, ⟨carries.holds kind, rfl⟩,
      ⟨data, data.data.toList, [], ⟨Array.length_toList.trans sized, rfl⟩, ⟨rfl, ?_⟩,
        (List.append_nil _).symm⟩, rfl⟩
    rw [carries.convert_number]

/-- An extension is its length, its kind and its bytes. -/
theorem readMeasuredExtension_recognizes
    {type : FieldType}
    (owned : ∀ owner ∈ options.shared?, owner = input)
    (unsigned : type.isSigned = false) :
    Recognizes input (readLength type >>= readExtension options)
      (IsPayload (.extension type)) := by
  refine Recognizes.congr
    (.bind (readLength_recognizes unsigned) fun length =>
      readExtension_recognizes owned length)
    fun taken value => ?_
  constructor
  · rintro ⟨_, _, _, ⟨holds, rfl⟩, ⟨kind, data, rfl, rfl, rfl⟩, rfl⟩
    exact .extension kind data holds
  · intro payload
    cases payload with
    | extension kind data holds =>
        exact ⟨_, _, _, ⟨holds, rfl⟩, ⟨kind, data, rfl, rfl, rfl⟩, rfl⟩

/-- An extension whose marker tells the length is its kind and its bytes. -/
theorem readFixedExtension_recognizes
    (owned : ∀ owner ∈ options.shared?, owner = input)
    (length : Nat) :
    Recognizes input (readExtension options length)
      (IsPayload (.fixedExtension length)) := by
  refine (readExtension_recognizes owned length).congr fun taken value => ?_
  constructor
  · rintro ⟨kind, data, rfl, rfl, rfl⟩
    exact .fixedExtension kind data
  · intro payload
    cases payload with
    | fixedExtension kind data => exact ⟨kind, data, rfl, rfl, rfl⟩

/-- Every marker but those of containers has a reader for what follows it. -/
theorem exists_payload_reader
    (owned : ∀ owner ∈ options.shared?, owner = input)
    (offset : Nat)
    {marker : Marker}
    (plain : ∀ kind type, marker.layout ≠ .container kind type) :
    ∃ payload, Recognizes input payload (IsPayload marker.layout) ∧
      ∀ key parent,
        readMarked options key parent offset marker = readScalar key parent payload := by
  have constants (value : Value) :
      Recognizes input (pure value) (IsPayload (.constant value)) := by
    refine (Recognizes.pure value).congr fun taken result => ?_
    constructor
    · rintro ⟨rfl, rfl⟩
      exact .constant result
    · rintro ⟨⟩
      exact ⟨rfl, rfl⟩
  cases marker with
  | nil => exact ⟨_, constants .null, fun _ _ => rfl⟩
  | false => exact ⟨_, constants (.bool .false), fun _ _ => rfl⟩
  | true => exact ⟨_, constants (.bool .true), fun _ _ => rfl⟩
  | bin8 => exact ⟨_, readMeasuredBinary_recognizes owned rfl, fun _ _ => rfl⟩
  | bin16 => exact ⟨_, readMeasuredBinary_recognizes owned rfl, fun _ _ => rfl⟩
  | bin32 => exact ⟨_, readMeasuredBinary_recognizes owned rfl, fun _ _ => rfl⟩
  | ext8 => exact ⟨_, readMeasuredExtension_recognizes owned rfl, fun _ _ => rfl⟩
  | ext16 => exact ⟨_, readMeasuredExtension_recognizes owned rfl, fun _ _ => rfl⟩
  | ext32 => exact ⟨_, readMeasuredExtension_recognizes owned rfl, fun _ _ => rfl⟩
  | float32 =>
      have carries :
          FieldType.float32BE.Carries UInt32.ofInt fun bits => (bits.toNat : Int) :=
        FieldType.carries_word32 rfl rfl
      refine ⟨_, (readCarried_recognizes carries Value.float32).congr ?_, fun _ _ => rfl⟩
      intro taken value
      constructor
      · rintro ⟨bits, rfl, rfl⟩
        exact .float32 bits
      · rintro ⟨bits⟩
        exact ⟨_, rfl, rfl⟩
  | float64 =>
      have carries :
          FieldType.float64BE.Carries UInt64.ofInt fun bits => (bits.toNat : Int) :=
        FieldType.carries_word64 rfl rfl
      refine ⟨_, (readCarried_recognizes carries Value.float64).congr ?_, fun _ _ => rfl⟩
      intro taken value
      constructor
      · rintro ⟨bits, rfl, rfl⟩
        exact .float64 bits
      · rintro ⟨bits⟩
        exact ⟨_, rfl, rfl⟩
  | uint8 => exact ⟨_, readInteger_recognizes (inRange_of_modulus (by decide)), fun _ _ => rfl⟩
  | uint16 => exact ⟨_, readInteger_recognizes (inRange_of_modulus (by decide)), fun _ _ => rfl⟩
  | uint32 => exact ⟨_, readInteger_recognizes (inRange_of_modulus (by decide)), fun _ _ => rfl⟩
  | uint64 => exact ⟨_, readUnsigned_recognizes offset, fun _ _ => rfl⟩
  | int8 => exact ⟨_, readInteger_recognizes (inRange_of_modulus (by decide)), fun _ _ => rfl⟩
  | int16 => exact ⟨_, readInteger_recognizes (inRange_of_modulus (by decide)), fun _ _ => rfl⟩
  | int32 => exact ⟨_, readInteger_recognizes (inRange_of_modulus (by decide)), fun _ _ => rfl⟩
  | int64 => exact ⟨_, readInteger_recognizes (inRange_of_modulus (by decide)), fun _ _ => rfl⟩
  | fixExt1 => exact ⟨_, readFixedExtension_recognizes owned 1, fun _ _ => rfl⟩
  | fixExt2 => exact ⟨_, readFixedExtension_recognizes owned 2, fun _ _ => rfl⟩
  | fixExt4 => exact ⟨_, readFixedExtension_recognizes owned 4, fun _ _ => rfl⟩
  | fixExt8 => exact ⟨_, readFixedExtension_recognizes owned 8, fun _ _ => rfl⟩
  | fixExt16 => exact ⟨_, readFixedExtension_recognizes owned 16, fun _ _ => rfl⟩
  | str8 => exact ⟨_, readMeasuredString_recognizes rfl, fun _ _ => rfl⟩
  | str16 => exact ⟨_, readMeasuredString_recognizes rfl, fun _ _ => rfl⟩
  | str32 => exact ⟨_, readMeasuredString_recognizes rfl, fun _ _ => rfl⟩
  | array16 => exact absurd rfl (plain _ _)
  | array32 => exact absurd rfl (plain _ _)
  | map16 => exact absurd rfl (plain _ _)
  | map32 => exact absurd rfl (plain _ _)

/-- Behind a container's marker its count is read, and it is opened. -/
theorem readMarked_container
    {marker : Marker}
    {kind : ContainerKind}
    {type : FieldType}
    (declares : marker.layout = .container kind type)
    (key : Option String)
    (parent : Bounds)
    (offset : Nat) :
    type.isSigned = false ∧
      readMarked options key parent offset marker =
        readLength type >>= openContainer key parent offset kind := by
  cases marker <;> cases declares <;> exact ⟨rfl, rfl⟩

end DocumentCodec.MessagePack
