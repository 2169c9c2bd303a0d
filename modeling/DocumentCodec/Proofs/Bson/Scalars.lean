import DocumentCodec.Bson.Reading
import DocumentCodec.Proofs.Bson.Decimal
import DocumentCodec.Proofs.Bson.Grammar

namespace DocumentCodec.Bson

/-!
# Reading the parts of an element

Keys and scalar payloads are recognized as the grammar has them.
-/

open Decode

variable {input : ByteArray}

/-- A string is its size with the final zero, its text and that zero. -/
theorem readString_recognizes :
    Recognizes input readString fun taken text =>
      text.utf8ByteSize + 1 ≤ Framing.maximumLength ∧
        taken =
          FieldType.int32.bytes (text.utf8ByteSize + 1) ++ Utf8.encode text ++ [0] := by
  unfold readString
  refine Recognizes.congr
    (.at_position fun offset => .bind (readField_recognizes .int32) fun length =>
      .ensure_then <| .bind (readBytes_recognizes _) fun bytes =>
        .bind readByte_recognizes fun last =>
          .ensure_then <| decodeText_recognizes bytes offset)
    fun taken text => ?_
  constructor
  · rintro ⟨length, _, _, ⟨held, rfl⟩, ⟨positive, bytes, raw, _, ⟨sized, rfl⟩,
      ⟨last, _, _, rfl, ⟨zero, rfl, spelled⟩, rfl⟩, rfl⟩, rfl⟩
    change raw = Utf8.encode text at spelled
    subst spelled
    have size := Utf8.length_encode text
    have atLeastOne : 1 ≤ length := of_decide_eq_true positive
    have whole : length = ((text.utf8ByteSize + 1 : Nat) : Int) := by omega
    rw [whole] at held ⊢
    rw [eq_of_beq zero]
    refine ⟨(FieldType.int32_holds_iff _).mp held, ?_⟩
    rw [List.append_nil, List.append_assoc]
    rfl
  · rintro ⟨fits, rfl⟩
    have size := Utf8.length_encode text
    have held := (FieldType.int32_holds_iff _).mpr fits
    refine ⟨_, _, Utf8.encode text ++ [0], ⟨held, rfl⟩,
      ⟨decide_eq_true (by omega), ⟨(Utf8.encode text).toArray⟩, Utf8.encode text, [0],
        ⟨by rw [size]; omega, rfl⟩, ⟨0, [0], [], rfl, ⟨rfl, rfl, rfl⟩, rfl⟩, rfl⟩, ?_⟩
    rw [List.append_assoc]
    rfl

/-- What is read as binary data is what the grammar derives, copied or shared. -/
theorem readBinary_recognizes
    {options : DecodeOptions}
    (owned : ∀ owner ∈ options.shared?, owner = input) :
    Recognizes input (readBinary options) fun taken binary =>
      IsPayload .binary taken (.binary binary) := by
  unfold readBinary
  refine Recognizes.congr
    (.at_position fun offset => .bind (readField_recognizes .int32) fun length =>
      .ensure_then <| .bind readByte_recognizes fun subtype =>
        .ite
          (.ensure_then <| .bind (readField_recognizes .int32) fun inner =>
            .ensure_then <| .bind (readPayload_recognizes owned _) fun bytes =>
              .pure _)
          (.bind (readPayload_recognizes owned _) fun bytes => .pure _))
    fun taken binary => ?_
  constructor
  · rintro ⟨length, _, _, ⟨held, rfl⟩, ⟨nonnegative, subtype, _, _, rfl, chosen, rfl⟩,
      rfl⟩
    have atLeastZero : 0 ≤ length := of_decide_eq_true nonnegative
    rcases chosen with
      ⟨isOld, atLeastFour, inner, _, _, ⟨innerHeld, rfl⟩,
        ⟨same, bytes, raw, _, ⟨sized, rfl⟩, ⟨rfl, rfl⟩, rfl⟩, rfl⟩ |
      ⟨isPlain, bytes, raw, _, ⟨sized, rfl⟩, ⟨rfl, rfl⟩, rfl⟩
    · have atLeast : 4 ≤ length := of_decide_eq_true atLeastFour
      have innerLength : inner = length - 4 := eq_of_beq same
      have innerWhole : inner = (raw.length : Int) := by omega
      have whole : length = ((raw.length + 4 : Nat) : Int) := by omega
      subst isOld
      rw [innerWhole, whole]
      rw [whole] at held
      have shape :=
        IsPayload.oldBinary ⟨raw.toArray⟩ ((FieldType.int32_holds_iff _).mp held)
      simp only [List.append_nil, ← List.append_assoc]
      exact shape
    · have whole : length = (raw.length : Int) := by omega
      rw [whole]
      rw [whole] at held
      have shape :=
        IsPayload.binary subtype ⟨raw.toArray⟩ isPlain
          ((FieldType.int32_holds_iff _).mp held)
      simp only [List.append_nil, ← List.append_assoc]
      exact shape
  · intro payload
    cases payload with
    | binary subtype bytes plain fits =>
        have held := (FieldType.int32_holds_iff _).mpr fits
        refine ⟨_, _, [subtype] ++ bytes.data.toList, ⟨held, rfl⟩,
          ⟨decide_eq_true (Int.natCast_nonneg _), subtype, _, bytes.data.toList, rfl,
            .inr ⟨plain, bytes, bytes.data.toList, [], ⟨Array.length_toList, rfl⟩,
              ⟨rfl, rfl⟩, (List.append_nil _).symm⟩, rfl⟩, ?_⟩
        rw [List.append_assoc]
    | oldBinary bytes fits =>
        have held := (FieldType.int32_holds_iff _).mpr fits
        have innerHeld : FieldType.int32.Holds bytes.size :=
          (FieldType.int32_holds_iff _).mpr (Nat.le_of_add_right_le fits)
        refine ⟨_, _,
          [Binary.old] ++ (FieldType.int32.bytes bytes.size ++ bytes.data.toList),
          ⟨held, rfl⟩,
          ⟨decide_eq_true (Int.natCast_nonneg _), Binary.old, _, _, rfl,
            .inl ⟨rfl, decide_eq_true (by omega), _, _, bytes.data.toList,
              ⟨innerHeld, rfl⟩,
              ⟨beq_iff_eq.mpr (by omega), bytes, bytes.data.toList, [],
                ⟨Array.length_toList, rfl⟩, ⟨rfl, rfl⟩, (List.append_nil _).symm⟩,
              rfl⟩, rfl⟩, ?_⟩
        simp only [← List.append_assoc]
        rfl

/-- A boolean is a byte that is one or zero. -/
theorem readBoolean_recognizes :
    Recognizes input readBoolean fun taken value => taken = [value.toUInt8] := by
  unfold readBoolean
  refine Recognizes.congr
    (.at_position fun offset => .bind readByte_recognizes fun byte =>
      .ite (.pure false) (.ite (.pure true) (.fail _)))
    fun taken value => ?_
  constructor
  · rintro ⟨byte, _, _, rfl, ⟨rfl, rfl, rfl⟩ | ⟨_, ⟨rfl, rfl, rfl⟩ | ⟨_, never⟩⟩, rfl⟩
    · rfl
    · rfl
    · exact never.elim
  · rintro rfl
    cases value with
    | false => exact ⟨0, [0], [], rfl, .inl ⟨rfl, rfl, rfl⟩, rfl⟩
    | true => exact ⟨1, [1], [], rfl, .inr ⟨by decide, .inl ⟨rfl, rfl, rfl⟩⟩, rfl⟩

/-- An identifier is told by its bytes. -/
theorem objectId_ofList_toList (identifier : ObjectId) :
    ObjectId.ofList identifier.toList = identifier := by
  rcases identifier with ⟨bytes⟩
  unfold ObjectId.ofList ObjectId.toList
  congr 1
  ext index inside
  rw [Vector.getElem_ofFn, List.getD_eq_getElem?_getD, Vector.getElem?_toList,
    Vector.getElem?_eq_getElem inside]
  rfl

/-- Twelve bytes make an identifier that has them. -/
theorem objectId_toList_ofList
    {bytes : List UInt8}
    (sized : bytes.length = ObjectId.size) :
    (ObjectId.ofList bytes).toList = bytes := by
  have shape :
      (ObjectId.ofList bytes).toList =
        List.ofFn fun place : Fin 12 => bytes.getD place.val 0 :=
    Vector.toList_ofFn
  rw [shape]
  apply List.ext_getElem
  · rw [List.length_ofFn, sized]
    rfl
  · intro index inside present
    rw [List.getElem_ofFn, List.getD_eq_getElem?_getD, List.getElem?_eq_getElem present]
    rfl

/-- An identifier is its twelve bytes. -/
theorem readObjectId_recognizes :
    Recognizes input readObjectId fun taken identifier =>
      taken = identifier.toList := by
  refine Recognizes.congr
    (.bind (readBytes_recognizes ObjectId.size) fun bytes =>
      .pure (ObjectId.ofList bytes.data.toList))
    fun taken identifier => ?_
  constructor
  · rintro ⟨_, raw, _, ⟨sized, rfl⟩, ⟨rfl, rfl⟩, rfl⟩
    rw [List.append_nil]
    exact (objectId_toList_ofList sized).symm
  · rintro rfl
    refine ⟨_, identifier.toList, [], ⟨Vector.length_toList, rfl⟩, ⟨rfl, ?_⟩,
      (List.append_nil _).symm⟩
    exact (objectId_ofList_toList identifier).symm

/-- A time is its count of milliseconds. -/
theorem readDateTime_recognizes :
    Recognizes input readDateTime fun taken time =>
      taken = FieldType.int64.bytes time.millis.toInt := by
  refine Recognizes.congr
    (.bind (readField_recognizes .int64) fun millis =>
      .pure (DateTime.mk (Int64.ofInt millis)))
    fun taken time => ?_
  have carries := FieldType.carries_int64
  constructor
  · rintro ⟨millis, _, _, ⟨held, rfl⟩, ⟨rfl, rfl⟩, rfl⟩
    rw [List.append_nil, carries.number_convert held]
  · rintro rfl
    refine ⟨time.millis.toInt, _, [], ⟨carries.holds time.millis, rfl⟩, ⟨rfl, ?_⟩,
      (List.append_nil _).symm⟩
    rw [carries.convert_number]

/-- Words that stand for a decimal are accepted without reading on, and others are refused. -/
theorem toDecimal_recognizes (words : Decimal128) :
    Recognizes input
      (match words.toDecimal with
        | .ok decimal => pure decimal
        | .error fault => malformed fault)
      fun taken decimal => taken = [] ∧ words.toDecimal = .ok decimal := by
  cases words.toDecimal with
  | ok found =>
      refine (Recognizes.pure found).congr fun taken decimal => ?_
      rw [Except.ok.injEq, @eq_comm _ found]
  | error fault =>
      refine (Recognizes.fail (.format fault)).congr fun taken decimal => ?_
      simp only [reduceCtorEq, and_false]

/-- A decimal is two words that stand for it. -/
theorem readDecimal_recognizes :
    Recognizes input readDecimal fun taken decimal =>
      IsPayload .decimal128 taken (.decimal decimal) := by
  refine Recognizes.congr
    (.bind (readField_recognizes .uint64) fun low =>
      .bind (readField_recognizes .uint64) fun high =>
        toDecimal_recognizes ⟨UInt64.ofInt low, UInt64.ofInt high⟩)
    fun taken decimal => ?_
  have carries : FieldType.uint64.Carries UInt64.ofInt fun bits => (bits.toNat : Int) :=
    FieldType.carries_word64 rfl rfl
  constructor
  · rintro ⟨low, _, _, ⟨lowHeld, rfl⟩, ⟨high, _, _, ⟨highHeld, rfl⟩,
      ⟨rfl, meaning⟩, rfl⟩, rfl⟩
    obtain ⟨number, finite⟩ := Decimal128.number_of_toDecimal meaning
    have shape := IsPayload.decimal _ decimal number finite meaning
    rw [carries.number_convert lowHeld, carries.number_convert highHeld] at shape
    rw [List.append_nil]
    exact shape
  · intro payload
    cases payload with
    | decimal words decimal number finite meaning =>
        refine ⟨words.low.toNat, _, FieldType.uint64.bytes words.high.toNat,
          ⟨carries.holds words.low, rfl⟩,
          ⟨words.high.toNat, _, [], ⟨carries.holds words.high, rfl⟩, ⟨rfl, ?_⟩,
            (List.append_nil _).symm⟩, rfl⟩
        rw [carries.convert_number, carries.convert_number]
        exact meaning

/-- Every type but those of containers has a reader for its payloads. -/
theorem exists_payload_reader
    {options : DecodeOptions}
    (owned : ∀ owner ∈ options.shared?, owner = input)
    {type : ElementType}
    (plain : ∀ kind, type ≠ .ofContainer kind) :
    ∃ payload, Recognizes input payload (IsPayload type) ∧
      ∀ key parent, readContents options key parent type = readScalar key parent payload := by
  cases type with
  | document => exact absurd rfl (plain .map)
  | array => exact absurd rfl (plain .array)
  | double =>
      have carries :
          FieldType.float64.Carries UInt64.ofInt fun bits => (bits.toNat : Int) :=
        FieldType.carries_word64 rfl rfl
      refine ⟨_, (readCarried_recognizes carries .float64).congr ?_, fun _ _ => rfl⟩
      intro taken value
      constructor
      · rintro ⟨bits, rfl, rfl⟩
        exact .double bits
      · rintro ⟨bits⟩
        exact ⟨bits, rfl, rfl⟩
  | string =>
      refine ⟨_, (readString_recognizes.map Value.string).congr ?_, fun _ _ => rfl⟩
      intro taken value
      constructor
      · rintro ⟨text, ⟨fits, rfl⟩, rfl⟩
        exact .string text fits
      · intro payload
        cases payload with
        | string text fits => exact ⟨text, ⟨fits, rfl⟩, rfl⟩
  | binary =>
      refine ⟨_, ((readBinary_recognizes owned).map Value.binary).congr ?_,
        fun _ _ => rfl⟩
      intro taken value
      constructor
      · rintro ⟨binary, payload, rfl⟩
        exact payload
      · intro payload
        cases payload with
        | binary subtype bytes plain fits =>
            exact ⟨_, .binary subtype bytes plain fits, rfl⟩
        | oldBinary bytes fits => exact ⟨_, .oldBinary bytes fits, rfl⟩
  | objectId =>
      refine ⟨_, (readObjectId_recognizes.map Value.objectId).congr ?_, fun _ _ => rfl⟩
      intro taken value
      constructor
      · rintro ⟨identifier, rfl, rfl⟩
        exact .objectId identifier
      · rintro ⟨identifier⟩
        exact ⟨_, rfl, rfl⟩
  | boolean =>
      refine ⟨_, (readBoolean_recognizes.map Value.bool).congr ?_, fun _ _ => rfl⟩
      intro taken value
      constructor
      · rintro ⟨truth, rfl, rfl⟩
        exact .boolean truth
      · rintro ⟨truth⟩
        exact ⟨_, rfl, rfl⟩
  | dateTime =>
      refine ⟨_, (readDateTime_recognizes.map Value.dateTime).congr ?_, fun _ _ => rfl⟩
      intro taken value
      constructor
      · rintro ⟨time, rfl, rfl⟩
        exact .dateTime time
      · rintro ⟨time⟩
        exact ⟨_, rfl, rfl⟩
  | null =>
      refine ⟨_, (Recognizes.pure Value.null).congr ?_, fun _ _ => rfl⟩
      intro taken value
      constructor
      · rintro ⟨rfl, rfl⟩
        exact .null
      · rintro ⟨⟩
        exact ⟨rfl, rfl⟩
  | int32 =>
      refine ⟨_, (readCarried_recognizes FieldType.carries_int32 .int32).congr ?_,
        fun _ _ => rfl⟩
      intro taken value
      constructor
      · rintro ⟨number, rfl, rfl⟩
        exact .int32 number
      · rintro ⟨number⟩
        exact ⟨_, rfl, rfl⟩
  | int64 =>
      refine ⟨_, (readCarried_recognizes FieldType.carries_int64 .int64).congr ?_,
        fun _ _ => rfl⟩
      intro taken value
      constructor
      · rintro ⟨number, rfl, rfl⟩
        exact .int64 number
      · rintro ⟨number⟩
        exact ⟨_, rfl, rfl⟩
  | decimal128 =>
      refine ⟨_, (readDecimal_recognizes.map Value.decimal).congr ?_, fun _ _ => rfl⟩
      intro taken value
      constructor
      · rintro ⟨decimal, payload, rfl⟩
        exact payload
      · intro payload
        cases payload with
        | decimal words decimal number finite meaning =>
            exact ⟨_, .decimal words decimal number finite meaning, rfl⟩

/-- A key is recognized up to its zero byte, in a map only when it is a text. -/
theorem readKey_recognizes (kind : ContainerKind) (offset : Nat) :
    Recognizes input (readKey kind offset) (IsKey kind) := by
  cases kind with
  | map =>
      refine Recognizes.congr
        (.bind readZeroTerminated_recognizes fun bytes =>
          .map (decodeText_recognizes bytes offset) some)
        fun taken key => ?_
      constructor
      · rintro ⟨bytes, _, _, ⟨absent, rfl⟩, ⟨text, ⟨rfl, spelled⟩, rfl⟩, rfl⟩
        exact ⟨bytes.data.toList, absent, List.append_nil _, text, spelled, rfl⟩
      · rintro ⟨name, absent, rfl, text, rfl, rfl⟩
        exact ⟨text.toUTF8, _, [], ⟨absent, rfl⟩, ⟨text, ⟨rfl, rfl⟩, rfl⟩,
          (List.append_nil _).symm⟩
  | array =>
      refine Recognizes.congr
        (.bind readZeroTerminated_recognizes fun bytes => .pure none)
        fun taken key => ?_
      constructor
      · rintro ⟨bytes, _, _, ⟨absent, rfl⟩, ⟨rfl, rfl⟩, rfl⟩
        exact ⟨bytes.data.toList, absent, List.append_nil _, rfl⟩
      · rintro ⟨name, absent, rfl, rfl⟩
        exact ⟨⟨name.toArray⟩, name ++ [0], [], ⟨absent, rfl⟩, ⟨rfl, rfl⟩,
          (List.append_nil _).symm⟩

end DocumentCodec.Bson
