import DocumentCodec.Proofs.Bson.Encoding
import DocumentCodec.Proofs.Traversal.Spelling

namespace DocumentCodec.Bson

/-!
# How BSON is spelled

The bytes of every tree and the elements that are refused, said by recursion
on the tree alone.  As long as its length fits four bytes, a document is
written so.
-/

/-- A key with a zero byte behind it; an array's items have the decimal texts of their places. -/
def keyBytes : Key → List UInt8
  | .name text => Utf8.encode text ++ [0]
  | .index position => Utf8.encode (Nat.repr position) ++ [0]

/--
The sixteen bytes of a decimal: from the top a sign bit, fourteen bits of
biased exponent and the coefficient.
-/
def decimalBytes (decimal : Decimal) : List UInt8 :=
  let sign := if decimal.digits < 0 then 1 else 0
  let biased := (decimal.exponent + Decimal128.exponentBias).toNat
  Word.littleEndian 16 (sign * Nat.pow 2 127 + biased * Nat.pow 2 113 + decimal.digits.natAbs)

/-- What stands behind the key of a scalar. -/
def payloadBytes : Value → List UInt8
  | .bool value => [value.toUInt8]
  | .int32 value => FieldType.int32.bytes value.toInt
  | .int64 value => FieldType.int64.bytes value.toInt
  | .float64 bits => FieldType.float64.bytes bits.toNat
  | .string text =>
      FieldType.int32.bytes (text.utf8ByteSize + 1 : Nat) ++ Utf8.encode text ++ [0]
  | .binary ⟨subtype, bytes⟩ =>
      let header :=
        if subtype = Binary.old then
          FieldType.int32.bytes (bytes.size + 4 : Nat) ++ [subtype] ++
            FieldType.int32.bytes bytes.size
        else
          FieldType.int32.bytes bytes.size ++ [subtype]
      header ++ bytes.data.toList
  | .objectId identifier => identifier.toList
  | .dateTime time => FieldType.int64.bytes time.millis.toInt
  | .decimal decimal => decimalBytes decimal
  | _ => []

/-- The tag, the key and a scalar's payload; nothing for a kind without a tag. -/
def frontBytes (key : Key) (value : Value) : List UInt8 :=
  match ElementType.ofKind? value.kind with
  | some type => [type.tag] ++ keyBytes key ++ payloadBytes value
  | none => []

/-- Values of two kinds are refused. -/
def kindRefusal? : Value → Option EncodeFault
  | .float32 _ => some (.unsupportedKind .float32 .bson)
  | .extension _ => some (.unsupportedKind .extension .bson)
  | _ => none

/-- A name that holds a zero byte is refused. -/
def keyRefusal? : Key → Option EncodeFault
  | .name text => if 0 ∈ Utf8.encode text then some (.keyWithZero text) else none
  | .index _ => none

/-- A decimal that is out of range is refused, for its exponent first. -/
def rangeRefusal? : Value → Option EncodeFault
  | .decimal decimal =>
      if decimal.exponent < -6176 ∨ 6111 < decimal.exponent then
        some (.decimalExponent decimal.exponent (-6176) 6111)
      else if Nat.pow 10 34 - 1 < decimal.digits.natAbs then
        some (.decimalCoefficient decimal 34)
      else
        none
  | _ => none

/-- Why an element is refused: for its kind, else for its key, else for its range. -/
def refusal? (key : Key) (value : Value) : Option EncodeFault :=
  (kindRefusal? value).or ((keyRefusal? key).or (rangeRefusal? value))

/-- The spelling of BSON. -/
def spelling : Spelling where
  root := fun _ => []
  front := frontBytes
  enclose := framed
  refusal? := refusal?

/-- A key is written as its bytes, unless it is refused. -/
theorem outcome_key (name : Key) :
    (key name).outcome = unlessFault (keyRefusal? name) (keyBytes name) := by
  cases name with
  | name text =>
      have holds := Scan.isSome_findByte? text.toUTF8 0
      change _ ↔ 0 ∈ Utf8.encode text at holds
      by_cases zero : 0 ∈ Utf8.encode text
      · rw [key, if_pos (holds.mpr zero), keyRefusal?, if_pos zero]
        rfl
      · rw [key, if_neg (mt holds.mp zero), keyRefusal?, if_neg zero]
        exact Emission.outcome_append_ok (Emission.outcome_piece _) (Emission.outcome_byte 0)
  | index position =>
      rw [key, keyRefusal?, keyBytes, ← Numeral.ofNat_eq_encode_repr]
      exact Emission.outcome_append_ok (Emission.outcome_ofList _) (Emission.outcome_byte 0)

/-- A word is written with its low byte first. -/
theorem bytes_uint64 (word : UInt64) :
    FieldType.uint64.bytes word.toNat = Word.littleEndian 8 word.toNat := by
  have reduced : ((word.toNat : Int) % FieldType.uint64.modulus).toNat = word.toNat := by
    have below := word.toNat_lt
    change ((word.toNat : Int) % 18446744073709551616).toNat = word.toNat
    omega
  change Word.littleEndian 8 ((word.toNat : Int) % FieldType.uint64.modulus).toNat = _
  rw [reduced]

/-- A decimal's bytes are those of its words, the low word first. -/
theorem exists_words_decimalBytes
    {decimal : Decimal}
    (holds : Decimal128.Holds decimal) :
    ∃ words, Decimal128.ofDecimal decimal = .ok words ∧
      FieldType.uint64.bytes words.low.toNat ++ FieldType.uint64.bytes words.high.toNat =
        decimalBytes decimal := by
  obtain ⟨words, made, low, high⟩ := Decimal128.exists_ofDecimal holds
  refine ⟨words, made, ?_⟩
  change words.low.toNat = decimal.digits.natAbs % 18446744073709551616 at low
  change words.high.toNat =
    _ * 9223372036854775808 + _ * 562949953421312 +
      decimal.digits.natAbs / 18446744073709551616 at high
  have whole :
      (if decimal.digits < 0 then 1 else 0) * Nat.pow 2 127 +
          (decimal.exponent + Decimal128.exponentBias).toNat * Nat.pow 2 113 +
            decimal.digits.natAbs =
        words.low.toNat + Word.modulus 8 * words.high.toNat := by
    change _ * 170141183460469231731687303715884105728 +
      _ * 10384593717069655257060992658440192 + _ =
        words.low.toNat + 18446744073709551616 * words.high.toNat
    omega
  have below : words.low.toNat < Word.modulus 8 := words.low.toNat_lt
  rw [decimalBytes, whole, Word.littleEndian_add 8 8, ← Word.littleEndian_mod,
    Nat.add_mul_mod_self_left, Nat.mod_eq_of_lt below,
    Nat.add_mul_div_left _ _ (Word.modulus_pos 8), Nat.div_eq_of_lt below, Nat.zero_add,
    bytes_uint64, bytes_uint64]

/-- A decimal is written as its words, unless it is out of range. -/
theorem outcome_decimal (number : Decimal) :
    (decimal number).outcome =
      unlessFault (rangeRefusal? (.decimal number)) (decimalBytes number) := by
  rw [decimal, rangeRefusal?]
  by_cases exponent : number.exponent < -6176 ∨ 6111 < number.exponent
  · have refused : Decimal128.ofDecimal number =
        .error (.decimalExponent number.exponent (-6176) 6111) := if_pos exponent
    rw [refused, if_pos exponent]
    rfl
  · by_cases digits : Nat.pow 10 34 - 1 < number.digits.natAbs
    · have refused : Decimal128.ofDecimal number =
          .error (.decimalCoefficient number 34) :=
        (if_neg exponent).trans (if_pos digits)
      rw [refused, if_neg exponent, if_pos digits]
      rfl
    · have holds : Decimal128.Holds number := {
        exponent_ge := by
          change -6176 ≤ number.exponent
          omega
        exponent_le := by
          change number.exponent ≤ 6111
          omega
        digits_le := Nat.le_of_not_lt digits }
      obtain ⟨words, made, bytes⟩ := exists_words_decimalBytes holds
      rw [made, if_neg exponent, if_neg digits, ← bytes]
      exact Emission.outcome_append_ok (Emission.outcome_field _ _)
        (Emission.outcome_field _ _)

/-- A string that fits is written as its payload. -/
theorem outcome_string
    {text : String}
    (fits : (payloadBytes (.string text)).length ≤ Framing.maximumLength) :
    (string text).outcome = .ok (payloadBytes (.string text)) := by
  have size := Utf8.length_encode text
  rw [payloadBytes, List.length_append, List.length_append, FieldType.length_bytes,
    size] at fits
  have short : text.utf8ByteSize + 1 ≤ Framing.maximumLength := by
    rw [List.length_singleton] at fits
    omega
  exact Emission.outcome_append_ok
    (Emission.outcome_append_ok (outcome_length short) (Emission.outcome_piece _))
    (Emission.outcome_byte 0)

/-- Binary data that fits is written as its payload. -/
theorem outcome_binary
    {content : Binary}
    (fits : (payloadBytes (.binary content)).length ≤ Framing.maximumLength) :
    (binary content).outcome = .ok (payloadBytes (.binary content)) := by
  rcases content with ⟨subtype, bytes⟩
  have size : bytes.data.toList.length = bytes.size := Array.length_toList
  by_cases old : subtype = Binary.old
  · simp only [payloadBytes, old, if_true, List.length_append, FieldType.length_bytes,
      size, List.length_singleton] at fits ⊢
    have outer : bytes.size + 4 ≤ Framing.maximumLength := by
      change 4 + 1 + 4 + bytes.size ≤ _ at fits
      omega
    have inner : bytes.size ≤ Framing.maximumLength := Nat.le_of_add_right_le outer
    exact Emission.outcome_append_ok
      (Emission.outcome_append_ok
        (Emission.outcome_append_ok (outcome_length outer) (Emission.outcome_byte _))
        (outcome_length inner))
      (Emission.outcome_piece _)
  · simp only [payloadBytes, old, if_false, List.length_append, FieldType.length_bytes,
      size, List.length_singleton] at fits ⊢
    have short : bytes.size ≤ Framing.maximumLength := Nat.le_of_add_left_le fits
    rw [binary, if_neg old]
    exact Emission.outcome_append_ok
      (Emission.outcome_append_ok (outcome_length short) (Emission.outcome_byte _))
      (Emission.outcome_piece _)

/-- A payload that is not too long is written unless it is out of range. -/
theorem outcome_payload
    {value : Value}
    (plain : value.container? = none)
    (typed : kindRefusal? value = none)
    (fits : (payloadBytes value).length ≤ Framing.maximumLength) :
    (payload value).outcome = unlessFault (rangeRefusal? value) (payloadBytes value) := by
  cases value with
  | float32 bits => cases typed
  | extension content => cases typed
  | array items => cases plain
  | map entries => cases plain
  | null => rfl
  | bool value => exact Emission.outcome_byte _
  | int32 value => exact Emission.outcome_field _ _
  | int64 value => exact Emission.outcome_field _ _
  | float64 bits => exact Emission.outcome_field _ _
  | objectId identifier => exact Emission.outcome_ofList _
  | dateTime time => exact Emission.outcome_field _ _
  | string text => exact outcome_string fits
  | binary content => exact outcome_binary fits
  | decimal number => exact outcome_decimal number

/-- A kind that has a type is not refused. -/
theorem kindRefusal?_of_ofKind?
    {value : Value}
    {type : ElementType}
    (typed : ElementType.ofKind? value.kind = some type) :
    kindRefusal? value = none := by
  cases value <;> first | rfl | cases typed

/-- A kind without a type is refused by its name. -/
theorem kindRefusal?_of_none
    {value : Value}
    (untyped : ElementType.ofKind? value.kind = none) :
    kindRefusal? value = some (.unsupportedKind value.kind .bson) := by
  cases value <;> first | rfl | cases untyped

/-- A value with a type can be refused for its key, and then for its range. -/
theorem refusal?_of_typed
    {value : Value}
    {type : ElementType}
    (typed : ElementType.ofKind? value.kind = some type)
    (key : Key) :
    refusal? key value = (keyRefusal? key).or (rangeRefusal? value) := by
  rw [refusal?, kindRefusal?_of_ofKind? typed]
  rfl

/-- A payload is not longer than its element. -/
theorem length_payloadBytes_le_frontBytes
    {value : Value}
    {type : ElementType}
    (typed : ElementType.ofKind? value.kind = some type)
    (key : Key) :
    (payloadBytes value).length ≤ (frontBytes key value).length := by
  rw [frontBytes, typed]
  dsimp only
  rw [List.length_append]
  exact Nat.le_add_left _ _

/-- A scalar's element is written as it is spelled, unless it is refused. -/
theorem outcome_scalar
    {key : Key}
    {value : Value}
    (plain : value.container? = none)
    (fits : (frontBytes key value).length ≤ Framing.maximumLength) :
    (scalar key value).outcome = unlessFault (refusal? key value) (frontBytes key value) := by
  cases typed : ElementType.ofKind? value.kind with
  | none =>
      rw [scalar, ElementType.ofValue, typed, refusal?, kindRefusal?_of_none typed]
      rfl
  | some type =>
      have short := Nat.le_trans (length_payloadBytes_le_frontBytes typed key) fits
      have behind := outcome_payload plain (kindRefusal?_of_ofKind? typed) short
      have tagged : (Emission.byte type.tag).outcome = unlessFault none [type.tag] :=
        Emission.outcome_byte _
      have written :=
        Emission.outcome_append (Emission.outcome_append tagged (outcome_key key)) behind
      rw [scalar, ElementType.ofValue, typed, refusal?_of_typed typed, frontBytes, typed]
      exact written

/-- A container's header is its tag and its key, and nothing behind them is refused. -/
theorem outcome_header
    {value : Value}
    {container : Container}
    (shape : value.container? = some container)
    (key : Key) :
    (header key container).outcome =
      unlessFault (refusal? key value) (frontBytes key value) := by
  have written (type : ElementType) :
      (Emission.byte type.tag ++ Bson.key key).outcome =
        unlessFault ((keyRefusal? key).or none) ([type.tag] ++ keyBytes key ++ []) := by
    have tagged : (Emission.byte type.tag).outcome = unlessFault none [type.tag] :=
      Emission.outcome_byte _
    rw [Option.or_none, List.append_nil]
    exact Emission.outcome_append tagged (outcome_key key)
  cases value <;> cases shape
  · exact written .array
  · exact written .document

/-- A frame makes no body shorter. -/
theorem length_le_enclose (body : List UInt8) :
    body.length ≤ (spelling.enclose body).length := by
  change _ ≤ (framed body).length
  rw [length_framed]
  exact Nat.le_add_right _ _

/-- BSON's parts are as spelled at an element that is no longer than a length can tell. -/
theorem agrees
    {key : Key}
    {value : Value}
    (fits : (spelling.element key value).length ≤ Framing.maximumLength) :
    spelling.Agrees writer key value where
  scalar plain := by
    have whole : spelling.element key value = frontBytes key value := by
      cases value <;> first | rfl | cases plain
    rw [whole] at fits
    exact outcome_scalar plain fits
  header container shape := outcome_header shape key
  enclose := by
    have short :
        (spelling.contents value).length + minimumSize ≤ Framing.maximumLength := by
      cases value with
      | map entries =>
          rw [Spelling.element, List.length_append] at fits
          exact Nat.le_trans (Nat.le_of_eq (length_framed _).symm)
            (Nat.le_of_add_left_le fits)
      | array items =>
          rw [Spelling.element, List.length_append] at fits
          exact Nat.le_trans (Nat.le_of_eq (length_framed _).symm)
            (Nat.le_of_add_left_le fits)
      | _ => exact of_decide_eq_true rfl
    exact enclose_of_fits short

/--
A document that is no longer than a length can tell is encoded as it is
spelled, or its first refused element stops the encoding.
-/
theorem encodeDocument_eq
    {document : Document}
    (fits : (spelling.document document).length ≤ Framing.maximumLength) :
    writer.encodeDocument document =
      unlessFault (spelling.firstRefusal? document.preorder)
        (spelling.document document) := by
  have whole : spelling.document document = framed (spelling.fields document.entries) := rfl
  rw [whole, length_framed] at fits
  refine Spelling.encodeDocument_eq rfl (enclose_of_fits fits) fun element member => ?_
  have inside := Spelling.length_le_fields
    (fun entry _ => Spelling.bounds length_le_enclose entry.2) element member
  exact agrees (Nat.le_trans inside (Nat.le_of_add_right_le fits))

end DocumentCodec.Bson
