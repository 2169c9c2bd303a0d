import DocumentCodec.MessagePack.Writing
import DocumentCodec.Proofs.MessagePack.Grammar
import DocumentCodec.Proofs.Traversal.Spelling

namespace DocumentCodec.MessagePack

/-!
# How MessagePack is spelled

The bytes of every tree and the elements that are refused, said by recursion
on the tree alone.  Integers, lengths and counts stand in the first form that
holds them, and forms are listed from the narrowest one on.  As long as 32 bits
hold its lengths and counts, a document is written so.
-/

/-- A marker and the layout of the number behind it. -/
structure Form where
  marker : Marker
  type : FieldType

/-- A number in a form. -/
def Form.bytes (form : Form) (number : Int) : List UInt8 :=
  [form.marker.byte] ++ form.type.bytes number

/-- A number in the first form that holds it. -/
def firstFit (forms : List Form) (number : Int) : List UInt8 :=
  match forms.find? fun form => form.type.Holds number with
  | some form => form.bytes number
  | none => []

/-- The forms of numbers that are not negative. -/
def unsignedForms : List Form :=
  [⟨.uint8, .uint8⟩, ⟨.uint16, .uint16BE⟩, ⟨.uint32, .uint32BE⟩, ⟨.uint64, .uint64BE⟩]

/-- The forms of numbers of either sign. -/
def signedForms : List Form :=
  [⟨.int8, .int8⟩, ⟨.int16, .int16BE⟩, ⟨.int32, .int32BE⟩, ⟨.int64, .int64BE⟩]

/-- The forms of the lengths of strings. -/
def stringForms : List Form :=
  [⟨.str8, .uint8⟩, ⟨.str16, .uint16BE⟩, ⟨.str32, .uint32BE⟩]

/-- The forms of the lengths of bytes. -/
def binaryForms : List Form :=
  [⟨.bin8, .uint8⟩, ⟨.bin16, .uint16BE⟩, ⟨.bin32, .uint32BE⟩]

/-- The forms of the lengths of application data. -/
def extensionForms : List Form :=
  [⟨.ext8, .uint8⟩, ⟨.ext16, .uint16BE⟩, ⟨.ext32, .uint32BE⟩]

/-- The forms of the counts of a container's elements. -/
def containerForms : ContainerKind → List Form
  | .map => [⟨.map16, .uint16BE⟩, ⟨.map32, .uint32BE⟩]
  | .array => [⟨.array16, .uint16BE⟩, ⟨.array32, .uint32BE⟩]

/-- An integer: a byte alone for a small one, and else a form that its sign allows. -/
def integerBytes (number : Int) : List UInt8 :=
  if -32 ≤ number ∧ number < 128 then
    FieldType.int8.bytes number
  else if 0 ≤ number then
    firstFit unsignedForms number
  else
    firstFit signedForms number

/-- A text behind its length, which a lead byte tells up to 31. -/
def stringBytes (text : String) : List UInt8 :=
  let header :=
    if text.utf8ByteSize ≤ 31 then
      [fixString + UInt8.ofNat text.utf8ByteSize]
    else
      firstFit stringForms text.utf8ByteSize
  header ++ Utf8.encode text

/-- Application data behind its length, which a marker alone tells for five lengths. -/
def extensionBytes (content : Extension) : List UInt8 :=
  let header :=
    match fixedExtension? content.data.size with
    | some fixed => [fixed.byte]
    | none => firstFit extensionForms content.data.size
  header ++ FieldType.int8.bytes content.kind.toInt ++ content.data.data.toList

/-- The count of a container's elements, which a lead byte tells up to 15. -/
def countBytes (kind : ContainerKind) (size : Nat) : List UInt8 :=
  if size ≤ 15 then
    [fixContainer kind + UInt8.ofNat size]
  else
    firstFit (containerForms kind) size

/-- A scalar, or a container's header. -/
def payloadBytes : Value → List UInt8
  | .null => [Marker.nil.byte]
  | .bool .false => [Marker.false.byte]
  | .bool .true => [Marker.true.byte]
  | .int32 value => integerBytes value.toInt
  | .int64 value => integerBytes value.toInt
  | .float32 bits => [Marker.float32.byte] ++ FieldType.float32BE.bytes bits.toNat
  | .float64 bits => [Marker.float64.byte] ++ FieldType.float64BE.bytes bits.toNat
  | .string text => stringBytes text
  | .binary content =>
      firstFit binaryForms content.bytes.size ++ content.bytes.data.toList
  | .extension content => extensionBytes content
  | .array items => countBytes .array items.length
  | .map entries => countBytes .map entries.length
  | _ => []

/-- A name is spelled as a string; an array's items have no keys. -/
def keyBytes : Key → List UInt8
  | .name text => stringBytes text
  | .index _ => []

/-- Why an element is refused: for its kind, or for what its bytes are marked to be. -/
def refusal? (_ : Key) : Value → Option EncodeFault
  | .objectId _ => some (.unsupportedKind .objectId .messagePack)
  | .dateTime _ => some (.unsupportedKind .dateTime .messagePack)
  | .decimal _ => some (.unsupportedKind .decimal .messagePack)
  | .binary content =>
      if content.subtype = Binary.generic then none
      else some (.unsupportedSubtype content.subtype)
  | _ => none

/-- The spelling of MessagePack. -/
def spelling : Spelling where
  root := fun document => countBytes .map document.size
  front := fun key value => keyBytes key ++ payloadBytes value
  enclose := id
  refusal? := refusal?

/-- The lengths and counts that 32 bits hold. -/
def IsShort (length : Nat) : Prop :=
  length < 0x100000000

/-- The length of a name is one that 32 bits hold. -/
def HasShortKey : Key → Prop
  | .name text => IsShort text.utf8ByteSize
  | .index _ => True

/-- The length or the count of a value, if it has one, is one that 32 bits hold. -/
def HasShortLength : Value → Prop
  | .string text => IsShort text.utf8ByteSize
  | .binary content => IsShort content.bytes.size
  | .extension content => IsShort content.data.size
  | .array items => IsShort items.length
  | .map entries => IsShort entries.length
  | _ => True

instance (length : Nat) : Decidable (IsShort length) := by
  unfold IsShort
  infer_instance

instance (key : Key) : Decidable (HasShortKey key) := by
  cases key <;> unfold HasShortKey <;> infer_instance

instance (value : Value) : Decidable (HasShortLength value) := by
  cases value <;> unfold HasShortLength <;> infer_instance

/-- A number behind a marker is written as the marker and its field. -/
theorem outcome_marked (lead : Marker) (type : FieldType) (value : Int) :
    (marked lead type value).outcome = .ok ([lead.byte] ++ type.bytes value) :=
  Emission.outcome_append_ok (Emission.outcome_byte _) (Emission.outcome_field _ _)

section Forms

variable {forms : List Form} {form : Form} {number : Int} {size limit : Nat}

/-- The first form is taken if it has room for the number. -/
theorem firstFit_of_holds (holds : form.type.Holds number) :
    firstFit (form :: forms) number = form.bytes number := by
  unfold firstFit
  rw [List.find?_cons_of_pos]
  exact decide_eq_true holds

/-- A form without room for the number is passed over. -/
theorem firstFit_of_not_holds (lacks : ¬ form.type.Holds number) :
    firstFit (form :: forms) number = firstFit forms number := by
  unfold firstFit
  rw [List.find?_cons_of_neg]
  rwa [decide_eq_true_eq]

/-- A number that one of the forms holds is written in one that holds it. -/
theorem exists_form
    (member : form ∈ forms)
    (holds : form.type.Holds number) :
    ∃ found ∈ forms, found.type.Holds number ∧ firstFit forms number = found.bytes number := by
  induction forms with
  | nil => cases member
  | cons first rest inductionHypothesis =>
      by_cases fits : first.type.Holds number
      · exact ⟨first, List.mem_cons_self, fits, firstFit_of_holds fits⟩
      · rcases List.mem_cons.mp member with rfl | later
        · exact absurd holds fits
        · obtain ⟨found, present, held, same⟩ := inductionHypothesis later
          refine ⟨found, List.mem_cons_of_mem _ present, held, ?_⟩
          rw [firstFit_of_not_holds fits, same]

/-- A form is written when it holds the number, and else one of those behind it. -/
theorem outcome_form
    {condition : Prop}
    [Decidable condition]
    {others : Emission}
    (fits : condition ↔ form.type.Holds number)
    (behind : ¬ condition → others.outcome = .ok (firstFit forms number)) :
    (if condition then marked form.marker form.type number else others).outcome =
      .ok (firstFit (form :: forms) number) := by
  by_cases holds : condition
  · rw [if_pos holds, firstFit_of_holds (fits.mp holds)]
    exact outcome_marked _ _ _
  · rw [if_neg holds, firstFit_of_not_holds (mt fits.mpr holds)]
    exact behind holds

/-- The writer's test for a number that is not negative asks whether the field holds it. -/
theorem positive_lt_iff_holds
    {type : FieldType}
    (unsigned : type.isSigned = false)
    (bound : type.modulus = limit)
    (positive : 0 ≤ number) :
    number < limit ↔ type.Holds number := by
  rw [FieldType.Holds, unsigned, bound]
  change _ ↔ 0 ≤ number ∧ number < limit
  omega

/-- The writer's test for a negative number asks whether the field holds it. -/
theorem negative_ge_iff_holds
    {type : FieldType}
    (signed : type.isSigned = true)
    (bound : type.modulus = 2 * limit)
    (negative : number < 0) :
    -(limit : Int) ≤ number ↔ type.Holds number := by
  rw [FieldType.Holds, signed, bound]
  change _ ↔ -((2 * limit : Nat) : Int) ≤ 2 * number ∧ 2 * number < (2 * limit : Nat)
  omega

/-- The writer's test for a size asks whether the field holds it. -/
theorem lt_iff_holds
    {type : FieldType}
    (unsigned : type.isSigned = false)
    (bound : type.modulus = limit) :
    size < limit ↔ type.Holds size := by
  rw [← positive_lt_iff_holds unsigned bound (Int.natCast_nonneg size), Int.ofNat_lt]

end Forms

/-- One of two forms tells a count. -/
theorem outcome_wideLength
    {narrower wider : Marker}
    {length : Nat}
    (refusal : Emission)
    (short : IsShort length) :
    (if length < 0x10000 then
        marked narrower .uint16BE length
      else if length < 0x100000000 then
        marked wider .uint32BE length
      else
        refusal).outcome =
      .ok (firstFit [⟨narrower, .uint16BE⟩, ⟨wider, .uint32BE⟩] length) := by
  refine @outcome_form _ ⟨narrower, .uint16BE⟩ _ _ _ _ (lt_iff_holds rfl rfl) fun _ => ?_
  exact @outcome_form _ ⟨wider, .uint32BE⟩ _ _ _ _ (lt_iff_holds rfl rfl)
    fun large => absurd short large

/-- One of three forms tells a length. -/
theorem outcome_length
    {narrowest middle widest : Marker}
    {length : Nat}
    (refusal : Emission)
    (short : IsShort length) :
    (if length < 0x100 then
        marked narrowest .uint8 length
      else if length < 0x10000 then
        marked middle .uint16BE length
      else if length < 0x100000000 then
        marked widest .uint32BE length
      else
        refusal).outcome =
      .ok (firstFit [⟨narrowest, .uint8⟩, ⟨middle, .uint16BE⟩, ⟨widest, .uint32BE⟩]
        length) :=
  @outcome_form _ ⟨narrowest, .uint8⟩ _ _ _ _ (lt_iff_holds rfl rfl)
    fun _ => outcome_wideLength refusal short

/-- Of the integers that 64 bits hold, each is written in its narrowest form. -/
theorem outcome_int
    {number : Int}
    (lower : -0x8000000000000000 ≤ number)
    (upper : number < 0x8000000000000000) :
    (int number).outcome = .ok (integerBytes number) := by
  unfold int integerBytes
  by_cases positive : 0 ≤ number
  · rw [if_pos positive]
    by_cases small : number < 0x80
    · rw [if_pos small, if_pos ⟨by omega, small⟩, Emission.outcome_field]
      rfl
    · rw [if_neg small, if_neg (mt And.right small), if_pos positive]
      have wider {type : FieldType} {limit : Nat} (unsigned : type.isSigned = false)
          (bound : type.modulus = limit) : number < limit ↔ type.Holds number :=
        positive_lt_iff_holds unsigned bound positive
      refine @outcome_form _ ⟨.uint8, .uint8⟩ _ _ _ _ (wider rfl rfl) fun _ => ?_
      refine @outcome_form _ ⟨.uint16, .uint16BE⟩ _ _ _ _ (wider rfl rfl) fun _ => ?_
      refine @outcome_form _ ⟨.uint32, .uint32BE⟩ _ _ _ _ (wider rfl rfl) fun _ => ?_
      rw [firstFit_of_holds ((@wider _ 0x10000000000000000 rfl rfl).mp (by omega))]
      exact outcome_marked _ _ _
  · rw [if_neg positive]
    by_cases small : -32 ≤ number
    · rw [if_pos small, if_pos ⟨small, by omega⟩, Emission.outcome_field]
    · rw [if_neg small, if_neg (mt And.left small), if_neg positive]
      have wider {type : FieldType} {limit : Nat} (signed : type.isSigned = true)
          (bound : type.modulus = 2 * limit) : -(limit : Int) ≤ number ↔ type.Holds number :=
        negative_ge_iff_holds signed bound (by omega)
      refine @outcome_form _ ⟨.int8, .int8⟩ _ _ _ _ (@wider _ 0x80 rfl rfl) fun _ => ?_
      refine @outcome_form _ ⟨.int16, .int16BE⟩ _ _ _ _ (@wider _ 0x8000 rfl rfl) fun _ => ?_
      refine @outcome_form _ ⟨.int32, .int32BE⟩ _ _ _ _ (@wider _ 0x80000000 rfl rfl)
        fun _ => ?_
      rw [firstFit_of_holds ((@wider _ 0x8000000000000000 rfl rfl).mp lower)]
      exact outcome_marked _ _ _

/-- A text is written in the first form with room for its length. -/
theorem outcome_string
    {text : String}
    (short : IsShort text.utf8ByteSize) :
    (string text).outcome = .ok (stringBytes text) := by
  refine Emission.outcome_append_ok ?_ (Emission.outcome_piece _)
  by_cases tiny : text.utf8ByteSize ≤ 31
  · rw [if_pos tiny, if_pos tiny]
    exact Emission.outcome_byte _
  · rw [if_neg tiny, if_neg tiny]
    exact outcome_length _ short

/-- Binary data is written in the first form with room for its length. -/
theorem outcome_bytes
    {content : ByteArray}
    (short : IsShort content.size) :
    (bytes content).outcome =
      .ok (firstFit binaryForms content.size ++ content.data.toList) :=
  Emission.outcome_append_ok (outcome_length _ short) (Emission.outcome_piece _)

/-- An extension is written in the form of its size, or the first with room for it. -/
theorem outcome_extension
    {content : Extension}
    (short : IsShort content.data.size) :
    (extension content).outcome = .ok (extensionBytes content) := by
  unfold extension extensionBytes
  refine Emission.outcome_append_ok
    (Emission.outcome_append_ok ?_ (Emission.outcome_field _ _)) (Emission.outcome_piece _)
  cases fixedExtension? content.data.size with
  | some fixed => exact Emission.outcome_byte _
  | none => exact outcome_length _ short

/-- A small count is written in one byte, and others as told. -/
theorem outcome_countOr
    {kind : ContainerKind}
    {size : Nat}
    {wide : Emission}
    (behind : wide.outcome = .ok (firstFit (containerForms kind) size)) :
    (if size ≤ 15 then .byte (fixContainer kind + UInt8.ofNat size) else wide).outcome =
      .ok (countBytes kind size) := by
  unfold countBytes
  by_cases tiny : size ≤ 15
  · rw [if_pos tiny, if_pos tiny]
    exact Emission.outcome_byte _
  · rw [if_neg tiny, if_neg tiny]
    exact behind

/-- A count is written in the first form with room for it. -/
theorem outcome_count
    {size : Nat}
    (kind : ContainerKind)
    (short : IsShort size) :
    (count kind size).outcome = .ok (countBytes kind size) := by
  cases kind with
  | map => exact @outcome_countOr .map _ _ (outcome_wideLength _ short)
  | array => exact @outcome_countOr .array _ _ (outcome_wideLength _ short)

/-- A key is written as a text in front of a map's value, and not at all in an array. -/
theorem outcome_key
    {name : Key}
    (short : HasShortKey name) :
    (key name).outcome = .ok (keyBytes name) := by
  cases name with
  | name text => exact outcome_string short
  | index position => rfl

/-- A scalar whose length 32 bits hold is written unless it is refused. -/
theorem outcome_payload
    {value : Value}
    (plain : value.container? = none)
    (short : HasShortLength value)
    (key : Key) :
    (payload value).outcome = unlessFault (refusal? key value) (payloadBytes value) := by
  cases value with
  | array items => cases plain
  | map entries => cases plain
  | objectId identifier => rfl
  | dateTime time => rfl
  | decimal number => rfl
  | null => exact Emission.outcome_byte _
  | bool value => cases value <;> exact Emission.outcome_byte _
  | int32 value =>
      have lower := value.le_toInt
      have upper := value.toInt_lt
      exact outcome_int (by omega) (by omega)
  | int64 value => exact outcome_int value.le_toInt value.toInt_lt
  | float32 bits => exact outcome_marked _ _ _
  | float64 bits => exact outcome_marked _ _ _
  | string text => exact outcome_string short
  | binary content =>
      by_cases generic : content.subtype = Binary.generic
      · rw [payload, refusal?, if_pos generic, if_pos generic]
        exact outcome_bytes short
      · rw [payload, refusal?, if_neg generic, if_neg generic]
        rfl
  | extension content => exact outcome_extension short

/-- MessagePack's parts are as spelled at an element whose lengths 32 bits hold. -/
theorem agrees
    {key : Key}
    {value : Value}
    (named : HasShortKey key)
    (short : HasShortLength value) :
    spelling.Agrees writer key value where
  scalar plain := by
    have keyed : (MessagePack.key key).outcome = unlessFault none (keyBytes key) :=
      outcome_key named
    exact Emission.outcome_append keyed (outcome_payload plain short key)
  header container shape := by
    cases value <;> cases shape
    · exact Emission.outcome_append_ok (outcome_key named) (outcome_count _ short)
    · exact Emission.outcome_append_ok (outcome_key named) (outcome_count _ short)
  enclose := rfl

/-- All lengths and counts of a document are ones that 32 bits hold. -/
def HasShortLengths (document : Document) : Prop :=
  IsShort document.size ∧
    ∀ element ∈ document.preorder, HasShortKey element.1 ∧ HasShortLength element.2

instance (document : Document) : Decidable (HasShortLengths document) := by
  unfold HasShortLengths
  infer_instance

/--
A document whose lengths and counts 32 bits hold is encoded as it is spelled,
or its first refused element stops the encoding.
-/
theorem encodeDocument_eq
    {document : Document}
    (short : HasShortLengths document) :
    writer.encodeDocument document =
      unlessFault (spelling.firstRefusal? document.preorder)
        (spelling.document document) := by
  obtain ⟨counted, each⟩ := short
  refine Spelling.encodeDocument_eq (outcome_count _ counted) rfl fun element member => ?_
  exact agrees (each element member).1 (each element member).2

end DocumentCodec.MessagePack
