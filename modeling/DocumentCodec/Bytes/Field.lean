import DocumentCodec.Bytes.Word

namespace DocumentCodec

/-!
# Fixed-width fields

A field type fixes how a number is laid out: its width, its byte order and
whether it has a sign.  Floating-point fields carry bit patterns.

Main statements: a field has the bytes its type says, and reading the bytes of
a number in the type's range gives that number back.
-/

/-- The layouts of numbers on the wire; those without a suffix are little-endian. -/
inductive FieldType
  | uint8
  | int8
  | int32
  | uint32
  | int64
  | uint64
  | float64
  | uint16BE
  | uint32BE
  | uint64BE
  | int16BE
  | int32BE
  | int64BE
  | float32BE
  | float64BE
  deriving Repr, DecidableEq

namespace FieldType

/-- Every field type. -/
def all : List FieldType :=
  [uint8, int8, int32, uint32, int64, uint64, float64, uint16BE, uint32BE,
    uint64BE, int16BE, int32BE, int64BE, float32BE, float64BE]

/-- Number of bytes of a field. -/
def width : FieldType → Nat
  | uint8 | int8 => 1
  | uint16BE | int16BE => 2
  | int32 | uint32 | uint32BE | int32BE | float32BE => 4
  | int64 | uint64 | float64 | uint64BE | int64BE | float64BE => 8

/-- Whether the most significant byte comes first. -/
def isBigEndian : FieldType → Bool
  | uint8 | int8 | int32 | uint32 | int64 | uint64 | float64 => false
  | uint16BE | uint32BE | uint64BE | int16BE | int32BE | int64BE | float32BE
  | float64BE => true

/-- Whether the field holds negative numbers. -/
def isSigned : FieldType → Bool
  | int8 | int32 | int64 | int16BE | int32BE | int64BE => true
  | uint8 | uint32 | uint64 | float64 | uint16BE | uint32BE | uint64BE
  | float32BE | float64BE => false

/-- Whether the field holds a floating-point pattern. -/
def isFloat : FieldType → Bool
  | float64 | float32BE | float64BE => true
  | _ => false

/-- The short name of a field type. -/
def name : FieldType → String
  | uint8 => "u8"
  | int8 => "i8"
  | int32 => "i32"
  | uint32 => "u32"
  | int64 => "i64"
  | uint64 => "u64"
  | float64 => "f64"
  | uint16BE => "u16_be"
  | uint32BE => "u32_be"
  | uint64BE => "u64_be"
  | int16BE => "i16_be"
  | int32BE => "i32_be"
  | int64BE => "i64_be"
  | float32BE => "f32_be"
  | float64BE => "f64_be"

/-- The field type of a short name. -/
def ofName? (name : String) : Option FieldType :=
  all.find? fun type => type.name == name

/-- Number of values of a field. -/
def modulus (type : FieldType) : Nat :=
  Word.modulus type.width

/-- Whether a number is one that the field holds. -/
def Holds (type : FieldType) (value : Int) : Prop :=
  if type.isSigned then
    -(type.modulus : Int) ≤ 2 * value ∧ 2 * value < type.modulus
  else
    0 ≤ value ∧ value < type.modulus

instance (type : FieldType) (value : Int) : Decidable (type.Holds value) := by
  unfold Holds
  infer_instance

/-- The bytes of a number, of which the field keeps the low ones. -/
def bytes (type : FieldType) (value : Int) : List UInt8 :=
  let word := (value % type.modulus).toNat
  if type.isBigEndian then
    Word.bigEndian type.width word
  else
    Word.littleEndian type.width word

/-- The number that bytes hold. -/
def value (type : FieldType) (bytes : List UInt8) : Int :=
  let word :=
    if type.isBigEndian then Word.ofBigEndian bytes else Word.ofLittleEndian bytes
  if type.isSigned && type.modulus ≤ 2 * word then
    (word : Int) - type.modulus
  else
    word

/-- A field has as many bytes as its type says. -/
@[simp]
theorem length_bytes (type : FieldType) (value : Int) :
    (type.bytes value).length = type.width := by
  unfold bytes
  split <;> simp

/-- Reading a field gives back the number it was written for. -/
theorem value_bytes
    {type : FieldType}
    {number : Int}
    (held : type.Holds number) :
    type.value (type.bytes number) = number := by
  have word :
      (if type.isBigEndian then
          Word.ofBigEndian (type.bytes number)
        else
          Word.ofLittleEndian (type.bytes number)) =
        (number % type.modulus).toNat := by
    have small : (number % type.modulus).toNat < Word.modulus type.width := by
      have positive : 0 < type.modulus := Word.modulus_pos _
      have below : number % type.modulus < type.modulus :=
        Int.emod_lt_of_pos _ (by omega)
      have nonnegative : 0 ≤ number % type.modulus :=
        Int.emod_nonneg _ (by omega)
      simp only [modulus] at *
      omega
    unfold bytes
    split
    · rw [Word.ofBigEndian_bigEndian, Nat.mod_eq_of_lt small]
    · rw [Word.ofLittleEndian_littleEndian, Nat.mod_eq_of_lt small]
  unfold value
  simp only [word]
  have positive : 0 < type.modulus := Word.modulus_pos _
  unfold Holds at held
  by_cases signed : type.isSigned
  · simp only [signed, if_true, Bool.true_and, decide_eq_true_eq] at held ⊢
    by_cases negative : number < 0
    · have reduced : number % type.modulus = number + type.modulus := by
        rw [← Int.add_emod_right]
        exact Int.emod_eq_of_lt (by omega) (by omega)
      rw [reduced]
      split <;> omega
    · rw [Int.emod_eq_of_lt (by omega) (by omega)]
      split <;> omega
  · simp only [signed, Bool.false_eq_true, if_false, Bool.false_and] at held ⊢
    rw [Int.emod_eq_of_lt held.1 held.2]
    omega

end FieldType

end DocumentCodec
