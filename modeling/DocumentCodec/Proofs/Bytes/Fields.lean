import DocumentCodec.Bytes.Field

namespace DocumentCodec

/-!
# Fields and the bytes they come from

`FieldType.value_bytes` says that reading a field undoes writing it.  Here is
the other direction: the bytes of a field hold a number of its range and are
the bytes of that number, so that a field's bytes and numbers match one to
one.  The fixed-width integers of values are fields of this kind.
-/

namespace Word

/-- Bytes are the spelling of the number that they stand for. -/
theorem bigEndian_ofBigEndian (bytes : List UInt8) :
    bigEndian bytes.length (ofBigEndian bytes) = bytes := by
  have undone := littleEndian_ofLittleEndian bytes.reverse
  rw [List.length_reverse] at undone
  rw [bigEndian, ofBigEndian, undone, List.reverse_reverse]

/-- Bytes stand for a number that has no more of them. -/
theorem ofBigEndian_lt (bytes : List UInt8) :
    ofBigEndian bytes < modulus bytes.length := by
  have bound := ofLittleEndian_lt bytes.reverse
  rw [List.length_reverse] at bound
  exact bound

/-- Only the low bytes of a number are written. -/
theorem littleEndian_mod (count value : Nat) :
    littleEndian count (value % modulus count) = littleEndian count value := by
  have undone := littleEndian_ofLittleEndian (littleEndian count value)
  rw [length_littleEndian, ofLittleEndian_littleEndian] at undone
  exact undone

/-- A word is written as its low bytes and then those above them. -/
theorem littleEndian_add (low high value : Nat) :
    littleEndian (low + high) value =
      littleEndian low value ++ littleEndian high (value / modulus low) := by
  induction low generalizing value with
  | zero =>
      have whole : value / modulus 0 = value := Nat.div_one value
      rw [Nat.zero_add, littleEndian_zero, whole]
      rfl
  | succ low inductionHypothesis =>
      rw [Nat.succ_add, littleEndian_succ, inductionHypothesis, littleEndian_succ,
        modulus_succ, Nat.div_div_eq_div_mul]
      rfl

end Word

namespace FieldType

/-- The unsigned number that the bytes of a field spell. -/
def word (type : FieldType) (raw : List UInt8) : Nat :=
  if type.isBigEndian then Word.ofBigEndian raw else Word.ofLittleEndian raw

/-- The bytes of a field stand for a number that the field has room for. -/
theorem word_lt
    {type : FieldType}
    {raw : List UInt8}
    (sized : raw.length = type.width) :
    type.word raw < type.modulus := by
  unfold word modulus
  rw [← sized]
  split
  · exact Word.ofBigEndian_lt raw
  · exact Word.ofLittleEndian_lt raw

/-- A signed number is lowered by the modulus when its word is in the upper half. -/
theorem value_eq_word (type : FieldType) (raw : List UInt8) :
    type.value raw =
      if type.isSigned && type.modulus ≤ 2 * type.word raw then
        (type.word raw : Int) - type.modulus
      else
        type.word raw :=
  rfl

/-- The bytes of a field hold a number of its range. -/
theorem holds_value
    {type : FieldType}
    {raw : List UInt8}
    (sized : raw.length = type.width) :
    type.Holds (type.value raw) := by
  have bound := word_lt sized
  rw [value_eq_word]
  unfold Holds
  by_cases signed : type.isSigned
  · simp only [signed, if_true, Bool.true_and, decide_eq_true_eq]
    split <;> omega
  · simp only [signed, Bool.false_eq_true, if_false, Bool.false_and]
    omega

/-- Writing the number that the bytes of a field hold gives the bytes back. -/
theorem bytes_value
    {type : FieldType}
    {raw : List UInt8}
    (sized : raw.length = type.width) :
    type.bytes (type.value raw) = raw := by
  have bound := word_lt sized
  have reduced : (type.value raw % type.modulus).toNat = type.word raw := by
    rw [value_eq_word]
    split
    · rw [Int.sub_emod_right, Int.emod_eq_of_lt (by omega) (by omega)]
      rfl
    · rw [Int.emod_eq_of_lt (by omega) (by omega)]
      rfl
  unfold bytes
  rw [reduced, ← sized]
  unfold word
  split
  · exact Word.bigEndian_ofBigEndian raw
  · exact Word.littleEndian_ofLittleEndian raw

/-- A field carries the values of a type when their numbers are those it holds. -/
structure Carries (type : FieldType) (convert : Int → α) (number : α → Int) : Prop where
  holds : ∀ value, type.Holds (number value)
  convert_number : ∀ value, convert (number value) = value
  number_convert : ∀ {held}, type.Holds held → number (convert held) = held

/-- One byte carries an 8-bit integer. -/
theorem carries_int8 : int8.Carries Int8.ofInt Int8.toInt where
  holds value := by
    have lower := value.le_toInt
    have upper := value.toInt_lt
    change -(256 : Int) ≤ 2 * value.toInt ∧ 2 * value.toInt < 256
    omega
  convert_number := Int8.ofInt_toInt
  number_convert {number} held := by
    change -(256 : Int) ≤ 2 * number ∧ 2 * number < 256 at held
    exact Int8.toInt_ofInt_of_le (by omega) (by omega)

/-- Four bytes carry a 32-bit integer. -/
theorem carries_int32 : int32.Carries Int32.ofInt Int32.toInt where
  holds value := by
    have lower := value.le_toInt
    have upper := value.toInt_lt
    change -(4294967296 : Int) ≤ 2 * value.toInt ∧ 2 * value.toInt < 4294967296
    omega
  convert_number := Int32.ofInt_toInt
  number_convert {number} held := by
    change -(4294967296 : Int) ≤ 2 * number ∧ 2 * number < 4294967296 at held
    exact Int32.toInt_ofInt_of_le (by omega) (by omega)

/-- Eight bytes carry a 64-bit integer. -/
theorem carries_int64 : int64.Carries Int64.ofInt Int64.toInt where
  holds value := by
    have lower := value.le_toInt
    have upper := value.toInt_lt
    change -(18446744073709551616 : Int) ≤ 2 * value.toInt ∧
      2 * value.toInt < 18446744073709551616
    omega
  convert_number := Int64.ofInt_toInt
  number_convert {number} held := by
    change -(18446744073709551616 : Int) ≤ 2 * number ∧
      2 * number < 18446744073709551616 at held
    exact Int64.toInt_ofInt_of_le (by omega) (by omega)

/-- The words of an unsigned field of four bytes are those of a number's 32 bits. -/
theorem carries_word32
    {type : FieldType}
    (unsigned : type.isSigned = false)
    (wide : type.width = 4) :
    type.Carries UInt32.ofInt fun bits => (bits.toNat : Int) where
  holds bits := by
    have upper := bits.toNat_lt
    have size : type.modulus = 4294967296 := by rw [modulus, wide]; rfl
    rw [Holds, unsigned, size]
    change (0 : Int) ≤ bits.toNat ∧ (bits.toNat : Int) < 4294967296
    omega
  convert_number bits := by
    have upper := bits.toNat_lt
    have reduced : ((bits.toNat : Int) % 2 ^ 32).toNat = bits.toNat := by omega
    rw [UInt32.ofInt, reduced]
    exact UInt32.ofNat_toNat
  number_convert {number} held := by
    have size : type.modulus = 4294967296 := by rw [modulus, wide]; rfl
    rw [Holds, unsigned, size] at held
    change (0 : Int) ≤ number ∧ number < 4294967296 at held
    have reduced : (number % 2 ^ 32).toNat = number.toNat := by omega
    rw [UInt32.ofInt, reduced, UInt32.toNat_ofNat_of_lt' (by
      change number.toNat < 4294967296
      omega)]
    omega

/-- The words of an unsigned field of eight bytes are those of a number's 64 bits. -/
theorem carries_word64
    {type : FieldType}
    (unsigned : type.isSigned = false)
    (wide : type.width = 8) :
    type.Carries UInt64.ofInt fun bits => (bits.toNat : Int) where
  holds bits := by
    have upper := bits.toNat_lt
    have size : type.modulus = 18446744073709551616 := by rw [modulus, wide]; rfl
    rw [Holds, unsigned, size]
    change (0 : Int) ≤ bits.toNat ∧ (bits.toNat : Int) < 18446744073709551616
    omega
  convert_number bits := by
    have upper := bits.toNat_lt
    have reduced : ((bits.toNat : Int) % 2 ^ 64).toNat = bits.toNat := by omega
    rw [UInt64.ofInt, reduced]
    exact UInt64.ofNat_toNat
  number_convert {number} held := by
    have size : type.modulus = 18446744073709551616 := by rw [modulus, wide]; rfl
    rw [Holds, unsigned, size] at held
    change (0 : Int) ≤ number ∧ number < 18446744073709551616 at held
    have reduced : (number % 2 ^ 64).toNat = number.toNat := by omega
    rw [UInt64.ofInt, reduced, UInt64.toNat_ofNat_of_lt' (by
      change number.toNat < 18446744073709551616
      omega)]
    omega

/-- A natural number is a length that four bytes can tell. -/
theorem int32_holds_iff (size : Nat) :
    int32.Holds size ↔ size ≤ 0x7fffffff := by
  change -(4294967296 : Int) ≤ 2 * (size : Int) ∧ 2 * (size : Int) < 4294967296 ↔ _
  omega

end FieldType

end DocumentCodec
