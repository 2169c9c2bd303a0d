import DocumentCodec.Proofs.Bytes.Recognition
import DocumentCodec.Text.Numeral

namespace DocumentCodec.Numeral

/-!
# The bytes of numerals

A numeral is the decimal text of its number.  It consists of digits, so that it
holds no zero byte and can stand where a name may not hold one.
-/

/-- Digits stand in the order of their values, from the code of zero on. -/
theorem toNat_digit {number : Nat} (small : number < 10) :
    (digit number).toNat = number + 0x30 := by
  rw [digit, UInt8.toNat_ofNat']
  omega

/-- A digit has a digit's code. -/
theorem digit_bounds {number : Nat} (small : number < 10) :
    0x30 ≤ digit number ∧ digit number ≤ 0x39 := by
  rw [UInt8.le_iff_toNat_le, UInt8.le_iff_toNat_le, toNat_digit small]
  change 48 ≤ number + 48 ∧ number + 48 ≤ 57
  omega

/-- Zero leaves no digits to write. -/
@[simp]
theorem lowestFirst_zero : lowestFirst 0 = [] := by
  rw [lowestFirst, if_pos rfl]

/-- The lowest digit comes first, and then those of the quotient. -/
theorem lowestFirst_of_pos {number : Nat} (positive : 0 < number) :
    lowestFirst number = digit (number % 10) :: lowestFirst (number / 10) := by
  rw [lowestFirst, if_neg (Nat.ne_of_gt positive)]

/-- Only digits are written. -/
theorem isDigit_of_mem_lowestFirst {number : Nat} :
    ∀ byte ∈ lowestFirst number, 0x30 ≤ byte ∧ byte ≤ 0x39 := by
  induction number using Nat.strongRecOn with
  | ind number inductionHypothesis =>
      intro byte member
      cases Nat.eq_zero_or_pos number with
      | inl zero =>
          rw [zero, lowestFirst_zero] at member
          cases member
      | inr positive =>
          rw [lowestFirst_of_pos positive, List.mem_cons] at member
          rcases member with rfl | inRest
          · exact digit_bounds (Nat.mod_lt _ (by decide))
          · exact inductionHypothesis (number / 10) (by omega) byte inRest

/-- A numeral has digits only. -/
theorem isDigit_of_mem_ofNat
    {number : Nat}
    {byte : UInt8}
    (member : byte ∈ ofNat number) :
    0x30 ≤ byte ∧ byte ≤ 0x39 := by
  unfold ofNat at member
  split at member
  · rw [List.mem_singleton.mp member]
    exact digit_bounds (by decide)
  · exact isDigit_of_mem_lowestFirst byte (List.mem_reverse.mp member)

/-- A numeral has no zero byte. -/
theorem zero_not_mem_ofNat (number : Nat) : 0 ∉ ofNat number := by
  intro member
  have digit : (0x30 : UInt8) ≤ 0 := (isDigit_of_mem_ofNat member).1
  exact absurd digit (by decide)

/-- A digit's character is encoded as its byte. -/
theorem utf8EncodeChar_digitChar {value : Nat} (small : value < 10) :
    String.utf8EncodeChar (Nat.digitChar value) = [digit value] := by
  have all : ∀ number < 10,
      String.utf8EncodeChar (Nat.digitChar number) = [digit number] := by decide
  exact all value small

/-- The digits in reverse are those that numbers are shown with. -/
theorem reverse_lowestFirst {value : Nat} (positive : 0 < value) :
    (lowestFirst value).reverse =
      (Nat.toDigits 10 value).flatMap String.utf8EncodeChar := by
  induction value using Nat.strongRecOn with
  | ind value inductionHypothesis =>
      have last := utf8EncodeChar_digitChar (Nat.mod_lt value (by decide : 10 > 0))
      rw [lowestFirst_of_pos positive, List.reverse_cons]
      by_cases single : value < 10
      · rw [Nat.mod_eq_of_lt single] at last
        rw [Nat.toDigits_of_lt_base single, Nat.div_eq_of_lt single, lowestFirst_zero,
          Nat.mod_eq_of_lt single, List.flatMap_singleton, last]
        rfl
      · rw [Nat.toDigits_of_base_le (by decide) (Nat.le_of_not_lt single),
          List.flatMap_append, inductionHypothesis (value / 10) (by omega) (by omega),
          List.flatMap_singleton, last]

/-- The numeral of a number is the number's decimal text. -/
theorem ofNat_eq_encode_repr (value : Nat) : ofNat value = Utf8.encode (Nat.repr value) := by
  have text : (Nat.repr value).toUTF8 = (Nat.toDigits 10 value).utf8Encode := by
    rw [Nat.repr_eq_ofList_toDigits]
    exact String.toByteArray_ofList
  have bytes : Utf8.encode (Nat.repr value) =
      (Nat.toDigits 10 value).flatMap String.utf8EncodeChar := by
    rw [Utf8.encode, text, List.utf8Encode]
    simp
  rw [bytes]
  by_cases zero : value = 0
  · subst zero
    rfl
  · rw [ofNat, if_neg zero]
    exact reverse_lowestFirst (Nat.pos_of_ne_zero zero)

end DocumentCodec.Numeral
