import Mathlib.Algebra.Order.Field.Power
import Mathlib.Algebra.Order.Ring.Rat
import Mathlib.Tactic.Linarith
import Mathlib.Tactic.NormNum
import Mathlib.Tactic.Positivity
import Mathlib.Tactic.Ring
import DocumentCodec.Value.Decimal
import DocumentCodec.Value.Ieee

namespace DocumentCodec

/-!
# Numbers

Decimals and floating-point patterns stand for numbers.  Two decimals are
numerically equal when they stand for the same number, whatever the zeros at
their ends, and two patterns are equal when both stand for one and the same
number, the zeros of both signs being one; a NaN stands for none.
-/

namespace Decimal

/-- The number that a decimal stands for. -/
def number (decimal : Decimal) : ℚ :=
  decimal.digits * 10 ^ decimal.exponent

/-- No zero can be taken off the end of the coefficient. -/
def IsStripped (decimal : Decimal) : Prop :=
  decimal = ⟨0, 0⟩ ∨ ¬ 10 ∣ decimal.digits

/-- No digits make zero, whatever the exponent. -/
theorem number_zero (exponent : Int) : number ⟨0, exponent⟩ = 0 := by
  simp [number]

/-- Zero has no digits. -/
theorem digits_eq_zero_of_number
    {decimal : Decimal}
    (zero : decimal.number = 0) :
    decimal.digits = 0 := by
  have power : (10 : ℚ) ^ decimal.exponent ≠ 0 := zpow_ne_zero _ (by norm_num)
  exact_mod_cast (mul_eq_zero.mp zero).resolve_right power

/-- Taking zeros off the end does not change the number. -/
theorem number_stripZeros (decimal : Decimal) : decimal.stripZeros.number = decimal.number := by
  induction decimal using stripZeros.induct with
  | case1 decimal zero =>
      rcases decimal with ⟨digits, exponent⟩
      obtain rfl : digits = 0 := zero
      rw [stripZeros, if_pos rfl, number_zero, number_zero]
  | case2 decimal nonzero divides inductionHypothesis =>
      rw [stripZeros, if_neg nonzero, if_pos divides, inductionHypothesis]
      have whole : decimal.digits = decimal.digits / 10 * 10 := by omega
      have ten : (10 : ℚ) ≠ 0 := by norm_num
      calc
        ((decimal.digits / 10 : ℤ) : ℚ) * 10 ^ (decimal.exponent + 1)
            = ((decimal.digits / 10 * 10 : ℤ) : ℚ) * 10 ^ decimal.exponent := by
          rw [zpow_add₀ ten, zpow_one]
          push_cast
          ring
        _ = decimal.number := by rw [← whole, number]
  | case3 decimal nonzero indivisible =>
      rw [stripZeros, if_neg nonzero, if_neg indivisible]

/-- Without its trailing zeros a decimal is stripped. -/
theorem isStripped_stripZeros (decimal : Decimal) : decimal.stripZeros.IsStripped := by
  induction decimal using stripZeros.induct with
  | case1 decimal zero =>
      rw [stripZeros, if_pos zero]
      exact .inl rfl
  | case2 decimal nonzero divides inductionHypothesis =>
      rw [stripZeros, if_neg nonzero, if_pos divides]
      exact inductionHypothesis
  | case3 decimal nonzero indivisible =>
      rw [stripZeros, if_neg nonzero, if_neg indivisible]
      exact .inr fun divides => indivisible (Int.emod_eq_zero_of_dvd divides)

/-- Of two decimals for one number, the one with the smaller exponent has a zero at its end. -/
theorem dvd_digits_of_exponent_lt
    {left right : Decimal}
    (same : left.number = right.number)
    (below : left.exponent < right.exponent) :
    10 ∣ left.digits := by
  obtain ⟨zeros, further⟩ := Int.exists_add_of_le (Int.add_one_le_of_lt below)
  have ten : (10 : ℚ) ≠ 0 := by norm_num
  have power : (10 : ℚ) ^ left.exponent ≠ 0 := zpow_ne_zero _ ten
  have scaled : (left.digits : ℚ) = right.digits * 10 ^ zeros * 10 := by
    apply mul_right_cancel₀ power
    calc
      (left.digits : ℚ) * 10 ^ left.exponent
          = right.digits * 10 ^ right.exponent := same
      _ = right.digits * 10 ^ zeros * 10 * 10 ^ left.exponent := by
        rw [further, zpow_add₀ ten, zpow_add₀ ten, zpow_one, zpow_natCast]
        ring
  exact ⟨right.digits * 10 ^ zeros, by rw [Int.mul_comm]; exact_mod_cast scaled⟩

/-- Without zeros at the end there is one decimal for a number. -/
theorem eq_of_number_eq
    {left right : Decimal}
    (leftStripped : left.IsStripped)
    (rightStripped : right.IsStripped)
    (same : left.number = right.number) :
    left = right := by
  rcases leftStripped with rfl | leftEnd
  · rw [number_zero] at same
    rcases rightStripped with rfl | rightEnd
    · rfl
    · rw [digits_eq_zero_of_number same.symm] at rightEnd
      exact absurd (Int.dvd_zero 10) rightEnd
  · rcases rightStripped with rfl | rightEnd
    · rw [number_zero] at same
      rw [digits_eq_zero_of_number same] at leftEnd
      exact absurd (Int.dvd_zero 10) leftEnd
    · rcases lt_trichotomy left.exponent right.exponent with below | equal | above
      · exact absurd (dvd_digits_of_exponent_lt same below) leftEnd
      · have power : (10 : ℚ) ^ right.exponent ≠ 0 := zpow_ne_zero _ (by norm_num)
        rw [number, number, equal] at same
        have digits : left.digits = right.digits := by
          exact_mod_cast mul_right_cancel₀ power same
        rcases left with ⟨leftDigits, leftExponent⟩
        rcases right with ⟨rightDigits, rightExponent⟩
        cases digits
        cases equal
        rfl
      · exact absurd (dvd_digits_of_exponent_lt same.symm above) rightEnd

/-- Decimals are numerically equal when they stand for the same number. -/
theorem numericEqual_iff {left right : Decimal} :
    left.numericEqual right = true ↔ left.number = right.number := by
  rw [numericEqual, beq_iff_eq]
  constructor
  · intro stripped
    rw [← number_stripZeros left, stripped, number_stripZeros]
  · intro same
    apply eq_of_number_eq (isStripped_stripZeros left) (isStripped_stripZeros right)
    rw [number_stripZeros, number_stripZeros, same]

end Decimal

namespace Ieee

/-- The numbers of floating-point arithmetic, the zeros of both signs being one. -/
inductive Number
  | finite (value : ℚ)
  | infinite (negative : Bool)

/-- What is taken off the exponent field of so many bits. -/
def bias (exponent : Nat) : ℤ :=
  Bits.modulus (exponent - 1) - 1

/--
The magnitude of a finite pattern with so many bits of fraction and exponent.
Without an exponent it is a subnormal one, which has no leading one.
-/
def magnitude (fraction exponent biased significand : Nat) : ℚ :=
  if biased = 0 then
    significand * 2 ^ (1 - bias exponent - fraction)
  else
    (Bits.modulus fraction + significand) * 2 ^ (biased - bias exponent - fraction)

/-- A number from its sign and its magnitude. -/
def signed (negative : Bool) (magnitude : ℚ) : ℚ :=
  if negative then -magnitude else magnitude

/-- The number that a pattern with so many bits of fraction and exponent stands for. -/
def number? (fraction exponent pattern : Nat) : Option Number :=
  let negative := Bits.field pattern (fraction + exponent) 1 == 1
  let biased := Bits.field pattern fraction exponent
  let significand := Bits.field pattern 0 fraction
  if biased = Bits.modulus exponent - 1 then
    if significand = 0 then some (.infinite negative) else none
  else
    some (.finite (signed negative (magnitude fraction exponent biased significand)))

/-- The number that a single-precision pattern stands for. -/
def number32? (bits : UInt32) : Option Number :=
  number? 23 8 bits.toNat

/-- The number that a double-precision pattern stands for. -/
def number64? (bits : UInt64) : Option Number :=
  number? 52 11 bits.toNat

/-- A magnitude as a multiple of half the smallest one. -/
def units (fraction biased significand : Nat) : Nat :=
  if biased = 0 then
    significand * 2
  else
    (Bits.modulus fraction + significand) * Bits.modulus biased

/-- A magnitude is a whole number of the smallest one. -/
theorem magnitude_eq_units (fraction exponent biased significand : Nat) :
    magnitude fraction exponent biased significand =
      units fraction biased significand * 2 ^ (-bias exponent - fraction) := by
  have two : (2 : ℚ) ≠ 0 := by norm_num
  have shifted (power : ℤ) :
      (2 : ℚ) ^ (power - bias exponent - fraction) =
        2 ^ power * 2 ^ (-bias exponent - fraction) := by
    rw [← zpow_add₀ two]
    ring_nf
  have modulus : ((Bits.modulus biased : Nat) : ℚ) = 2 ^ (biased : ℤ) := by
    rw [zpow_natCast]
    exact Nat.cast_pow 2 biased
  unfold magnitude units
  split
  · rw [shifted, zpow_one]
    push_cast
    ring
  · rw [shifted]
    push_cast [modulus]
    ring

/-- A larger exponent makes a larger number, whatever the significands. -/
theorem units_lt_units
    {fraction biased other significand otherSignificand : Nat}
    (below : biased < other)
    (fits : significand < Bits.modulus fraction) :
    units fraction biased significand < units fraction other otherSignificand := by
  have others : 0 < other := Nat.zero_lt_of_lt below
  have doubled : Bits.modulus (biased + 1) = Bits.modulus biased * 2 :=
    Nat.pow_succ 2 biased
  have power : Bits.modulus (biased + 1) ≤ Bits.modulus other :=
    Nat.pow_le_pow_right (by decide) below
  have leading : Bits.modulus fraction * Bits.modulus other ≤
      units fraction other otherSignificand := by
    rw [units, if_neg (Nat.ne_of_gt others)]
    exact Nat.mul_le_mul_right _ (Nat.le_add_right _ _)
  refine Nat.lt_of_lt_of_le ?_ (Nat.le_trans (Nat.mul_le_mul_left _ power) leading)
  rw [doubled, units]
  split
  · rename_i none
    subst none
    exact Nat.mul_lt_mul_of_pos_right fits (by decide)
  · rw [Nat.mul_comm (Bits.modulus biased), ← Nat.mul_assoc]
    exact Nat.mul_lt_mul_of_pos_right (by omega) (Nat.pow_pos (by decide))

/-- The parts of a magnitude can be told from it. -/
theorem units_injective
    {fraction biased other significand otherSignificand : Nat}
    (fits : significand < Bits.modulus fraction)
    (otherFits : otherSignificand < Bits.modulus fraction)
    (same : units fraction biased significand = units fraction other otherSignificand) :
    biased = other ∧ significand = otherSignificand := by
  rcases Nat.lt_trichotomy biased other with below | rfl | above
  · exact absurd same (Nat.ne_of_lt (units_lt_units below fits))
  · refine ⟨rfl, ?_⟩
    unfold units at same
    split at same
    · omega
    · have positive : 0 < Bits.modulus biased := Nat.pow_pos (by decide)
      exact Nat.add_left_cancel (Nat.eq_of_mul_eq_mul_right positive same)
  · exact absurd same.symm (Nat.ne_of_lt (units_lt_units above otherFits))

/-- A magnitude tells its exponent and its significand. -/
theorem magnitude_injective
    {fraction exponent biased other significand otherSignificand : Nat}
    (fits : significand < Bits.modulus fraction)
    (otherFits : otherSignificand < Bits.modulus fraction)
    (same :
      magnitude fraction exponent biased significand =
        magnitude fraction exponent other otherSignificand) :
    biased = other ∧ significand = otherSignificand := by
  have unit : (2 : ℚ) ^ (-bias exponent - fraction) ≠ 0 := zpow_ne_zero _ (by norm_num)
  rw [magnitude_eq_units, magnitude_eq_units] at same
  exact units_injective fits otherFits (by exact_mod_cast mul_right_cancel₀ unit same)

/-- A magnitude has no sign. -/
theorem magnitude_nonneg (fraction exponent biased significand : Nat) :
    0 ≤ magnitude fraction exponent biased significand := by
  rw [magnitude_eq_units]
  positivity

/-- The pattern of zero has no magnitude. -/
theorem magnitude_zero (fraction exponent : Nat) : magnitude fraction exponent 0 0 = 0 := by
  simp [magnitude]

/-- The sign of a number is that of its pattern, but for zero. -/
theorem of_signed_eq
    {negative other : Bool}
    {magnitude otherMagnitude : ℚ}
    (nonneg : 0 ≤ magnitude)
    (otherNonneg : 0 ≤ otherMagnitude)
    (same : signed negative magnitude = signed other otherMagnitude) :
    magnitude = otherMagnitude ∧ (negative = other ∨ magnitude = 0) := by
  cases negative <;> cases other
  · exact ⟨same, .inl rfl⟩
  · change magnitude = -otherMagnitude at same
    exact ⟨by linarith, .inr (by linarith)⟩
  · change -magnitude = otherMagnitude at same
    exact ⟨by linarith, .inr (by linarith)⟩
  · exact ⟨neg_injective same, .inl rfl⟩

section Patterns

variable {fraction exponent pattern left right : Nat}

/-- A pattern of a NaN: all bits of the exponent are set, and some of the fraction. -/
def IsNaN (fraction exponent pattern : Nat) : Prop :=
  Bits.field pattern fraction exponent = Bits.modulus exponent - 1 ∧
    Bits.field pattern 0 fraction ≠ 0

/-- A pattern of a zero: no bit but the sign is set. -/
def IsZero (fraction exponent pattern : Nat) : Prop :=
  Bits.field pattern 0 (fraction + exponent) = 0

/-- Only a pattern that is no number has none. -/
theorem number?_eq_none_iff :
    number? fraction exponent pattern = none ↔ IsNaN fraction exponent pattern := by
  simp only [number?, IsNaN]
  split
  · rename_i full
    split
    · rename_i none
      simp [full, none]
    · rename_i some
      simp [full, some]
  · rename_i finite
    simp [finite]

/-- The bits below the sign are those of the exponent and of the fraction. -/
theorem field_below_sign (pattern fraction exponent : Nat) :
    Bits.field pattern 0 (fraction + exponent) =
      Bits.field pattern 0 fraction +
        Bits.modulus fraction * Bits.field pattern fraction exponent := by
  have parts : Bits.modulus (fraction + exponent) =
      Bits.modulus fraction * Bits.modulus exponent := Nat.pow_add 2 fraction exponent
  have whole : pattern / Bits.modulus 0 = pattern := Nat.div_one pattern
  simp only [Bits.field, whole, parts]
  exact Nat.mod_mul

/-- A zero has neither exponent nor significand, and either sign. -/
theorem isZero_iff :
    IsZero fraction exponent pattern ↔
      Bits.field pattern fraction exponent = 0 ∧ Bits.field pattern 0 fraction = 0 := by
  have positive : Bits.modulus fraction ≠ 0 := Nat.ne_of_gt (Nat.pow_pos (by decide))
  rw [IsZero, field_below_sign, Nat.add_eq_zero_iff, Nat.mul_eq_zero, and_comm]
  simp only [positive, false_or]

/-- A pattern is its sign, its exponent and its fraction. -/
theorem eq_of_fields
    (leftFits : left < Bits.modulus (fraction + exponent + 1))
    (rightFits : right < Bits.modulus (fraction + exponent + 1))
    (sign :
      Bits.field left (fraction + exponent) 1 = Bits.field right (fraction + exponent) 1)
    (biased : Bits.field left fraction exponent = Bits.field right fraction exponent)
    (significand : Bits.field left 0 fraction = Bits.field right 0 fraction) :
    left = right := by
  have whole {pattern : Nat} (fits : pattern < Bits.modulus (fraction + exponent + 1)) :
      Bits.field pattern 0 (fraction + exponent + 1) = pattern := by
    rw [Bits.field]
    exact (Nat.mod_eq_of_lt (Nat.lt_of_le_of_lt (Nat.div_le_self _ _) fits)).trans
      (Nat.div_one pattern)
  rw [← whole leftFits, ← whole rightFits, field_below_sign, field_below_sign, sign]
  rw [field_below_sign, field_below_sign, biased, significand]

/-- An infinity has the largest exponent, no significand and its sign. -/
theorem number?_eq_infinite_iff {negative : Bool} :
    number? fraction exponent pattern = some (.infinite negative) ↔
      Bits.field pattern fraction exponent = Bits.modulus exponent - 1 ∧
        Bits.field pattern 0 fraction = 0 ∧
          (Bits.field pattern (fraction + exponent) 1 == 1) = negative := by
  simp only [number?]
  split
  · rename_i full
    split
    · rename_i none
      simp [full, none]
    · rename_i some
      simp [some]
  · rename_i finite
    simp [finite]

/-- A finite number is its magnitude with its sign. -/
theorem value_of_number?
    {value : ℚ}
    (finite : number? fraction exponent pattern = some (.finite value)) :
    signed (Bits.field pattern (fraction + exponent) 1 == 1)
        (magnitude fraction exponent (Bits.field pattern fraction exponent)
          (Bits.field pattern 0 fraction)) =
      value := by
  simp only [number?] at finite
  split at finite
  · split at finite
    · cases finite
    · cases finite
  · cases finite
    rfl

/-- Either zero is the number zero. -/
theorem number?_of_isZero
    (wide : 0 < exponent)
    (zero : IsZero fraction exponent pattern) :
    number? fraction exponent pattern = some (.finite 0) := by
  obtain ⟨biased, significand⟩ := isZero_iff.mp zero
  have two : Bits.modulus 1 ≤ Bits.modulus exponent := Nat.pow_le_pow_right (by decide) wide
  have small : ¬ 0 = Bits.modulus exponent - 1 := by
    change 2 ≤ Bits.modulus exponent at two
    omega
  simp only [number?, biased, significand, if_neg small, magnitude_zero]
  cases Bits.field pattern (fraction + exponent) 1 == 1
  · rfl
  · exact congrArg (fun value => some (Number.finite value)) neg_zero

/-- Signs are one bit. -/
theorem sign_eq_of_beq
    (same :
      (Bits.field left (fraction + exponent) 1 == 1) =
        (Bits.field right (fraction + exponent) 1 == 1)) :
    Bits.field left (fraction + exponent) 1 = Bits.field right (fraction + exponent) 1 := by
  have leftBit : Bits.field left (fraction + exponent) 1 < 2 := Bits.field_lt _ _ 1
  have rightBit : Bits.field right (fraction + exponent) 1 < 2 := Bits.field_lt _ _ 1
  rw [Bool.eq_iff_iff, beq_iff_eq, beq_iff_eq] at same
  omega

/-- Patterns of one number are the same, unless it is zero. -/
theorem eq_or_isZero_of_number
    {number : Number}
    (leftFits : left < Bits.modulus (fraction + exponent + 1))
    (rightFits : right < Bits.modulus (fraction + exponent + 1))
    (leftNumber : number? fraction exponent left = some number)
    (rightNumber : number? fraction exponent right = some number) :
    left = right ∨ IsZero fraction exponent left ∧ IsZero fraction exponent right := by
  cases number with
  | infinite negative =>
      obtain ⟨leftBiased, leftSignificand, leftSign⟩ := number?_eq_infinite_iff.mp leftNumber
      obtain ⟨rightBiased, rightSignificand, rightSign⟩ := number?_eq_infinite_iff.mp rightNumber
      left
      exact eq_of_fields leftFits rightFits (sign_eq_of_beq (leftSign.trans rightSign.symm))
        (leftBiased.trans rightBiased.symm) (leftSignificand.trans rightSignificand.symm)
  | finite value =>
      have same := (value_of_number? leftNumber).trans (value_of_number? rightNumber).symm
      obtain ⟨magnitudes, signs⟩ :=
        of_signed_eq (magnitude_nonneg ..) (magnitude_nonneg ..) same
      have fits (pattern : Nat) : Bits.field pattern 0 fraction < Bits.modulus fraction :=
        Bits.field_lt ..
      obtain ⟨biased, significand⟩ := magnitude_injective (fits left) (fits right) magnitudes
      -- equal values have one sign, unless they are zero
      rcases signs with sign | zero
      · exact .inl (eq_of_fields leftFits rightFits (sign_eq_of_beq sign) biased significand)
      · rw [← magnitude_zero fraction exponent] at zero
        obtain ⟨noExponent, noFraction⟩ :=
          magnitude_injective (fits left) (Nat.pow_pos (by decide)) zero
        exact .inr
          ⟨isZero_iff.mpr ⟨noExponent, noFraction⟩,
            isZero_iff.mpr ⟨biased ▸ noExponent, significand ▸ noFraction⟩⟩

/-- Two patterns stand for one number when none is a NaN and they are the same or zeros. -/
theorem exists_number?_iff
    (wide : 0 < exponent)
    (leftFits : left < Bits.modulus (fraction + exponent + 1))
    (rightFits : right < Bits.modulus (fraction + exponent + 1)) :
    (∃ number, number? fraction exponent left = some number ∧
        number? fraction exponent right = some number) ↔
      ¬ IsNaN fraction exponent left ∧ ¬ IsNaN fraction exponent right ∧
        (left = right ∨ IsZero fraction exponent left ∧ IsZero fraction exponent right) := by
  constructor
  · rintro ⟨number, leftNumber, rightNumber⟩
    refine ⟨?_, ?_, eq_or_isZero_of_number leftFits rightFits leftNumber rightNumber⟩
    · rw [← number?_eq_none_iff, leftNumber]
      exact Option.some_ne_none number
    · rw [← number?_eq_none_iff, rightNumber]
      exact Option.some_ne_none number
  · rintro ⟨leftNumber, -, rfl | ⟨leftZero, rightZero⟩⟩
    · rw [← number?_eq_none_iff] at leftNumber
      obtain ⟨number, found⟩ := Option.ne_none_iff_exists'.mp leftNumber
      exact ⟨number, found, found⟩
    · exact ⟨.finite 0, number?_of_isZero wide leftZero, number?_of_isZero wide rightZero⟩

end Patterns

/-- The test on 32 bits finds the patterns that are no number. -/
theorem isNaN32_iff {bits : UInt32} : isNaN32 bits = true ↔ IsNaN 23 8 bits.toNat := by
  rw [isNaN32, Bool.and_eq_true, beq_iff_eq, bne_iff_ne]
  rfl

/-- The test on 64 bits finds the patterns that are no number. -/
theorem isNaN64_iff {bits : UInt64} : isNaN64 bits = true ↔ IsNaN 52 11 bits.toNat := by
  rw [isNaN64, Bool.and_eq_true, beq_iff_eq, bne_iff_ne]
  rfl

/-- The test on 32 bits lets through what is a number. -/
theorem isNaN32_eq_false_iff {bits : UInt32} :
    isNaN32 bits = false ↔ ∃ number, number32? bits = some number := by
  rw [← Bool.not_eq_true, isNaN32_iff, ← number?_eq_none_iff]
  exact Option.ne_none_iff_exists'

/-- The test on 64 bits lets through what is a number. -/
theorem isNaN64_eq_false_iff {bits : UInt64} :
    isNaN64 bits = false ↔ ∃ number, number64? bits = some number := by
  rw [← Bool.not_eq_true, isNaN64_iff, ← number?_eq_none_iff]
  exact Option.ne_none_iff_exists'

/-- Single-precision patterns are equal when they stand for one number. -/
theorem equal32_iff {left right : UInt32} :
    equal32 left right = true ↔
      ∃ number, number32? left = some number ∧ number32? right = some number := by
  rw [number32?, number32?, exists_number?_iff (by decide) left.toNat_lt right.toNat_lt,
    ← isNaN32_iff, ← isNaN32_iff, UInt32.toNat_inj]
  simp only [equal32, isZero32, IsZero, Bool.and_eq_true, Bool.or_eq_true, Bool.not_eq_true',
    beq_iff_eq, Bool.not_eq_true, and_assoc]

/-- Double-precision patterns are equal when they stand for one number. -/
theorem equal64_iff {left right : UInt64} :
    equal64 left right = true ↔
      ∃ number, number64? left = some number ∧ number64? right = some number := by
  rw [number64?, number64?, exists_number?_iff (by decide) left.toNat_lt right.toNat_lt,
    ← isNaN64_iff, ← isNaN64_iff, UInt64.toNat_inj]
  simp only [equal64, isZero64, IsZero, Bool.and_eq_true, Bool.or_eq_true, Bool.not_eq_true',
    beq_iff_eq, Bool.not_eq_true, and_assoc]

end Ieee

end DocumentCodec
