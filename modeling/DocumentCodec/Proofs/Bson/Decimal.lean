import DocumentCodec.Bson.Decimal128

namespace DocumentCodec.Decimal128

/-!
# Decimals and their words

A decimal within the limits of the format is written without loss.  The limits
keep the two bits behind the sign from being both set, so that the words are
always in the small form and never a special pattern.
-/

/-- Words that stand for a number are none of the special patterns. -/
theorem number_of_toDecimal
    {words : Decimal128}
    {decimal : Decimal}
    (meaning : words.toDecimal = .ok decimal) :
    words.isNaN = false ∧ words.isInfinite = false := by
  unfold toDecimal at meaning
  split at meaning
  · cases meaning
  · rename_i number
    split at meaning
    · cases meaning
    · rename_i finite
      exact ⟨Bool.eq_false_iff.mpr number, Bool.eq_false_iff.mpr finite⟩

/-- A decimal whose exponent and coefficient the format can hold. -/
structure Holds (decimal : Decimal) : Prop where
  exponent_ge : minimumExponent ≤ decimal.exponent
  exponent_le : decimal.exponent ≤ maximumExponent
  digits_le : decimal.digits.natAbs ≤ maximumCoefficient

/-- The high word made of a sign, a biased exponent and the coefficient's upper bits. -/
def highWord (sign biased upper : Nat) : Nat :=
  sign * Bits.modulus 63 + biased * Bits.modulus 49 + upper

/--
A decimal that is in range becomes the words with its coefficient, its exponent
and its sign.
-/
theorem ofDecimal_eq_ok
    {decimal : Decimal}
    (holds : Holds decimal) :
    ofDecimal decimal =
      .ok {
        low := UInt64.ofNat (Bits.field decimal.digits.natAbs 0 64)
        high := UInt64.ofNat <|
          highWord (if decimal.digits < 0 then 1 else 0)
            (decimal.exponent + exponentBias).toNat
            (decimal.digits.natAbs / Bits.modulus 64) } := by
  have exponentInside :
      ¬ (decimal.exponent < minimumExponent ∨ maximumExponent < decimal.exponent) := by
    have lower := holds.exponent_ge
    have upper := holds.exponent_le
    omega
  rw [ofDecimal, if_neg exponentInside, if_neg (Nat.not_lt.mpr holds.digits_le)]
  rfl

section Fields

variable {words : Decimal128} {sign biased upper : Nat}

/-- Sign, biased exponent and upper coefficient leave no bit over in the high word. -/
theorem highWord_lt
    (signRange : sign ≤ 1)
    (biasedRange : biased < 12288)
    (upperRange : upper < Bits.modulus 49) :
    highWord sign biased upper < UInt64.size := by
  change upper < 562949953421312 at upperRange
  change sign * 9223372036854775808 + biased * 562949953421312 + upper <
    18446744073709551616
  omega

/-- A high word that was made of parts in their ranges is in the small form. -/
theorem isLargeForm_of_highWord
    (high : words.high.toNat = highWord sign biased upper)
    (biasedRange : biased < 12288)
    (upperRange : upper < Bits.modulus 49) :
    words.isLargeForm = false := by
  change upper < 562949953421312 at upperRange
  have whole :
      words.high.toNat =
        sign * 9223372036854775808 + biased * 562949953421312 + upper := high
  rw [isLargeForm, beq_eq_false_iff_ne]
  change words.high.toNat / 2305843009213693952 % 4 ≠ 3
  omega

/-- The fields of a high word that was made of parts in their ranges. -/
theorem fields_of_highWord
    (high : words.high.toNat = highWord sign biased upper)
    (signRange : sign ≤ 1)
    (biasedRange : biased < 12288)
    (upperRange : upper < Bits.modulus 49) :
    words.isNaN = false ∧ words.isInfinite = false ∧
      words.isNegative = (sign == 1) ∧ words.biasedExponent = biased ∧
        words.coefficient = upper * Bits.modulus 64 + words.low.toNat := by
  change upper < 562949953421312 at upperRange
  have whole :
      words.high.toNat =
        sign * 9223372036854775808 + biased * 562949953421312 + upper := high
  have special : words.combination < 24 := by
    change words.high.toNat / 288230376151711744 % 32 < 24
    omega
  have small := isLargeForm_of_highWord high biasedRange upperRange
  refine ⟨?_, ?_, ?_, ?_, ?_⟩
  · rw [isNaN, beq_eq_false_iff_ne]
    omega
  · rw [isInfinite, beq_eq_false_iff_ne]
    omega
  · have signBit : Bits.field words.high.toNat 63 1 = sign := by
      change words.high.toNat / 9223372036854775808 % 2 = sign
      omega
    rw [isNegative, signBit]
  · rw [biasedExponent, small, if_neg Bool.false_ne_true]
    change words.high.toNat / 562949953421312 % 16384 = biased
    omega
  · have upperBits : Bits.field words.high.toNat 0 49 = upper := by
      change words.high.toNat / 1 % 562949953421312 = upper
      omega
    rw [coefficient, small, if_neg Bool.false_ne_true, upperBits]

end Fields

/-- The biased exponent and the coefficient's upper bits are in the small form's ranges. -/
theorem Holds.ranges
    {decimal : Decimal}
    (holds : Holds decimal) :
    (decimal.exponent + exponentBias).toNat < 12288 ∧
      decimal.digits.natAbs / Bits.modulus 64 < Bits.modulus 49 := by
  rcases holds with ⟨exponentLower, exponentUpper, digitsUpper⟩
  change (-6176 : Int) ≤ decimal.exponent at exponentLower
  change decimal.exponent ≤ 6111 at exponentUpper
  change decimal.digits.natAbs ≤ 9999999999999999999999999999999999 at digitsUpper
  constructor
  · change (decimal.exponent + 6176).toNat < 12288
    omega
  · change decimal.digits.natAbs / 18446744073709551616 < 562949953421312
    omega

/-- A decimal within the limits has words, the high one made of parts in their ranges. -/
theorem exists_ofDecimal
    {decimal : Decimal}
    (holds : Holds decimal) :
    ∃ words, ofDecimal decimal = .ok words ∧
      words.low.toNat = decimal.digits.natAbs % Bits.modulus 64 ∧
        words.high.toNat =
          highWord (if decimal.digits < 0 then 1 else 0)
            (decimal.exponent + exponentBias).toNat
            (decimal.digits.natAbs / Bits.modulus 64) := by
  obtain ⟨biasedRange, upperRange⟩ := holds.ranges
  have signRange : (if decimal.digits < 0 then 1 else 0) ≤ 1 := by
    split <;> omega
  refine ⟨_, ofDecimal_eq_ok holds, ?_, ?_⟩
  · change (UInt64.ofNat (decimal.digits.natAbs / 1 % 18446744073709551616)).toNat = _
    rw [UInt64.toNat_ofNat_of_lt' (by change _ < 18446744073709551616; omega), Nat.div_one]
    rfl
  · exact UInt64.toNat_ofNat_of_lt' (highWord_lt signRange biasedRange upperRange)

/-- A decimal within the limits has words, and they stand for it as it was written. -/
theorem exists_words
    {decimal : Decimal}
    (holds : Holds decimal) :
    ∃ words, ofDecimal decimal = .ok words ∧ words.toDecimal = .ok decimal := by
  obtain ⟨words, made, low, high⟩ := exists_ofDecimal holds
  obtain ⟨biasedRange, upperRange⟩ := holds.ranges
  refine ⟨words, made, ?_⟩
  rcases holds with ⟨exponentLower, exponentUpper, digitsUpper⟩
  rcases decimal with ⟨digits, exponent⟩
  change (-6176 : Int) ≤ exponent at exponentLower
  change digits.natAbs ≤ 9999999999999999999999999999999999 at digitsUpper
  have signRange : (if digits < 0 then 1 else 0) ≤ 1 := by
    split <;> omega
  obtain ⟨number, finite, negative, biased, coefficient⟩ :=
    fields_of_highWord high signRange biasedRange upperRange
  have whole : words.coefficient = digits.natAbs := by
    rw [coefficient, low]
    change digits.natAbs / 18446744073709551616 * 18446744073709551616 +
      digits.natAbs % 18446744073709551616 = _
    omega
  have canonical : ¬ maximumCoefficient < digits.natAbs := by
    change ¬ 9999999999999999999999999999999999 < digits.natAbs
    omega
  have sameExponent : ((exponent + exponentBias).toNat : Int) - exponentBias = exponent := by
    change ((exponent + 6176).toNat : Int) - 6176 = exponent
    omega
  rw [toDecimal, number, finite, negative, biased, whole, if_neg Bool.false_ne_true,
    if_neg Bool.false_ne_true, if_neg canonical, sameExponent]
  by_cases below : digits < 0
  · have sameDigits : -(digits.natAbs : Int) = digits := by omega
    simp only [below, if_true, BEq.rfl, sameDigits]
  · have sameDigits : (digits.natAbs : Int) = digits := by omega
    simp only [below, if_false, sameDigits]
    rfl

section Canonical

variable {words : Decimal128} {decimal : Decimal}

/-- The exponent field of a number, in either form, is one that the format can hold. -/
theorem biasedExponent_lt
    (number : words.isNaN = false)
    (finite : words.isInfinite = false) :
    words.biasedExponent < 12288 := by
  rw [isNaN, beq_eq_false_iff_ne] at number
  rw [isInfinite, beq_eq_false_iff_ne] at finite
  change words.high.toNat / 288230376151711744 % 32 ≠ 31 at number
  change words.high.toNat / 288230376151711744 % 32 ≠ 30 at finite
  rw [biasedExponent]
  by_cases large : words.isLargeForm = true
  · rw [if_pos large]
    have bits : words.high.toNat / 2305843009213693952 % 4 = 3 := eq_of_beq large
    change words.high.toNat / 140737488355328 % 16384 < 12288
    omega
  · rw [if_neg large]
    have bits : words.high.toNat / 2305843009213693952 % 4 ≠ 3 := fun same =>
      large (beq_iff_eq.mpr same)
    change words.high.toNat / 562949953421312 % 16384 < 12288
    omega

/-- What the words of a number stand for. -/
theorem toDecimal_eq
    (meaning : words.toDecimal = .ok decimal) :
    decimal.digits.natAbs =
        (if maximumCoefficient < words.coefficient then 0 else words.coefficient) ∧
      (decimal.digits < 0 ↔ words.isNegative = true ∧ decimal.digits.natAbs ≠ 0) ∧
        decimal.exponent = words.biasedExponent - exponentBias := by
  obtain ⟨number, finite⟩ := number_of_toDecimal meaning
  rw [toDecimal, number, finite, if_neg Bool.false_ne_true, if_neg Bool.false_ne_true,
    Except.ok.injEq] at meaning
  subst meaning
  generalize (if maximumCoefficient < words.coefficient then 0 else words.coefficient) = magnitude
  cases words.isNegative with
  | false =>
      rw [if_neg Bool.false_ne_true]
      refine ⟨Int.natAbs_natCast magnitude, ⟨fun below => ?_, fun signed => ?_⟩, rfl⟩
      · exact absurd (Int.natCast_nonneg magnitude) (Int.not_le.mpr below)
      · cases signed.1
  | true =>
      rw [if_pos rfl]
      dsimp only
      refine ⟨by omega, ⟨fun below => ⟨rfl, by omega⟩, fun signed => ?_⟩, rfl⟩
      have nonzero := signed.2
      omega

/-- Whatever words stand for can be written. -/
theorem holds_of_toDecimal
    (meaning : words.toDecimal = .ok decimal) :
    Holds decimal := by
  obtain ⟨number, finite⟩ := number_of_toDecimal meaning
  obtain ⟨digits, _, exponent⟩ := toDecimal_eq meaning
  have range := biasedExponent_lt number finite
  change decimal.exponent = words.biasedExponent - 6176 at exponent
  refine ⟨?_, ?_, ?_⟩
  · change -6176 ≤ decimal.exponent
    omega
  · change decimal.exponent ≤ 6111
    omega
  · rw [digits]
    split
    · exact Nat.zero_le _
    · exact Nat.le_of_not_lt ‹_›

/--
Words as a decimal is written in them: in the small form, with a coefficient
of no more than the digits allowed and a sign only if that is not zero.
-/
structure IsCanonical (words : Decimal128) : Prop where
  small : words.isLargeForm = false
  digits_le : words.coefficient ≤ maximumCoefficient
  nonzero_of_negative : words.isNegative = true → words.coefficient ≠ 0

/-- Words with the same numbers are the same words. -/
theorem eq_of_toNat
    {other : Decimal128}
    (low : words.low.toNat = other.low.toNat)
    (high : words.high.toNat = other.high.toNat) :
    words = other := by
  cases words
  cases other
  cases UInt64.toNat_inj.mp low
  cases UInt64.toNat_inj.mp high
  rfl

/-- A decimal is written in words that are canonical. -/
theorem isCanonical_of_ofDecimal
    (holds : Holds decimal)
    (made : ofDecimal decimal = .ok words) :
    words.IsCanonical := by
  obtain ⟨written, same, low, high⟩ := exists_ofDecimal holds
  cases same.symm.trans made
  obtain ⟨biasedRange, upperRange⟩ := holds.ranges
  have signRange : (if decimal.digits < 0 then 1 else 0) ≤ 1 := by
    split <;> omega
  obtain ⟨_, _, negative, _, coefficient⟩ :=
    fields_of_highWord high signRange biasedRange upperRange
  have whole : words.coefficient = decimal.digits.natAbs := by
    rw [coefficient, low]
    exact Nat.div_add_mod' _ _
  refine ⟨isLargeForm_of_highWord high biasedRange upperRange, ?_, ?_⟩
  · rw [whole]
    exact holds.digits_le
  · rw [negative, whole, beq_iff_eq]
    intro signed
    split at signed <;> omega

/-- Canonical words are the ones that their decimal is written as. -/
theorem ofDecimal_of_isCanonical
    (meaning : words.toDecimal = .ok decimal)
    (canonical : words.IsCanonical) :
    ofDecimal decimal = .ok words := by
  obtain ⟨digits, negative, exponent⟩ := toDecimal_eq meaning
  rw [if_neg (Nat.not_lt.mpr canonical.digits_le)] at digits
  obtain ⟨written, made, low, high⟩ := exists_ofDecimal (holds_of_toDecimal meaning)
  have small := canonical.small
  have sign : (if decimal.digits < 0 then 1 else 0) = words.high.toNat / 9223372036854775808 := by
    have bit : words.isNegative = (words.high.toNat / 9223372036854775808 % 2 == 1) := rfl
    have range := words.high.toNat_lt
    by_cases below : decimal.digits < 0
    · rw [if_pos below]
      have set : words.high.toNat / 9223372036854775808 % 2 = 1 :=
        eq_of_beq (bit.symm.trans (negative.mp below).1)
      omega
    · rw [if_neg below]
      have clear : words.high.toNat / 9223372036854775808 % 2 ≠ 1 := by
        intro set
        have signed : words.isNegative = true := bit.trans (beq_iff_eq.mpr set)
        exact below (negative.mpr ⟨signed, digits ▸ canonical.nonzero_of_negative signed⟩)
      omega
  have biased :
      (decimal.exponent + exponentBias).toNat = words.high.toNat / 562949953421312 % 16384 := by
    have field : words.biasedExponent = words.high.toNat / 562949953421312 % 16384 := by
      rw [biasedExponent, small]
      rfl
    rw [exponent, Int.sub_add_cancel, field]
    exact Int.toNat_natCast _
  have coefficient : decimal.digits.natAbs =
      words.high.toNat % 562949953421312 * 18446744073709551616 + words.low.toNat := by
    have field : words.coefficient =
        words.high.toNat / 1 % 562949953421312 * 18446744073709551616 + words.low.toNat := by
      rw [Decimal128.coefficient, small]
      rfl
    rw [digits, field, Nat.div_one]
  have lowRange := words.low.toNat_lt
  -- both words are the sums of the same fields
  have same : written = words := by
    refine eq_of_toNat ?_ ?_
    · change written.low.toNat = decimal.digits.natAbs % 18446744073709551616 at low
      omega
    · rw [sign, biased] at high
      change written.high.toNat = _ * 9223372036854775808 + _ * 562949953421312 +
        decimal.digits.natAbs / 18446744073709551616 at high
      omega
  rw [made, same]

/-- A number's words are those that it is written in exactly if they are canonical. -/
theorem ofDecimal_eq_ok_iff
    (meaning : words.toDecimal = .ok decimal) :
    ofDecimal decimal = .ok words ↔ words.IsCanonical :=
  ⟨isCanonical_of_ofDecimal (holds_of_toDecimal meaning), ofDecimal_of_isCanonical meaning⟩

end Canonical

end DocumentCodec.Decimal128
