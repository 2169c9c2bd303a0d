import DocumentCodec.Proofs.Bson.Decimal

namespace DocumentCodec.Decimal128

/-!
# Exactness of decimals

Main statements: every pair of words is a NaN, an infinity or a decimal that can
be written again, and it is told which words come back as they were; a decimal
is written exactly if the format can hold it, and then nothing of it is lost.
-/

section Words

variable {words : Decimal128} {decimal : Decimal}

/-- No words are marked as a NaN and as an infinity. -/
theorem isInfinite_of_isNaN (nan : words.isNaN = true) : words.isInfinite = false := by
  have combination : words.combination = 0b11111 := eq_of_beq nan
  rw [isInfinite, combination]
  rfl

/-- Words without a special pattern stand for a decimal. -/
theorem exists_toDecimal
    (number : words.isNaN = false)
    (finite : words.isInfinite = false) :
    ∃ decimal, words.toDecimal = .ok decimal := by
  rw [toDecimal, number, finite]
  exact ⟨_, rfl⟩

/-- The bits 100 in front make every coefficient of the large form too large. -/
theorem coefficient_of_isLargeForm (large : words.isLargeForm = true) :
    maximumCoefficient < words.coefficient := by
  rw [coefficient, if_pos large]
  change 9999999999999999999999999999999999 <
    (4 * 140737488355328 + Bits.field words.high.toNat 0 47) * 18446744073709551616 +
      words.low.toNat
  omega

/-- Words in the large form stand for a zero. -/
theorem digits_of_isLargeForm
    (meaning : words.toDecimal = .ok decimal)
    (large : words.isLargeForm = true) :
    decimal.digits = 0 := by
  obtain ⟨digits, _⟩ := toDecimal_eq meaning
  rw [if_pos (coefficient_of_isLargeForm large)] at digits
  exact Int.natAbs_eq_zero.mp digits

/-- The words are in the bytes as they were put there. -/
theorem ofBytes_toBytes (words : Decimal128) : ofBytes words.toBytes = words := by
  have width (word : UInt64) : (Word.littleEndian 8 word.toNat).length = 8 :=
    Word.length_littleEndian 8 word.toNat
  have kept (word : UInt64) :
      (UInt64.ofNat (Word.ofLittleEndian (Word.littleEndian 8 word.toNat))).toNat =
        word.toNat := by
    have inside : word.toNat % Word.modulus 8 = word.toNat := Nat.mod_eq_of_lt word.toNat_lt
    rw [Word.ofLittleEndian_littleEndian, inside, UInt64.ofNat_toNat]
  refine eq_of_toNat ?_ ?_
  · rw [ofBytes, toBytes, List.take_left' (width words.low)]
    exact kept words.low
  · rw [ofBytes, toBytes, List.drop_left' (width words.low),
      List.take_of_length_le (Nat.le_of_eq (width words.high))]
    exact kept words.high

end Words

section Decimals

variable {decimal : Decimal}

/-- An exponent out of range is refused before the digits are looked at. -/
theorem ofDecimal_of_exponent
    (outside : ¬ (minimumExponent ≤ decimal.exponent ∧ decimal.exponent ≤ maximumExponent)) :
    ofDecimal decimal =
      .error (.decimalExponent decimal.exponent minimumExponent maximumExponent) := by
  rw [ofDecimal, if_pos]
  omega

/-- Too many digits are refused when the exponent is in range. -/
theorem ofDecimal_of_digits
    (inside : minimumExponent ≤ decimal.exponent ∧ decimal.exponent ≤ maximumExponent)
    (large : maximumCoefficient < decimal.digits.natAbs) :
    ofDecimal decimal = .error (.decimalCoefficient decimal maximumDigits) := by
  rw [ofDecimal, if_neg (by omega), if_pos large]

/-- Only a decimal that the format can hold is written. -/
theorem holds_of_ofDecimal
    {words : Decimal128}
    (made : ofDecimal decimal = .ok words) :
    Holds decimal := by
  by_cases inside : minimumExponent ≤ decimal.exponent ∧ decimal.exponent ≤ maximumExponent
  · by_cases large : maximumCoefficient < decimal.digits.natAbs
    · rw [ofDecimal_of_digits inside large] at made
      cases made
    · exact ⟨inside.1, inside.2, Nat.le_of_not_lt large⟩
  · rw [ofDecimal_of_exponent inside] at made
    cases made

/-- What is written in words is what they stand for, so that it is one decimal only. -/
theorem ofDecimal_injective
    {other : Decimal}
    {words : Decimal128}
    (made : ofDecimal decimal = .ok words)
    (otherMade : ofDecimal other = .ok words) :
    other = decimal := by
  obtain ⟨written, same, meaning⟩ := exists_words (holds_of_ofDecimal made)
  obtain ⟨otherWritten, otherSame, otherMeaning⟩ := exists_words (holds_of_ofDecimal otherMade)
  cases made.symm.trans same
  cases otherMade.symm.trans otherSame
  cases meaning.symm.trans otherMeaning
  rfl

end Decimals

/--
Any two words are either a NaN or an infinity, which stand for no decimal, or
they stand for one that the format can hold.  That one is written again, in
words of the same meaning, and these are the words it was read from exactly if
they were canonical; in the large form they stand for zero.
-/
theorem toDecimal_cases (words : Decimal128) :
    (words.isNaN = true ∧ words.isInfinite = false ∧
        words.toDecimal = .error .decimalNaN) ∨
      (words.isNaN = false ∧ words.isInfinite = true ∧
        words.toDecimal = .error .decimalInfinity) ∨
      (words.isNaN = false ∧ words.isInfinite = false ∧
        ∃ decimal written,
          words.toDecimal = .ok decimal ∧ Holds decimal ∧
            ofDecimal decimal = .ok written ∧ written.toDecimal = .ok decimal ∧
              (written = words ↔ words.IsCanonical) ∧
                (words.isLargeForm = true → decimal.digits = 0)) := by
  cases nan : words.isNaN with
  | true =>
      refine .inl ⟨rfl, isInfinite_of_isNaN nan, ?_⟩
      rw [toDecimal, if_pos nan]
  | false =>
      cases infinite : words.isInfinite with
      | true =>
          refine .inr (.inl ⟨rfl, rfl, ?_⟩)
          rw [toDecimal, nan, infinite]
          rfl
      | false =>
          obtain ⟨decimal, meaning⟩ := exists_toDecimal nan infinite
          have holds := holds_of_toDecimal meaning
          obtain ⟨written, made, meaningAgain⟩ := exists_words holds
          refine .inr (.inr ⟨rfl, rfl, decimal, written, meaning, holds, made, meaningAgain,
            ?_, digits_of_isLargeForm meaning⟩)
          rw [← ofDecimal_eq_ok_iff meaning, made, Except.ok.injEq]

/--
A decimal is written if the format can hold its exponent and its digits, and is
refused otherwise, for its exponent first.  The words that are written have no
special pattern and are in the small form; they stand for the decimal as it was,
coefficient and exponent, survive being put into bytes, and are the words of no
other decimal.
-/
theorem ofDecimal_cases (decimal : Decimal) :
    (Holds decimal ∧
        ∃ words,
          ofDecimal decimal = .ok words ∧ words.isNaN = false ∧
            words.isInfinite = false ∧ words.isLargeForm = false ∧
              words.toDecimal = .ok decimal ∧ ofBytes words.toBytes = words ∧
                ∀ other, ofDecimal other = .ok words → other = decimal) ∨
      (¬ Holds decimal ∧
        ((¬ (minimumExponent ≤ decimal.exponent ∧ decimal.exponent ≤ maximumExponent) ∧
            ofDecimal decimal =
              .error (.decimalExponent decimal.exponent minimumExponent maximumExponent)) ∨
          (minimumExponent ≤ decimal.exponent ∧ decimal.exponent ≤ maximumExponent ∧
            maximumCoefficient < decimal.digits.natAbs ∧
              ofDecimal decimal = .error (.decimalCoefficient decimal maximumDigits)))) := by
  by_cases inside : minimumExponent ≤ decimal.exponent ∧ decimal.exponent ≤ maximumExponent
  · by_cases large : maximumCoefficient < decimal.digits.natAbs
    · refine .inr ⟨fun holds => ?_, .inr ⟨inside.1, inside.2, large, ?_⟩⟩
      · exact Nat.not_lt.mpr holds.digits_le large
      · exact ofDecimal_of_digits inside large
    · have holds : Holds decimal := ⟨inside.1, inside.2, Nat.le_of_not_lt large⟩
      obtain ⟨words, made, meaning⟩ := exists_words holds
      obtain ⟨number, finite⟩ := number_of_toDecimal meaning
      have canonical := isCanonical_of_ofDecimal holds made
      exact .inl ⟨holds, words, made, number, finite, canonical.small, meaning,
        ofBytes_toBytes words, fun other => ofDecimal_injective made⟩
  · refine .inr ⟨fun holds => ?_, .inl ⟨inside, ofDecimal_of_exponent inside⟩⟩
    exact inside ⟨holds.exponent_ge, holds.exponent_le⟩

end DocumentCodec.Decimal128
