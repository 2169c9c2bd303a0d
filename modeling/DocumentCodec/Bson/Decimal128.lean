import DocumentCodec.Bytes.Bits
import DocumentCodec.Bytes.Word
import DocumentCodec.Error

namespace DocumentCodec

/-!
# The 128-bit decimal interchange format

A decimal of at most thirty-four digits takes two words in the binary integer
encoding.  Seen from the top, the high word holds a sign bit, then in the small
form fourteen bits of exponent and the upper forty-nine bits of the
coefficient.  Two set bits behind the sign announce the large form, whose
fields stand two bits lower and whose coefficient begins with the bits 100; all
its coefficients are too large to be canonical.  Infinity and NaN are marked
by four or five set bits behind the sign.

A coefficient that is too large reads as zero, and a zero has no sign.
-/

/-- The two words of an encoded decimal. -/
structure Decimal128 where
  low : UInt64
  high : UInt64
  deriving Repr, DecidableEq

namespace Decimal128

/-- What is added to an exponent to make it a field of the high word. -/
def exponentBias : Int := 6176

/-- The smallest exponent. -/
def minimumExponent : Int := -6176

/-- The largest exponent. -/
def maximumExponent : Int := 6111

/-- The largest number of digits of a coefficient. -/
def maximumDigits : Nat := 34

/-- The largest coefficient. -/
def maximumCoefficient : Nat := Nat.pow 10 maximumDigits - 1

/-- The bits behind the sign by which the special patterns are known. -/
def combination (words : Decimal128) : Nat :=
  Bits.field words.high.toNat 58 5

/-- Whether the words stand for no number. -/
def isNaN (words : Decimal128) : Bool :=
  words.combination == 0b11111

/-- Whether the words stand for an infinite number. -/
def isInfinite (words : Decimal128) : Bool :=
  words.combination == 0b11110

/-- Whether the sign bit is set. -/
def isNegative (words : Decimal128) : Bool :=
  Bits.field words.high.toNat 63 1 == 1

/-- Whether the fields stand in the large form. -/
def isLargeForm (words : Decimal128) : Bool :=
  Bits.field words.high.toNat 61 2 == 0b11

/-- The exponent field, with the bias still in it. -/
def biasedExponent (words : Decimal128) : Nat :=
  if words.isLargeForm then
    Bits.field words.high.toNat 47 14
  else
    Bits.field words.high.toNat 49 14

/-- The coefficient field, canonical or not. -/
def coefficient (words : Decimal128) : Nat :=
  let upper :=
    if words.isLargeForm then
      4 * Bits.modulus 47 + Bits.field words.high.toNat 0 47
    else
      Bits.field words.high.toNat 0 49
  upper * Bits.modulus 64 + words.low.toNat

/--
Encode a decimal exactly; nothing is rounded or clamped.  The exponent has no
bound here.  Where it is kept as a scale of 64 bits, which is its negative, the
least scale has no negative: that one is refused too, but the error then tells
the scale in the place of the exponent.
-/
def ofDecimal (decimal : Decimal) : Except EncodeFault Decimal128 :=
  if decimal.exponent < minimumExponent ∨ maximumExponent < decimal.exponent then
    .error (.decimalExponent decimal.exponent minimumExponent maximumExponent)
  else if maximumCoefficient < decimal.digits.natAbs then
    .error (.decimalCoefficient decimal maximumDigits)
  else
    let sign := if decimal.digits < 0 then 1 else 0
    let biased := (decimal.exponent + exponentBias).toNat
    let magnitude := decimal.digits.natAbs
    .ok {
      low := UInt64.ofNat (Bits.field magnitude 0 64)
      high := UInt64.ofNat
        (sign * Bits.modulus 63 + biased * Bits.modulus 49 +
          magnitude / Bits.modulus 64) }

/-- The decimal that the words stand for. -/
def toDecimal (words : Decimal128) : Except FormatFault Decimal :=
  if words.isNaN then
    .error .decimalNaN
  else if words.isInfinite then
    .error .decimalInfinity
  else
    let magnitude :=
      if maximumCoefficient < words.coefficient then 0 else words.coefficient
    .ok {
      digits := if words.isNegative then -(magnitude : Int) else magnitude
      exponent := words.biasedExponent - exponentBias }

/-- The sixteen bytes of the words, low word first. -/
def toBytes (words : Decimal128) : List UInt8 :=
  Word.littleEndian 8 words.low.toNat ++ Word.littleEndian 8 words.high.toNat

/-- The words held in sixteen bytes. -/
def ofBytes (bytes : List UInt8) : Decimal128 where
  low := UInt64.ofNat (Word.ofLittleEndian (bytes.take 8))
  high := UInt64.ofNat (Word.ofLittleEndian ((bytes.drop 8).take 8))

end Decimal128

end DocumentCodec
