import DocumentCodec.Bytes.Bits

namespace DocumentCodec.Ieee

/-!
# Floating-point numbers as bit patterns

Values carry their floats as IEEE 754 bit patterns, so that every pattern, each
NaN included, passes through a codec unchanged.  Comparison is the arithmetic
one: a NaN equals nothing, and the two zeros equal each other.
-/

/-- Whether a single-precision pattern is a NaN. -/
def isNaN32 (bits : UInt32) : Bool :=
  Bits.field bits.toNat 23 8 == 255 && Bits.field bits.toNat 0 23 != 0

/-- Whether a double-precision pattern is a NaN. -/
def isNaN64 (bits : UInt64) : Bool :=
  Bits.field bits.toNat 52 11 == 2047 && Bits.field bits.toNat 0 52 != 0

/-- Whether a single-precision pattern is a zero of either sign. -/
def isZero32 (bits : UInt32) : Bool :=
  Bits.field bits.toNat 0 31 == 0

/-- Whether a double-precision pattern is a zero of either sign. -/
def isZero64 (bits : UInt64) : Bool :=
  Bits.field bits.toNat 0 63 == 0

/-- Arithmetic equality of single-precision patterns. -/
def equal32 (left right : UInt32) : Bool :=
  !isNaN32 left && !isNaN32 right &&
    (left == right || (isZero32 left && isZero32 right))

/-- Arithmetic equality of double-precision patterns. -/
def equal64 (left right : UInt64) : Bool :=
  !isNaN64 left && !isNaN64 right &&
    (left == right || (isZero64 left && isZero64 right))

/--
The double-precision pattern of a single-precision number.  Every number keeps
its value; a NaN keeps its sign and payload and becomes a quiet one.
-/
def widen (bits : UInt32) : UInt64 :=
  let sign := Bits.field bits.toNat 31 1
  let exponent := Bits.field bits.toNat 23 8
  let fraction := Bits.field bits.toNat 0 23
  let magnitude :=
    if exponent = 255 then
      let quiet := if fraction = 0 ∨ Bits.modulus 22 ≤ fraction then 0 else Bits.modulus 51
      2047 * Bits.modulus 52 + quiet + fraction * Bits.modulus 29
    else if exponent = 0 then
      if fraction = 0 then
        0
      else
        let top := fraction.log2
        (top + 874) * Bits.modulus 52 +
          (fraction - Bits.modulus top) * Bits.modulus (52 - top)
    else
      (exponent + 896) * Bits.modulus 52 + fraction * Bits.modulus 29
  UInt64.ofNat (sign * Bits.modulus 63 + magnitude)

end DocumentCodec.Ieee
