import DocumentCodec.Text.Numeral

namespace DocumentCodec

/-!
# Decimal numbers

A decimal is a signed integer coefficient times a power of ten.  It is kept as
written: `15 · 10⁻¹` and `150 · 10⁻²` are different decimals with the same
numeric value, and `numericEqual` identifies them.
-/

/-- A coefficient and the power of ten it is multiplied by. -/
structure Decimal where
  digits : Int
  exponent : Int
  deriving Repr, DecidableEq, Inhabited

namespace Decimal

/-- Remove the trailing zeros of a coefficient, raising the exponent for each. -/
def stripZeros (decimal : Decimal) : Decimal :=
  if decimal.digits = 0 then
    ⟨0, 0⟩
  else if decimal.digits % 10 = 0 then
    stripZeros ⟨decimal.digits / 10, decimal.exponent + 1⟩
  else
    decimal
termination_by decimal.digits.natAbs
decreasing_by
  omega

/-- Whether two decimals have the same numeric value. -/
def numericEqual (left right : Decimal) : Bool :=
  left.stripZeros == right.stripZeros

/-- Insert a decimal point after the first digit unless it is the only one. -/
private def pointAfterFirst : List Char → List Char
  | first :: second :: rest => first :: '.' :: second :: rest
  | short => short

/-- The digits of a magnitude with `places` of them after the point. -/
private def withPoint (magnitude : List Char) (places : Nat) : List Char :=
  if places < magnitude.length then
    magnitude.take (magnitude.length - places) ++
      '.' :: magnitude.drop (magnitude.length - places)
  else
    '0' :: '.' :: List.replicate (places - magnitude.length) '0' ++ magnitude

/--
The text of a decimal.  A number with more than five zeros after its point
before the first digit is written with an exponent, one below with a point;
up to fifteen zeros are appended for a positive exponent, and a larger one is
written behind the coefficient.
-/
def display (decimal : Decimal) : String :=
  let magnitude := (Nat.repr decimal.digits.natAbs).toList
  let length := magnitude.length
  let body :=
    if decimal.exponent < 0 then
      let places := (-decimal.exponent).toNat
      if length + 5 < places then
        String.ofList (pointAfterFirst magnitude) ++ "E" ++
          Numeral.signed (decimal.exponent + length - 1)
      else
        String.ofList (withPoint magnitude places)
    else if 15 < decimal.exponent then
      String.ofList magnitude ++ "e+" ++ toString decimal.exponent
    else
      String.ofList (magnitude ++ List.replicate decimal.exponent.toNat '0')
  if decimal.digits < 0 then "-" ++ body else body

end Decimal

end DocumentCodec
