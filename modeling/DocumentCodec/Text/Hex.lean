namespace DocumentCodec.Hex

/-!
# Hexadecimal text

Digits are written in lower case and read in either case.
-/

/-- The digit of a number below sixteen. -/
def digit (value : Nat) : Char :=
  if value < 10 then
    Char.ofNat (value + 0x30)
  else
    Char.ofNat (value - 10 + 0x61)

/-- The value of a hexadecimal digit given as an ASCII byte. -/
def digitValue? (byte : UInt8) : Option UInt8 :=
  if 0x30 ≤ byte ∧ byte ≤ 0x39 then
    some (byte - 0x30)
  else if 0x61 ≤ byte ∧ byte ≤ 0x66 then
    some (byte - 0x61 + 10)
  else if 0x41 ≤ byte ∧ byte ≤ 0x46 then
    some (byte - 0x41 + 10)
  else
    none

/-- The bytes of a text of digits, two for each byte. -/
def toBytes? (text : String) : Option ByteArray :=
  let rec collect (bytes : ByteArray) : List UInt8 → Option ByteArray
    | [] => some bytes
    | [_] => none
    | high :: low :: rest =>
        match digitValue? high, digitValue? low with
        | some high, some low => collect (bytes.push (high * 16 + low)) rest
        | _, _ => none
  collect ByteArray.empty text.toUTF8.data.toList

/-- The digits of a number, most significant first, at least `width` of them. -/
def digits (width value : Nat) : List Char :=
  let rec collect : Nat → Nat → List Char → List Char
    | 0, _, collected => collected
    | count + 1, value, collected =>
        collect count (value / 16) (digit (value % 16) :: collected)
  collect (max width (value.log2 / 4 + 1)) value []

/-- The two digits of a byte. -/
def ofByte (byte : UInt8) : String :=
  String.ofList [digit (byte.toNat / 16), digit (byte.toNat % 16)]

/-- The digits of a byte sequence, two for each byte. -/
def ofBytes (bytes : List UInt8) : String :=
  String.ofList <|
    bytes.flatMap fun byte => [digit (byte.toNat / 16), digit (byte.toNat % 16)]

/-- A byte with its base marked, as error texts show it. -/
def marked (byte : UInt8) : String :=
  "0x" ++ ofByte byte

/--
A signed 64-bit number in two's complement with its base marked and at least
two digits.
-/
def markedInt64 (value : Int64) : String :=
  "0x" ++ String.ofList (digits 2 value.toUInt64.toNat)

end DocumentCodec.Hex
