import DocumentCodec.Text.Hex
import DocumentCodec.Text.Quoted

namespace DocumentCodec

/-!
# Object identifiers

Twelve opaque bytes, ordered byte by byte and written as twenty-four
hexadecimal digits.
-/

/-- Twelve opaque bytes. -/
structure ObjectId where
  bytes : Vector UInt8 12
  deriving DecidableEq

namespace ObjectId

/-- Number of bytes of an identifier. -/
def size : Nat := 12

/-- The identifier of all zeros. -/
def zero : ObjectId :=
  ⟨Vector.replicate 12 0⟩

instance : Inhabited ObjectId :=
  ⟨zero⟩

/-- The bytes of an identifier, in order. -/
def toList (identifier : ObjectId) : List UInt8 :=
  identifier.bytes.toList

/-- The identifier held in the first twelve bytes, with zeros for missing ones. -/
def ofList (bytes : List UInt8) : ObjectId :=
  ⟨Vector.ofFn fun index => bytes.getD index.val 0⟩

/-- The twenty-four digits of an identifier. -/
def display (identifier : ObjectId) : String :=
  Hex.ofBytes identifier.toList

/-- An identifier as diagnostics show it. -/
def describe (identifier : ObjectId) : String :=
  "ObjectId(" ++ identifier.display ++ ")"

/-- The order of two byte sequences of one length, decided by the first difference. -/
def compareBytes : List UInt8 → List UInt8 → Ordering
  | [], [] => .eq
  | [], _ :: _ => .lt
  | _ :: _, [] => .gt
  | left :: leftRest, right :: rightRest =>
      if left < right then
        .lt
      else if right < left then
        .gt
      else
        compareBytes leftRest rightRest

instance : Ord ObjectId :=
  ⟨fun left right => compareBytes left.toList right.toList⟩

/-- Why a text is not an identifier. -/
inductive Fault
  | oddLength
  | wrongLength
  | invalidDigit (byte : UInt8) (position : Nat)
  deriving Repr, DecidableEq

namespace Fault

/-- The wording of a fault; a bad byte is shown as the character of its number. -/
def message : Fault → String
  | oddLength => "Odd number of digits"
  | wrongLength => "Invalid string length"
  | invalidDigit byte position =>
      "Invalid character " ++ Quoted.character (Char.ofNat byte.toNat) ++
        " at position " ++ toString position

end Fault

/-- The bytes written by pairs of digits, the first of them at a position. -/
def decodePairs (position : Nat) : List UInt8 → Except Fault (List UInt8)
  | [] => .ok []
  | [_] => .error .oddLength
  | high :: low :: rest =>
      match Hex.digitValue? high, Hex.digitValue? low with
      | none, _ => .error (.invalidDigit high position)
      | _, none => .error (.invalidDigit low (position + 1))
      | some highValue, some lowValue =>
          (decodePairs (position + 2) rest).map ((highValue * 16 + lowValue) :: ·)

/--
Read an identifier.  Lengths are those of the text's bytes, and an odd length
is reported before a wrong one and both before a bad digit.
-/
def parse (text : String) : Except Fault ObjectId :=
  let digits := text.toUTF8.data.toList
  if digits.length % 2 = 1 then
    .error .oddLength
  else if digits.length ≠ 2 * size then
    .error .wrongLength
  else
    (decodePairs 0 digits).map ofList

end ObjectId

end DocumentCodec
