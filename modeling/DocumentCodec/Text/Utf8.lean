namespace DocumentCodec.Utf8

/-!
# Well-formed text

`decode?` turns bytes into a string or names the first place where they stop
being well-formed UTF-8.  A fault is either a maximal valid piece of a
character followed by a byte that cannot continue it, or the end of the bytes
inside a character that was well-formed so far.
-/

/-- Where and how a byte sequence stops being UTF-8. -/
inductive Fault
  /-- The `length` bytes from `index` begin no character. -/
  | invalid (length index : Nat)
  /-- The bytes end inside the character that starts at `index`. -/
  | incomplete (index : Nat)
  deriving Repr, DecidableEq

namespace Fault

/-- The wording of a fault. -/
def message : Fault → String
  | invalid length index =>
      s!"invalid utf-8 sequence of {length} bytes from index {index}"
  | incomplete index =>
      s!"incomplete utf-8 byte sequence from index {index}"

end Fault

/-- An inclusive range of bytes. -/
structure ByteRange where
  low : UInt8
  high : UInt8
  deriving Repr, DecidableEq

namespace ByteRange

/-- Membership in the range. -/
def contains (range : ByteRange) (byte : UInt8) : Bool :=
  range.low ≤ byte && byte ≤ range.high

/-- Every continuation byte. -/
def continuation : ByteRange :=
  ⟨0x80, 0xbf⟩

end ByteRange

/--
The ranges of the bytes that must follow a first byte; none when the byte
starts no character.  The second byte's range excludes longer spellings than
necessary, surrogates and code points past the last one.
-/
def followers? (lead : UInt8) : Option (List ByteRange) :=
  if lead < 0x80 then
    some []
  else if lead < 0xc2 then
    none
  else if lead < 0xe0 then
    some [.continuation]
  else if lead = 0xe0 then
    some [⟨0xa0, 0xbf⟩, .continuation]
  else if lead = 0xed then
    some [⟨0x80, 0x9f⟩, .continuation]
  else if lead < 0xf0 then
    some [.continuation, .continuation]
  else if lead = 0xf0 then
    some [⟨0x90, 0xbf⟩, .continuation, .continuation]
  else if lead < 0xf4 then
    some [.continuation, .continuation, .continuation]
  else if lead = 0xf4 then
    some [⟨0x80, 0x8f⟩, .continuation, .continuation]
  else
    none

/--
The first fault of the bytes still to come, `seen` bytes into the character
that starts at `index` and that still needs bytes in the `pending` ranges.
-/
def firstFaultFrom? (index seen : Nat) (pending : List ByteRange) :
    List UInt8 → Option Fault
  | [] =>
      if pending.isEmpty then none else some (.incomplete index)
  | byte :: rest =>
      match pending with
      | [] =>
          match followers? byte with
          | none => some (.invalid 1 index)
          | some [] => firstFaultFrom? (index + 1) 0 [] rest
          | some ranges => firstFaultFrom? index 1 ranges rest
      | range :: ranges =>
          if range.contains byte then
            if ranges.isEmpty then
              firstFaultFrom? (index + seen + 1) 0 [] rest
            else
              firstFaultFrom? index (seen + 1) ranges rest
          else
            some (.invalid seen index)

/-- The first fault of a byte sequence, if it has one. -/
def firstFault? (bytes : List UInt8) : Option Fault :=
  firstFaultFrom? 0 0 [] bytes

/-- The text of well-formed bytes, or the first fault of the others. -/
def decode (bytes : ByteArray) : Except Fault String :=
  if valid : bytes.validateUTF8 then
    .ok (String.fromUTF8 bytes (ByteArray.validateUTF8_eq_true_iff.mp valid))
  else
    .error ((firstFault? bytes.data.toList).getD (.incomplete bytes.size))

end DocumentCodec.Utf8
