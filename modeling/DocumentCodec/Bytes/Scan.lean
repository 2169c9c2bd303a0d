import DocumentCodec.Bytes.Word

namespace DocumentCodec.Scan

/-!
# Delimiter search

`findByte?` looks for a byte eight bytes at a time.  A word is compared with
the delimiter repeated in every byte by exclusive or, which leaves a zero byte
exactly where the delimiter stands, and `zeroByteMask` marks the lowest zero
byte of the result.  Bytes that do not fill a word are compared one by one.

`firstMatch?` is the plain search that the fast one stands for.
-/

/-- Bytes in one word of the search. -/
def wordSize : Nat := 8

/-- A word with the lowest bit of every byte set. -/
def lowBits : UInt64 := 0x0101010101010101

/-- A word with the highest bit of every byte set. -/
def highBits : UInt64 := 0x8080808080808080

/--
A mark in the high bit of bytes of a word: none when no byte is zero, and
otherwise the lowest mark stands at the lowest zero byte.
-/
def zeroByteMask (word : UInt64) : UInt64 :=
  (word - lowBits) &&& ~~~word &&& highBits

/-- The index of the lowest non-zero byte among the low `count` bytes. -/
def lowestMarkedByte : (count : Nat) → (mask : UInt64) → Nat
  | 0, _ => 0
  | count + 1, mask =>
      if mask &&& 0xff = 0 then
        lowestMarkedByte count (mask >>> 8) + 1
      else
        0

/-- The eight bytes from a position as one little-endian word. -/
def loadWord (bytes : ByteArray) (position : Nat) : UInt64 :=
  UInt64.ofNat <|
    Word.ofLittleEndian (bytes.extract position (position + wordSize)).data.toList

/-- The plain search: the first match in `[position, stop)`. -/
def firstMatch? (bytes : ByteArray) (position stop : Nat) (needle : UInt8) :
    Option Nat :=
  if position < stop then
    if bytes.get! position = needle then
      some position
    else
      firstMatch? bytes (position + 1) stop needle
  else
    none
termination_by stop - position

/-- The first match in `[position, stop)`, searched a word at a time. -/
def findByteBetween? (bytes : ByteArray) (position stop : Nat)
    (needle : UInt8) : Option Nat :=
  if position + wordSize ≤ stop then
    let pattern := lowBits * needle.toUInt64
    let mask := zeroByteMask (loadWord bytes position ^^^ pattern)
    if mask = 0 then
      findByteBetween? bytes (position + wordSize) stop needle
    else
      some (position + lowestMarkedByte wordSize mask)
  else
    firstMatch? bytes position stop needle
termination_by stop - position
decreasing_by
  simp only [wordSize] at *
  omega

/-- The first match at or after `start`; none when `start` is past the end. -/
def findByte? (haystack : ByteArray) (start : Nat) (needle : UInt8) :
    Option Nat :=
  if start < haystack.size then
    findByteBetween? haystack start haystack.size needle
  else
    none

end DocumentCodec.Scan
