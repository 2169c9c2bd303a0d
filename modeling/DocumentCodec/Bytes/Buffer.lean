import DocumentCodec.Bytes.Field

namespace DocumentCodec

/-!
# Byte buffers

A buffer is written at its end, then flipped and read from its start.  Its
capacity is a number of its own: an append that does not fit raises it to
twice what it was, or by the size of the append when that is more.

A length that is known only later is written as four zero bytes first
(`reserveInt32`) and patched afterwards (`patchInt32`).
-/

/-- Bytes written so far, with the read cursor and the mode. -/
structure ByteBuffer where
  bytes : ByteArray
  capacity : Nat
  cursor : Nat
  readable : Bool

namespace ByteBuffer

/-- An empty buffer in write mode with room for a number of bytes. -/
def withCapacity (capacity : Nat) : ByteBuffer :=
  ⟨ByteArray.empty, capacity, 0, false⟩

/-- An empty buffer in write mode without any room. -/
def empty : ByteBuffer :=
  withCapacity 0

instance : Inhabited ByteBuffer :=
  ⟨empty⟩

/-- Number of bytes written. -/
def size (buffer : ByteBuffer) : Nat :=
  buffer.bytes.size

/-- Whether nothing has been written. -/
def isEmpty (buffer : ByteBuffer) : Bool :=
  buffer.size == 0

/--
The capacity after making room for `additional` bytes behind `size` bytes.  It
has no bound here, so that room is made for any number of bytes; machine words
agree as long as `capacity + additional` is one and memory can be had.
-/
def grownCapacity (capacity size additional : Nat) : Nat :=
  if capacity - size < additional then
    max (capacity * 2) (capacity + additional)
  else
    capacity

/-- Make room for more bytes. -/
def ensureCapacity (buffer : ByteBuffer) (additional : Nat) : ByteBuffer :=
  match buffer with
  | ⟨bytes, capacity, cursor, readable⟩ =>
      ⟨bytes, grownCapacity capacity bytes.size additional, cursor, readable⟩

/-- Drop the contents and return to write mode; the capacity stays. -/
def clear (buffer : ByteBuffer) : ByteBuffer :=
  ⟨ByteArray.empty, buffer.capacity, 0, false⟩

/-- Switch to read mode with the cursor at the start. -/
def flip (buffer : ByteBuffer) : ByteBuffer :=
  { buffer with cursor := 0, readable := true }

/-- The write position in write mode, the read position in read mode. -/
def position (buffer : ByteBuffer) : Nat :=
  if buffer.readable then buffer.cursor else buffer.size

/-- Move the read cursor, at most to the end. -/
def seek (buffer : ByteBuffer) (position : Nat) : ByteBuffer :=
  { buffer with cursor := min position buffer.size }

/-- Number of bytes behind the read cursor. -/
def remaining (buffer : ByteBuffer) : Nat :=
  buffer.size - buffer.cursor

/-- Switch to read mode unless the buffer is in it already. -/
def ensureReadable (buffer : ByteBuffer) : ByteBuffer :=
  if buffer.readable then buffer else buffer.flip

/-- The bytes behind the read cursor. -/
def unread (buffer : ByteBuffer) : ByteArray :=
  buffer.bytes.extract buffer.cursor buffer.size

/-- Append bytes. -/
def write (buffer : ByteBuffer) (added : ByteArray) : ByteBuffer :=
  match buffer with
  | ⟨bytes, capacity, cursor, readable⟩ =>
      ⟨bytes ++ added, grownCapacity capacity bytes.size added.size, cursor,
        readable⟩

/-- Append bytes one behind the other, as one piece. -/
def writeList (buffer : ByteBuffer) (added : List UInt8) : ByteBuffer :=
  buffer.write ⟨added.toArray⟩

/-- Append pieces one after another. -/
def writeAll (buffer : ByteBuffer) (pieces : List ByteArray) : ByteBuffer :=
  pieces.foldl write buffer

/-- Write four bytes over the ones from an offset on. -/
def patchInt32 (buffer : ByteBuffer) (offset : Nat) (value : Int) :
    ByteBuffer :=
  match buffer with
  | ⟨bytes, capacity, cursor, readable⟩ =>
      let rec overwrite (bytes : ByteArray) (offset : Nat) :
          List UInt8 → ByteArray
        | [] => bytes
        | byte :: rest => overwrite (bytes.set! offset byte) (offset + 1) rest
      ⟨overwrite bytes offset (FieldType.int32.bytes value), capacity, cursor,
        readable⟩

/-- Patch four bytes that have been written; none past the written bytes. -/
def patchInt32? (buffer : ByteBuffer) (offset : Nat) (value : Int) :
    Option ByteBuffer :=
  if offset + 4 ≤ buffer.size then
    some (buffer.patchInt32 offset value)
  else
    none

/-- Append a number in the layout of a field type. -/
def writeField (buffer : ByteBuffer) (type : FieldType) (value : Int) :
    ByteBuffer :=
  buffer.writeList (type.bytes value)

/-- Append four zero bytes to be patched later; the answer includes their offset. -/
def reserveInt32 (buffer : ByteBuffer) : Nat × ByteBuffer :=
  (buffer.size, buffer.writeField .int32 0)

end ByteBuffer

end DocumentCodec
