import DocumentCodec.Bytes.Buffer
import DocumentCodec.Error

namespace DocumentCodec

/-!
# Emissions

What one part of a document contributes to its encoding: pieces of bytes in
writing order, and the fault that stopped the writing, if one did.  Pieces
written before a fault stay written.

Main statement: emissions form a monoid in which a fault hides all that
follows it.
-/

/-- Pieces of bytes and the fault that stopped them. -/
structure Emission where
  pieces : List ByteArray
  fault? : Option EncodeFault

namespace Emission

/-- Nothing written and nothing wrong. -/
def empty : Emission :=
  ⟨[], none⟩

/-- One piece. -/
def piece (bytes : ByteArray) : Emission :=
  ⟨[bytes], none⟩

/-- One piece of listed bytes. -/
def ofList (bytes : List UInt8) : Emission :=
  piece ⟨bytes.toArray⟩

/-- One piece of one byte. -/
def byte (value : UInt8) : Emission :=
  ofList [value]

/-- One piece that is a number in the layout of a field type. -/
def field (type : FieldType) (value : Int) : Emission :=
  ofList (type.bytes value)

/-- A refusal to write. -/
def refuse (fault : EncodeFault) : Emission :=
  ⟨[], some fault⟩

/-- Write one emission and, if nothing stopped it, the next. -/
def append (first second : Emission) : Emission :=
  match first.fault? with
  | some _ => first
  | none => ⟨first.pieces ++ second.pieces, second.fault?⟩

instance : Append Emission :=
  ⟨append⟩

/-- All bytes of an emission in one sequence. -/
def bytes (emission : Emission) : ByteArray :=
  emission.pieces.foldl (· ++ ·) ByteArray.empty

/-- The notation for appending stands for `append`. -/
theorem append_def (first second : Emission) :
    first ++ second = append first second :=
  rfl

/-- Nothing in front of an emission changes nothing. -/
@[simp]
theorem empty_append (emission : Emission) : empty ++ emission = emission :=
  rfl

/-- Nothing behind an emission changes nothing, be it refused or not. -/
@[simp]
theorem append_empty (emission : Emission) : emission ++ empty = emission := by
  rcases emission with ⟨pieces, fault?⟩
  cases fault? <;> simp [append_def, append, empty]

/-- Once refused, an emission is not added to. -/
@[simp]
theorem refuse_append (fault : EncodeFault) (emission : Emission) :
    refuse fault ++ emission = refuse fault :=
  rfl

/-- Grouping does not matter. -/
theorem append_assoc (first second third : Emission) :
    first ++ second ++ third = first ++ (second ++ third) := by
  rcases first with ⟨firstPieces, firstFault⟩
  rcases second with ⟨secondPieces, secondFault⟩
  cases firstFault <;> cases secondFault <;>
    simp [append_def, append, List.append_assoc]

end Emission

namespace ByteBuffer

/-- Append what an emission contributes; the answer includes its fault. -/
def emit (buffer : ByteBuffer) (emission : Emission) :
    Option EncodeFault × ByteBuffer :=
  (emission.fault?, buffer.writeAll emission.pieces)

end ByteBuffer

end DocumentCodec
