import DocumentCodec.Bytes.Emission

namespace DocumentCodec.ByteBuffer

/-!
# What buffers come to hold

Writing puts bytes behind the ones a buffer holds, and patching a length puts
its four bytes in the place of the ones that were reserved for it.
-/

/-- One buffer is another with some bytes written behind its own. -/
structure Appended (buffer : ByteBuffer) (added : List UInt8) (after : ByteBuffer) :
    Prop where
  bytes_eq : after.bytes.data.toList = buffer.bytes.data.toList ++ added
  readable_eq : after.readable = buffer.readable

variable {buffer between after : ByteBuffer} {front middle back : List UInt8}

/-- With nothing written a buffer stays as it is. -/
theorem Appended.refl (buffer : ByteBuffer) : buffer.Appended [] buffer :=
  ⟨(List.append_nil _).symm, rfl⟩

/-- What is written in two goes stands one behind the other. -/
theorem Appended.trans
    (first : buffer.Appended front between)
    (second : between.Appended back after) :
    buffer.Appended (front ++ back) after where
  bytes_eq := by rw [second.bytes_eq, first.bytes_eq, List.append_assoc]
  readable_eq := second.readable_eq.trans first.readable_eq

/-- A buffer grows by what is written to it. -/
theorem Appended.size_eq (appended : buffer.Appended front after) :
    after.size = buffer.size + front.length := by
  have length := congrArg List.length appended.bytes_eq
  rw [List.length_append] at length
  exact length

/-- A write puts its bytes behind the others. -/
theorem appended_write (buffer : ByteBuffer) (added : ByteArray) :
    buffer.Appended added.data.toList (buffer.write added) := by
  rcases buffer with ⟨bytes, capacity, cursor, readable⟩
  refine ⟨?_, rfl⟩
  change (bytes ++ added).data.toList = _
  rw [ByteArray.data_append, Array.toList_append]

/-- A number is written as the bytes of its type. -/
theorem appended_writeField (buffer : ByteBuffer) (type : FieldType) (value : Int) :
    buffer.Appended (type.bytes value) (buffer.writeField type value) :=
  buffer.appended_write ⟨(type.bytes value).toArray⟩

/-- Pieces are written in their order. -/
theorem appended_writeAll (buffer : ByteBuffer) (pieces : List ByteArray) :
    buffer.Appended
      (pieces.flatMap fun piece => piece.data.toList)
      (buffer.writeAll pieces) := by
  induction pieces generalizing buffer with
  | nil => exact .refl buffer
  | cons piece rest inductionHypothesis =>
      rw [List.flatMap_cons]
      exact (buffer.appended_write piece).trans (inductionHypothesis _)

/-- Overwriting as many bytes as the new ones leaves those around them as they are. -/
theorem toList_overwrite
    {bytes : ByteArray}
    {added : List UInt8}
    (shape : bytes.data.toList = front ++ (middle ++ back))
    (sized : middle.length = added.length) :
    (patchInt32.overwrite bytes front.length added).data.toList =
      front ++ (added ++ back) := by
  induction added generalizing bytes front middle with
  | nil =>
      obtain rfl := List.eq_nil_of_length_eq_zero sized
      exact shape
  | cons byte rest inductionHypothesis =>
      cases middle with
      | nil => cases sized
      | cons old others =>
          have replaced :
              (bytes.set! front.length byte).data.toList =
                (front ++ [byte]) ++ (others ++ back) := by
            change (bytes.data.setIfInBounds front.length byte).toList = _
            rw [Array.toList_setIfInBounds, shape, List.set_append_right _ _ (Nat.le_refl _),
              Nat.sub_self, List.append_assoc]
            rfl
          have sizedRest : others.length = rest.length := Nat.succ.inj sized
          have written := inductionHypothesis replaced sizedRest
          rw [List.length_append, List.append_assoc] at written
          exact written

/-- Patching reserved bytes is like having written the length in their place. -/
theorem Appended.patchInt32
    (appended : buffer.Appended (middle ++ back) after)
    (reserved : middle.length = 4)
    (value : Int) :
    buffer.Appended (FieldType.int32.bytes value ++ back)
      (after.patchInt32 buffer.size value) := by
  have sized : middle.length = (FieldType.int32.bytes value).length := by
    rw [reserved, FieldType.length_bytes]
    rfl
  exact ⟨toList_overwrite appended.bytes_eq sized, appended.readable_eq⟩

end DocumentCodec.ByteBuffer
