import DocumentCodec.Proofs.Bytes.Registers
import DocumentCodec.Proofs.Bytes.Room

namespace DocumentCodec

/-!
# Exchange through a buffer

Numbers and raw bytes that are written one behind the other are asked for
again in the same order.  Each append puts the bytes of its item behind those
in front, and each call takes them up where the one before it stopped.

Main statement: the calls of a reader are all or nothing, they come to the
same in machine words, and they give back what was written.
-/

open ByteReader (Call Answer)

/-- What is put into a buffer and asked for again. -/
inductive Item
  | number (type : FieldType) (value : Int) (held : type.Holds value)
  | raw (bytes : ByteArray)

namespace Item

/-- The append that writes the item. -/
def operation : Item → ByteBuffer.Operation
  | .number type value _ => .writeField type value
  | .raw bytes => .write bytes

/-- The call that asks for an item of its kind. -/
def call : Item → Call
  | .number type _ _ => .readField type
  | .raw bytes => .readBytes bytes.size

/-- The item as a reader gives it. -/
def answer : Item → Answer
  | .number _ value _ => .number value
  | .raw bytes => .bytes bytes

/-- The bytes that the item takes. -/
def bytes : Item → List UInt8
  | .number type value _ => type.bytes value
  | .raw bytes => bytes.data.toList

/-- Writing an item appends the item's bytes. -/
theorem appended?_operation (item : Item) : item.operation.appended? = some item.bytes := by
  cases item <;> rfl

/-- Items that are written lie behind what the buffer held, in their order. -/
theorem exists_written (buffer : ByteBuffer) (items : List Item) :
    ∃ written, buffer.performAll? (items.map operation) = some written ∧
      buffer.Appended (items.flatMap bytes) written := by
  induction items generalizing buffer with
  | nil => exact ⟨buffer, rfl, .refl buffer⟩
  | cons item rest inductionHypothesis =>
      obtain ⟨after, performed, grown⟩ :=
        ByteBuffer.exists_grown_of_appended? item.appended?_operation buffer
      obtain ⟨written, others, appended⟩ := inductionHypothesis after
      refine ⟨written, ?_, grown.toAppended.trans appended⟩
      rw [List.map_cons, ByteBuffer.performAll?, performed]
      exact others

variable {reader : ByteReader} {others : List UInt8}

/-- Bytes that are there can be skipped. -/
theorem skip_of_passes
    {front : List UInt8}
    {rest : ByteReader}
    (passes : reader.Passes front rest) :
    reader.perform (.skip front.length) = (.ok .done, rest) := by
  obtain ⟨other, ran, _, moved⟩ :=
    (reader.reliable (.skip front.length)).enough _ rfl passes.fits
  have same : other = rest := ByteReader.eq_of_components
    (moved.bytes_eq.trans passes.bytes_eq.symm)
    (moved.cursor_eq.trans passes.cursor_eq.symm)
    (moved.limit_eq.trans passes.limit_eq.symm)
  rw [ran, same]

/-- An item that lies ahead is what its call gives. -/
theorem exists_answered
    {item : Item}
    (inBounds : reader.InBounds)
    (starts : reader.ahead = item.bytes ++ others) :
    ∃ rest, reader.perform item.call = (.ok item.answer, rest) ∧
      reader.Passes item.bytes rest ∧ rest.ahead = others := by
  obtain ⟨rest, passes, behind⟩ := ByteReader.Passes.of_ahead inBounds starts
  refine ⟨rest, ?_, passes, behind⟩
  cases item with
  | number type value held =>
      have ran := (Decode.readField_recognizes type rfl inBounds value rest).mpr
        ⟨_, ⟨held, rfl⟩, passes⟩
      exact ByteReader.perform_of_ok (Decode.run_map_of_ok ran Answer.number)
  | raw bytes =>
      have ran := (Decode.readBytes_recognizes bytes.size rfl inBounds bytes rest).mpr
        ⟨_, ⟨Array.length_toList, rfl⟩, passes⟩
      exact ByteReader.perform_of_ok (Decode.run_map_of_ok ran Answer.bytes)

/-- Items that lie ahead are what their calls give one after the other. -/
theorem exists_allAnswered
    {items : List Item}
    (inBounds : reader.InBounds)
    (starts : reader.ahead = items.flatMap bytes ++ others) :
    ∃ rest, reader.performAll (items.map call) = (items.map (.ok ·.answer), rest) ∧
      reader.Passes (items.flatMap bytes) rest ∧ rest.ahead = others := by
  -- Each call starts where the one before it stopped.
  induction items generalizing reader with
  | nil => exact ⟨reader, rfl, .refl inBounds, starts⟩
  | cons item later inductionHypothesis =>
      rw [List.flatMap_cons, List.append_assoc] at starts
      obtain ⟨between, first, front, middle⟩ := exists_answered inBounds starts
      obtain ⟨rest, answered, back, behind⟩ := inductionHypothesis front.inBounds middle
      refine ⟨rest, ?_, front.trans back, behind⟩
      simp only [List.map_cons, ByteReader.performAll, first, answered]

/-- Items that were written are read back, behind what was in front of them. -/
theorem exists_exchanged (buffer : ByteBuffer) (items : List Item) :
    ∃ written, buffer.performAll? (items.map operation) = some written ∧
      ∃ rest,
        (ByteReader.ofBytes written.flip.unread).performAll
            (.skip buffer.size :: items.map call) =
          (.ok .done :: items.map (.ok ·.answer), rest) ∧
        rest.cursor = written.size ∧ rest.remaining = 0 := by
  obtain ⟨written, performed, appended⟩ := exists_written buffer items
  refine ⟨written, performed, ?_⟩
  have whole : written.flip.unread = written.bytes := ByteArray.extract_zero_size
  have starts : (ByteReader.ofBytes written.bytes).ahead =
      buffer.bytes.data.toList ++ (items.flatMap bytes ++ []) := by
    rw [ByteReader.ahead_ofBytes, appended.bytes_eq, List.append_nil]
  obtain ⟨between, front, middle⟩ := ByteReader.Passes.of_ahead (Nat.zero_le _) starts
  obtain ⟨rest, answered, back, behind⟩ := exists_allAnswered front.inBounds middle
  have skipped : (ByteReader.ofBytes written.bytes).perform (.skip buffer.size) =
      (.ok .done, between) := skip_of_passes front
  refine ⟨rest, ?_, ?_, ?_⟩
  · simp only [whole, ByteReader.performAll, skipped, answered]
  · rw [back.cursor_eq, front.cursor_eq, appended.size_eq]
    change 0 + buffer.size + _ = _
    rw [Nat.zero_add]
  · rw [ByteReader.remaining_eq_length, behind]
    rfl

end Item

namespace ByteReader

/--
On bytes that a machine can hold, calls with requests below 4 GiB never go out
of range, and the cursor and the limit stay inside the bytes.  A call that
needs bytes gets them all when they end before the limit, and otherwise says
what is there and moves nothing.  Items written to a buffer are given back by
the calls that ask for them, up to the end of the buffer.
-/
theorem calls_are_all_or_nothing :
    (∀ bytes calls, Addressable bytes → (∀ call ∈ calls, call.IsModest) →
        WordReader.Faithful bytes calls) ∧
      (∀ reader call, Reliable reader call) ∧
      (∀ (buffer : ByteBuffer) (items : List Item), ∃ written,
        buffer.performAll? (items.map Item.operation) = some written ∧
          ∃ rest,
            (ofBytes written.flip.unread).performAll
                (.skip buffer.size :: items.map Item.call) =
              (.ok .done :: items.map (.ok ·.answer), rest) ∧
            rest.cursor = written.size ∧ rest.remaining = 0) :=
  ⟨fun _ _ => WordReader.faithful, reliable, Item.exists_exchanged⟩

/-- A limit before the cursor, which is raised again, and two items of seven bytes. -/
theorem calls_are_all_or_nothing_below_cursor :
    let bytes : ByteArray := ⟨#[7, 0, 1, 5]⟩
    let calls : List Call :=
      [.skip 3, .setLimit 1, .peekByte, .setLimit 9, .readField .uint8]
    WordReader.Faithful bytes calls ∧
      ((ofBytes bytes).performAll calls).1 =
        [.ok .done, .ok .done, .error (.truncated 1 0), .ok .done, .ok (.number 5)] ∧
      ∃ written, ByteBuffer.empty.performAll?
          [.writeField .int32 (-2), .write ⟨#[1, 2, 3]⟩] = some written ∧
        ((ofBytes written.flip.unread).performAll
          [.skip 0, .readField .int32, .readBytes 3]).1 =
            [.ok .done, .ok (.number (-2)), .ok (.bytes ⟨#[1, 2, 3]⟩)] := by
  intro bytes calls
  obtain ⟨faithful, _, exchanged⟩ := calls_are_all_or_nothing
  obtain ⟨written, performed, rest, answered, _⟩ :=
    exchanged .empty [.number .int32 (-2) (by decide), .raw ⟨#[1, 2, 3]⟩]
  refine ⟨faithful bytes calls (by decide) ?_, rfl, written, performed, ?_⟩
  · decide
  · exact congrArg Prod.fst answered

end ByteReader

end DocumentCodec
