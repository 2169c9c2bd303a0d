import DocumentCodec.Bson.ElementType
import DocumentCodec.MessagePack.Marker
import DocumentCodec.Proofs.Bytes.Recognition

namespace DocumentCodec

/-!
# What errors say about the input

An error that reading ends with is true of the input (`Error.IsTrueOf`): bytes
that it misses are missing, and a byte that it names with an offset stands
there and does not belong there.  Pools, sinks and sources have no part in it.

An action is truthful when all its errors are, and this follows its structure.
-/

/-- A byte stands at an offset of the input. -/
def HoldsAt (input : ByteArray) (offset : Nat) (byte : UInt8) : Prop :=
  input.data.toList[offset]? = some byte

/-- A lead byte of strings in MessagePack. -/
def MessagePack.IsStringLead (lead : UInt8) : Prop :=
  fixString ≤ lead ∧ lead < 0xc0 ∨
    lead = Marker.str8.byte ∨ lead = Marker.str16.byte ∨ lead = Marker.str32.byte

/-- The byte that a fault names with its offset is there, and it is wrong there. -/
def FormatFault.IsTrueOf (input : ByteArray) : FormatFault → Prop
  | .unknownElementType tag offset =>
      HoldsAt input offset tag ∧ tag ≠ Bson.terminator ∧
        ∀ type : Bson.ElementType, type.tag ≠ tag
  | .invalidBoolean byte offset => HoldsAt input offset byte ∧ byte ≠ 0 ∧ byte ≠ 1
  | .keyNotString offset marker =>
      HoldsAt input offset marker ∧ ¬ MessagePack.IsStringLead marker
  | .reservedMarker marker offset => HoldsAt input offset marker ∧ marker = 0xc1
  | _ => True

/-- What an error says of the input is so; other errors than those of inputs say nothing. -/
def Error.IsTrueOf (input : ByteArray) : Error → Prop
  | .format fault => fault.IsTrueOf input
  | .corruption _ => True
  | .truncated expected available => available < expected ∧ available ≤ input.size
  | .capacity _ _ => True
  | .poolOverflow _ => False
  | .encode _ => False
  | .io _ => False

/-- No more bytes are left than the input has. -/
theorem ByteReader.remaining_le (reader : ByteReader) : reader.remaining ≤ reader.bytes.size :=
  Nat.le_trans (Nat.sub_le _ _) reader.limit_le

namespace Decode

/-- An outcome with the reader still inside the input, or with an error that is true of it. -/
def IsTrueOf (input : ByteArray) : Except Error (α × ByteReader) → Prop
  | .ok (_, rest) => rest.bytes = input ∧ rest.InBounds
  | .error error => error.IsTrueOf input

/-- An outcome that is still about the input, or an error that is true of it. -/
def ReportsOn (input : ByteArray) : Except Error (α × ByteReader) → Prop
  | .ok (_, rest) => rest.bytes = input
  | .error error => error.IsTrueOf input

/-- On the input, the action's errors are true. -/
def Truthful (input : ByteArray) (action : Decode α) : Prop :=
  ∀ ⦃reader : ByteReader⦄, reader.bytes = input → reader.InBounds → IsTrueOf input (action reader)

variable {input : ByteArray}

/-- An outcome whose error is true is reported truly. -/
theorem IsTrueOf.reportsOn
    {outcome : Except Error (α × ByteReader)}
    (holds : IsTrueOf input outcome) :
    ReportsOn input outcome := by
  cases outcome with
  | error error => exact holds
  | ok result => exact holds.1

namespace Truthful

/-- A result needs no error. -/
theorem pure (value : α) : Truthful input (Pure.pure value : Decode α) := by
  intro reader ofInput inBounds
  exact ⟨ofInput, inBounds⟩

/-- A true error may be reported. -/
theorem fail {error : Error} (holds : error.IsTrueOf input) :
    Truthful input (Decode.fail error : Decode α) := by
  intro reader ofInput inBounds
  exact holds

/-- Two actions in a row are truthful if each one is. -/
theorem bind
    {action : Decode α}
    {next : α → Decode β}
    (first : Truthful input action)
    (second : ∀ value, Truthful input (next value)) :
    Truthful input (action >>= next) := by
  intro reader ofInput inBounds
  have outcome := first ofInput inBounds
  change IsTrueOf input (Except.bind (action reader) fun result => next result.1 result.2)
  cases ran : action reader with
  | error error =>
      rw [ran] at outcome
      exact outcome
  | ok result =>
      rw [ran] at outcome
      exact second result.1 outcome.1 outcome.2

/-- What is done to a result brings no errors. -/
theorem map
    {action : Decode α}
    (truthful : Truthful input action)
    (convert : α → β) :
    Truthful input (convert <$> action) := by
  rw [map_eq_pure_bind]
  exact truthful.bind fun value => pure (convert value)

/-- Errors may tell the position. -/
theorem at_position
    {next : Nat → Decode α}
    (truthful : ∀ offset, Truthful input (next offset)) :
    Truthful input (position >>= next) := by
  intro reader ofInput inBounds
  exact truthful reader.cursor ofInput inBounds

/-- Errors may tell how much remains, which is no more than the input. -/
theorem at_remaining
    {next : Nat → Decode α}
    (truthful : ∀ available, available ≤ input.size → Truthful input (next available)) :
    Truthful input (remaining >>= next) := by
  intro reader ofInput inBounds
  exact truthful reader.remaining (ofInput ▸ reader.remaining_le) ofInput inBounds

/-- Errors may tell the limit. -/
theorem at_limit
    {next : Nat → Decode α}
    (truthful : ∀ stop, Truthful input (next stop)) :
    Truthful input (limit >>= next) := by
  intro reader ofInput inBounds
  exact truthful reader.limit ofInput inBounds

/-- A test may report what is true when it fails. -/
theorem ensure
    {condition : Bool}
    {error : Error}
    (holds : condition = false → error.IsTrueOf input) :
    Truthful input (Decode.ensure condition error) := by
  cases condition with
  | false => exact fail (holds rfl)
  | true => exact pure ()

/-- Behind a test an action is truthful as it is alone. -/
theorem ensure_then
    {condition : Bool}
    {error : Error}
    {action : Decode α}
    (holds : condition = false → error.IsTrueOf input)
    (truthful : Truthful input action) :
    Truthful input (Decode.ensure condition error >>= fun _ => action) :=
  (ensure holds).bind fun _ => truthful

/-- What is missing before the limit is missing from the input. -/
theorem truncated
    {reader : ByteReader}
    {count : Nat}
    (ofInput : reader.bytes = input)
    (inBounds : reader.InBounds)
    (missing : ¬ reader.cursor + count ≤ reader.limit) :
    (Error.truncated count reader.remaining).IsTrueOf input := by
  have inside := reader.limit_le
  rw [ofInput] at inside
  unfold ByteReader.InBounds at inBounds
  simp only [Error.IsTrueOf, ByteReader.remaining]
  omega

/-- Behind the limit there is nothing, so that one byte is missing. -/
theorem truncated_of_not_inBounds
    {reader : ByteReader}
    (outside : ¬ reader.InBounds) :
    (Error.truncated 1 reader.remaining).IsTrueOf input := by
  unfold ByteReader.InBounds at outside
  simp only [Error.IsTrueOf, ByteReader.remaining]
  omega

/-- The next byte stands where the reader does. -/
theorem byte_then
    {next : UInt8 → Decode α}
    {reader : ByteReader}
    (ofInput : reader.bytes = input)
    (inBounds : reader.InBounds)
    (truthful : ∀ byte, HoldsAt input reader.cursor byte → Truthful input (next byte)) :
    IsTrueOf input ((readByte >>= next) reader) := by
  by_cases fits : reader.cursor + 1 ≤ reader.limit
  · have present : reader.cursor < reader.bytes.data.toList.length := by
      rw [Array.length_toList]
      exact Nat.lt_of_lt_of_le fits reader.limit_le
    have read : readByte reader =
        .ok (reader.bytes.get! reader.cursor, reader.advance 1 fits) := dif_pos fits
    rw [run_bind_of_ok read]
    refine truthful _ ?_ ofInput fits
    rw [HoldsAt, ← ofInput, List.getElem?_eq_getElem present, Scan.get!_eq_getElem present]
  · have failed : readByte reader = .error (.truncated 1 reader.remaining) := dif_neg fits
    rw [run_bind_of_error failed]
    exact truncated ofInput inBounds fits

/-- What comes behind a byte and its offset may name them. -/
theorem at_byte
    {next : Nat → UInt8 → Decode α}
    (truthful : ∀ offset byte, HoldsAt input offset byte → Truthful input (next offset byte)) :
    Truthful input (position >>= fun offset => readByte >>= next offset) := by
  intro reader ofInput inBounds
  exact byte_then ofInput inBounds (truthful reader.cursor)

end Truthful

/-- When bytes are missing, as many are there as the error tells. -/
theorem readBytes_truthful (count : Nat) : Truthful input (readBytes count) := by
  intro reader ofInput inBounds
  unfold readBytes
  split
  · rename_i fits
    exact ⟨ofInput, fits⟩
  · rename_i missing
    exact Truthful.truncated ofInput inBounds missing

/-- When a byte is missing, none is there. -/
theorem readByte_truthful : Truthful input readByte := by
  intro reader ofInput inBounds
  unfold readByte
  split
  · rename_i fits
    exact ⟨ofInput, fits⟩
  · rename_i missing
    exact Truthful.truncated ofInput inBounds missing

/-- Without a zero byte before the limit, one byte more than there are is missing. -/
theorem readZeroTerminated_truthful : Truthful input readZeroTerminated := by
  intro reader ofInput inBounds
  have stops : max reader.limit reader.cursor ≤ input.size := by
    rw [← ofInput]
    exact Nat.max_le.mpr ⟨reader.limit_le, reader.cursor_le⟩
  have missing :
      (Error.truncated (max reader.limit reader.cursor - reader.cursor + 1)
        (max reader.limit reader.cursor - reader.cursor)).IsTrueOf input := by
    simp only [Error.IsTrueOf]
    omega
  simp only [readZeroTerminated]
  split
  · split
    · rename_i fits
      exact ⟨ofInput, fits⟩
    · exact missing
  · exact missing

end Decode

end DocumentCodec
