import DocumentCodec.Bytes.Field
import DocumentCodec.Bytes.Scan
import DocumentCodec.Error

namespace DocumentCodec

/-!
# Bounded readers

A reader goes through bytes with a cursor and never takes a byte at or behind
its limit.  The limit can be lowered to the end of the container being read
and raised again.

Every read is a `Decode` action that either succeeds and moves the cursor or
reports what was missing.  `Decode.Shrinking` says that an action never gives
bytes back, and `Decode.Consuming` that it takes at least one; both follow the
structure of the action.
-/

/-- Bytes with a cursor and a limit, both inside the bytes. -/
structure ByteReader where
  bytes : ByteArray
  cursor : Nat
  limit : Nat
  cursor_le : cursor ≤ bytes.size
  limit_le : limit ≤ bytes.size

namespace ByteReader

/-- A reader at the start of bytes that may go to their end. -/
def ofBytes (bytes : ByteArray) : ByteReader :=
  ⟨bytes, 0, bytes.size, Nat.zero_le _, Nat.le_refl _⟩

/-- Set the limit, at most to the end of the bytes. -/
def setLimit (reader : ByteReader) (limit : Nat) : ByteReader :=
  { reader with
    limit := min limit reader.bytes.size
    limit_le := Nat.min_le_right _ _ }

/-- Number of bytes between the cursor and the limit. -/
def remaining (reader : ByteReader) : Nat :=
  reader.limit - reader.cursor

/-- Number of bytes between the cursor and the end, whatever the limit. -/
def unread (reader : ByteReader) : Nat :=
  reader.bytes.size - reader.cursor

/-- The limit says nothing about how much has not been read. -/
@[simp]
theorem unread_setLimit (reader : ByteReader) (limit : Nat) :
    (reader.setLimit limit).unread = reader.unread :=
  rfl

/-- The reader some bytes further on, which the limit must allow. -/
def advance (reader : ByteReader) (count : Nat)
    (fits : reader.cursor + count ≤ reader.limit) : ByteReader :=
  { reader with
    cursor := reader.cursor + count
    cursor_le := Nat.le_trans fits reader.limit_le }

end ByteReader

/-- An action that reads: it moves the reader on or fails. -/
abbrev Decode (α : Type) :=
  StateT ByteReader (Except Error) α

namespace Decode

/-- Fail with an error. -/
def fail (error : Error) : Decode α :=
  throw error

/-- Fail with a format fault. -/
def malformed (fault : FormatFault) : Decode α :=
  fail (.format fault)

/-- Fail with a corruption. -/
def corrupted (fault : CorruptionFault) : Decode α :=
  fail (.corruption fault)

/-- Fail with an error unless a condition holds. -/
def ensure (condition : Bool) (error : Error) : Decode Unit :=
  if condition then pure () else fail error

/-- The offset of the next byte. -/
def position : Decode Nat :=
  fun reader => .ok (reader.cursor, reader)

/-- The limit of the reader. -/
def limit : Decode Nat :=
  fun reader => .ok (reader.limit, reader)

/-- Number of bytes before the limit. -/
def remaining : Decode Nat :=
  fun reader => .ok (reader.remaining, reader)

/-- Move past some bytes. -/
def skip (count : Nat) : Decode Unit :=
  fun reader =>
    if fits : reader.cursor + count ≤ reader.limit then
      .ok ((), reader.advance count fits)
    else
      .error (.truncated count reader.remaining)

/-- The next byte, which stays unread. -/
def peekByte : Decode UInt8 :=
  fun reader =>
    if reader.cursor + 1 ≤ reader.limit then
      .ok (reader.bytes.get! reader.cursor, reader)
    else
      .error (.truncated 1 reader.remaining)

/-- Take some bytes. -/
def readBytes (count : Nat) : Decode ByteArray :=
  fun reader =>
    if fits : reader.cursor + count ≤ reader.limit then
      .ok (reader.bytes.extract reader.cursor (reader.cursor + count),
        reader.advance count fits)
    else
      .error (.truncated count reader.remaining)

/-- Take the bytes before the next zero byte, and the zero byte with them. -/
def readZeroTerminated : Decode ByteArray :=
  fun reader =>
    let stop := max reader.limit reader.cursor
    match Scan.findByteBetween? reader.bytes reader.cursor stop 0 with
    | some terminator =>
        let count := terminator - reader.cursor + 1
        if fits : reader.cursor + count ≤ reader.limit then
          .ok (reader.bytes.extract reader.cursor terminator,
            reader.advance count fits)
        else
          .error (.truncated (stop - reader.cursor + 1) (stop - reader.cursor))
    | none =>
        .error (.truncated (stop - reader.cursor + 1) (stop - reader.cursor))

/-- Take a byte. -/
def readByte : Decode UInt8 :=
  fun reader =>
    if fits : reader.cursor + 1 ≤ reader.limit then
      .ok (reader.bytes.get! reader.cursor, reader.advance 1 fits)
    else
      .error (.truncated 1 reader.remaining)

/-- Take a number in the layout of a field type. -/
def readField (type : FieldType) : Decode Int := do
  let bytes ← readBytes type.width
  pure (type.value bytes.data.toList)

/-- The text of bytes whose faults are reported at a given offset. -/
def decodeText (bytes : ByteArray) (offset : Nat) : Decode String :=
  match Utf8.decode bytes with
  | .ok text => pure text
  | .error fault => malformed (.invalidText offset fault)

/-- The action never gives bytes back. -/
def Shrinking (action : Decode α) : Prop :=
  ∀ ⦃reader value rest⦄,
    action reader = .ok (value, rest) → rest.unread ≤ reader.unread

/-- The action takes at least one byte. -/
def Consuming (action : Decode α) : Prop :=
  ∀ ⦃reader value rest⦄,
    action reader = .ok (value, rest) → rest.unread < reader.unread

/-- An action that only has a result leaves the reader as it is. -/
theorem run_pure (value : α) (reader : ByteReader) :
    (Pure.pure value : Decode α) reader = .ok (value, reader) :=
  rfl

/-- After an action that succeeds, the next one goes on where it stopped. -/
theorem run_bind_of_ok
    {action : Decode α}
    {next : α → Decode β}
    {reader between : ByteReader}
    {middle : α}
    (ran : action reader = .ok (middle, between)) :
    (action >>= next) reader = next middle between := by
  change Except.bind (action reader) _ = _
  rw [ran]
  rfl

/-- After an action that fails, nothing is run. -/
theorem run_bind_of_error
    {action : Decode α}
    {next : α → Decode β}
    {reader : ByteReader}
    {error : Error}
    (failed : action reader = .error error) :
    (action >>= next) reader = .error error := by
  change Except.bind (action reader) _ = _
  rw [failed]
  rfl

/-- A sequence of two actions succeeds when both do, one after the other. -/
theorem bind_eq_ok
    {action : Decode α}
    {next : α → Decode β}
    {reader rest : ByteReader}
    {value : β}
    (ran : (action >>= next) reader = .ok (value, rest)) :
    ∃ middle between,
      action reader = .ok (middle, between) ∧
        next middle between = .ok (value, rest) := by
  cases outcome : action reader with
  | error error =>
      rw [run_bind_of_error outcome] at ran
      cases ran
  | ok result =>
      rcases result with ⟨middle, between⟩
      rw [run_bind_of_ok outcome] at ran
      exact ⟨middle, between, rfl, ran⟩

namespace Shrinking

/-- An action that reads nothing gives nothing back. -/
theorem pure (value : α) : Shrinking (Pure.pure value : Decode α) := by
  intro reader result rest ran
  rw [run_pure] at ran
  cases ran
  exact Nat.le_refl _

/-- A failure gives nothing back, for it does not come to an end. -/
theorem fail (error : Error) : Shrinking (Decode.fail error : Decode α) := by
  intro reader result rest ran
  cases ran

/-- Two actions in a row give nothing back if neither does. -/
theorem bind
    {action : Decode α}
    {next : α → Decode β}
    (first : Shrinking action)
    (second : ∀ value, Shrinking (next value)) :
    Shrinking (action >>= next) := by
  intro reader value rest ran
  obtain ⟨middle, between, ranFirst, ranSecond⟩ := bind_eq_ok ran
  exact Nat.le_trans (second middle ranSecond) (first ranFirst)

/-- What is done to a result has no part in what is read. -/
theorem map
    {action : Decode α}
    (shrinking : Shrinking action)
    (convert : α → β) :
    Shrinking (convert <$> action) := by
  rw [map_eq_pure_bind]
  exact shrinking.bind fun _ => pure _

end Shrinking

namespace Consuming

/-- A failure does not come to an end without taking a byte. -/
theorem fail (error : Error) : Consuming (Decode.fail error : Decode α) := by
  intro reader result rest ran
  cases ran

/-- What takes a byte gives none back. -/
theorem shrinking {action : Decode α} (consuming : Consuming action) :
    Shrinking action := by
  intro reader value rest ran
  exact Nat.le_of_lt (consuming ran)

/-- The second action may rest on the byte that the first one takes. -/
theorem bind
    {action : Decode α}
    {next : α → Decode β}
    (first : Consuming action)
    (second : ∀ value, Shrinking (next value)) :
    Consuming (action >>= next) := by
  intro reader value rest ran
  obtain ⟨middle, between, ranFirst, ranSecond⟩ := bind_eq_ok ran
  exact Nat.lt_of_le_of_lt (second middle ranSecond) (first ranFirst)

/-- The first action may rest on the byte that the second one takes. -/
theorem after
    {action : Decode α}
    {next : α → Decode β}
    (first : Shrinking action)
    (second : ∀ value, Consuming (next value)) :
    Consuming (action >>= next) := by
  intro reader value rest ran
  obtain ⟨middle, between, ranFirst, ranSecond⟩ := bind_eq_ok ran
  exact Nat.lt_of_lt_of_le (second middle ranSecond) (first ranFirst)

end Consuming

/-- To ask for the position is to read nothing. -/
theorem position_shrinking : Shrinking position := by
  intro reader value rest ran
  cases ran
  exact Nat.le_refl _

/-- To ask for the remaining bytes is to read nothing. -/
theorem remaining_shrinking : Shrinking remaining := by
  intro reader value rest ran
  cases ran
  exact Nat.le_refl _

/-- To ask for the limit is to read nothing. -/
theorem limit_shrinking : Shrinking limit := by
  intro reader value rest ran
  cases ran
  exact Nat.le_refl _

/-- A test reads nothing, whether it holds or not. -/
theorem ensure_shrinking (condition : Bool) (error : Error) :
    Shrinking (ensure condition error) := by
  unfold ensure
  split
  · exact Shrinking.pure ()
  · exact Shrinking.fail error

/-- A complaint about the input reads nothing. -/
theorem malformed_shrinking (fault : FormatFault) :
    Shrinking (malformed fault : Decode α) :=
  Shrinking.fail _

/-- Text is decoded from bytes that have been read before. -/
theorem decodeText_shrinking (bytes : ByteArray) (offset : Nat) :
    Shrinking (decodeText bytes offset) := by
  unfold decodeText
  split
  · exact Shrinking.pure _
  · exact malformed_shrinking _

/-- A number of bytes is taken or refused as a whole. -/
theorem readBytes_shrinking (count : Nat) : Shrinking (readBytes count) := by
  intro reader value rest ran
  simp only [readBytes] at ran
  split at ran
  · cases ran
    simp only [ByteReader.unread, ByteReader.advance]
    omega
  · cases ran

/-- A field takes as many bytes as its type is wide. -/
theorem readField_shrinking (type : FieldType) :
    Shrinking (readField type) :=
  (readBytes_shrinking type.width).bind fun _ => Shrinking.pure _

/-- Reading a byte takes one. -/
theorem readByte_consuming : Consuming readByte := by
  intro reader value rest ran
  simp only [readByte] at ran
  split at ran
  · rename_i fits
    cases ran
    have inside := reader.limit_le
    simp only [ByteReader.unread, ByteReader.advance]
    omega
  · cases ran

/-- Zero-terminated bytes are taken together with the zero. -/
theorem readZeroTerminated_shrinking : Shrinking readZeroTerminated := by
  intro reader value rest ran
  simp only [readZeroTerminated] at ran
  split at ran
  · split at ran
    · cases ran
      simp only [ByteReader.unread, ByteReader.advance]
      omega
    · cases ran
  · cases ran

end Decode

end DocumentCodec
