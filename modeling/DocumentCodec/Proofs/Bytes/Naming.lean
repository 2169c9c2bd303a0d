import DocumentCodec.Proofs.Bytes.Truth

namespace DocumentCodec

/-!
# Errors that name a byte

Four of the format faults name a byte of the input with its offset.  Most parts
of the readers do not report these: they are plain, with errors that are true
of the input and name nothing of it, which follows their structure.  What is
left are the places where a byte is looked at for what it announces.
-/

/-- The byte of the input that a fault names, with its offset. -/
def FormatFault.named? : FormatFault → Option (UInt8 × Nat)
  | .unknownElementType tag offset => some (tag, offset)
  | .invalidBoolean byte offset => some (byte, offset)
  | .keyNotString offset marker => some (marker, offset)
  | .reservedMarker marker offset => some (marker, offset)
  | _ => none

/-- The byte of the input that an error names, with its offset. -/
def Error.named? : Error → Option (UInt8 × Nat)
  | .format fault => fault.named?
  | _ => none

namespace Decode

/-- A sequence of two actions fails in the first or, behind that, in the second. -/
theorem bind_eq_error
    {action : Decode α}
    {next : α → Decode β}
    {reader : ByteReader}
    {error : Error}
    (failed : (action >>= next) reader = .error error) :
    action reader = .error error ∨
      ∃ middle between, action reader = .ok (middle, between) ∧
        next middle between = .error error := by
  cases outcome : action reader with
  | error other =>
      rw [run_bind_of_error outcome] at failed
      cases failed
      exact .inl rfl
  | ok result =>
      rcases result with ⟨middle, between⟩
      rw [run_bind_of_ok outcome] at failed
      exact .inr ⟨middle, between, rfl, failed⟩

/-- What an action's result is converted to does not matter to its errors. -/
theorem map_eq_error
    {action : Decode α}
    {convert : α → β}
    {reader : ByteReader}
    {error : Error}
    (failed : (convert <$> action) reader = .error error) :
    action reader = .error error := by
  rw [map_eq_pure_bind] at failed
  obtain here | ⟨middle, between, _, later⟩ := bind_eq_error failed
  · exact here
  · cases later

/-- On the input, the action's errors are true, and they name no byte of it. -/
structure Plain (input : ByteArray) (action : Decode α) : Prop where
  truthful : Truthful input action
  nameless :
    ∀ ⦃reader : ByteReader⦄, reader.bytes = input → reader.InBounds →
      ∀ ⦃error⦄, action reader = .error error → error.named? = none

variable {input : ByteArray}

namespace Plain

/-- A result needs no error. -/
theorem pure (value : α) : Plain input (Pure.pure value : Decode α) where
  truthful := .pure value
  nameless reader ofInput inBounds error failed := by cases failed

/-- An error that is true and names no byte may be reported. -/
theorem fail
    {error : Error}
    (holds : error.IsTrueOf input)
    (unnamed : error.named? = none) :
    Plain input (Decode.fail error : Decode α) where
  truthful := .fail holds
  nameless reader ofInput inBounds other failed := by
    cases failed
    exact unnamed

/-- Two actions in a row are plain if each one is. -/
theorem bind
    {action : Decode α}
    {next : α → Decode β}
    (first : Plain input action)
    (second : ∀ value, Plain input (next value)) :
    Plain input (action >>= next) where
  truthful := first.truthful.bind fun value => (second value).truthful
  nameless reader ofInput inBounds error failed := by
    obtain here | ⟨middle, between, ran, later⟩ := bind_eq_error failed
    · exact first.nameless ofInput inBounds here
    · have outcome := first.truthful ofInput inBounds
      rw [ran] at outcome
      exact (second middle).nameless outcome.1 outcome.2 later

/-- What is done to a result brings no errors. -/
theorem map
    {action : Decode α}
    (plain : Plain input action)
    (convert : α → β) :
    Plain input (convert <$> action) where
  truthful := plain.truthful.map convert
  nameless _ ofInput inBounds _ failed :=
    plain.nameless ofInput inBounds (map_eq_error failed)

/-- Errors may tell the position. -/
theorem at_position
    {next : Nat → Decode α}
    (plain : ∀ offset, Plain input (next offset)) :
    Plain input (position >>= next) where
  truthful := .at_position fun offset => (plain offset).truthful
  nameless reader ofInput inBounds _ failed :=
    (plain reader.cursor).nameless ofInput inBounds failed

/-- Errors may tell how much remains, which is no more than the input. -/
theorem at_remaining
    {next : Nat → Decode α}
    (plain : ∀ available, available ≤ input.size → Plain input (next available)) :
    Plain input (remaining >>= next) where
  truthful := .at_remaining fun available inside => (plain available inside).truthful
  nameless reader ofInput inBounds _ failed :=
    (plain reader.remaining (ofInput ▸ reader.remaining_le)).nameless ofInput inBounds failed

/-- Errors may tell the limit. -/
theorem at_limit
    {next : Nat → Decode α}
    (plain : ∀ stop, Plain input (next stop)) :
    Plain input (limit >>= next) where
  truthful := .at_limit fun stop => (plain stop).truthful
  nameless reader ofInput inBounds _ failed :=
    (plain reader.limit).nameless ofInput inBounds failed

/-- A test may report what is true when it fails. -/
theorem ensure
    {condition : Bool}
    {error : Error}
    (holds : condition = false → error.IsTrueOf input)
    (unnamed : error.named? = none) :
    Plain input (Decode.ensure condition error) := by
  cases condition with
  | false => exact fail (holds rfl) unnamed
  | true => exact pure ()

/-- Behind a test an action is plain as it is alone. -/
theorem ensure_then
    {condition : Bool}
    {error : Error}
    {action : Decode α}
    (holds : condition = false → error.IsTrueOf input)
    (unnamed : error.named? = none)
    (plain : Plain input action) :
    Plain input (Decode.ensure condition error >>= fun _ => action) :=
  (ensure holds unnamed).bind fun _ => plain

end Plain

/-- Missing bytes are told by number, and none is named. -/
theorem readBytes_plain (count : Nat) : Plain input (readBytes count) where
  truthful := readBytes_truthful count
  nameless reader ofInput inBounds error failed := by
    unfold readBytes at failed
    split at failed
    · cases failed
    · cases failed
      rfl

/-- A missing byte is told by number, and none is named. -/
theorem readByte_plain : Plain input readByte where
  truthful := readByte_truthful
  nameless reader ofInput inBounds error failed := by
    unfold readByte at failed
    split at failed
    · cases failed
    · cases failed
      rfl

/-- The missing bytes of a field are told by number. -/
theorem readField_plain (type : FieldType) : Plain input (readField type) :=
  (readBytes_plain type.width).bind fun _ => .pure _

/-- Bytes that are no text are told by their offset, and none is named. -/
theorem decodeText_plain (bytes : ByteArray) (offset : Nat) :
    Plain input (decodeText bytes offset) := by
  unfold decodeText
  split
  · exact .pure _
  · exact .fail trivial rfl

/-- A missing zero is told by the number of bytes without one. -/
theorem readZeroTerminated_plain : Plain input readZeroTerminated where
  truthful := readZeroTerminated_truthful
  nameless reader ofInput inBounds error failed := by
    simp only [readZeroTerminated] at failed
    split at failed
    · split at failed
      · cases failed
      · cases failed
        rfl
    · cases failed
      rfl

end Decode

/-- The missing bytes of a payload are told by number. -/
theorem DecodeOptions.readPayload_plain
    {input : ByteArray}
    (options : DecodeOptions)
    (count : Nat) :
    Decode.Plain input (options.readPayload count) := by
  refine .at_position fun offset => (Decode.readBytes_plain count).bind fun bytes => ?_
  split <;> exact .pure _

end DocumentCodec
