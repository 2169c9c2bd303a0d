import DocumentCodec.Proofs.Traversal.Derivation

namespace DocumentCodec

/-!
# Copied and shared payloads

A payload is a copy of input bytes, or a slice of the input when the caller
shares it.  An action that reads payloads does the same either way on readers
of that input (`Decode.SameOn`), whether it succeeds or fails.  A format whose
elements are read by such actions reads every document the same
(`ElementReader.read_of_sharesInput`).
-/

/-- The same options without an owner of the input. -/
def DecodeOptions.copied (options : DecodeOptions) : DecodeOptions :=
  { options with shared? := none }

namespace Decode

variable {input : ByteArray}

/-- Two actions do the same on every reader of the input. -/
def SameOn (input : ByteArray) (action other : Decode α) : Prop :=
  ∀ ⦃reader : ByteReader⦄,
    reader.bytes = input → reader.InBounds → action reader = other reader

namespace SameOn

/-- An action does the same as itself. -/
theorem refl (action : Decode α) : SameOn input action action := by
  intro reader _ _
  rfl

/-- What comes behind an action is run on readers of the same input. -/
theorem behind
    {action : Decode α}
    {language : Language α}
    {next last : α → Decode β}
    (recognizes : Recognizes input action language)
    (same : ∀ value, SameOn input (next value) (last value)) :
    SameOn input (action >>= next) (action >>= last) := by
  intro reader ofInput inBounds
  cases ran : action reader with
  | error error => rw [run_bind_of_error ran, run_bind_of_error ran]
  | ok result =>
      rcases result with ⟨value, between⟩
      obtain ⟨taken, _, passes⟩ := (recognizes ofInput inBounds value between).mp ran
      rw [run_bind_of_ok ran, run_bind_of_ok ran]
      exact same value (passes.bytes_eq.trans ofInput) passes.inBounds

/-- What follows actions that do the same goes on from the same. -/
theorem bind
    {action other : Decode α}
    (same : SameOn input action other)
    (next : α → Decode β) :
    SameOn input (action >>= next) (other >>= next) := by
  intro reader ofInput inBounds
  change Except.bind (action reader) _ = Except.bind (other reader) _
  rw [same ofInput inBounds]

/-- What is done to the same results gives the same. -/
theorem map
    {action other : Decode α}
    (same : SameOn input action other)
    (convert : α → β) :
    SameOn input (convert <$> action) (convert <$> other) := by
  rw [map_eq_pure_bind, map_eq_pure_bind]
  exact same.bind _

/-- Actions that do the same at every offset do the same at the reader's own. -/
theorem at_position
    {next last : Nat → Decode α}
    (same : ∀ offset, SameOn input (next offset) (last offset)) :
    SameOn input (position >>= next) (position >>= last) := by
  intro reader ofInput inBounds
  exact same reader.cursor ofInput inBounds

/-- A test in front of actions that do the same lets both go on or neither. -/
theorem ensure_then
    {condition : Bool}
    {error : Error}
    {action other : Decode α}
    (same : SameOn input action other) :
    SameOn input (ensure condition error >>= fun _ => action)
      (ensure condition error >>= fun _ => other) := by
  intro reader ofInput inBounds
  rw [ensure_bind, ensure_bind, same ofInput inBounds]

/-- Shared or copied, a payload holds the same bytes. -/
theorem readPayload
    {options : DecodeOptions}
    (owned : ∀ owner ∈ options.shared?, owner = input)
    (count : Nat) :
    SameOn input (options.readPayload count) (options.copied.readPayload count) := by
  intro reader ofInput _
  subst ofInput
  have copied := @owned_of_copied options.copied rfl reader.bytes
  rw [readPayload_eq_readBytes owned, readPayload_eq_readBytes copied]

end SameOn

/-- Out of bounds there is no byte to read. -/
theorem readByte_of_not_inBounds
    {reader : ByteReader}
    (outside : ¬ reader.InBounds) :
    readByte reader = .error (.truncated 1 reader.remaining) := by
  refine dif_neg fun fits => outside ?_
  exact Nat.le_of_succ_le fits

end Decode

namespace ElementReader

/-- A format reads the same whether payloads are slices of the input or copies. -/
structure SharesInput (format : ElementReader) : Prop where
  root (options : DecodeOptions) : format.root options = format.root options.copied
  root_keeps
    {options : DecodeOptions}
    {bytes : ByteArray}
    {rest : ByteReader}
    {bounds : Bounds}
    (ran : format.root options (.ofBytes bytes) = .ok (bounds, rest)) :
    rest.bytes = bytes
  next
    {options : DecodeOptions}
    (reader : ByteReader)
    (owned : ∀ owner ∈ options.shared?, owner = reader.bytes)
    (kind : ContainerKind)
    (bounds : Bounds) :
    format.next options kind bounds reader = format.next options.copied kind bounds reader
  next_keeps
    {options : DecodeOptions}
    {kind : ContainerKind}
    {bounds : Bounds}
    {result : Element × Bounds}
    {rest : ByteReader}
    (reader : ByteReader)
    (owned : ∀ owner ∈ options.shared?, owner = reader.bytes)
    (ran : format.next options kind bounds reader = .ok (result, rest)) :
    rest.bytes = reader.bytes

variable {format : ElementReader} {options : DecodeOptions}

/-- A step does the same with and without sharing. -/
theorem SharesInput.step
    (shares : format.SharesInput)
    {state : ReadState}
    (owned : ∀ owner ∈ options.shared?, owner = state.reader.bytes) :
    state.step format options = state.step format options.copied := by
  rcases state with ⟨reader, _ | ⟨⟨building, key, bounds⟩, outer⟩⟩
  · rfl
  · simp only [ReadState.step,
      shares.next (reader.setLimit bounds.stop) owned building.kind bounds]

/-- A step stays with its input. -/
theorem SharesInput.step_keeps
    (shares : format.SharesInput)
    {state after : ReadState}
    (owned : ∀ owner ∈ options.shared?, owner = state.reader.bytes)
    (stepped : state.step format options = .continued after) :
    after.reader.bytes = state.reader.bytes := by
  rcases state with ⟨reader, _ | ⟨⟨building, key, bounds⟩, outer⟩⟩
  · cases stepped
  · have keeps {result rest}
        (ran :
          format.next options building.kind bounds (reader.setLimit bounds.stop) =
            .ok (result, rest)) :
        rest.bytes = reader.bytes :=
      shares.next_keeps (reader.setLimit bounds.stop) owned ran
    simp only [ReadState.step] at stepped
    split at stepped
    · cases stepped
    · rename_i ran
      cases stepped
      exact keeps ran
    · rename_i ran
      cases stepped
      exact keeps ran
    · rename_i ran
      cases outer with
      | nil => cases stepped
      | cons parent others =>
          cases stepped
          exact keeps ran

/-- A run does the same with and without sharing. -/
theorem SharesInput.run
    (shares : format.SharesInput)
    (state : ReadState)
    (owned : ∀ owner ∈ options.shared?, owner = state.reader.bytes) :
    format.run options state = format.run options.copied state := by
  generalize size : state.weight = weight
  induction weight using Nat.strongRecOn generalizing state with
  | ind weight inductionHypothesis =>
      have same := shares.step owned
      cases stepped : state.step format options with
      | continued after =>
          have keeps := shares.step_keeps owned stepped
          have smaller := ReadState.weight_lt_of_step stepped
          rw [run_of_continued stepped, run_of_continued (same.symm.trans stepped)]
          exact inductionHypothesis after.weight (size ▸ smaller) after (keeps ▸ owned) rfl
      | completed document reader =>
          rw [run_of_completed stepped, run_of_completed (same.symm.trans stepped)]
      | failed error frames =>
          rw [run_of_failed stepped, run_of_failed (same.symm.trans stepped)]

/-- Every document is read the same, and so is every fault found, whatever the target held. -/
theorem read_of_sharesInput
    (shares : format.SharesInput)
    (bytes : ByteArray)
    (owned : ∀ owner ∈ options.shared?, owner = bytes)
    (target other : Document)
    (frames : List ReadFrame) :
    format.read options bytes target frames =
      format.read options.copied bytes other frames := by
  unfold read
  rw [shares.root options]
  cases header : format.root options.copied (ByteReader.ofBytes bytes) with
  | error error => rfl
  | ok result =>
      rcases result with ⟨bounds, reader⟩
      have keeps : reader.bytes = bytes := shares.root_keeps header
      exact shares.run _ (keeps ▸ owned)

end ElementReader

end DocumentCodec
