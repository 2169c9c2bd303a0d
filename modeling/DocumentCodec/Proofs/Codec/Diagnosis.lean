import DocumentCodec.Proofs.Bson.Naming
import DocumentCodec.Proofs.Codec.Truth
import DocumentCodec.Proofs.MessagePack.Naming
import DocumentCodec.Proofs.Traversal.States

namespace DocumentCodec

/-!
# What decoding reports

The errors of decoding are true of the bytes.  One that names a byte also
points to the right place: reading gets into a state in which the next element
has this byte where its tag, its truth value, its key or its value begins.
-/

namespace Format

variable {format : Format} {options : DecodeOptions} {input : ByteArray}

/-- The bytes of an element that a format's errors name, and these errors. -/
def Refusal : Format → ContainerKind → ByteReader → Error → Prop
  | bson => Bson.Refusal
  | messagePack => MessagePack.Refusal

/-- A step that names a byte has refused the byte it stands at. -/
theorem refusal_of_next
    {kind : ContainerKind}
    {bounds : Bounds}
    {reader : ByteReader}
    {error : Error}
    (failed : format.reader.next options kind bounds reader = .error error)
    (names : error.named? ≠ none) :
    format.Refusal kind reader error := by
  cases format with
  | bson => exact Bson.refusal_of_readElement failed names
  | messagePack => exact MessagePack.refusal_of_readElement failed names

/-- Opening a document names no byte. -/
theorem root_plain (format : Format) (options : DecodeOptions) :
    Decode.Plain input (format.reader.root options) := by
  cases format with
  | bson => exact Bson.readRoot_plain options
  | messagePack => exact MessagePack.readRoot_plain options

/-- Every state of reading an input reads this input. -/
theorem bytes_eq_of_reached
    {state : ReadState}
    (reached : state.Reached format.reader options input) :
    state.reader.bytes = input := by
  induction reached with
  | start target header =>
      have outcome : Decode.IsTrueOf input (format.reader.root options (.ofBytes input)) :=
        format.reportsTruly.root options input rfl (Nat.zero_le _)
      rw [header] at outcome
      exact outcome.1
  | @step state after reached stepped inductionHypothesis =>
      have outcome := format.reportsTruly.step options state
      rw [stepped] at outcome
      exact outcome.trans inductionHypothesis

/-- The state in which an element begins that has the byte that an error names. -/
structure PointsInto (format : Format) (options : DecodeOptions) (input : ByteArray)
    (error : Error) (state : ReadState) (frame : ReadFrame) : Prop where
  reached : state.Reached format.reader options input
  innermost : state.frames.head? = some frame
  bytes_eq : state.reader.bytes = input
  refusal :
    format.Refusal frame.building.kind (state.reader.setLimit frame.bounds.stop) error

/-- An error that names a byte was met in a state that the traversal reached. -/
theorem exists_pointsInto_of_read
    {target : Document}
    {error : Error}
    (failed : (format.reader.read options input target []).result = .error error)
    (names : error.named? ≠ none) :
    ∃ state frame, format.PointsInto options input error state frame := by
  unfold ElementReader.read at failed
  cases header : format.reader.root options (.ofBytes input) with
  | error other =>
      rw [header] at failed
      cases failed
      have plain : Decode.Plain input (format.reader.root options) := format.root_plain options
      exact absurd (plain.nameless rfl (Nat.zero_le _) header) names
  | ok result =>
      rw [header] at failed
      rcases result with ⟨bounds, reader⟩
      have start := ReadState.Reached.start target header
      obtain ⟨state, frame, outer, reached, shape, next⟩ := start.exists_next_of_run failed
      exact ⟨state, frame, reached, shape ▸ rfl, bytes_eq_of_reached reached,
        refusal_of_next next names⟩

end Format

namespace Codec

variable {codec : Codec} {format : Format} {bytes : ByteArray} {error : Error}

/--
An error of decoding is true of the bytes.  If it names one of them, then it is
a byte of an element that begins in a state that reading gets into, at any
depth, and it is the one that the format has for what is wrong there.
-/
theorem decode_error_is_true
    (reachable : codec.Reachable)
    (failed : (codec.decode format bytes).1 = .error error) :
    error.IsTrueOf bytes ∧
      (error.named? ≠ none →
        ∃ state frame,
          format.PointsInto ⟨codec.config.maximumDocumentSize, none⟩ bytes error state
            frame) := by
  rw [decode_eq_decoding reachable.clean] at failed
  refine ⟨Format.isTrueOf_of_decoding failed, fun names => ?_⟩
  unfold Format.decoding wholeInput at failed
  split at failed
  · rename_i unread
    cases failed
    exact Format.exists_pointsInto_of_read unread names
  · split at failed
    · cases failed
    · cases failed
      exact absurd rfl names

/-- The reserved marker in an array in a map is found where it stands. -/
theorem decode_reserved_item :
    let bytes : ByteArray := ⟨#[0x81, 0xa1, 97, 0x91, 0xc1]⟩
    let error : Error := .format (.reservedMarker 0xc1 4)
    ((failFast .standard).decode .messagePack bytes).1 = .error error ∧
      HoldsAt bytes 4 0xc1 ∧
        ∃ state frame,
          Format.messagePack.PointsInto ⟨Config.standard.maximumDocumentSize, none⟩ bytes
            error state frame := by
  intro bytes error
  have reachable : (failFast .standard).Reachable := .new .standard .failFast
  have header :
      MessagePack.reader.root ⟨Config.standard.maximumDocumentSize, none⟩ (.ofBytes bytes) =
        .ok (⟨5, 1⟩, ⟨bytes, 1, 5, by decide, by decide⟩) := by
    unfold bytes
    rfl
  have reads :
      ElementReader.Reads MessagePack.reader ⟨Config.standard.maximumDocumentSize, none⟩
        (.empty .map) ⟨5, 1⟩ ⟨bytes, 1, 5, by decide, by decide⟩ (.error error) := by
    refine @ElementReader.Reads.nestedFailed _ _ _ _ _ (some "a") .array ⟨5, 1⟩ ⟨5, 0⟩
      ⟨bytes, 4, 5, by decide, by decide⟩ _ ?_ (.failed ?_)
    · unfold bytes
      rfl
    · unfold bytes
      rfl
  have unread := ElementReader.read_of_reads header reads .empty
  have failed : ((failFast .standard).decode .messagePack bytes).1 = .error error := by
    rw [decode_eq_decoding reachable.clean]
    exact congrArg (wholeInput .messagePack bytes) unread
  obtain ⟨⟨stands, _⟩, places⟩ := decode_error_is_true reachable failed
  exact ⟨failed, stands, places (by decide)⟩

end Codec

end DocumentCodec
