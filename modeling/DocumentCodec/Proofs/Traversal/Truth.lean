import DocumentCodec.Proofs.Bytes.Truth
import DocumentCodec.Proofs.Traversal.Derivation

namespace DocumentCodec.ElementReader

/-!
# What errors say about a document's bytes

A format whose elements are read truthfully ends every run on an input with a
document or with an error that is true of the input.
-/

/-- The errors of a format's header and elements are true of the bytes that are read. -/
structure ReportsTruly (format : ElementReader) : Prop where
  root (options : DecodeOptions) (input : ByteArray) :
    Decode.Truthful input (format.root options)
  next (options : DecodeOptions) (kind : ContainerKind) (bounds : Bounds)
      (reader : ByteReader) :
    Decode.ReportsOn reader.bytes (format.next options kind bounds reader)

variable {format : ElementReader} {options : DecodeOptions} {input : ByteArray}

/-- A step goes on in the same input, or fails with an error that is true of it. -/
theorem ReportsTruly.step
    (truly : format.ReportsTruly)
    (options : DecodeOptions)
    (state : ReadState) :
    match state.step format options with
    | .continued after => after.reader.bytes = state.reader.bytes
    | .completed _ _ => True
    | .failed error _ => error.IsTrueOf state.reader.bytes := by
  rcases state with ⟨reader, _ | ⟨⟨building, key, bounds⟩, outer⟩⟩
  · trivial
  · have outcome := truly.next options building.kind bounds (reader.setLimit bounds.stop)
    simp only [ReadState.step]
    cases ran : format.next options building.kind bounds (reader.setLimit bounds.stop) with
    | error error =>
        rw [ran] at outcome
        exact outcome
    | ok result =>
        rw [ran] at outcome
        rcases result with ⟨⟨element, after⟩, rest⟩
        cases element with
        | scalar name value => exact outcome
        | opened name kind inner => exact outcome
        | finished =>
            cases outer with
            | nil => trivial
            | cons parent others => exact outcome

/-- The error that a run ends with is true of the input. -/
theorem ReportsTruly.run
    (truly : format.ReportsTruly)
    {state : ReadState}
    {error : Error}
    (ofInput : state.reader.bytes = input)
    (failed : (format.run options state).result = .error error) :
    error.IsTrueOf input := by
  generalize size : state.weight = weight
  induction weight using Nat.strongRecOn generalizing state with
  | ind weight inductionHypothesis =>
      have outcome := truly.step options state
      cases stepped : state.step format options with
      | continued after =>
          rw [stepped] at outcome
          rw [run_of_continued stepped] at failed
          exact inductionHypothesis _ (size ▸ ReadState.weight_lt_of_step stepped)
            (outcome.trans ofInput) failed rfl
      | completed document reader =>
          rw [run_of_completed stepped] at failed
          cases failed
      | failed error frames =>
          rw [stepped, ofInput] at outcome
          rw [run_of_failed stepped] at failed
          cases failed
          exact outcome

/-- A document that is not read ends in an error that is true of its bytes. -/
theorem ReportsTruly.read
    (truly : format.ReportsTruly)
    {target : Document}
    {frames : List ReadFrame}
    {error : Error}
    (failed : (format.read options input target frames).result = .error error) :
    error.IsTrueOf input := by
  have header : Decode.IsTrueOf input (format.root options (.ofBytes input)) :=
    truly.root options input rfl (Nat.zero_le _)
  unfold ElementReader.read at failed
  cases ran : format.root options (ByteReader.ofBytes input) with
  | error error =>
      rw [ran] at header failed
      cases failed
      exact header
  | ok result =>
      rw [ran] at header failed
      exact truly.run header.1 failed

end DocumentCodec.ElementReader
