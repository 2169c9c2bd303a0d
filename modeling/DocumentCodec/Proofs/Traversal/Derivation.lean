import DocumentCodec.Proofs.Bytes.Recognition
import DocumentCodec.Proofs.Traversal.Contents

namespace DocumentCodec

/-!
# Reading by nesting

The reader of documents keeps the open containers on a list.  `Reads` says the
same by nesting: a container is read element by element, and a nested one is
read to its end before the element behind it.

Main statements: every container is read to an outcome, and the run with a
list of frames has that outcome.
-/

namespace ElementReader

variable {format : ElementReader} {options : DecodeOptions}

/--
What comes of reading the rest of a container, of which a collection has been
built so far: the whole collection and where the reader is then, or an error.
-/
inductive Reads (format : ElementReader) (options : DecodeOptions) :
    Building → Bounds → ByteReader → Except Error (Building × ByteReader) → Prop
  | failed {building bounds reader error}
      (next :
        format.next options building.kind bounds (reader.setLimit bounds.stop) =
          .error error) :
      Reads format options building bounds reader (.error error)
  | finished {building bounds reader after rest}
      (next :
        format.next options building.kind bounds (reader.setLimit bounds.stop) =
          .ok ((.finished, after), rest)) :
      Reads format options building bounds reader (.ok (building, rest))
  | scalar {building bounds reader name value after between outcome}
      (next :
        format.next options building.kind bounds (reader.setLimit bounds.stop) =
          .ok ((.scalar name value, after), between))
      (others :
        Reads format options (building.attach name value) after between outcome) :
      Reads format options building bounds reader outcome
  | nested {building bounds reader name kind inner after between child resumed outcome}
      (next :
        format.next options building.kind bounds (reader.setLimit bounds.stop) =
          .ok ((.opened name kind inner, after), between))
      (inside :
        Reads format options (.empty kind) inner between (.ok (child, resumed)))
      (others :
        Reads format options (building.attach name child.toValue) after resumed
          outcome) :
      Reads format options building bounds reader outcome
  | nestedFailed {building bounds reader name kind inner after between error}
      (next :
        format.next options building.kind bounds (reader.setLimit bounds.stop) =
          .ok ((.opened name kind inner, after), between))
      (inside : Reads format options (.empty kind) inner between (.error error)) :
      Reads format options building bounds reader (.error error)

/-- How a container is read depends on where in which bytes, not on the limit before. -/
theorem Reads.moved
    {building : Building}
    {bounds : Bounds}
    {reader other : ByteReader}
    {outcome : Except Error (Building × ByteReader)}
    (reads : Reads format options building bounds reader outcome)
    (bytes : other.bytes = reader.bytes)
    (cursor : other.cursor = reader.cursor) :
    Reads format options building bounds other outcome := by
  have same := @ByteReader.setLimit_congr reader other bytes cursor bounds.stop
  cases reads with
  | failed next => exact .failed (same ▸ next)
  | finished next => exact .finished (same ▸ next)
  | scalar next others => exact .scalar (same ▸ next) others
  | nested next inside others => exact .nested (same ▸ next) inside others
  | nestedFailed next inside => exact .nestedFailed (same ▸ next) inside

/-- Reading on never gives bytes back. -/
theorem Reads.unread_le
    {building final : Building}
    {bounds : Bounds}
    {reader rest : ByteReader}
    {outcome : Except Error (Building × ByteReader)}
    (reads : Reads format options building bounds reader outcome)
    (succeeded : outcome = .ok (final, rest)) :
    rest.unread ≤ reader.unread := by
  induction reads generalizing final rest with
  | failed next => cases succeeded
  | finished next =>
      cases succeeded
      have progress := format.progress next
      rw [ByteReader.unread_setLimit] at progress
      exact progress
  | scalar next others inductionHypothesis =>
      have progress := format.progress next
      rw [ByteReader.unread_setLimit] at progress
      have later := inductionHypothesis succeeded
      omega
  | nested next inside others insideHypothesis othersHypothesis =>
      have progress := format.progress next
      rw [ByteReader.unread_setLimit] at progress
      have within := insideHypothesis rfl
      have later := othersHypothesis succeeded
      omega
  | nestedFailed next inside => cases succeeded

/-- Every container is read to its end or to an error. -/
theorem exists_reads
    (format : ElementReader)
    (options : DecodeOptions)
    (building : Building)
    (bounds : Bounds)
    (reader : ByteReader) :
    ∃ outcome, Reads format options building bounds reader outcome := by
  generalize size : reader.unread = unread
  induction unread using Nat.strongRecOn generalizing building bounds reader with
  | ind unread inductionHypothesis =>
      cases next :
          format.next options building.kind bounds (reader.setLimit bounds.stop) with
      | error error => exact ⟨_, .failed next⟩
      | ok result =>
          rcases result with ⟨⟨element, after⟩, between⟩
          have progress := format.progress next
          rw [ByteReader.unread_setLimit, size] at progress
          cases element with
          | finished => exact ⟨_, .finished next⟩
          | scalar name value =>
              obtain ⟨outcome, others⟩ :=
                inductionHypothesis between.unread progress
                  (building.attach name value) after between rfl
              exact ⟨outcome, .scalar next others⟩
          | opened name kind inner =>
              obtain ⟨outcome, inside⟩ :=
                inductionHypothesis between.unread progress
                  (.empty kind) inner between rfl
              cases outcome with
              | error error => exact ⟨_, .nestedFailed next inside⟩
              | ok result =>
                  rcases result with ⟨child, resumed⟩
                  have within := inside.unread_le rfl
                  obtain ⟨outcome, others⟩ :=
                    inductionHypothesis resumed.unread
                      (Nat.lt_of_le_of_lt within progress)
                      (building.attach name child.toValue) after resumed rfl
                  exact ⟨outcome, .nested next inside others⟩

/-- What the run does once the collection of the innermost container is complete. -/
def resume (format : ElementReader) (options : DecodeOptions)
    (key : Option String) (outer : List ReadFrame) (final : Building)
    (rest : ByteReader) : ReadOutcome :=
  match outer with
  | [] => ⟨.ok (rest.cursor, final.toDocument), []⟩
  | ⟨parent, parentKey, parentBounds⟩ :: others =>
      format.run options
        ⟨rest, ⟨parent.attach key final.toValue, parentKey, parentBounds⟩ :: others⟩

/-- The run with a container innermost does what the container's outcome says. -/
def Follows (format : ElementReader) (options : DecodeOptions)
    (key : Option String) (outer : List ReadFrame) (run : ReadOutcome) :
    Except Error (Building × ByteReader) → Prop
  | .ok (final, rest) => run = resume format options key outer final rest
  | .error error => run.result = .error error

/-- A run goes on from where a step has led. -/
theorem run_of_continued
    {state after : ReadState}
    (stepped : state.step format options = .continued after) :
    format.run options state = format.run options after := by
  rw [run]
  split
  · rename_i next same
    rw [stepped] at same
    cases same
    rfl
  · rename_i document reader other
    rw [stepped] at other
    cases other
  · rename_i error frames other
    rw [stepped] at other
    cases other

/-- A run ends with the document that a step completes. -/
theorem run_of_completed
    {state : ReadState}
    {document : Document}
    {reader : ByteReader}
    (stepped : state.step format options = .completed document reader) :
    format.run options state = ⟨.ok (reader.cursor, document), []⟩ := by
  rw [run]
  split
  · rename_i next other
    rw [stepped] at other
    cases other
  · rename_i last stopped same
    rw [stepped] at same
    cases same
    rfl
  · rename_i error frames other
    rw [stepped] at other
    cases other

/-- A run ends with the error that a step fails with. -/
theorem run_of_failed
    {state : ReadState}
    {error : Error}
    {frames : List ReadFrame}
    (stepped : state.step format options = .failed error frames) :
    format.run options state = ⟨.error error, frames⟩ := by
  rw [run]
  split
  · rename_i next other
    rw [stepped] at other
    cases other
  · rename_i document reader other
    rw [stepped] at other
    cases other
  · rename_i reported left same
    rw [stepped] at same
    cases same
    rfl

/-- The run with a list of frames has the outcome that reading by nesting has. -/
theorem run_of_reads
    {building : Building}
    {bounds : Bounds}
    {reader : ByteReader}
    {outcome : Except Error (Building × ByteReader)}
    (reads : Reads format options building bounds reader outcome)
    (key : Option String)
    (outer : List ReadFrame) :
    Follows format options key outer
      (format.run options ⟨reader, ⟨building, key, bounds⟩ :: outer⟩) outcome := by
  induction reads generalizing key outer with
  | failed next =>
      rw [run_of_failed (by simp only [ReadState.step, next]; rfl)]
      rfl
  | @finished building bounds reader after rest next =>
      cases outer with
      | nil =>
          exact run_of_completed (by simp only [ReadState.step, next])
      | cons parent others =>
          exact run_of_continued (by simp only [ReadState.step, next])
  | scalar next others inductionHypothesis =>
      rw [run_of_continued (by simp only [ReadState.step, next]; rfl)]
      exact inductionHypothesis key outer
  | nested next inside others insideHypothesis othersHypothesis =>
      rw [run_of_continued (by simp only [ReadState.step, next]; rfl),
        insideHypothesis _ (_ :: outer)]
      exact othersHypothesis key outer
  | nestedFailed next inside inductionHypothesis =>
      rw [run_of_continued (by simp only [ReadState.step, next]; rfl)]
      exact inductionHypothesis _ (_ :: outer)

/-- A document that cannot be opened is not read. -/
theorem read_of_root_failed
    {bytes : ByteArray}
    {error : Error}
    (failed : format.root options (ByteReader.ofBytes bytes) = .error error)
    (target : Document) :
    (format.read options bytes target []).result = .error error := by
  unfold read
  rw [failed]

/-- A document is read to the outcome that its root has. -/
theorem read_of_reads
    {bytes : ByteArray}
    {bounds : Bounds}
    {reader : ByteReader}
    {outcome : Except Error (Building × ByteReader)}
    (header : format.root options (ByteReader.ofBytes bytes) = .ok (bounds, reader))
    (reads : Reads format options (.empty .map) bounds reader outcome)
    (target : Document) :
    (format.read options bytes target []).result =
      outcome.map fun final => (final.2.cursor, final.1.toDocument) := by
  have followed := run_of_reads reads none []
  unfold read
  rw [header]
  change (format.run options ⟨reader, [⟨.empty .map, none, bounds⟩]⟩).result = _
  cases outcome with
  | error error => exact followed
  | ok result =>
      rcases result with ⟨final, rest⟩
      exact congrArg ReadOutcome.result followed

/-- What the root's header and its elements have to be for a document to be read. -/
theorem read_eq_ok_iff
    (format : ElementReader)
    (options : DecodeOptions)
    (bytes : ByteArray)
    (target : Document)
    (consumed : Nat)
    (document : Document) :
    (format.read options bytes target []).result = .ok (consumed, document) ↔
      ∃ bounds reader final rest,
        format.root options (ByteReader.ofBytes bytes) = .ok (bounds, reader) ∧
          Reads format options (.empty .map) bounds reader (.ok (final, rest)) ∧
            consumed = rest.cursor ∧ document = final.toDocument := by
  constructor
  · intro ran
    cases header : format.root options (ByteReader.ofBytes bytes) with
    | error error =>
        rw [read_of_root_failed header] at ran
        cases ran
    | ok result =>
        rcases result with ⟨bounds, reader⟩
        obtain ⟨outcome, reads⟩ :=
          exists_reads format options (.empty .map) bounds reader
        rw [read_of_reads header reads] at ran
        cases outcome with
        | error error => cases ran
        | ok result =>
            rcases result with ⟨final, rest⟩
            cases ran
            exact ⟨bounds, reader, final, rest, rfl, reads, rfl, rfl⟩
  · rintro ⟨bounds, reader, final, rest, header, reads, rfl, rfl⟩
    exact read_of_reads header reads target

end ElementReader

end DocumentCodec
