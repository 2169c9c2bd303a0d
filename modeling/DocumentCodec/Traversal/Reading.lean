import DocumentCodec.Document.Builder
import DocumentCodec.Traversal.Element

namespace DocumentCodec

/-!
# Reading a document

A document is read with the containers under construction on a list of
frames, so that bytes of any nesting can be read.  Before each element the
reader's limit is set to the end of the innermost container, so that no
element is read from behind it.

`ReadState.step` reads one element, and `ElementReader.run` repeats it.  A
format promises that every element but the end of a container takes a byte
(`ElementReader.progress`), so that the steps come to an end.
-/

/-- The rules of a format for reading. -/
structure ElementReader where
  /-- Read the root's header. -/
  root : DecodeOptions → Decode Bounds
  /-- Read the next element of a container with given bounds. -/
  next : DecodeOptions → ContainerKind → Bounds → Decode (Element × Bounds)
  /-- Every element takes the bytes it must take. -/
  progress :
    ∀ {options kind bounds reader element after rest},
      next options kind bounds reader = .ok ((element, after), rest) →
        rest.unread + element.minimumSize ≤ reader.unread

/-- A collection under construction. -/
inductive Building
  | map (builder : Document.Builder)
  | array (items : Array Value)

namespace Building

/-- A collection of a kind without elements. -/
def empty : ContainerKind → Building
  | .map => map .empty
  | .array => array #[]

/-- The kind of a collection. -/
def kind : Building → ContainerKind
  | map _ => .map
  | array _ => .array

/-- Add an element; a map takes it under its key. -/
def attach (building : Building) (key : Option String) (value : Value) :
    Building :=
  match building with
  | map builder => map (builder.insert (key.getD "") value)
  | array items => array (items.push value)

/-- The collection as a value. -/
def toValue : Building → Value
  | map builder => .map builder.toDocument.entries
  | array items => .array items.toList

/-- The collection as a document; an array is none. -/
def toDocument : Building → Document
  | map builder => builder.toDocument
  | array _ => .empty

end Building

/-- An open container: its collection, its key in its parent and its bounds. -/
structure ReadFrame where
  building : Building
  key : Option String
  bounds : Bounds

/-- The reader and the open containers, the innermost first. -/
structure ReadState where
  reader : ByteReader
  frames : List ReadFrame

/-- What one step of reading leads to. -/
inductive ReadStep
  | continued (state : ReadState)
  | completed (document : Document) (reader : ByteReader)
  | failed (error : Error) (frames : List ReadFrame)

namespace ReadState

/-- A number that goes down with every step. -/
def weight (state : ReadState) : Nat :=
  2 * state.reader.unread + state.frames.length

/-- Read one element of the innermost container. -/
def step (format : ElementReader) (options : DecodeOptions)
    (state : ReadState) : ReadStep :=
  match state with
  | ⟨reader, []⟩ => .completed .empty reader
  | ⟨reader, ⟨building, key, bounds⟩ :: outer⟩ =>
      let limited := reader.setLimit bounds.stop
      match format.next options building.kind bounds limited with
      | .error error => .failed error (⟨building, key, bounds⟩ :: outer)
      | .ok ((.scalar name value, bounds), reader) =>
          .continued ⟨reader, ⟨building.attach name value, key, bounds⟩ :: outer⟩
      | .ok ((.opened name kind inner, bounds), reader) =>
          .continued ⟨reader,
            ⟨.empty kind, name, inner⟩ :: ⟨building, key, bounds⟩ :: outer⟩
      | .ok ((.finished, _), reader) =>
          match outer with
          | [] => .completed building.toDocument reader
          | ⟨parent, parentKey, parentBounds⟩ :: rest =>
              .continued ⟨reader,
                ⟨parent.attach key building.toValue, parentKey, parentBounds⟩ ::
                  rest⟩

/-- A step that leads on makes the weight smaller. -/
theorem weight_lt_of_step
    {format : ElementReader}
    {options : DecodeOptions}
    {state after : ReadState}
    (stepped : state.step format options = .continued after) :
    after.weight < state.weight := by
  rcases state with ⟨reader, frames⟩
  cases frames with
  | nil => simp [step] at stepped
  | cons frame outer =>
      rcases frame with ⟨building, key, bounds⟩
      simp only [step] at stepped
      split at stepped
      · cases stepped
      · rename_i name value after rest ran
        cases stepped
        have progress := format.progress ran
        simp only [Element.minimumSize, ByteReader.unread_setLimit] at progress
        simp only [weight, List.length_cons]
        omega
      · rename_i name kind inner after rest ran
        cases stepped
        have progress := format.progress ran
        simp only [Element.minimumSize, ByteReader.unread_setLimit] at progress
        simp only [weight, List.length_cons]
        omega
      · rename_i after rest ran
        have progress := format.progress ran
        simp only [Element.minimumSize, ByteReader.unread_setLimit] at progress
        cases outer with
        | nil => cases stepped
        | cons parent others =>
            cases stepped
            simp only [weight, List.length_cons]
            omega

end ReadState

/-- What a reading run leaves behind. -/
structure ReadOutcome where
  result : Except Error (Nat × Document)
  frames : List ReadFrame

namespace ElementReader

/-- Read elements until the outermost container is complete. -/
def run (format : ElementReader) (options : DecodeOptions)
    (state : ReadState) : ReadOutcome :=
  match stepped : state.step format options with
  | .continued after =>
      have := ReadState.weight_lt_of_step stepped
      run format options after
  | .completed document reader => ⟨.ok (reader.cursor, document), []⟩
  | .failed error frames => ⟨.error error, frames⟩
termination_by state.weight

/--
Read one document on top of given frames, into a target whose entries are
dropped.  The result tells how many bytes the document took.
-/
def read (format : ElementReader) (options : DecodeOptions)
    (bytes : ByteArray) (target : Document) (frames : List ReadFrame) :
    ReadOutcome :=
  match format.root options (ByteReader.ofBytes bytes) with
  | .error error => ⟨.error error, frames⟩
  | .ok (bounds, reader) =>
      let root := Building.map (.ofDocument target.clear)
      format.run options ⟨reader, ⟨root, none, bounds⟩ :: frames⟩

end ElementReader

end DocumentCodec
