import DocumentCodec.Bytes.Emission
import DocumentCodec.Traversal.Element

namespace DocumentCodec

/-!
# Writing a document

A document is written depth first with the open containers on a list of
frames, so that a tree of any depth can be written.  A format contributes the
emissions of scalars and of container headers, and tells whether a container
carries its own length (`Framing`).

`write` returns the frames as well: after success there are none, and after a
fault those of the containers that were still open.
-/

/-- How a container's extent is written. -/
inductive Framing
  /-- Four bytes of length in front and a zero byte at the end. -/
  | measured
  /-- The header tells how many elements follow. -/
  | counted
  deriving Repr, DecidableEq

namespace Framing

/-- The largest length that four bytes of length can tell. -/
def maximumLength : Nat := 0x7fffffff

/-- Begin a container's contents; the answer includes the offset its length counts from. -/
def start (framing : Framing) (buffer : ByteBuffer) : Nat × ByteBuffer :=
  match framing with
  | measured => buffer.reserveInt32
  | counted => (buffer.size, buffer)

/-- End the contents of the container that began at an offset. -/
def finish (framing : Framing) (start : Nat) (buffer : ByteBuffer) :
    Option EncodeFault × ByteBuffer :=
  match framing with
  | measured =>
      let closed := buffer.writeField .uint8 0
      let length := closed.size - start
      if length ≤ maximumLength then
        (none, closed.patchInt32 start length)
      else
        (some (.tooManyBytes .document length), closed)
  | counted => (none, buffer)

end Framing

/-- The rules of a format for writing. -/
structure ElementWriter where
  framing : Framing
  /-- The header of the root map. -/
  root : Document → Emission
  /-- The header of a nested container. -/
  header : Key → Container → Emission
  /-- An element that is not a container. -/
  scalar : Key → Value → Emission

/-- The elements of a container that are still to be written. -/
inductive PendingElements
  | fields (entries : Entries)
  | items (position : Nat) (items : List Value)

namespace PendingElements

/-- All elements of a container. -/
def ofContainer : Container → PendingElements
  | .map entries => fields entries
  | .array values => items 0 values

/-- The next element and those behind it. -/
def next? : PendingElements → Option (Key × Value × PendingElements)
  | fields [] => none
  | fields ((name, value) :: rest) => some (.name name, value, fields rest)
  | items _ [] => none
  | items position (value :: rest) =>
      some (.index position, value, items (position + 1) rest)

/-- A number that goes down with every element taken. -/
noncomputable def weight : PendingElements → Nat
  | fields entries => sizeOf entries
  | items _ values => sizeOf values

/-- Taking an element leaves less than it takes. -/
theorem weight_next?
    {pending rest : PendingElements}
    {key : Key}
    {value : Value}
    (taken : pending.next? = some (key, value, rest)) :
    rest.weight + sizeOf value < pending.weight := by
  match pending with
  | fields [] => simp [next?] at taken
  | fields ((name, first) :: others) =>
      simp only [next?, Option.some.injEq, Prod.mk.injEq] at taken
      obtain ⟨_, rfl, rfl⟩ := taken
      simp only [weight, List.cons.sizeOf_spec, Prod.mk.sizeOf_spec]
      omega
  | items _ [] => simp [next?] at taken
  | items position (first :: others) =>
      simp only [next?, Option.some.injEq, Prod.mk.injEq] at taken
      obtain ⟨_, rfl, rfl⟩ := taken
      simp only [weight, List.cons.sizeOf_spec]
      omega

/-- A container's elements weigh less than the container as a value. -/
theorem weight_ofContainer
    {value : Value}
    {container : Container}
    (shape : value.container? = some container) :
    (ofContainer container).weight < sizeOf value := by
  cases value <;> simp only [Value.container?, Option.some.injEq, reduceCtorEq] at shape
  all_goals
    subst shape
    simp [ofContainer, weight]

end PendingElements

/-- An open container: what is still to be written and where it began. -/
structure WriteFrame where
  pending : PendingElements
  start : Nat

/-- A number that goes down with every step of writing. -/
noncomputable def WriteFrame.totalWeight : List WriteFrame → Nat
  | [] => 0
  | frame :: outer => frame.pending.weight + 1 + totalWeight outer

/-- What a writing run leaves behind. -/
structure WriteOutcome where
  fault? : Option EncodeFault
  buffer : ByteBuffer
  frames : List WriteFrame

namespace ElementWriter

/-- Write all that the open containers still hold, the innermost first. -/
def writeFrames (writer : ElementWriter) (buffer : ByteBuffer) :
    List WriteFrame → WriteOutcome
  | [] => ⟨none, buffer, []⟩
  | frame :: outer =>
      match taken : frame.pending.next? with
      | none =>
          match writer.framing.finish frame.start buffer with
          | (none, buffer) => writeFrames writer buffer outer
          | (some fault, buffer) => ⟨some fault, buffer, outer⟩
      | some (key, value, pending) =>
          have := PendingElements.weight_next? taken
          match shape : value.container? with
          | none =>
              match buffer.emit (writer.scalar key value) with
              | (none, buffer) =>
                  writeFrames writer buffer (⟨pending, frame.start⟩ :: outer)
              | (some fault, buffer) =>
                  ⟨some fault, buffer, ⟨pending, frame.start⟩ :: outer⟩
          | some container =>
              have := PendingElements.weight_ofContainer shape
              match buffer.emit (writer.header key container) with
              | (none, buffer) =>
                  match writer.framing.start buffer with
                  | (start, buffer) =>
                      writeFrames writer buffer <|
                        ⟨.ofContainer container, start⟩ ::
                          ⟨pending, frame.start⟩ :: outer
              | (some fault, buffer) =>
                  ⟨some fault, buffer, ⟨pending, frame.start⟩ :: outer⟩
termination_by frames => WriteFrame.totalWeight frames
decreasing_by
  all_goals
    simp only [WriteFrame.totalWeight] at *
    omega

/-- Write a document behind the contents of a buffer, on top of given frames. -/
def write (writer : ElementWriter) (document : Document) (buffer : ByteBuffer)
    (frames : List WriteFrame) : WriteOutcome :=
  match buffer.emit (writer.root document) with
  | (none, buffer) =>
      match writer.framing.start buffer with
      | (start, buffer) =>
          writer.writeFrames buffer (⟨.fields document.entries, start⟩ :: frames)
  | (some fault, buffer) => ⟨some fault, buffer, frames⟩

end ElementWriter

end DocumentCodec
