import DocumentCodec.Proofs.Bytes.Buffers
import DocumentCodec.Traversal.Writing

namespace DocumentCodec

/-!
# Writing by recursion

The writer of documents keeps the open containers on a list and patches their
lengths when they end.  Here the encoding of a tree is defined by recursion,
with every length known from the contents, and the writer is shown to produce
it: the same bytes when there is no fault, and the same fault otherwise.
-/

namespace Emission

/-- What an emission comes to when nothing else is written: its bytes or its fault. -/
def outcome (emission : Emission) : Except EncodeFault (List UInt8) :=
  match emission.fault? with
  | some fault => .error fault
  | none => .ok (emission.pieces.flatMap fun piece => piece.data.toList)

/-- A piece is emitted as its bytes. -/
@[simp]
theorem outcome_piece (bytes : ByteArray) : (piece bytes).outcome = .ok bytes.data.toList := by
  simp [outcome, piece]

/-- Bytes are emitted as they are. -/
@[simp]
theorem outcome_ofList (bytes : List UInt8) : (ofList bytes).outcome = .ok bytes :=
  outcome_piece ⟨bytes.toArray⟩

/-- A byte is emitted as it is. -/
@[simp]
theorem outcome_byte (value : UInt8) : (byte value).outcome = .ok [value] :=
  outcome_ofList [value]

/-- A number is emitted as its field. -/
@[simp]
theorem outcome_field (type : FieldType) (value : Int) :
    (field type value).outcome = .ok (type.bytes value) :=
  outcome_ofList (type.bytes value)

/-- Emissions that succeed are put one behind the other. -/
theorem outcome_append_ok
    {first second : Emission}
    {front back : List UInt8}
    (before : first.outcome = .ok front)
    (after : second.outcome = .ok back) :
    (first ++ second).outcome = .ok (front ++ back) := by
  rcases first with ⟨pieces, fault?⟩
  rcases second with ⟨others, other?⟩
  cases fault? with
  | some fault => cases before
  | none =>
      cases other? with
      | some fault => cases after
      | none =>
          cases before
          cases after
          exact congrArg Except.ok List.flatMap_append

/-- What stands behind an emission that fails is not emitted. -/
theorem outcome_append_error
    {first : Emission}
    {fault : EncodeFault}
    (stopped : first.outcome = .error fault)
    (second : Emission) :
    (first ++ second).outcome = .error fault := by
  rcases first with ⟨pieces, fault?⟩
  cases fault? with
  | none => cases stopped
  | some found => exact stopped

end Emission

namespace Framing

/-- A container's contents with what marks their extent. -/
def enclose (framing : Framing) (body : List UInt8) :
    Except EncodeFault (List UInt8) :=
  match framing with
  | measured =>
      if body.length + 5 ≤ maximumLength then
        .ok (FieldType.int32.bytes (body.length + 5 : Nat) ++ body ++ [0])
      else
        .error (.tooManyBytes .document (body.length + 5))
  | counted => .ok body

/-- A measured frame needs a 32-bit length, and tells the size if it has none. -/
theorem enclose_measured (body : List UInt8) :
    measured.enclose body =
      if body.length + 5 ≤ maximumLength then
        .ok (FieldType.int32.bytes (body.length + 5 : Nat) ++ body ++ [0])
      else
        .error (.tooManyBytes .document (body.length + 5)) :=
  rfl

end Framing

namespace ElementWriter

mutual

/-- The encoding of an element: its header or all of it, and then its contents. -/
def encodeElement (writer : ElementWriter) (key : Key) :
    Value → Except EncodeFault (List UInt8)
  | .map entries => do
      let header ← (writer.header key (.map entries)).outcome
      let body ← writer.encodeFields entries
      let enclosed ← writer.framing.enclose body
      pure (header ++ enclosed)
  | .array items => do
      let header ← (writer.header key (.array items)).outcome
      let body ← writer.encodeItems 0 items
      let enclosed ← writer.framing.enclose body
      pure (header ++ enclosed)
  | value => (writer.scalar key value).outcome

/-- The encodings of a map's entries in a row. -/
def encodeFields (writer : ElementWriter) :
    List (String × Value) → Except EncodeFault (List UInt8)
  | [] => .ok []
  | (name, value) :: rest => do
      let front ← writer.encodeElement (.name name) value
      let back ← writer.encodeFields rest
      pure (front ++ back)

/-- The encodings of an array's items in a row, from a position on. -/
def encodeItems (writer : ElementWriter) (position : Nat) :
    List Value → Except EncodeFault (List UInt8)
  | [] => .ok []
  | value :: rest => do
      let front ← writer.encodeElement (.index position) value
      let back ← writer.encodeItems (position + 1) rest
      pure (front ++ back)

end

/-- The encoding of a document. -/
def encodeDocument (writer : ElementWriter) (document : Document) :
    Except EncodeFault (List UInt8) := do
  let header ← (writer.root document).outcome
  let body ← writer.encodeFields document.entries
  let enclosed ← writer.framing.enclose body
  pure (header ++ enclosed)

/-- The encodings of the elements of a container that are still to be written. -/
def encodePending (writer : ElementWriter) :
    PendingElements → Except EncodeFault (List UInt8)
  | .fields entries => writer.encodeFields entries
  | .items position values => writer.encodeItems position values

/-- When nothing is pending nothing is written. -/
theorem encodePending_of_done
    {pending : PendingElements}
    (writer : ElementWriter)
    (done : pending.next? = none) :
    writer.encodePending pending = .ok [] := by
  match pending with
  | .fields [] => rfl
  | .items _ [] => rfl
  | .fields ((_, _) :: _) => cases done
  | .items _ (_ :: _) => cases done

/-- What is pending is written element by element. -/
theorem encodePending_of_next
    {pending rest : PendingElements}
    {key : Key}
    {value : Value}
    (writer : ElementWriter)
    (taken : pending.next? = some (key, value, rest)) :
    writer.encodePending pending = (do
      let front ← writer.encodeElement key value
      let back ← writer.encodePending rest
      pure (front ++ back)) := by
  match pending with
  | .fields [] => cases taken
  | .items _ [] => cases taken
  | .fields ((_, _) :: _) =>
      cases taken
      rfl
  | .items _ (_ :: _) =>
      cases taken
      rfl

/-- A scalar is written by itself. -/
theorem encodeElement_of_scalar
    {value : Value}
    (plain : value.container? = none)
    (writer : ElementWriter)
    (key : Key) :
    writer.encodeElement key value = (writer.scalar key value).outcome := by
  cases value with
  | array items => cases plain
  | map entries => cases plain
  | _ => rfl

/-- A container is its header and what it holds, enclosed. -/
theorem encodeElement_of_container
    {value : Value}
    {container : Container}
    (shape : value.container? = some container)
    (writer : ElementWriter)
    (key : Key) :
    writer.encodeElement key value = (do
      let header ← (writer.header key container).outcome
      let body ← writer.encodePending (.ofContainer container)
      let enclosed ← writer.framing.enclose body
      pure (header ++ enclosed)) := by
  cases value <;> cases shape <;> rfl

/--
Entries are encoded when each of them is.  What is derived from their bytes is
derived entry by entry, from the last one to the first.
-/
theorem exists_encodeFields
    {writer : ElementWriter}
    {derives : List UInt8 → Entries → Prop}
    {entries : Entries}
    (none : derives [] [])
    (each : ∀ entry ∈ entries, ∃ front,
      writer.encodeElement (.name entry.1) entry.2 = .ok front ∧
        ∀ body rest, derives body rest → derives (front ++ body) (entry :: rest)) :
    ∃ body, writer.encodeFields entries = .ok body ∧ derives body entries := by
  induction entries with
  | nil => exact ⟨[], rfl, none⟩
  | cons entry rest inductionHypothesis =>
      obtain ⟨front, encodedFront, prepends⟩ := each entry List.mem_cons_self
      obtain ⟨back, encodedBack, derived⟩ :=
        inductionHypothesis fun other member => each other (List.mem_cons_of_mem _ member)
      refine ⟨front ++ back, ?_, prepends back rest derived⟩
      rw [encodeFields, encodedFront, encodedBack]
      rfl

/-- Items are encoded when each of them is, wherever it stands. -/
theorem exists_encodeItems
    {writer : ElementWriter}
    {derives : Nat → List UInt8 → List Value → Prop}
    {items : List Value}
    (none : ∀ position, derives position [] [])
    (each : ∀ item ∈ items, ∀ position, ∃ front,
      writer.encodeElement (.index position) item = .ok front ∧
        ∀ body rest, derives (position + 1) body rest →
          derives position (front ++ body) (item :: rest))
    (position : Nat) :
    ∃ body, writer.encodeItems position items = .ok body ∧ derives position body items := by
  induction items generalizing position with
  | nil => exact ⟨[], rfl, none position⟩
  | cons item rest inductionHypothesis =>
      obtain ⟨front, encodedFront, prepends⟩ := each item List.mem_cons_self position
      obtain ⟨back, encodedBack, derived⟩ :=
        inductionHypothesis
          (fun other member => each other (List.mem_cons_of_mem _ member))
          (position + 1)
      refine ⟨front ++ back, ?_, prepends back rest derived⟩
      rw [encodeItems, encodedFront, encodedBack]
      rfl

/-- An emission that succeeds is appended to the buffer. -/
theorem emit_of_ok
    {emission : Emission}
    {added : List UInt8}
    (written : emission.outcome = .ok added)
    (buffer : ByteBuffer) :
    ∃ after, buffer.emit emission = (none, after) ∧ buffer.Appended added after := by
  rcases emission with ⟨pieces, fault?⟩
  cases fault? with
  | some fault => cases written
  | none =>
      cases written
      exact ⟨_, rfl, buffer.appended_writeAll pieces⟩

/-- An emission that fails has its fault returned. -/
theorem emit_of_error
    {emission : Emission}
    {fault : EncodeFault}
    (stopped : emission.outcome = .error fault)
    (buffer : ByteBuffer) :
    ∃ after, buffer.emit emission = (some fault, after) := by
  rcases emission with ⟨pieces, fault?⟩
  cases fault? with
  | none => cases stopped
  | some found =>
      cases stopped
      exact ⟨_, rfl⟩

/-- Contents between a reserved length and a zero byte take five bytes more. -/
theorem appended_measured
    {buffer after : ByteBuffer}
    {body : List UInt8}
    (filled : (buffer.writeField .int32 0).Appended body after) :
    buffer.Appended (FieldType.int32.bytes 0 ++ (body ++ FieldType.uint8.bytes 0))
        (after.writeField .uint8 0) ∧
      (after.writeField .uint8 0).size - buffer.size = body.length + 5 := by
  have reserved := buffer.appended_writeField .int32 0
  have closed := (reserved.trans filled).trans (after.appended_writeField .uint8 0)
  rw [List.append_assoc] at closed
  have size := closed.size_eq
  rw [List.length_append, List.length_append, FieldType.length_bytes,
    FieldType.length_bytes] at size
  change _ = buffer.size + (4 + (body.length + 1)) at size
  exact ⟨closed, by omega⟩

/-- Ending a container's contents makes of them what enclosing them does. -/
theorem finish_of_ok
    {framing : Framing}
    {buffer opened after : ByteBuffer}
    {start : Nat}
    {body enclosed : List UInt8}
    (started : framing.start buffer = (start, opened))
    (filled : opened.Appended body after)
    (fits : framing.enclose body = .ok enclosed) :
    ∃ closed, framing.finish start after = (none, closed) ∧
      buffer.Appended enclosed closed := by
  cases framing with
  | counted =>
      cases started
      cases fits
      exact ⟨after, rfl, filled⟩
  | measured =>
      cases started
      obtain ⟨closed, length⟩ := appended_measured filled
      rw [Framing.enclose_measured] at fits
      split at fits
      · rename_i small
        cases fits
        refine ⟨_, ?_, closed.patchInt32 (FieldType.int32.length_bytes 0) _⟩
        unfold Framing.finish
        simp only [length, small, if_true]
      · cases fits

/-- A frame that cannot enclose its body has the fault returned. -/
theorem finish_of_error
    {framing : Framing}
    {buffer opened after : ByteBuffer}
    {start : Nat}
    {body : List UInt8}
    {fault : EncodeFault}
    (started : framing.start buffer = (start, opened))
    (filled : opened.Appended body after)
    (refused : framing.enclose body = .error fault) :
    ∃ closed, framing.finish start after = (some fault, closed) := by
  cases framing with
  | counted => cases refused
  | measured =>
      cases started
      obtain ⟨_, length⟩ := appended_measured filled
      rw [Framing.enclose_measured] at refused
      split at refused
      · cases refused
      · rename_i large
        cases refused
        refine ⟨after.writeField .uint8 0, ?_⟩
        unfold Framing.finish
        simp only [length, large, if_false]

section Steps

variable {writer : ElementWriter} {buffer : ByteBuffer} {pending rest : PendingElements}
  {start : Nat} {outer : List WriteFrame} {key : Key} {value : Value}

/-- Without open containers the writing is done. -/
theorem writeFrames_nil (writer : ElementWriter) (buffer : ByteBuffer) :
    writer.writeFrames buffer [] = ⟨none, buffer, []⟩ := by
  rw [writeFrames]

/-- A container with nothing pending is finished, and its parent goes on. -/
theorem writeFrames_of_done (done : pending.next? = none) :
    writer.writeFrames buffer (⟨pending, start⟩ :: outer) =
      match writer.framing.finish start buffer with
      | (none, buffer) => writer.writeFrames buffer outer
      | (some fault, buffer) => ⟨some fault, buffer, outer⟩ := by
  rw [writeFrames]
  split
  · rfl
  · rename_i taken
    rw [done] at taken
    cases taken

/-- A pending scalar is emitted, and its container goes on. -/
theorem writeFrames_of_scalar
    (taken : pending.next? = some (key, value, rest))
    (plain : value.container? = none) :
    writer.writeFrames buffer (⟨pending, start⟩ :: outer) =
      match buffer.emit (writer.scalar key value) with
      | (none, buffer) => writer.writeFrames buffer (⟨rest, start⟩ :: outer)
      | (some fault, buffer) => ⟨some fault, buffer, ⟨rest, start⟩ :: outer⟩ := by
  rw [writeFrames]
  split
  · rename_i none
    rw [taken] at none
    cases none
  · rename_i other
    rw [taken] at other
    cases other
    split
    · rfl
    · rename_i shape
      rw [plain] at shape
      cases shape

/-- A pending container has its header emitted, and is opened. -/
theorem writeFrames_of_container
    {container : Container}
    (taken : pending.next? = some (key, value, rest))
    (shape : value.container? = some container) :
    writer.writeFrames buffer (⟨pending, start⟩ :: outer) =
      match buffer.emit (writer.header key container) with
      | (none, buffer) =>
          match writer.framing.start buffer with
          | (inner, buffer) =>
              writer.writeFrames buffer
                (⟨.ofContainer container, inner⟩ :: ⟨rest, start⟩ :: outer)
      | (some fault, buffer) => ⟨some fault, buffer, ⟨rest, start⟩ :: outer⟩ := by
  rw [writeFrames]
  split
  · rename_i none
    rw [taken] at none
    cases none
  · rename_i other
    rw [taken] at other
    cases other
    split
    · rename_i plain
      rw [shape] at plain
      cases plain
    · rename_i same
      rw [shape] at same
      cases same
      rfl

end Steps

/-- What the writer does with a container innermost whose contents have an encoding. -/
def Follows (writer : ElementWriter) (buffer : ByteBuffer) (pending : PendingElements)
    (start : Nat) (outer : List WriteFrame) :
    Except EncodeFault (List UInt8) → Prop
  | .ok body =>
      ∃ after done, buffer.Appended body after ∧ done.next? = none ∧
        writer.writeFrames buffer (⟨pending, start⟩ :: outer) =
          writer.writeFrames after (⟨done, start⟩ :: outer)
  | .error fault =>
      (writer.writeFrames buffer (⟨pending, start⟩ :: outer)).fault? = some fault

/-- Writing an element leads to where its encoding ends, or to its fault. -/
theorem follows_element
    {writer : ElementWriter}
    {pending rest : PendingElements}
    {key : Key}
    {value : Value}
    (taken : pending.next? = some (key, value, rest))
    (buffer : ByteBuffer)
    (start : Nat)
    (outer : List WriteFrame)
    (inside :
      ∀ container, value.container? = some container →
        ∀ buffer start outer,
          Follows writer buffer (.ofContainer container) start outer
            (writer.encodePending (.ofContainer container))) :
    match writer.encodeElement key value with
    | .ok front =>
        ∃ after, buffer.Appended front after ∧
          writer.writeFrames buffer (⟨pending, start⟩ :: outer) =
            writer.writeFrames after (⟨rest, start⟩ :: outer)
    | .error fault =>
        (writer.writeFrames buffer (⟨pending, start⟩ :: outer)).fault? = some fault := by
  cases shape : value.container? with
  | none =>
      rw [encodeElement_of_scalar shape, writeFrames_of_scalar taken shape]
      cases written : (writer.scalar key value).outcome with
      | error fault =>
          obtain ⟨after, emitted⟩ := emit_of_error written buffer
          rw [emitted]
      | ok front =>
          obtain ⟨after, emitted, appended⟩ := emit_of_ok written buffer
          rw [emitted]
          exact ⟨after, appended, rfl⟩
  | some container =>
      rw [encodeElement_of_container shape, writeFrames_of_container taken shape]
      cases written : (writer.header key container).outcome with
      | error fault =>
          obtain ⟨after, emitted⟩ := emit_of_error written buffer
          rw [emitted]
          rfl
      | ok header =>
          obtain ⟨behind, emitted, appended⟩ := emit_of_ok written buffer
          rw [emitted]
          rcases started : writer.framing.start behind with ⟨inner, opened⟩
          have follows := inside container shape opened inner (⟨rest, start⟩ :: outer)
          cases contents : writer.encodePending (.ofContainer container) with
          | error fault =>
              rw [contents] at follows
              simp only [started]
              exact follows
          | ok body =>
              rw [contents] at follows
              obtain ⟨filled, done, appendedBody, finished, same⟩ := follows
              simp only [started, same, writeFrames_of_done finished, bind, Except.bind]
              cases enclosing : writer.framing.enclose body with
              | error fault =>
                  obtain ⟨closed, ended⟩ :=
                    finish_of_error started appendedBody enclosing
                  rw [ended]
              | ok enclosed =>
                  obtain ⟨closed, ended, appendedAll⟩ :=
                    finish_of_ok started appendedBody enclosing
                  rw [ended]
                  exact ⟨closed, appended.trans appendedAll, rfl⟩

/-- With a container innermost, the writer writes what its elements are encoded as. -/
theorem follows_pending
    (writer : ElementWriter)
    (buffer : ByteBuffer)
    (pending : PendingElements)
    (start : Nat)
    (outer : List WriteFrame) :
    Follows writer buffer pending start outer (writer.encodePending pending) := by
  generalize size : pending.weight = weight
  induction weight using Nat.strongRecOn generalizing pending buffer start outer with
  | ind weight inductionHypothesis =>
      cases taken : pending.next? with
      | none =>
          rw [encodePending_of_done writer taken]
          exact ⟨buffer, pending, .refl buffer, taken, rfl⟩
      | some found =>
          rcases found with ⟨key, value, rest⟩
          have lighter := PendingElements.weight_next? taken
          have element := follows_element taken buffer start outer
            fun container shape buffer start outer =>
              inductionHypothesis _
                (by
                  have inner := PendingElements.weight_ofContainer shape
                  omega)
                buffer (.ofContainer container) start outer rfl
          rw [encodePending_of_next writer taken]
          cases encoded : writer.encodeElement key value with
          | error fault =>
              rw [encoded] at element
              exact element
          | ok front =>
              rw [encoded] at element
              obtain ⟨between, appended, same⟩ := element
              -- the value is lighter than what was pending, and so is the rest
              have others :=
                inductionHypothesis rest.weight (by omega) between rest start outer rfl
              cases remaining : writer.encodePending rest with
              | error fault =>
                  rw [remaining] at others
                  change (writer.writeFrames _ _).fault? = some fault
                  rw [same]
                  exact others
              | ok back =>
                  rw [remaining] at others
                  obtain ⟨after, done, appendedBack, finished, sameOthers⟩ := others
                  exact ⟨after, done, appended.trans appendedBack, finished,
                    same.trans sameOthers⟩

/--
Started without open containers, the writer appends the encoding of a document
and leaves none open, or stops with the fault of the encoding.
-/
theorem write_eq_encodeDocument
    (writer : ElementWriter)
    (document : Document)
    (buffer : ByteBuffer) :
    match writer.encodeDocument document with
    | .ok encoded =>
        ∃ after, writer.write document buffer [] = ⟨none, after, []⟩ ∧
          buffer.Appended encoded after
    | .error fault => (writer.write document buffer []).fault? = some fault := by
  unfold encodeDocument write
  cases written : (writer.root document).outcome with
  | error fault =>
      obtain ⟨after, emitted⟩ := emit_of_error written buffer
      rw [emitted]
      rfl
  | ok header =>
      obtain ⟨behind, emitted, appended⟩ := emit_of_ok written buffer
      rw [emitted]
      rcases started : writer.framing.start behind with ⟨start, opened⟩
      have follows := follows_pending writer opened (.fields document.entries) start []
      change Follows writer opened _ start [] (writer.encodeFields document.entries)
        at follows
      cases contents : writer.encodeFields document.entries with
      | error fault =>
          rw [contents] at follows
          simp only [started]
          exact follows
      | ok body =>
          rw [contents] at follows
          obtain ⟨filled, done, appendedBody, finished, same⟩ := follows
          simp only [started, same, writeFrames_of_done finished, bind, Except.bind]
          cases enclosing : writer.framing.enclose body with
          | error fault =>
              obtain ⟨closed, ended⟩ := finish_of_error started appendedBody enclosing
              rw [ended]
          | ok enclosed =>
              obtain ⟨closed, ended, appendedAll⟩ :=
                finish_of_ok started appendedBody enclosing
              rw [ended]
              exact ⟨closed, writeFrames_nil writer closed, appended.trans appendedAll⟩

end ElementWriter

end DocumentCodec
