import DocumentCodec.Error

namespace DocumentCodec

/-!
# Byte sinks

A sink takes bytes a few at a time and may fail in between.  `writeFully`
writes until all bytes are taken, tries again after an interruption, and gives
up when the sink takes nothing.
-/

/-- What a full sink does with more bytes. -/
inductive FullSink
  /-- It takes none. -/
  | refuses
  /-- It fails each time; after an interruption it is full no longer. -/
  | fails (fault : IoFault)

/-- How a sink answers one write. -/
inductive SinkReply
  /-- It takes at most so many bytes. -/
  | takes (most : Nat)
  | fails (fault : IoFault)

/--
The bytes taken so far and the replies to come: first the scripted ones, then
at most `chunk` bytes at a time until the limit is reached.
-/
structure Sink where
  received : ByteArray
  script : List SinkReply
  chunk : Option Nat
  limit : Option (Nat × FullSink)

namespace Sink

/-- An empty sink without a script. -/
def withLimits (chunk : Option Nat) (limit : Option (Nat × FullSink)) : Sink :=
  ⟨ByteArray.empty, [], chunk, limit⟩

/-- Take out all bytes. -/
def drain (sink : Sink) : ByteArray × Sink :=
  (sink.received, { sink with received := ByteArray.empty })

/-- Take at most a number of bytes of the content from an offset on. -/
def accept (sink : Sink) (content : ByteArray) (offset most : Nat) :
    Nat × Sink :=
  let count := min most (content.size - offset)
  (count,
    { sink with
      received := sink.received ++ content.extract offset (offset + count) })

/-- The largest number of bytes that one write takes. -/
def allowance (sink : Sink) (offered : Nat) : Nat :=
  match sink.chunk with
  | some most => min offered most
  | none => offered

/-- Offer the content from an offset on. -/
def write (sink : Sink) (content : ByteArray) (offset : Nat) :
    Except IoFault Nat × Sink :=
  match sink with
  | ⟨received, .takes most :: script, chunk, limit⟩ =>
      let (count, sink) :=
        Sink.accept ⟨received, script, chunk, limit⟩ content offset most
      (.ok count, sink)
  | ⟨received, .fails fault :: script, chunk, limit⟩ =>
      (.error fault, ⟨received, script, chunk, limit⟩)
  | ⟨received, [], chunk, none⟩ =>
      let sink : Sink := ⟨received, [], chunk, none⟩
      let (count, sink) :=
        sink.accept content offset (sink.allowance (content.size - offset))
      (.ok count, sink)
  | ⟨received, [], chunk, some (limit, full)⟩ =>
      if received.size < limit then
        let sink : Sink := ⟨received, [], chunk, some (limit, full)⟩
        let most :=
          min (limit - received.size) (sink.allowance (content.size - offset))
        let (count, sink) := sink.accept content offset most
        (.ok count, sink)
      else
        match full with
        | .refuses => (.ok 0, ⟨received, [], chunk, some (limit, full)⟩)
        | .fails fault =>
            if fault.kind = .interrupted then
              (.error fault, ⟨received, [], chunk, none⟩)
            else
              (.error fault, ⟨received, [], chunk, some (limit, full)⟩)

/-- Number of failures that the sink may still report before it settles. -/
def patience (sink : Sink) : Nat :=
  sink.script.length + (if sink.limit.isSome then 1 else 0)

/-- A write never makes the sink less settled. -/
theorem patience_write_le (sink : Sink) (content : ByteArray) (offset : Nat) :
    (sink.write content offset).2.patience ≤ sink.patience := by
  unfold write
  split
  · exact Nat.add_le_add_right (Nat.le_succ _) _
  · exact Nat.add_le_add_right (Nat.le_succ _) _
  · exact Nat.le_refl _
  · split
    · simp [patience, accept]
    · split
      · exact Nat.le_refl _
      · split <;> simp [patience]

/-- A write that is interrupted makes the sink more settled. -/
theorem patience_write_lt
    {sink after : Sink}
    {content : ByteArray}
    {offset : Nat}
    {fault : IoFault}
    (interrupted : fault.kind = .interrupted)
    (failed : sink.write content offset = (.error fault, after)) :
    after.patience < sink.patience := by
  unfold write at failed
  split at failed
  · simp at failed
  · cases failed
    simp only [patience, List.length_cons]
    omega
  · simp at failed
  · split at failed
    · simp at failed
    · split at failed
      · simp at failed
      · split at failed
        · cases failed
          simp [patience]
        · rename_i other
          cases failed
          exact absurd interrupted other

/-- Write all of the content from an offset on. -/
def writeFrom (sink : Sink) (content : ByteArray) (offset : Nat) :
    Except Error Unit × Sink :=
  if content.size ≤ offset then
    (.ok (), sink)
  else
    match outcome : sink.write content offset with
    | (.ok count, after) =>
        if count = 0 then
          (.error (.io .nothingAccepted), after)
        else
          have : after.patience ≤ sink.patience := by
            have bound := patience_write_le sink content offset
            rw [outcome] at bound
            exact bound
          after.writeFrom content (offset + count)
    | (.error fault, after) =>
        if interrupted : fault.kind = .interrupted then
          have := patience_write_lt interrupted outcome
          after.writeFrom content offset
        else
          (.error (.io fault), after)
termination_by sink.patience + (content.size - offset)
decreasing_by
  all_goals omega

/-- Write all of the content. -/
def writeFully (sink : Sink) (content : ByteArray) : Except Error Unit × Sink :=
  sink.writeFrom content 0

end Sink

end DocumentCodec
