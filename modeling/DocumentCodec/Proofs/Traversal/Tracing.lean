import DocumentCodec.Proofs.Traversal.States

namespace DocumentCodec

/-!
# The calls of a reading run

A run calls for one element in every state it gets into.  `ElementReader.trace`
is the run with these states, from which the number of calls and the open
containers can be told.

A call either takes a byte or closes a container, so that there are not many
more calls than bytes.  A container is opened only by a call that takes a byte:
open containers and unread bytes together never become more.
-/

namespace ReadState

variable {format : ElementReader} {options : DecodeOptions}

/-- The open containers and the unread bytes, of which each may open another one. -/
def reserve (state : ReadState) : Nat :=
  state.frames.length + state.reader.unread

/-- The bytes that are left become no more along a run. -/
theorem Leads.reserve_le
    {state after : ReadState}
    (leads : Leads format options state after) :
    after.reserve ≤ state.reserve := by
  cases leads with
  | scalar next =>
      have progress := format.progress next
      simp only [Element.minimumSize, ByteReader.unread_setLimit] at progress
      simp only [reserve, List.length_cons]
      omega
  | opened next =>
      have progress := format.progress next
      simp only [Element.minimumSize, ByteReader.unread_setLimit] at progress
      simp only [reserve, List.length_cons]
      omega
  | finished next =>
      have progress := format.progress next
      simp only [Element.minimumSize, ByteReader.unread_setLimit] at progress
      simp only [reserve, List.length_cons]
      omega

/-- A run goes on as long as there is a container to call for an element in. -/
theorem Leads.frames_ne_nil
    {state after : ReadState}
    (leads : Leads format options state after) :
    after.frames ≠ [] := by
  cases leads with
  | scalar next => exact List.cons_ne_nil _ _
  | opened next => exact List.cons_ne_nil _ _
  | finished next => exact List.cons_ne_nil _ _

end ReadState

/-- The states in which a reading run calls for an element, in order, and its outcome. -/
structure ReadTrace where
  calls : List ReadState
  outcome : ReadOutcome

namespace ElementReader

/-- The run from a state, with the states in which it calls for an element. -/
def trace (format : ElementReader) (options : DecodeOptions) (state : ReadState) :
    ReadTrace :=
  match stepped : state.step format options with
  | .continued after =>
      have := ReadState.weight_lt_of_step stepped
      let rest := trace format options after
      ⟨state :: rest.calls, rest.outcome⟩
  | .completed document reader => ⟨[state], ⟨.ok (reader.cursor, document), []⟩⟩
  | .failed error frames => ⟨[state], ⟨.error error, frames⟩⟩
termination_by state.weight

/-- The reading of an input; without a header there is no call. -/
def traceRead (format : ElementReader) (options : DecodeOptions) (input : ByteArray)
    (target : Document) : ReadTrace :=
  match format.root options (.ofBytes input) with
  | .error error => ⟨[], ⟨.error error, []⟩⟩
  | .ok (bounds, reader) =>
      format.trace options ⟨reader, [⟨.map (.ofDocument target.clear), none, bounds⟩]⟩

variable {format : ElementReader} {options : DecodeOptions}

/-- Keeping the states changes nothing about the run. -/
theorem outcome_trace (state : ReadState) :
    (format.trace options state).outcome = format.run options state := by
  fun_induction trace format options state with
  | case1 state after stepped smaller rest inductionHypothesis =>
      rw [run_of_continued stepped]
      exact inductionHypothesis
  | case2 state document reader stepped => exact (run_of_completed stepped).symm
  | case3 state error frames stepped => exact (run_of_failed stepped).symm

/-- The traced reading comes to what reading does. -/
theorem outcome_traceRead (input : ByteArray) (target : Document) :
    (format.traceRead options input target).outcome = format.read options input target [] := by
  unfold traceRead read
  cases format.root options (.ofBytes input) with
  | error error => rfl
  | ok header => exact outcome_trace _

/-- There are no more calls than the weight, which each of them but the last lowers. -/
theorem length_trace_le
    {state : ReadState}
    (called : state.frames ≠ []) :
    (format.trace options state).calls.length ≤ state.weight := by
  have last {state : ReadState} (called : state.frames ≠ []) : 1 ≤ state.weight :=
    Nat.le_add_left_of_le (List.length_pos_iff.mpr called)
  fun_induction trace format options state with
  | case1 state after stepped smaller rest inductionHypothesis =>
      have leads := ReadState.step_eq_continued_iff.mp stepped
      exact Nat.lt_of_le_of_lt (inductionHypothesis leads.frames_ne_nil) smaller
  | case2 state document reader stepped => exact last called
  | case3 state error frames stepped => exact last called

/-- In every call there is an open container, and the reserve is not exceeded. -/
theorem reserve_of_mem_trace
    {state visited : ReadState}
    (called : state.frames ≠ [])
    (member : visited ∈ (format.trace options state).calls) :
    visited.frames ≠ [] ∧ visited.reserve ≤ state.reserve := by
  fun_induction trace format options state with
  | case1 state after stepped smaller rest inductionHypothesis =>
      have leads := ReadState.step_eq_continued_iff.mp stepped
      rcases List.mem_cons.mp member with rfl | later
      · exact ⟨called, Nat.le_refl _⟩
      · obtain ⟨occupied, within⟩ := inductionHypothesis leads.frames_ne_nil later
        exact ⟨occupied, Nat.le_trans within leads.reserve_le⟩
  | case2 state document reader stepped =>
      cases List.mem_singleton.mp member
      exact ⟨called, Nat.le_refl _⟩
  | case3 state error frames stepped =>
      cases List.mem_singleton.mp member
      exact ⟨called, Nat.le_refl _⟩

/--
Behind a header that takes a byte, reading calls fewer than twice as often as
the input has bytes, and opens no more containers than these.
-/
theorem traceRead_bounds
    (consuming : Decode.Consuming (format.root options))
    (input : ByteArray)
    (target : Document) :
    (format.traceRead options input target).calls.length ≤ 2 * input.size ∧
      ∀ state ∈ (format.traceRead options input target).calls,
        state.frames ≠ [] ∧ state.frames.length ≤ input.size := by
  unfold traceRead
  cases header : format.root options (.ofBytes input) with
  | error error =>
      refine ⟨Nat.zero_le _, fun state member => ?_⟩
      cases member
  | ok result =>
      rcases result with ⟨bounds, reader⟩
      have taken : reader.unread < input.size := consuming header
      have called :
          ReadState.frames
              ⟨reader, [⟨.map (.ofDocument target.clear), none, bounds⟩]⟩ ≠ [] :=
        List.cons_ne_nil _ _
      refine ⟨?_, fun state member => ?_⟩
      · have few := @length_trace_le format options _ called
        simp only [ReadState.weight, List.length_singleton] at few
        simp only
        omega
      · obtain ⟨occupied, within⟩ := reserve_of_mem_trace called member
        simp only [ReadState.reserve, List.length_singleton] at within
        exact ⟨occupied, by omega⟩

end ElementReader

end DocumentCodec
