import DocumentCodec.Config
import DocumentCodec.Proofs.Bytes.Mirroring
import DocumentCodec.Proofs.Traversal.Sharing

namespace DocumentCodec

/-!
# The states of reading

The states that reading an input gets into, and what a step that leads on does
to the open containers: it attaches an element to the innermost one, opens one
in it, or closes it and attaches it to the one around it.

The container at a depth, which counts those around it, is given elements as
long as it is open.  `ElementReader.collect` is their sequence from a state on,
with the error that cuts it short.
-/

/-- The options of reading an input, which owns the payloads in the view mode. -/
def DecodeOptions.ofInput (maximumSize : Nat) (mode : PayloadMode)
    (input : ByteArray) : DecodeOptions where
  maximumSize := maximumSize
  shared? :=
    match mode with
    | .owned => none
    | .view => some input

/-- Options made for an input share that input or none. -/
theorem DecodeOptions.owned_ofInput
    {maximumSize : Nat}
    {mode : PayloadMode}
    {input : ByteArray} :
    ∀ owner ∈ (ofInput maximumSize mode input).shared?, owner = input := by
  intro owner owns
  cases mode with
  | owned => cases owns
  | view => exact (Option.mem_some.mp owns).symm

namespace ReadState

variable {format : ElementReader} {options : DecodeOptions} {input : ByteArray}

/-- The ends of the open containers, the innermost first. -/
def stops (state : ReadState) : List Nat :=
  state.frames.map fun frame => frame.bounds.stop

/-- The reader with which a step reads the next element of the innermost container. -/
def elementReader (state : ReadState) : ByteReader :=
  match state.frames with
  | [] => state.reader
  | frame :: _ => state.reader.setLimit frame.bounds.stop

/-- The states of reading an input: behind the root's header, and one step on. -/
inductive Reached (format : ElementReader) (options : DecodeOptions) (input : ByteArray) :
    ReadState → Prop
  | start {bounds reader} (target : Document)
      (header : format.root options (.ofBytes input) = .ok (bounds, reader)) :
      Reached format options input
        ⟨reader, [⟨.map (.ofDocument target.clear), none, bounds⟩]⟩
  | step {state after}
      (reached : Reached format options input state)
      (stepped : state.step format options = .continued after) :
      Reached format options input after

/-- What a step that leads on does to the open containers. -/
inductive Leads (format : ElementReader) (options : DecodeOptions) :
    ReadState → ReadState → Prop
  | scalar {reader building key bounds outer name value after rest}
      (next :
        format.next options building.kind bounds (reader.setLimit bounds.stop) =
          .ok ((.scalar name value, after), rest)) :
      Leads format options ⟨reader, ⟨building, key, bounds⟩ :: outer⟩
        ⟨rest, ⟨building.attach name value, key, after⟩ :: outer⟩
  | opened {reader building key bounds outer name kind inner after rest}
      (next :
        format.next options building.kind bounds (reader.setLimit bounds.stop) =
          .ok ((.opened name kind inner, after), rest)) :
      Leads format options ⟨reader, ⟨building, key, bounds⟩ :: outer⟩
        ⟨rest, ⟨.empty kind, name, inner⟩ :: ⟨building, key, after⟩ :: outer⟩
  | finished {reader building key bounds parent parentKey parentBounds outer after rest}
      (next :
        format.next options building.kind bounds (reader.setLimit bounds.stop) =
          .ok ((.finished, after), rest)) :
      Leads format options
        ⟨reader, ⟨building, key, bounds⟩ :: ⟨parent, parentKey, parentBounds⟩ :: outer⟩
        ⟨rest, ⟨parent.attach key building.toValue, parentKey, parentBounds⟩ :: outer⟩

/-- A step asks the format for the next element with this reader, and for nothing else. -/
theorem step_eq_of_next_eq
    {other : ElementReader}
    {state : ReadState}
    {building : Building}
    {key : Option String}
    {bounds : Bounds}
    {outer : List ReadFrame}
    (frames : state.frames = ⟨building, key, bounds⟩ :: outer)
    (same :
      other.next options building.kind bounds state.elementReader =
        format.next options building.kind bounds state.elementReader) :
    state.step other options = state.step format options := by
  rcases state with ⟨reader, _⟩
  cases frames
  simp only [elementReader] at same
  simp only [step, same]

/-- A step leads on in one of three ways. -/
theorem step_eq_continued_iff
    {state after : ReadState} :
    state.step format options = .continued after ↔ Leads format options state after := by
  constructor
  · intro stepped
    rcases state with ⟨reader, _ | ⟨⟨building, key, bounds⟩, outer⟩⟩
    · cases stepped
    · simp only [step] at stepped
      split at stepped
      · cases stepped
      · rename_i next
        cases stepped
        exact .scalar next
      · rename_i next
        cases stepped
        exact .opened next
      · rename_i next
        cases outer with
        | nil => cases stepped
        | cons parent others =>
            cases stepped
            exact .finished next
  · intro leads
    cases leads with
    | scalar next => simp only [step, next]
    | opened next => simp only [step, next]
    | finished next => simp only [step, next]

/-- A document is complete when its root, which no other container is around, is. -/
theorem exists_finished_of_completed
    {reader rest : ByteReader}
    {building : Building}
    {key : Option String}
    {bounds : Bounds}
    {outer : List ReadFrame}
    {document : Document}
    (stepped :
      step format options ⟨reader, ⟨building, key, bounds⟩ :: outer⟩ =
        .completed document rest) :
    outer = [] ∧
      ∃ after,
        format.next options building.kind bounds (reader.setLimit bounds.stop) =
          .ok ((.finished, after), rest) := by
  simp only [step] at stepped
  split at stepped
  · cases stepped
  · cases stepped
  · cases stepped
  · rename_i next
    cases outer with
    | nil =>
        cases stepped
        exact ⟨rfl, _, next⟩
    | cons parent others => cases stepped

/-- The run on an input goes on from every state it gets into. -/
theorem Reached.exists_run_eq_read
    {state : ReadState}
    (reached : state.Reached format options input) :
    ∃ target, format.read options input target [] = format.run options state := by
  induction reached with
  | start target header =>
      refine ⟨target, ?_⟩
      rw [ElementReader.read, header]
  | step reached stepped inductionHypothesis =>
      obtain ⟨target, same⟩ := inductionHypothesis
      exact ⟨target, same.trans (ElementReader.run_of_continued stepped)⟩

/-- A step fails when the innermost container's next element does. -/
theorem exists_next_of_failed
    {state : ReadState}
    {error : Error}
    {frames : List ReadFrame}
    (stepped : state.step format options = .failed error frames) :
    ∃ frame outer, state.frames = frame :: outer ∧
      format.next options frame.building.kind frame.bounds
        (state.reader.setLimit frame.bounds.stop) = .error error := by
  rcases state with ⟨reader, _ | ⟨⟨building, key, bounds⟩, outer⟩⟩
  · cases stepped
  · simp only [step] at stepped
    split at stepped
    · rename_i next
      cases stepped
      exact ⟨_, _, rfl, next⟩
    · cases stepped
    · cases stepped
    · cases outer <;> cases stepped

/-- A run that fails gets into a state in which the next element fails. -/
theorem Reached.exists_next_of_run
    {state : ReadState}
    {error : Error}
    (reached : state.Reached format options input)
    (failed : (format.run options state).result = .error error) :
    ∃ (last : ReadState) (frame : ReadFrame) (outer : List ReadFrame),
      last.Reached format options input ∧ last.frames = frame :: outer ∧
      format.next options frame.building.kind frame.bounds
        (last.reader.setLimit frame.bounds.stop) = .error error := by
  fun_induction ElementReader.run format options state with
  | case1 state after stepped smaller inductionHypothesis =>
      exact inductionHypothesis (reached.step stepped) failed
  | case2 state document reader stepped => cases failed
  | case3 state found frames stepped =>
      cases failed
      obtain ⟨frame, outer, shape, next⟩ := exists_next_of_failed stepped
      exact ⟨state, frame, outer, reached, shape, next⟩

/-- What the next step attaches to the open container at a depth. -/
def attached (format : ElementReader) (options : DecodeOptions) (depth : Nat) :
    ReadState → Contents
  | ⟨_, []⟩ => []
  | ⟨reader, ⟨building, key, bounds⟩ :: outer⟩ =>
      match format.next options building.kind bounds (reader.setLimit bounds.stop) with
      | .ok ((.scalar name value, _), _) =>
          if depth = outer.length then [(name, value)] else []
      | .ok ((.finished, _), _) =>
          if depth + 1 = outer.length then [(key, building.toValue)] else []
      | .ok ((.opened _ _ _, _), _) => []
      | .error _ => []

/-- A container that stays open has what the step attaches to it, and nothing else is new. -/
theorem exists_frames_of_leads
    {state after : ReadState}
    {inner outer : List ReadFrame}
    {frame : ReadFrame}
    (leads : Leads format options state after)
    (frames : state.frames = inner ++ frame :: outer)
    (stays : outer.length < after.frames.length) :
    ∃ opened bounds,
      after.frames =
        opened ++
          ⟨frame.building.attachAll (state.attached format options outer.length),
            frame.key, bounds⟩ :: outer := by
  -- a step is made in the top frame, which is the one asked for or lies above it
  cases leads with
  | @scalar reader building key bounds around name value after rest next =>
      cases inner with
      | nil =>
          cases frames
          refine ⟨[], after, ?_⟩
          simp only [attached, next, if_true]
          rfl
      | cons top others =>
          rw [List.cons_append, List.cons.injEq] at frames
          obtain ⟨rfl, rfl⟩ := frames
          have deeper : outer.length ≠ (others ++ frame :: outer).length := by
            simp only [List.length_append, List.length_cons]
            omega
          refine ⟨⟨building.attach name value, key, after⟩ :: others, frame.bounds, ?_⟩
          simp only [attached, next, if_neg deeper]
          rfl
  | @opened reader building key bounds around name kind child after rest next =>
      cases inner with
      | nil =>
          cases frames
          refine ⟨[⟨.empty kind, name, child⟩], after, ?_⟩
          simp only [attached, next]
          rfl
      | cons top others =>
          rw [List.cons_append, List.cons.injEq] at frames
          obtain ⟨rfl, rfl⟩ := frames
          refine
            ⟨⟨.empty kind, name, child⟩ :: ⟨building, key, after⟩ :: others, frame.bounds, ?_⟩
          simp only [attached, next]
          rfl
  | @finished reader building key bounds parent parentKey parentBounds around after rest next =>
      rcases inner with _ | ⟨top, _ | ⟨second, others⟩⟩
      · cases frames
        exact absurd stays (Nat.lt_irrefl _)
      · cases frames
        refine ⟨[], parentBounds, ?_⟩
        simp only [attached, next, List.length_cons, if_true]
        rfl
      · rw [List.cons_append, List.cons_append, List.cons.injEq, List.cons.injEq] at frames
        obtain ⟨rfl, rfl, rfl⟩ := frames
        have deeper :
            outer.length + 1 ≠
              (⟨parent, parentKey, parentBounds⟩ :: (others ++ frame :: outer)).length := by
          simp only [List.length_append, List.length_cons]
          omega
        refine
          ⟨⟨parent.attach key building.toValue, parentKey, parentBounds⟩ :: others,
            frame.bounds, ?_⟩
        simp only [attached, next, if_neg deeper]
        rfl

/-- Steps on inputs that begin alike: the same, with the readers at one place. -/
inductive AlikeSteps (front : Nat) : ReadStep → ReadStep → Prop
  | continued {reader twin : ByteReader} (frames : List ReadFrame)
      (mirrors : reader.Mirrors front twin) :
      AlikeSteps front (.continued ⟨reader, frames⟩) (.continued ⟨twin, frames⟩)
  | completed {reader twin : ByteReader} (document : Document)
      (mirrors : reader.Mirrors front twin) :
      AlikeSteps front (.completed document reader) (.completed document twin)
  | failed (error : Error) (frames : List ReadFrame) :
      AlikeSteps front (.failed error frames) (.failed error frames)

section Alike

variable {others : DecodeOptions} {front : Nat} {reader twin : ByteReader}
  {building : Building} {key : Option String} {bounds : Bounds} {outer : List ReadFrame}

/-- Where the innermost container's next element is the same, so is the step. -/
theorem alikeSteps_of_alike
    (alike :
      Decode.Alike front
        (format.next options building.kind bounds (reader.setLimit bounds.stop))
        (format.next others building.kind bounds (twin.setLimit bounds.stop)))
    (key : Option String)
    (outer : List ReadFrame) :
    AlikeSteps front (step format options ⟨reader, ⟨building, key, bounds⟩ :: outer⟩)
      (step format others ⟨twin, ⟨building, key, bounds⟩ :: outer⟩) := by
  simp only [step]
  generalize format.next options building.kind bounds (reader.setLimit bounds.stop) = found
    at alike ⊢
  generalize format.next others building.kind bounds (twin.setLimit bounds.stop) = twinFound
    at alike ⊢
  cases alike with
  | error error => exact .failed error _
  | @ok result rest twinRest limited mirrors =>
      rcases result with ⟨element, after⟩
      cases element with
      | scalar name value => exact .continued _ mirrors
      | opened name kind inner => exact .continued _ mirrors
      | finished =>
          cases outer with
          | nil => exact .completed _ mirrors
          | cons parent rest => exact .continued _ mirrors

/-- Readers that the next element is alike for are given the same element. -/
theorem attached_of_alike
    (alike :
      Decode.Alike front
        (format.next options building.kind bounds (reader.setLimit bounds.stop))
        (format.next others building.kind bounds (twin.setLimit bounds.stop)))
    (depth : Nat) :
    attached format others depth ⟨twin, ⟨building, key, bounds⟩ :: outer⟩ =
      attached format options depth ⟨reader, ⟨building, key, bounds⟩ :: outer⟩ := by
  simp only [attached]
  generalize format.next options building.kind bounds (reader.setLimit bounds.stop) = found
    at alike ⊢
  generalize format.next others building.kind bounds (twin.setLimit bounds.stop) = twinFound
    at alike ⊢
  cases alike with
  | error error => rfl
  | @ok result rest twinRest limited mirrors =>
      rcases result with ⟨element, after⟩
      cases element <;> rfl

end Alike

end ReadState

namespace ElementReader

/--
The elements that the container at a depth is given from a state on, and the
error at which reading stops before it is complete.
-/
def collect (format : ElementReader) (options : DecodeOptions) (depth : Nat)
    (state : ReadState) : Contents × Option Error :=
  match stepped : state.step format options with
  | .continued after =>
      have := ReadState.weight_lt_of_step stepped
      if depth < after.frames.length then
        let (contents, error?) := collect format options depth after
        (state.attached format options depth ++ contents, error?)
      else
        ([], none)
  | .completed _ _ => ([], none)
  | .failed error _ => ([], some error)
termination_by state.weight

variable {format : ElementReader} {options : DecodeOptions} {depth : Nat}

/-- While the container stays open it collects what each step attaches. -/
theorem collect_of_stays
    {state after : ReadState}
    (stepped : state.step format options = .continued after)
    (stays : depth < after.frames.length) :
    format.collect options depth state =
      (state.attached format options depth ++ (format.collect options depth after).1,
        (format.collect options depth after).2) := by
  rw [collect]
  split
  · rename_i next same
    rw [stepped] at same
    cases same
    rw [if_pos stays]
  · rename_i other
    rw [stepped] at other
    cases other
  · rename_i other
    rw [stepped] at other
    cases other

/-- A container that the step closes collects nothing more. -/
theorem collect_of_closed
    {state after : ReadState}
    (stepped : state.step format options = .continued after)
    (closed : ¬ depth < after.frames.length) :
    format.collect options depth state = ([], none) := by
  rw [collect]
  split
  · rename_i next same
    rw [stepped] at same
    cases same
    rw [if_neg closed]
  · rfl
  · rename_i other
    rw [stepped] at other
    cases other

/-- When the document is complete nothing more is collected. -/
theorem collect_of_completed
    {state : ReadState}
    {document : Document}
    {reader : ByteReader}
    (stepped : state.step format options = .completed document reader) :
    format.collect options depth state = ([], none) := by
  rw [collect]
  split
  · rename_i other
    rw [stepped] at other
    cases other
  · rfl
  · rename_i other
    rw [stepped] at other
    cases other

/-- When a step fails its error ends the collecting. -/
theorem collect_of_failed
    {state : ReadState}
    {error : Error}
    {frames : List ReadFrame}
    (stepped : state.step format options = .failed error frames) :
    format.collect options depth state = ([], some error) := by
  rw [collect]
  split
  · rename_i other
    rw [stepped] at other
    cases other
  · rename_i other
    rw [stepped] at other
    cases other
  · rename_i same
    rw [stepped] at same
    cases same
    rfl

end ElementReader

end DocumentCodec
