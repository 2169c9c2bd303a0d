import DocumentCodec.Proofs.Bson.Confinement
import DocumentCodec.Proofs.Traversal.States

namespace DocumentCodec.Bson

/-!
# Containers stay inside their bounds

Every state of reading has its open containers inside one another and the
reader inside all of them (`Encloses`), which one step preserves.  What happens
before a container's declared end happens in every input that begins with the
same bytes: the states up to there are mirrored, and so are the elements that
the container is given afterwards and the error that cuts them short.
-/

open Decode ReadState

variable {maximumSize front : Nat} {mode : PayloadMode} {input other : ByteArray}

/--
The reader stands before the end of the innermost container, every container
ends before the one around it, and the root before the end of the input.
-/
structure Encloses (input : ByteArray) (state : ReadState) : Prop where
  ofInput : state.reader.bytes = input
  opened : state.frames ≠ []
  ordered : (state.reader.cursor :: (state.stops ++ [input.size])).IsChain (· ≤ ·)

/-- What was found has been gone over. -/
theorem Found.exists_passes
    {kind : ContainerKind}
    {bounds : Bounds}
    {reader rest : ByteReader}
    {element : Element}
    (found : Found kind bounds reader element rest) :
    ∃ taken, reader.Passes taken rest := by
  cases found with
  | finished passes last => exact ⟨_, passes⟩
  | scalar named held passes => exact ⟨_, passes⟩
  | opened named fits passes inside => exact ⟨_, passes⟩

/-- A container is finished at its end and nowhere before. -/
theorem Found.cursor_of_finished
    {kind : ContainerKind}
    {bounds : Bounds}
    {reader rest : ByteReader}
    (found : Found kind bounds reader .finished rest) :
    rest.cursor = bounds.stop := by
  cases found with
  | finished passes last => exact last

namespace Encloses

section Top

variable {reader rest : ByteReader} {building : Building} {key : Option String}
  {bounds after : Bounds} {outer : List ReadFrame} {element : Element}
  (encloses : Encloses input ⟨reader, ⟨building, key, bounds⟩ :: outer⟩)

include encloses

/-- Inside a container the reader is not behind its end. -/
theorem cursor_le : reader.cursor ≤ bounds.stop :=
  (List.isChain_cons_cons.mp encloses.ordered).1

/-- The containers around the innermost one, with what ends it. -/
theorem around :
    (bounds.stop :: (ReadState.stops ⟨reader, outer⟩ ++ [input.size])).IsChain (· ≤ ·) :=
  (List.isChain_cons_cons.mp encloses.ordered).2

/-- No container that is open ends behind the input. -/
theorem stop_le : bounds.stop ≤ input.size := by
  have sorted := encloses.around.pairwise
  exact (List.pairwise_cons.mp sorted).1 _ (List.mem_append_right _ List.mem_cons_self)

/-- The innermost container ends before every other one. -/
theorem top_le
    {inner others : List Nat}
    {stop : Nat}
    (stops : ReadState.stops ⟨reader, ⟨building, key, bounds⟩ :: outer⟩ = inner ++ stop :: others) :
    bounds.stop ≤ stop := by
  have sorted := encloses.around.pairwise
  cases inner with
  | nil => exact Nat.le_of_eq (List.cons.inj stops).1
  | cons top inner =>
      have outside : stop ∈ ReadState.stops ⟨reader, outer⟩ := by
        rw [ReadState.stops, (List.cons.inj stops).2]
        exact List.mem_append_right _ List.mem_cons_self
      exact (List.pairwise_cons.mp sorted).1 _ (List.mem_append_left _ outside)

/-- The limit that is set for the innermost container is its end. -/
theorem limit_eq : (reader.setLimit bounds.stop).limit = bounds.stop :=
  ByteReader.limit_setLimit <| by
    rw [encloses.ofInput]
    exact encloses.stop_le

/-- An element leaves the reader inside its container, whose bounds stay as they are. -/
theorem next
    (next :
      Bson.reader.next (.ofInput maximumSize mode input) building.kind bounds
          (reader.setLimit bounds.stop) =
        .ok ((element, after), rest)) :
    after = bounds ∧ Found building.kind bounds (reader.setLimit bounds.stop) element rest ∧
      rest.bytes = input ∧ rest.limit = bounds.stop ∧ rest.cursor ≤ bounds.stop ∧
        reader.cursor ≤ rest.cursor := by
  obtain ⟨same, found⟩ :=
    found_of_next DecodeOptions.owned_ofInput encloses.ofInput encloses.cursor_le
      encloses.limit_eq next
  obtain ⟨taken, passes⟩ := found.exists_passes
  have limit := passes.limit_eq.trans encloses.limit_eq
  refine ⟨same, found, passes.bytes_eq.trans encloses.ofInput, limit, ?_, ?_⟩
  · exact limit ▸ passes.inBounds
  · rw [passes.cursor_eq]
    exact Nat.le_add_right _ _

end Top

/-- What a step leads to is enclosed as well, and the reader has not gone back. -/
theorem leads
    {state after : ReadState}
    (encloses : Encloses input state)
    (leads : Leads Bson.reader (.ofInput maximumSize mode input) state after) :
    Encloses input after ∧ state.reader.cursor ≤ after.reader.cursor := by
  cases leads with
  | scalar next =>
      obtain ⟨rfl, -, ofInput, -, below, onward⟩ := encloses.next next
      have ordered := List.isChain_cons_cons.mpr ⟨below, encloses.around⟩
      exact ⟨⟨ofInput, List.cons_ne_nil _ _, ordered⟩, onward⟩
  | opened next =>
      obtain ⟨rfl, found, ofInput, -, below, onward⟩ := encloses.next next
      cases found with
      | opened named fits passes inside =>
          have ordered := List.isChain_cons_cons.mpr ⟨inside, encloses.around⟩
          refine ⟨⟨ofInput, List.cons_ne_nil _ _, ?_⟩, onward⟩
          exact List.isChain_cons_cons.mpr ⟨by dsimp only; omega, ordered⟩
  | finished next =>
      obtain ⟨rfl, found, ofInput, -, below, onward⟩ := encloses.next next
      cases found with
      | finished passes last =>
          refine ⟨⟨ofInput, List.cons_ne_nil _ _, ?_⟩, onward⟩
          have ordered := encloses.around
          rw [← last] at ordered
          exact ordered

end Encloses

/-- Behind the root's header the root encloses the reader. -/
theorem encloses_of_root
    {bounds : Bounds}
    {reader : ByteReader}
    (header :
      readRoot (.ofInput maximumSize mode input) (.ofBytes input) = .ok (bounds, reader))
    (target : Document) :
    Encloses input ⟨reader, [⟨.map (.ofDocument target.clear), none, bounds⟩]⟩ := by
  obtain ⟨size, fits, within, present, passes, rfl⟩ :=
    (readRoot_eq_ok_iff _ input bounds reader).mp header
  have moved : reader.cursor = 4 := by
    rw [passes.cursor_eq, FieldType.length_bytes]
    rfl
  refine ⟨passes.bytes_eq, List.cons_ne_nil _ _, ?_⟩
  refine List.isChain_cons_cons.mpr ⟨?_, List.isChain_cons_cons.mpr ⟨present, .singleton _⟩⟩
  change reader.cursor ≤ size + 5
  omega

/-- Every state of reading is enclosed. -/
theorem encloses_of_reached
    {state : ReadState}
    (reached : state.Reached Bson.reader (.ofInput maximumSize mode input) input) :
    Encloses input state := by
  induction reached with
  | start target header => exact encloses_of_root header target
  | step reached stepped inductionHypothesis =>
      exact (inductionHypothesis.leads (step_eq_continued_iff.mp stepped)).1

/-- Inputs of one size that begin alike are opened alike. -/
theorem exists_readRoot_mirror
    {bounds : Bounds}
    {reader : ByteReader}
    (header :
      readRoot (.ofInput maximumSize mode input) (.ofBytes input) = .ok (bounds, reader))
    (mirrors : (ByteReader.ofBytes input).Mirrors front (.ofBytes other))
    (before : reader.cursor ≤ front) :
    ∃ twin,
      readRoot (.ofInput maximumSize mode other) (.ofBytes other) = .ok (bounds, twin) ∧
        reader.Mirrors front twin := by
  obtain ⟨size, fits, within, present, passes, rfl⟩ :=
    (readRoot_eq_ok_iff _ input bounds reader).mp header
  obtain ⟨twin, twinPasses, mirrorsRest⟩ := mirrors.exists_passes passes before
  have sameSize : other.size = input.size := mirrors.size_eq
  exact ⟨twin,
    (readRoot_eq_ok_iff _ other _ twin).mpr
      ⟨size, fits, within, sameSize ▸ present, twinPasses, rfl⟩,
    mirrorsRest⟩

section Top

variable {reader twin rest : ByteReader} {building : Building} {key : Option String}
  {bounds after : Bounds} {outer : List ReadFrame} {element : Element}

/-- An element that ends before the offset is read from the other input as well. -/
theorem exists_next_mirror
    (encloses : Encloses input ⟨reader, ⟨building, key, bounds⟩ :: outer⟩)
    (twinEncloses : Encloses other ⟨twin, ⟨building, key, bounds⟩ :: outer⟩)
    (mirrors : reader.Mirrors front twin)
    (next :
      Bson.reader.next (.ofInput maximumSize mode input) building.kind bounds
          (reader.setLimit bounds.stop) =
        .ok ((element, after), rest))
    (before : rest.cursor ≤ front) :
    ∃ twinRest,
      Bson.reader.next (.ofInput maximumSize mode other) building.kind bounds
            (twin.setLimit bounds.stop) =
          .ok ((element, after), twinRest) ∧
        rest.Mirrors front twinRest := by
  obtain ⟨rfl, found, -⟩ := encloses.next next
  obtain ⟨twinRest, twinFound, mirrorsRest⟩ :=
    found.exists_mirror (mirrors.setLimit after.stop) before
  have sameInput : (twin.setLimit after.stop).bytes = other := twinEncloses.ofInput
  exact ⟨twinRest,
    readElement_of_found DecodeOptions.owned_ofInput sameInput twinEncloses.limit_eq twinFound,
    mirrorsRest⟩

/-- In a container that ends before the offset even the faults are the same. -/
theorem next_alike
    (maximumSize : Nat)
    (mode : PayloadMode)
    (encloses : Encloses input ⟨reader, ⟨building, key, bounds⟩ :: outer⟩)
    (ofOther : twin.bytes = other)
    (mirrors : reader.Mirrors front twin)
    (within : bounds.stop ≤ front) :
    Alike front
      (Bson.reader.next (.ofInput maximumSize mode input) building.kind bounds
        (reader.setLimit bounds.stop))
      (Bson.reader.next (.ofInput maximumSize mode other) building.kind bounds
        (twin.setLimit bounds.stop)) := by
  have owned :
      ∀ owner ∈ (DecodeOptions.ofInput maximumSize mode input).shared?,
        owner = (reader.setLimit bounds.stop).bytes :=
    encloses.ofInput ▸ DecodeOptions.owned_ofInput
  have twinOwned :
      ∀ owner ∈ (DecodeOptions.ofInput maximumSize mode other).shared?,
        owner = (twin.setLimit bounds.stop).bytes :=
    ofOther ▸ DecodeOptions.owned_ofInput
  rw [sharesInput.next _ owned, sharesInput.next _ twinOwned]
  exact readElement_confined rfl building.kind bounds
    (Nat.le_trans (Nat.le_of_eq encloses.limit_eq) within) (mirrors.setLimit bounds.stop)

end Top

/-- A step that ends before the offset is taken in the other input as well. -/
theorem exists_leads_mirror
    {state after : ReadState}
    {twin : ByteReader}
    (encloses : Encloses input state)
    (twinEncloses : Encloses other ⟨twin, state.frames⟩)
    (mirrors : state.reader.Mirrors front twin)
    (leads : Leads Bson.reader (.ofInput maximumSize mode input) state after)
    (before : after.reader.cursor ≤ front) :
    ∃ twinRest,
      Leads Bson.reader (.ofInput maximumSize mode other) ⟨twin, state.frames⟩
          ⟨twinRest, after.frames⟩ ∧
        after.reader.Mirrors front twinRest := by
  cases leads with
  | scalar next =>
      obtain ⟨twinRest, twinNext, mirrorsRest⟩ :=
        exists_next_mirror encloses twinEncloses mirrors next before
      exact ⟨twinRest, .scalar twinNext, mirrorsRest⟩
  | opened next =>
      obtain ⟨twinRest, twinNext, mirrorsRest⟩ :=
        exists_next_mirror encloses twinEncloses mirrors next before
      exact ⟨twinRest, .opened twinNext, mirrorsRest⟩
  | finished next =>
      obtain ⟨twinRest, twinNext, mirrorsRest⟩ :=
        exists_next_mirror encloses twinEncloses mirrors next before
      exact ⟨twinRest, .finished twinNext, mirrorsRest⟩

/-- A state before the offset is got into in the other input as well. -/
theorem exists_reached_mirror
    {state : ReadState}
    (reached : state.Reached Bson.reader (.ofInput maximumSize mode input) input)
    (mirrors : (ByteReader.ofBytes input).Mirrors front (.ofBytes other))
    (before : state.reader.cursor ≤ front) :
    ∃ twin,
      Reached Bson.reader (.ofInput maximumSize mode other) other ⟨twin, state.frames⟩ ∧
        state.reader.Mirrors front twin := by
  induction reached with
  | start target header =>
      obtain ⟨twin, twinHeader, mirrorsRest⟩ := exists_readRoot_mirror header mirrors before
      exact ⟨twin, .start target twinHeader, mirrorsRest⟩
  | @step state after reached stepped inductionHypothesis =>
      have encloses := encloses_of_reached reached
      have leads := step_eq_continued_iff.mp stepped
      obtain ⟨twin, twinReached, mirrorsState⟩ :=
        inductionHypothesis (Nat.le_trans (encloses.leads leads).2 before)
      obtain ⟨twinRest, twinLeads, mirrorsRest⟩ :=
        exists_leads_mirror encloses (encloses_of_reached twinReached) mirrorsState leads before
      exact ⟨twinRest, twinReached.step (step_eq_continued_iff.mpr twinLeads), mirrorsRest⟩

/-- A container stays where it is among the open ones until it is closed. -/
theorem Encloses.exists_stops_of_leads
    {state after : ReadState}
    {inner outer : List Nat}
    {stop : Nat}
    (encloses : Encloses input state)
    (leads : Leads Bson.reader (.ofInput maximumSize mode input) state after)
    (stops : state.stops = inner ++ stop :: outer)
    (stays : outer.length < after.frames.length) :
    ∃ opened, after.stops = opened ++ stop :: outer := by
  cases leads with
  | scalar next =>
      obtain ⟨rfl, -⟩ := encloses.next next
      exact ⟨inner, stops⟩
  | @opened _ _ _ _ _ _ _ child _ _ next =>
      obtain ⟨rfl, -⟩ := encloses.next next
      exact ⟨child.stop :: inner, congrArg (child.stop :: ·) stops⟩
  | finished next =>
      cases inner with
      | cons top others => exact ⟨others, (List.cons.inj stops).2⟩
      | nil =>
          have length := congrArg List.length (List.cons.inj stops).2
          rw [← length, List.length_cons, List.length_map] at stays
          exact absurd stays (Nat.lt_irrefl _)

/--
A container that ends before the offset is given the same elements, and reading
stops in it at the same error.
-/
theorem collect_mirror
    (maximumSize : Nat)
    (mode : PayloadMode)
    {state : ReadState}
    {twin : ByteReader}
    {inner outer : List Nat}
    {stop : Nat}
    (encloses : Encloses input state)
    (stops : state.stops = inner ++ stop :: outer)
    (within : stop ≤ front)
    (mirrors : state.reader.Mirrors front twin)
    (ofOther : twin.bytes = other) :
    Bson.reader.collect (.ofInput maximumSize mode other) outer.length ⟨twin, state.frames⟩ =
      Bson.reader.collect (.ofInput maximumSize mode input) outer.length state := by
  generalize size : state.weight = weight
  induction weight using Nat.strongRecOn generalizing state twin inner with
  | ind weight inductionHypothesis =>
      rcases state with ⟨reader, _ | ⟨⟨building, key, bounds⟩, around⟩⟩
      · exact absurd rfl encloses.opened
      · have topWithin : bounds.stop ≤ front := Nat.le_trans (encloses.top_le stops) within
        have alike := next_alike maximumSize mode encloses ofOther mirrors topWithin
        have alikeSteps := alikeSteps_of_alike alike key around
        generalize stepped : step Bson.reader _ ⟨reader, ⟨building, key, bounds⟩ :: around⟩ =
          outcome at alikeSteps
        generalize twinStepped : step Bson.reader _ ⟨twin, ⟨building, key, bounds⟩ :: around⟩ =
          twinOutcome at alikeSteps
        cases alikeSteps with
        | failed error frames =>
            rw [ElementReader.collect_of_failed stepped,
              ElementReader.collect_of_failed twinStepped]
        | completed document mirrorsRest =>
            rw [ElementReader.collect_of_completed stepped,
              ElementReader.collect_of_completed twinStepped]
        | @continued rest twinRest frames mirrorsRest =>
            by_cases stays : outer.length < frames.length
            · have leads := step_eq_continued_iff.mp stepped
              obtain ⟨opened, stopsAfter⟩ := encloses.exists_stops_of_leads leads stops stays
              have twinOwned :
                  ∀ owner ∈ (DecodeOptions.ofInput maximumSize mode other).shared?,
                    owner = twin.bytes :=
                ofOther ▸ DecodeOptions.owned_ofInput
              have restOther := sharesInput.step_keeps twinOwned twinStepped
              rw [ElementReader.collect_of_stays stepped stays,
                ElementReader.collect_of_stays twinStepped stays, attached_of_alike alike,
                inductionHypothesis _ (size ▸ weight_lt_of_step stepped)
                  (encloses.leads leads).1 stopsAfter mirrorsRest (restOther.trans ofOther) rfl]
            · rw [ElementReader.collect_of_closed stepped stays,
                ElementReader.collect_of_closed twinStepped stays]

/-- Where a container is closed, the reader stands at its declared end. -/
theorem Encloses.cursor_of_closed
    {reader rest : ByteReader}
    {building : Building}
    {key : Option String}
    {bounds : Bounds}
    {outer frames : List ReadFrame}
    (encloses : Encloses input ⟨reader, ⟨building, key, bounds⟩ :: outer⟩)
    (leads :
      Leads Bson.reader (.ofInput maximumSize mode input)
        ⟨reader, ⟨building, key, bounds⟩ :: outer⟩ ⟨rest, frames⟩)
    (closed : frames.length ≤ outer.length) :
    rest.cursor = bounds.stop := by
  cases leads with
  | scalar next => exact absurd closed (Nat.not_succ_le_self _)
  | opened next =>
      simp only [List.length_cons] at closed
      omega
  | finished next => exact (encloses.next next).2.1.cursor_of_finished

/--
Reading stays inside the declared bounds in every state, whatever comes of it.
The ends of the open containers grow from the innermost one outwards, up to the
end of the input.  A step reads an element with a reader whose limit is the end
of its container, which the reader does not pass, and where a container is
closed, be it in another one or the root, the reader stands exactly at its end.

What an open container is given from there on, and the error that reading stops
at in it, depend on nothing behind its end: an input of the same size that
begins with the same bytes gets into the same state, and goes on the same in
the container.  All of this is about the reading of the input: it goes on from
the state, and each step puts into the container what it is said to be given.
-/
theorem reading_stays_in_bounds
    {state : ReadState}
    (reached : state.Reached Bson.reader (.ofInput maximumSize mode input) input) :
    (∃ target,
      Bson.reader.read (.ofInput maximumSize mode input) input target [] =
        Bson.reader.run (.ofInput maximumSize mode input) state) ∧
      state.frames ≠ [] ∧ state.stops.Pairwise (· ≤ ·) ∧
      (∀ stop ∈ state.stops, state.reader.cursor ≤ stop ∧ stop ≤ input.size) ∧
      (∀ building key bounds outer, state.frames = ⟨building, key, bounds⟩ :: outer →
        state.elementReader.limit = bounds.stop ∧
        (∀ format : ElementReader,
          format.next (.ofInput maximumSize mode input) building.kind bounds
              state.elementReader =
            Bson.reader.next (.ofInput maximumSize mode input) building.kind bounds
              state.elementReader →
          state.step format (.ofInput maximumSize mode input) =
            state.step Bson.reader (.ofInput maximumSize mode input)) ∧
        (∀ element after rest,
          Bson.reader.next (.ofInput maximumSize mode input) building.kind bounds
              state.elementReader =
            .ok ((element, after), rest) →
          after = bounds ∧ rest.limit = bounds.stop ∧ rest.cursor ≤ bounds.stop) ∧
        (∀ rest frames,
          state.step Bson.reader (.ofInput maximumSize mode input) =
            .continued ⟨rest, frames⟩ →
          frames.length ≤ outer.length → rest.cursor = bounds.stop) ∧
        ∀ document rest,
          state.step Bson.reader (.ofInput maximumSize mode input) =
            .completed document rest →
          rest.cursor = bounds.stop) ∧
      ∀ inner frame outer, state.frames = inner ++ frame :: outer →
        (∀ after,
          state.step Bson.reader (.ofInput maximumSize mode input) = .continued after →
          outer.length < after.frames.length →
          ∃ opened bounds,
            after.frames =
              opened ++
                ⟨frame.building.attachAll
                    (state.attached Bson.reader (.ofInput maximumSize mode input) outer.length),
                  frame.key, bounds⟩ :: outer) ∧
        ∀ other : ByteArray, other.size = input.size →
          other.data.toList.take frame.bounds.stop =
            input.data.toList.take frame.bounds.stop →
          ∃ twin,
            Reached Bson.reader (.ofInput maximumSize mode other) other
                ⟨twin, state.frames⟩ ∧
              twin.cursor = state.reader.cursor ∧
                Bson.reader.collect (.ofInput maximumSize mode other) outer.length
                    ⟨twin, state.frames⟩ =
                  Bson.reader.collect (.ofInput maximumSize mode input) outer.length
                    state := by
  have encloses := encloses_of_reached reached
  have sorted := List.pairwise_cons.mp encloses.ordered.pairwise
  obtain ⟨nested, -, inside⟩ := List.pairwise_append.mp sorted.2
  have bounded (stop : Nat) (member : stop ∈ state.stops) :
      state.reader.cursor ≤ stop ∧ stop ≤ input.size :=
    ⟨sorted.1 stop (List.mem_append_left _ member),
      inside stop member input.size List.mem_cons_self⟩
  refine ⟨reached.exists_run_eq_read, encloses.opened, nested, bounded, ?_, ?_⟩
  · intro building key bounds outer frames
    refine ⟨?_, fun format same => step_eq_of_next_eq frames same, ?_⟩
    all_goals
      rcases state with ⟨reader, _⟩
      cases frames
    · exact encloses.limit_eq
    · refine ⟨?_, ?_, ?_⟩
      · intro element after rest next
        obtain ⟨same, -, -, limit, below, -⟩ := encloses.next next
        exact ⟨same, limit, below⟩
      · intro rest frames stepped
        exact encloses.cursor_of_closed (step_eq_continued_iff.mp stepped)
      · intro document rest stepped
        obtain ⟨-, after, next⟩ := exists_finished_of_completed stepped
        exact (encloses.next next).2.1.cursor_of_finished
  · intro inner frame outer frames
    refine ⟨fun after stepped stays => ?_, fun other sameSize sameFront => ?_⟩
    · exact exists_frames_of_leads (step_eq_continued_iff.mp stepped) frames stays
    · have stops :
          state.stops =
            inner.map (·.bounds.stop) ++ frame.bounds.stop :: outer.map (·.bounds.stop) := by
        rw [ReadState.stops, frames, List.map_append, List.map_cons]
      have before : state.reader.cursor ≤ frame.bounds.stop :=
        (bounded _ (stops ▸ List.mem_append_right _ List.mem_cons_self)).1
      obtain ⟨twin, twinReached, mirrors⟩ :=
        exists_reached_mirror reached (.ofBytes sameSize sameFront) before
      refine ⟨twin, twinReached, mirrors.cursor_eq, ?_⟩
      have same :=
        collect_mirror maximumSize mode encloses stops (Nat.le_refl _) mirrors
          (encloses_of_reached twinReached).ofInput
      rwa [List.length_map] at same

/-- What an array holds does not depend on the byte behind it, which ends the document or not. -/
theorem array_apart_from_byte_behind :
    let input : ByteArray := ⟨#[17, 0, 0, 0, 0x04, 97, 0, 9, 0, 0, 0, 0x08, 48, 0, 1, 0, 0]⟩
    let other : ByteArray := ⟨#[17, 0, 0, 0, 0x04, 97, 0, 9, 0, 0, 0, 0x08, 48, 0, 1, 0, 5]⟩
    ∃ state twin,
      state.Reached Bson.reader (.ofInput 100 .owned input) input ∧ state.stops = [16, 17] ∧
        Reached Bson.reader (.ofInput 100 .owned other) other ⟨twin, state.frames⟩ ∧
          twin.cursor = 11 ∧
            Bson.reader.collect (.ofInput 100 .owned other) 1 ⟨twin, state.frames⟩ =
              Bson.reader.collect (.ofInput 100 .owned input) 1 state := by
  intro input other
  have behindLength :
      (ByteReader.ofBytes input).Passes (FieldType.int32.bytes ((12 : Nat) + minimumSize))
        ⟨input, 4, 17, by decide, by decide⟩ :=
    ⟨rfl, rfl, rfl, (by decide : 4 ≤ 17), by decide⟩
  have header :=
    (readRoot_eq_ok_iff (.ofInput 100 .owned input) input _ _).mpr
      ⟨12, by decide, by decide, by decide, behindLength, rfl⟩
  have start : Reached Bson.reader (.ofInput 100 .owned input) input _ := .start .empty header
  have named : IsKey .map [97, 0] (some "a") := ⟨[97], by decide, rfl, "a", by decide, rfl⟩
  have behindHeader :
      (ByteReader.setLimit ⟨input, 4, 17, by decide, by decide⟩ 17).Passes
        ([(ElementType.ofContainer .array).tag] ++ [97, 0] ++
          FieldType.int32.bytes ((4 : Nat) + minimumSize))
        ⟨input, 11, 17, by decide, by decide⟩ :=
    ⟨rfl, rfl, rfl, (by decide : 11 ≤ 17), by decide⟩
  have found :
      Found .map ⟨17, 0⟩ (ByteReader.setLimit ⟨input, 4, 17, by decide, by decide⟩ 17)
        (.opened (some "a") .array ⟨16, 0⟩) ⟨input, 11, 17, by decide, by decide⟩ :=
    .opened named (by decide) behindHeader (by decide)
  have leads :
      Leads Bson.reader (.ofInput 100 .owned input)
        ⟨⟨input, 4, 17, by decide, by decide⟩,
          [⟨.map (.ofDocument Document.empty.clear), none, ⟨17, 0⟩⟩]⟩
        ⟨⟨input, 11, 17, by decide, by decide⟩,
          [⟨.empty .array, some "a", ⟨16, 0⟩⟩,
            ⟨.map (.ofDocument Document.empty.clear), none, ⟨17, 0⟩⟩]⟩ :=
    .opened (readElement_of_found DecodeOptions.owned_ofInput rfl rfl found)
  have reached := start.step (step_eq_continued_iff.mpr leads)
  obtain ⟨-, -, -, -, -, apart⟩ := reading_stays_in_bounds reached
  obtain ⟨twin, twinReached, cursor, same⟩ := (apart [] _ _ rfl).2 other rfl (by decide)
  exact ⟨_, twin, reached, rfl, twinReached, cursor, same⟩

end DocumentCodec.Bson
