import DocumentCodec.Proofs.Codec.Streaming
import DocumentCodec.Proofs.Codec.Writing

namespace DocumentCodec

/-!
# Frames on a failing sink

A document goes to a sink as its whole frame or, when the sink stops the
sending, as a front of it that lacks some bytes.  A document that cannot be
encoded leaves the sink alone.  On each of these ways out the buffer has been
given back.
-/

namespace Frame

/--
What sending a frame comes to: the sink takes all of it, or stops the sending
before that.  A payload whose length no header can tell is not sent at all.
-/
inductive Sends (format : Format) (payload : ByteArray) (sink : Sink) :
    Except Error Nat × Sink → Prop
  | whole {after}
      (progress : sink.Progress (bytes format payload) after ByteArray.empty) :
      Sends format payload sink (.ok (bytes format payload).size, after)
  | part {between unsent fault after}
      (progress : sink.Progress (bytes format payload) between unsent)
      (stops : between.Stops unsent fault after) :
      Sends format payload sink (.error (.io fault), after)
  | refused
      (separate : format.lengthIncluded = false)
      (long : maximumLength < payload.size) :
      Sends format payload sink (.error (.encode (.frameTooLarge payload.size)), sink)

/-- A front that lacks some bytes is not the whole. -/
theorem front_ne
    {whole sent unsent : ByteArray}
    (whole_eq : whole = sent ++ unsent)
    (left : unsent ≠ ByteArray.empty) :
    sent ≠ whole := by
  intro same
  have sizes := congrArg ByteArray.size whole_eq
  rw [ByteArray.size_append, same] at sizes
  exact left (ByteArray.size_eq_zero_iff.mp (Nat.left_eq_add.mp sizes))

/-- A frame with a header of its own is never empty. -/
theorem bytes_ne_empty
    {format : Format}
    (separate : format.lengthIncluded = false)
    (payload : ByteArray) :
    bytes format payload ≠ ByteArray.empty := by
  intro none
  have size := size_bytes format payload
  rw [none] at size
  cases format with
  | bson => cases separate
  | messagePack =>
      have four : 0 = 4 + payload.size := size
      omega

end Frame

namespace Codec

/-- A frame is sent as a whole, stopped by the sink, or too large to be sent. -/
theorem sends_writeFrame (format : Format) (payload : ByteArray) (sink : Sink) :
    Frame.Sends format payload sink (writeFrame format payload sink) := by
  have frame : Frame.bytes format payload = Frame.header format payload.size ++ payload := rfl
  unfold writeFrame
  split
  · rename_i included
    have alone : Frame.bytes format payload = payload := by
      rw [frame, Frame.header, if_pos included, ByteArray.empty_append]
    have sends := sink.sends_writeFully payload
    generalize sink.writeFully payload = outcome at sends ⊢
    cases sends with
    | all progress =>
        have whole := Frame.Sends.whole (alone.symm ▸ progress)
        rwa [alone] at whole
    | part progress stops => exact .part (alone.symm ▸ progress) stops
  · rename_i other
    have separate : format.lengthIncluded = false := Bool.eq_false_iff.mpr other
    split
    · have first := sink.sends_writeFully (Frame.header format payload.size)
      generalize sink.writeFully (Frame.header format payload.size) = header at first ⊢
      cases first with
      | part progress stops =>
          -- what is left of the header is left of the frame, with the payload behind it
          exact .part (progress.append payload) (stops.append payload)
      | @all between progress =>
          have headed := progress.append payload
          rw [ByteArray.empty_append] at headed
          have both := (between.sends_writeFully payload).behind headed
          dsimp only
          generalize between.writeFully payload = outcome at both ⊢
          cases both with
          | all progress =>
              have size : (Frame.bytes format payload).size = Frame.headerSize + payload.size := by
                cases format with
                | bson => cases separate
                | messagePack => exact Frame.size_bytes .messagePack payload
              dsimp only
              rw [← size]
              exact .whole progress
          | part progress stops => exact .part progress stops
    · rename_i long
      exact .refused separate (Nat.lt_of_not_le long)

/--
Whatever the sink does, writing a document leaves what the sink had and behind
it a front of the document's frame: the whole of it exactly if the number of its
bytes is the result, and less of it after any failure.  A sink that takes some
bytes at each write, or interrupts it, gets the whole frame.  A failure of the
sink is its own answer to an offer of the bytes that are left: it took nothing,
or failed and did not interrupt.  When there is no encoding the sink is left
alone and the error is the encoder's.  As many buffers are in use as before.
-/
theorem writeTo_appends_front
    (codec : Codec)
    (format : Format)
    (document : Document)
    (sink : Sink) :
    let outcome := codec.writeTo format document sink
    outcome.2.1.buffers.gate.inUse = codec.buffers.gate.inUse ∧
      match (codec.encode format document).1 with
      | .error error => outcome.1 = .error error ∧ outcome.2.2 = sink
      | .ok payload =>
          (∃ sent unsent, Frame.bytes format payload = sent ++ unsent ∧
            outcome.2.2.received = sink.received ++ sent ∧
            (∀ count, outcome.1 = .ok count ↔
              sent = Frame.bytes format payload ∧ count = sent.size) ∧
            (∀ error, outcome.1 = .error error → unsent ≠ ByteArray.empty ∧
              ((∃ fault between, error = .io fault ∧
                  sink.Progress (Frame.bytes format payload) between unsent ∧
                    between.Stops unsent fault outcome.2.2) ∨
                format = .messagePack ∧ Frame.maximumLength < payload.size ∧
                  sent = ByteArray.empty ∧ outcome.2.2 = sink ∧
                    error = .encode (.frameTooLarge payload.size)))) ∧
          (sink.Willing → (format = .messagePack → payload.size ≤ Frame.maximumLength) →
            outcome.1 = .ok (Frame.bytes format payload).size ∧
              outcome.2.2.received = sink.received ++ Frame.bytes format payload) := by
  intro outcome
  refine ⟨(sameSlots_writeTo codec format document sink).inUse_eq, ?_⟩
  rcases ran : codec.encodeAcquired format document with ⟨error | buffer, after⟩
  · simp only [outcome, writeTo, encodePooled, encode, ran]
    exact ⟨trivial, trivial⟩
  · have sends := sends_writeFrame format buffer.bytes sink
    have flipped : buffer.flip.bytes = buffer.bytes := rfl
    simp only [outcome, writeTo, encodePooled, encode, ran, flipped]
    refine ⟨?_, ?_⟩
    -- the way in which the sending ended tells what was sent and what was left
    · generalize writeFrame format buffer.bytes sink = written at sends ⊢
      cases sends with
      | whole progress =>
          obtain ⟨sent, shape, received⟩ := progress.exists_sent
          refine ⟨sent, ByteArray.empty, shape, received, ?_, ?_⟩
          · intro count
            rw [shape, ByteArray.append_empty]
            simp [eq_comm]
          · intro error never
            cases never
      | @part between unsent fault _ progress stops =>
          obtain ⟨sent, shape, received⟩ := progress.exists_sent
          refine ⟨sent, unsent, shape, stops.received_eq.trans received, ?_, ?_⟩
          · intro count
            simp [Frame.front_ne shape stops.pending_ne]
          · rintro error same
            cases same
            exact ⟨stops.pending_ne, .inl ⟨fault, between, rfl, progress, stops⟩⟩
      | refused separate long =>
          refine ⟨ByteArray.empty, _, ByteArray.empty_append.symm, ?_, ?_, ?_⟩
          · exact ByteArray.append_empty.symm
          · intro count
            simp [(Frame.bytes_ne_empty separate buffer.bytes).symm]
          · rintro error same
            cases same
            refine ⟨Frame.bytes_ne_empty separate _, .inr ⟨?_, long, rfl, rfl, rfl⟩⟩
            cases format with
            | bson => cases separate
            | messagePack => rfl
    · intro willing short
      obtain ⟨sent, wrote, _, received⟩ := writeFrame_of_willing willing short
      rw [wrote]
      exact ⟨rfl, received⟩

/--
A MessagePack document goes as a whole to a sink that takes a few bytes at a
time with an interruption, and up to its last two bytes to one that breaks.
-/
theorem writeTo_stopped_in_document :
    let document : Document := ⟨[("a", .bool true)]⟩
    let frame : ByteArray := ⟨#[4, 0, 0, 0, 0x81, 0xa1, 0x61, 0xc3]⟩
    let broken : IoFault := ⟨.other "BrokenPipe", "pipe closed"⟩
    let slow : Sink :=
      ⟨ByteArray.empty, [.takes 3, .fails ⟨.interrupted, ""⟩], some 2, none⟩
    let breaking : Sink :=
      ⟨ByteArray.empty, [.takes 3, .takes 9, .takes 2, .fails broken], none, none⟩
    let sent := (failFast .standard).writeTo .messagePack document slow
    let cut := (failFast .standard).writeTo .messagePack document breaking
    (sent.1 = .ok 8 ∧ sent.2.2.received = frame) ∧
      cut.1 = .error (.io broken) ∧ cut.2.1.buffers.gate.inUse = 0 ∧
        ∃ unsent, unsent ≠ ByteArray.empty ∧ frame = cut.2.2.received ++ unsent := by
  intro document frame broken slow breaking sent cut
  have idle : (failFast .standard).Reachable := .new .standard .failFast
  have free : (failFast .standard).buffers.gate.inUse <
      (failFast .standard).buffers.gate.ceiling := by
    decide
  have fits : Format.messagePack.LengthsFit document := by decide +kernel
  have accepted : Format.messagePack.spelling.firstRefusal? document.preorder = none := rfl
  have spelled : Format.messagePack.spelling.document document = [0x81, 0xa1, 0x61, 0xc3] := by
    decide +kernel
  have encoding : Format.messagePack.encoding document = .ok ⟨#[0x81, 0xa1, 0x61, 0xc3]⟩ := by
    rw [Format.encoding, Format.encodeDocument_eq fits, accepted, spelled]
    rfl
  have encodes := (encode_eq_encoding idle.clean free .messagePack document).trans encoding
  have willing : slow.Willing := by
    refine ⟨?_, by decide, fun _ _ never => by cases never⟩
    exact List.forall_mem_cons.mpr ⟨Nat.zero_lt_succ 2, List.forall_mem_singleton.mpr rfl⟩
  have stopped : cut.1 = .error (.io broken) := by
    have written := writeTo_eq_encoding idle.clean free .messagePack document breaking
    rw [encoding] at written
    exact (congrArg Prod.fst written).trans (by with_unfolding_all rfl)
  obtain ⟨_, whole⟩ := writeTo_appends_front (failFast .standard) .messagePack document slow
  obtain ⟨same, part⟩ := writeTo_appends_front (failFast .standard) .messagePack document breaking
  rw [encodes] at whole part
  obtain ⟨⟨front, unsent, shape, received, _, failed⟩, _⟩ := part
  refine ⟨whole.2 willing fun _ => by decide, stopped, same, unsent, (failed _ stopped).1, ?_⟩
  have started : breaking.received ++ front = front := ByteArray.empty_append
  exact (received.trans started) ▸ shape

end Codec

end DocumentCodec
