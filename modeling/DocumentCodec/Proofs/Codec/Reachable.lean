import DocumentCodec.Proofs.Pool.Idle
import DocumentCodec.Stream.Frame

namespace DocumentCodec

/-!
# What every codec keeps

A codec starts with fresh pools and changes only by its operations.  Whatever
these did, the buffers, frame lists and scratch bytes that the next operation
draws are empty, so that it does what it does on a new codec.
-/

/-- A buffer as an encoding starts with it. -/
structure ByteBuffer.Fresh (buffer : ByteBuffer) : Prop where
  bytes_eq : buffer.bytes = ByteArray.empty
  cursor_eq : buffer.cursor = 0
  writable : buffer.readable = false

namespace Codec

/-- Codecs that operations lead to from a new one. -/
inductive Reachable : Codec → Prop
  | new (config : Config) (policy : OverflowPolicy) :
      Reachable (.withPolicy config policy)
  | onThread {codec} (before : Reachable codec) (thread : ThreadId) :
      Reachable { codec with thread }
  | acquireBuffer {codec} (before : Reachable codec) :
      Reachable codec.acquireBuffer.2
  | releaseBuffer {codec} (before : Reachable codec) (buffer : ByteBuffer) :
      Reachable (codec.releaseBuffer buffer)
  | detachBuffer {codec} (before : Reachable codec) :
      Reachable codec.detachBuffer
  | encodeInto {codec} (before : Reachable codec) (format : Format)
      (document : Document) (buffer : ByteBuffer) :
      Reachable (codec.encodeInto format document buffer).2
  | encode {codec} (before : Reachable codec) (format : Format)
      (document : Document) :
      Reachable (codec.encode format document).2
  | encodePooled {codec} (before : Reachable codec) (format : Format)
      (document : Document) :
      Reachable (codec.encodePooled format document).2
  | decode {codec} (before : Reachable codec) (format : Format)
      (bytes : ByteArray) :
      Reachable (codec.decode format bytes).2
  | decodeInto {codec} (before : Reachable codec) (format : Format)
      (bytes : ByteArray) (target : Document) :
      Reachable (codec.decodeInto format bytes target).2
  | decodeShared {codec} (before : Reachable codec) (format : Format)
      (bytes : ByteArray) :
      Reachable (codec.decodeShared format bytes).2
  | writeTo {codec} (before : Reachable codec) (format : Format)
      (document : Document) (sink : Sink) :
      Reachable (codec.writeTo format document sink).2.1
  | readFrom {codec} (before : Reachable codec) (format : Format)
      (source : Source) :
      Reachable (codec.readFrom format source).2.1

/-- What a reading run comes to when the document must take all of the input. -/
def wholeInput (format : Format) (bytes : ByteArray) :
    Except Error (Nat × Document) → Except Error Document
  | .error error => .error error
  | .ok (consumed, document) =>
      if consumed = bytes.size then
        .ok document
      else
        .error (.format (.trailingBytes (bytes.size - consumed) format consumed))

/-- The whole input is decoded if reading succeeds and ends where the input does. -/
theorem wholeInput_eq_ok_iff
    {format : Format}
    {bytes : ByteArray}
    {result : Except Error (Nat × Document)}
    {document : Document} :
    wholeInput format bytes result = .ok document ↔ result = .ok (bytes.size, document) := by
  cases result with
  | error error => simp only [wholeInput, reduceCtorEq]
  | ok found =>
      rcases found with ⟨consumed, other⟩
      by_cases whole : consumed = bytes.size
      · simp only [wholeInput, whole, if_true, Except.ok.injEq, Prod.mk.injEq, true_and]
      · simp only [wholeInput, whole, if_false, reduceCtorEq, Except.ok.injEq,
          Prod.mk.injEq, false_and]

/-- Whatever is drawn from the pools is empty. -/
structure Clean (codec : Codec) : Prop where
  buffers : codec.buffers.All ByteBuffer.Fresh
  writeFrames : codec.writeFrames.All (· = [])
  readFrames : codec.readFrames.All (· = [])
  scratch : codec.scratch.All (· = ByteArray.empty)

/-- A buffer that is reset is as good as new. -/
theorem fresh_reset (buffer : ByteBuffer) : (Reusable.reset buffer : ByteBuffer).Fresh :=
  ⟨rfl, rfl, rfl⟩

/-- A new codec is clean. -/
theorem clean_withPolicy (config : Config) (policy : OverflowPolicy) :
    (withPolicy config policy).Clean where
  buffers := BoundedPool.all_create (fun _ => ⟨rfl, rfl, rfl⟩) _ _ _
  writeFrames := @SoftPool.all_create _ (· = []) _ (fun _ => rfl) _
  readFrames := @SoftPool.all_create _ (· = []) _ (fun _ => rfl) _
  scratch := @SoftPool.all_create _ (· = ByteArray.empty) _ (fun _ => rfl) _

namespace Clean

variable {codec : Codec}

/-- Acquiring a buffer leaves the codec clean. -/
theorem acquireBuffer (clean : codec.Clean) : codec.acquireBuffer.2.Clean :=
  ⟨(clean.buffers.acquire codec.thread).2, clean.writeFrames, clean.readFrames,
    clean.scratch⟩

/-- A clean codec hands out buffers that are as good as new. -/
theorem fresh_of_acquireBuffer
    {buffer : ByteBuffer}
    (clean : codec.Clean)
    (acquired : codec.acquireBuffer.1 = .ok buffer) :
    buffer.Fresh :=
  (clean.buffers.acquire codec.thread).1 buffer acquired

/-- A buffer that comes back is reset, so the codec stays clean. -/
theorem releaseBuffer (clean : codec.Clean) (buffer : ByteBuffer) :
    (codec.releaseBuffer buffer).Clean :=
  ⟨clean.buffers.release (fresh_reset buffer) codec.thread, clean.writeFrames,
    clean.readFrames, clean.scratch⟩

/-- A buffer that is kept leaves the codec clean. -/
theorem detachBuffer (clean : codec.Clean) : codec.detachBuffer.Clean :=
  ⟨clean.buffers.forget, clean.writeFrames, clean.readFrames, clean.scratch⟩

/-- Writing starts without open containers, and only the frame lists change. -/
theorem write
    (clean : codec.Clean)
    (format : Format)
    (document : Document)
    (buffer : ByteBuffer) :
    (codec.write format document buffer).1.2 =
        (format.writer.write document buffer []).buffer ∧
      (codec.write format document buffer).1.1 =
          (match (format.writer.write document buffer []).fault? with
            | none => .ok ()
            | some fault => .error (.encode fault)) ∧
        (codec.write format document buffer).2.Clean ∧
          (codec.write format document buffer).2.config = codec.config := by
  have reset (frames : List WriteFrame) :
      (Reusable.reset frames : List WriteFrame) = [] := rfl
  obtain ⟨frames, rfl, ran, others⟩ :=
    clean.writeFrames.borrow reset codec.thread fun frames =>
      let outcome := format.writer.write document buffer frames
      ((outcome.fault?, outcome.buffer), outcome.frames)
  refine ⟨?_, ?_, ⟨clean.buffers, others, clean.readFrames, clean.scratch⟩, rfl⟩
  · exact congrArg Prod.snd ran
  · have sameFault := congrArg Prod.fst ran
    let answer : Option EncodeFault → Except Error Unit
      | none => .ok ()
      | some fault => .error (.encode fault)
    exact congrArg answer sameFault

/-- Reading starts without open containers, and only the frame lists change. -/
theorem read
    (clean : codec.Clean)
    (format : Format)
    (bytes : ByteArray)
    (shared? : Option ByteArray)
    (target : Document) :
    (codec.read format bytes shared? target).1 =
        wholeInput format bytes
          (format.reader.read ⟨codec.config.maximumDocumentSize, shared?⟩ bytes target
            []).result ∧
      (codec.read format bytes shared? target).2.Clean ∧
        (codec.read format bytes shared? target).2.config = codec.config := by
  have reset (frames : List ReadFrame) :
      (Reusable.reset frames : List ReadFrame) = [] := rfl
  obtain ⟨frames, rfl, ran, others⟩ :=
    clean.readFrames.borrow reset codec.thread fun frames =>
      let outcome := format.reader.read
        ⟨codec.config.maximumDocumentSize, shared?⟩ bytes target frames
      (outcome.result, outcome.frames)
  refine ⟨?_, ⟨clean.buffers, clean.writeFrames, others, clean.scratch⟩, rfl⟩
  unfold Codec.read
  simp only [ran]
  rfl

/-- Encoding into a caller's buffer leaves the codec clean. -/
theorem encodeInto
    (clean : codec.Clean)
    (format : Format)
    (document : Document)
    (buffer : ByteBuffer) :
    (codec.encodeInto format document buffer).2.Clean := by
  unfold Codec.encodeInto
  split
  · exact clean
  · exact (clean.write format document buffer).2.2.1

/-- Encoding into an acquired buffer leaves the codec clean, also when it fails. -/
theorem encodeAcquired
    (clean : codec.Clean)
    (format : Format)
    (document : Document) :
    (codec.encodeAcquired format document).2.Clean := by
  unfold Codec.encodeAcquired
  split
  · rename_i error after acquired
    have same : codec.acquireBuffer.2 = after := congrArg Prod.snd acquired
    exact same ▸ clean.acquireBuffer
  · rename_i buffer after acquired
    have same : codec.acquireBuffer.2 = after := congrArg Prod.snd acquired
    have cleanAfter : after.Clean := same ▸ clean.acquireBuffer
    have written := (cleanAfter.write format document buffer).2.2.1
    split
    · rename_i full last wrote
      rw [wrote] at written
      exact written
    · rename_i error partly last wrote
      rw [wrote] at written
      exact written.releaseBuffer partly

/-- Encoding leaves the codec clean, also when it fails. -/
theorem encode
    (clean : codec.Clean)
    (format : Format)
    (document : Document) :
    (codec.encode format document).2.Clean := by
  have encoded := clean.encodeAcquired format document
  unfold Codec.encode
  split
  · rename_i error after failed
    rw [failed] at encoded
    exact encoded
  · rename_i buffer after done
    rw [done] at encoded
    exact encoded.releaseBuffer buffer

/-- Encoding into a pooled buffer leaves the codec clean, also when it fails. -/
theorem encodePooled
    (clean : codec.Clean)
    (format : Format)
    (document : Document) :
    (codec.encodePooled format document).2.Clean := by
  have encoded := clean.encodeAcquired format document
  unfold Codec.encodePooled
  split
  · rename_i error after failed
    rw [failed] at encoded
    exact encoded
  · rename_i buffer after done
    rw [done] at encoded
    exact encoded

/-- Decoding shared input leaves the codec clean. -/
theorem decodeShared
    (clean : codec.Clean)
    (format : Format)
    (bytes : ByteArray) :
    (codec.decodeShared format bytes).2.Clean :=
  (clean.read format bytes _ .empty).2.1

/-- Sending leaves the codec clean, whatever the sink does. -/
theorem writeTo
    (clean : codec.Clean)
    (format : Format)
    (document : Document)
    (sink : Sink) :
    (codec.writeTo format document sink).2.1.Clean := by
  have encoded := clean.encodePooled format document
  unfold Codec.writeTo
  split
  · rename_i error after failed
    rw [failed] at encoded
    exact encoded
  · rename_i buffer after done
    rw [done] at encoded
    exact encoded.releaseBuffer buffer

/-- A codec is clean if its scratch buffers are empty and the rest is as before. -/
theorem onScratch
    {scratch : SoftPool ByteArray}
    (clean : codec.Clean)
    (all : scratch.All (· = ByteArray.empty)) :
    Clean { codec with scratch } :=
  ⟨clean.buffers, clean.writeFrames, clean.readFrames, all⟩

/-- Reading a frame's body leaves the codec clean, whatever the source gives. -/
theorem readBody
    (clean : codec.Clean)
    (format : Format)
    (header : ByteArray)
    (extent : Frame.Extent)
    (source : Source) :
    (codec.readBody format header extent source).2.1.Clean := by
  have taken := (clean.scratch.acquire codec.thread).2
  have cleanTaken : Clean { codec with scratch := (codec.scratch.acquire codec.thread).2 } :=
    clean.onScratch taken
  unfold Codec.readBody
  dsimp only
  split
  · split
    · exact clean
    · exact clean.decodeShared _ _
  · split
    · exact cleanTaken.onScratch (taken.release rfl _)
    · rename_i bytes source filled
      have read := (cleanTaken.read format bytes none .empty).2.1
      exact read.onScratch (read.scratch.release rfl _)

/-- Receiving leaves the codec clean, whatever the source gives. -/
theorem readFrom
    (clean : codec.Clean)
    (format : Format)
    (source : Source) :
    (codec.readFrom format source).2.1.Clean := by
  unfold Codec.readFrom
  split
  · exact clean
  · dsimp only
    split
    · exact clean
    · split
      · exact clean.readBody _ _ _ _
      · exact clean

end Clean

/-- Every codec's pools hand out empty things only. -/
theorem Reachable.clean {codec : Codec} (reachable : codec.Reachable) : codec.Clean := by
  induction reachable with
  | new config policy => exact clean_withPolicy config policy
  | onThread before thread inductionHypothesis =>
      exact ⟨inductionHypothesis.buffers, inductionHypothesis.writeFrames,
        inductionHypothesis.readFrames, inductionHypothesis.scratch⟩
  | acquireBuffer before inductionHypothesis => exact inductionHypothesis.acquireBuffer
  | releaseBuffer before buffer inductionHypothesis =>
      exact inductionHypothesis.releaseBuffer buffer
  | detachBuffer before inductionHypothesis => exact inductionHypothesis.detachBuffer
  | encodeInto before format document buffer inductionHypothesis =>
      exact inductionHypothesis.encodeInto format document buffer
  | encode before format document inductionHypothesis =>
      exact inductionHypothesis.encode format document
  | encodePooled before format document inductionHypothesis =>
      exact inductionHypothesis.encodePooled format document
  | decode before format bytes inductionHypothesis =>
      exact (inductionHypothesis.read format bytes none .empty).2.1
  | decodeInto before format bytes target inductionHypothesis =>
      exact (inductionHypothesis.read format bytes none target).2.1
  | decodeShared before format bytes inductionHypothesis =>
      exact inductionHypothesis.decodeShared format bytes
  | writeTo before format document sink inductionHypothesis =>
      exact inductionHypothesis.writeTo format document sink
  | readFrom before format source inductionHypothesis =>
      exact inductionHypothesis.readFrom format source

/-- Decoding is reading into an empty document, and asking that nothing is left over. -/
theorem decode_eq_wholeInput
    {codec : Codec}
    (reachable : codec.Reachable)
    (format : Format)
    (bytes : ByteArray) :
    (codec.decode format bytes).1 =
      wholeInput format bytes
        (format.reader.read ⟨codec.config.maximumDocumentSize, none⟩ bytes .empty
          []).result :=
  (reachable.clean.read format bytes none .empty).1

section Settings

variable (codec : Codec) (format : Format) (document : Document)

/-- Encoding into a caller's buffer uses the pool of frame lists only. -/
theorem exists_encodeInto (buffer : ByteBuffer) :
    ∃ writeFrames, (codec.encodeInto format document buffer).2 = { codec with writeFrames } := by
  unfold encodeInto
  split
  · exact ⟨codec.writeFrames, rfl⟩
  · exact ⟨_, rfl⟩

/-- Encoding into a caller's buffer keeps the configuration. -/
theorem config_encodeInto (buffer : ByteBuffer) :
    (codec.encodeInto format document buffer).2.config = codec.config := by
  obtain ⟨writeFrames, same⟩ := exists_encodeInto codec format document buffer
  rw [same]

/-- Encoding into an acquired buffer keeps the configuration. -/
theorem config_encodeAcquired :
    (codec.encodeAcquired format document).2.config = codec.config := by
  have acquired : codec.acquireBuffer.2.config = codec.config := rfl
  unfold encodeAcquired
  generalize codec.acquireBuffer = answer at acquired ⊢
  rcases answer with ⟨_ | buffer, after⟩
  · exact acquired
  · have written : (after.write format document buffer).2.config = codec.config := acquired
    dsimp only
    generalize after.write format document buffer = outcome at written ⊢
    rcases outcome with ⟨⟨_ | done, full⟩, last⟩ <;> exact written

/-- Encoding keeps the configuration. -/
theorem config_encode : (codec.encode format document).2.config = codec.config := by
  have encoded := config_encodeAcquired codec format document
  unfold encode
  generalize codec.encodeAcquired format document = answer at encoded ⊢
  rcases answer with ⟨_ | buffer, after⟩ <;> exact encoded

/-- Encoding into a pooled buffer keeps the configuration. -/
theorem config_encodePooled :
    (codec.encodePooled format document).2.config = codec.config := by
  have encoded := config_encodeAcquired codec format document
  unfold encodePooled
  generalize codec.encodeAcquired format document = answer at encoded ⊢
  rcases answer with ⟨_ | buffer, after⟩ <;> exact encoded

/-- Sending keeps the configuration. -/
theorem config_writeTo (sink : Sink) :
    (codec.writeTo format document sink).2.1.config = codec.config := by
  have encoded := config_encodePooled codec format document
  unfold writeTo
  generalize codec.encodePooled format document = answer at encoded ⊢
  rcases answer with ⟨_ | buffer, after⟩ <;> exact encoded

/-- Reading a frame uses the pools of frame lists and of scratch bytes only. -/
theorem exists_readFrom (source : Source) :
    ∃ readFrames scratch,
      (codec.readFrom format source).2.1 = { codec with readFrames, scratch } := by
  unfold readFrom
  split
  · exact ⟨codec.readFrames, codec.scratch, rfl⟩
  · dsimp only
    split
    · exact ⟨codec.readFrames, codec.scratch, rfl⟩
    · split
      · unfold readBody
        dsimp only
        split <;> split <;> exact ⟨_, _, rfl⟩
      · exact ⟨codec.readFrames, codec.scratch, rfl⟩

/-- Receiving keeps the configuration. -/
theorem config_readFrom (source : Source) :
    (codec.readFrom format source).2.1.config = codec.config := by
  obtain ⟨readFrames, scratch, same⟩ := exists_readFrom codec format source
  rw [same]

end Settings

end Codec

end DocumentCodec
