import DocumentCodec.Proofs.Codec.Truth
import DocumentCodec.Proofs.Pool.Balance

namespace DocumentCodec

/-!
# What operations do to the books of the buffer pool

An operation that needs a buffer fails when no slot is free, and changes
nothing.  With a slot free it settles: the books balance afterwards, with one
buffer more held if that is its answer, and it fails for its document or its
sink only.  Every other operation leaves the pool alone.
-/

/-- The error that a result is, if it is one. -/
def Error.of? : Except Error α → Option Error
  | .ok _ => none
  | .error error => some error

/-- A result that is taken further keeps its error. -/
theorem Error.of?_map (action : α → β) (result : Except Error α) :
    of? (result.map action) = of? result := by
  cases result <;> rfl

/-- The error of a result is the one that it fails with. -/
theorem Error.mem_of?_iff
    {result : Except Error α}
    {error : Error} :
    error ∈ of? result ↔ result = .error error := by
  cases result with
  | ok value => simp only [of?, Option.not_mem_none, reduceCtorEq]
  | error other => simp only [of?, Option.mem_some_iff, Except.error.injEq]

namespace Codec

/-- Number of buffers that the caller holds because of a result. -/
def gained : Except Error ByteBuffer → Nat
  | .ok _ => 1
  | .error _ => 0

/--
How an operation ends that its pool was no hindrance to: the books balance, at
most one buffer was made, for want of an idle one, and an error is not the
pool's.
-/
structure Settled (codec : Codec) (ceiling held detached : Nat)
    (failure? : Option Error) (after : Codec) : Prop where
  balanced : after.buffers.Balanced ceiling held detached
  grows : codec.buffers.GrowsWhenEmpty after.buffers
  notRetryable : ∀ error ∈ failure?, error.retryable = false

section Pool

variable {codec after : Codec} {ceiling held detached : Nat}

/-- A step that leaves the buffer pool alone settles. -/
theorem Settled.of_same
    {failure? : Option Error}
    (balanced : codec.buffers.Balanced ceiling held detached)
    (same : after.buffers = codec.buffers)
    (notRetryable : ∀ error ∈ failure?, error.retryable = false) :
    codec.Settled ceiling held detached failure? after :=
  ⟨same ▸ balanced, .inl (congrArg BoundedPool.created same), notRetryable⟩

/-- With all slots taken no buffer is handed out, and nothing changes. -/
theorem acquireBuffer_of_full
    (balanced : codec.buffers.Balanced ceiling held detached)
    (full : ¬ held < ceiling) :
    codec.acquireBuffer = (.error (.poolOverflow ceiling), codec) := by
  rw [acquireBuffer, balanced.acquire_of_full full codec.thread]

/-- With a slot free a buffer is handed out, and one more is held. -/
theorem exists_acquireBuffer
    (balanced : codec.buffers.Balanced ceiling held detached)
    (free : held < ceiling) :
    ∃ buffer after, codec.acquireBuffer = (.ok buffer, after) ∧
      codec.Settled ceiling (held + 1) detached none after := by
  obtain ⟨buffer, pool, acquired, settled, grows⟩ :=
    balanced.exists_acquire free codec.thread
  refine ⟨buffer, { codec with buffers := pool }, ?_, settled, grows, ?_⟩
  · rw [acquireBuffer, acquired]
  · intro error never
    cases never

/-- Acquiring a buffer settles when a slot is free. -/
theorem settled_acquireBuffer
    (balanced : codec.buffers.Balanced ceiling held detached)
    (free : held < ceiling) :
    let (result, after) := codec.acquireBuffer
    codec.Settled ceiling (held + gained result) detached (Error.of? result) after := by
  obtain ⟨buffer, after, acquired, settled⟩ := exists_acquireBuffer balanced free
  rw [acquired]
  exact settled

/-- Giving a buffer back takes the hold away again. -/
theorem Settled.releaseBuffer
    {failure? other? : Option Error}
    (settled : codec.Settled ceiling (held + 1) detached failure? after)
    (notRetryable : ∀ error ∈ other?, error.retryable = false)
    (buffer : ByteBuffer) :
    codec.Settled ceiling held detached other? (after.releaseBuffer buffer) :=
  ⟨settled.balanced.release after.thread buffer, settled.grows, notRetryable⟩

variable (format : Format) (document : Document)

/-- With all slots taken encoding stops before it has begun. -/
theorem encodeAcquired_of_full
    (balanced : codec.buffers.Balanced ceiling held detached)
    (full : ¬ held < ceiling) :
    codec.encodeAcquired format document = (.error (.poolOverflow ceiling), codec) := by
  rw [encodeAcquired, acquireBuffer_of_full balanced full]

/-- With all slots taken nothing is encoded, and nothing changes. -/
theorem encode_of_full
    (balanced : codec.buffers.Balanced ceiling held detached)
    (full : ¬ held < ceiling) :
    codec.encode format document = (.error (.poolOverflow ceiling), codec) := by
  rw [encode, encodeAcquired_of_full format document balanced full]

/-- With all slots taken nothing is encoded into a pooled buffer, and nothing changes. -/
theorem encodePooled_of_full
    (balanced : codec.buffers.Balanced ceiling held detached)
    (full : ¬ held < ceiling) :
    codec.encodePooled format document = (.error (.poolOverflow ceiling), codec) := by
  rw [encodePooled, encodeAcquired_of_full format document balanced full]

/-- With all slots taken nothing is sent, and nothing changes. -/
theorem writeTo_of_full
    (balanced : codec.buffers.Balanced ceiling held detached)
    (full : ¬ held < ceiling)
    (sink : Sink) :
    codec.writeTo format document sink = (.error (.poolOverflow ceiling), codec, sink) := by
  rw [writeTo, encodePooled_of_full format document balanced full]

/-- The buffer of an encoding that fails is given back. -/
theorem settled_encodeAcquired
    (balanced : codec.buffers.Balanced ceiling held detached)
    (free : held < ceiling) :
    let (result, after) := codec.encodeAcquired format document
    codec.Settled ceiling (held + gained result) detached (Error.of? result) after := by
  obtain ⟨buffer, taken, acquired, settled⟩ := exists_acquireBuffer balanced free
  have same : (taken.write format document buffer).2.buffers = taken.buffers := rfl
  have refused := @not_retryable_of_write taken format document buffer
  rw [encodeAcquired, acquired]
  dsimp only
  generalize taken.write format document buffer = outcome at same refused ⊢
  rcases outcome with ⟨⟨error | done, full⟩, last⟩
  · have written : codec.Settled ceiling (held + 1) detached none last :=
      ⟨same ▸ settled.balanced, same ▸ settled.grows, settled.notRetryable⟩
    refine written.releaseBuffer ?_ full
    intro other failed
    exact refused (Error.mem_of?_iff.mp failed)
  · exact ⟨same ▸ settled.balanced, same ▸ settled.grows, settled.notRetryable⟩

/-- Encoding into bytes of its own gives its buffer back. -/
theorem settled_encode
    (balanced : codec.buffers.Balanced ceiling held detached)
    (free : held < ceiling) :
    let (result, after) := codec.encode format document
    codec.Settled ceiling held detached (Error.of? result) after := by
  have settled := settled_encodeAcquired format document balanced free
  unfold encode
  generalize codec.encodeAcquired format document = answer at settled ⊢
  rcases answer with ⟨error | buffer, after⟩
  · exact settled
  · exact settled.releaseBuffer settled.notRetryable buffer

/-- Encoding into a pooled buffer holds it if it succeeds, and gives it back if it fails. -/
theorem settled_encodePooled
    (balanced : codec.buffers.Balanced ceiling held detached)
    (free : held < ceiling) :
    let (result, after) := codec.encodePooled format document
    codec.Settled ceiling (held + gained result) detached (Error.of? result) after := by
  have settled := settled_encodeAcquired format document balanced free
  unfold encodePooled
  generalize codec.encodeAcquired format document = answer at settled ⊢
  rcases answer with ⟨error | buffer, after⟩ <;> exact settled

/-- The buffer of a frame is given back, whatever the sink did with it. -/
theorem settled_writeTo
    (balanced : codec.buffers.Balanced ceiling held detached)
    (free : held < ceiling)
    (sink : Sink) :
    let (result, after, _) := codec.writeTo format document sink
    codec.Settled ceiling held detached (Error.of? result) after := by
  have settled := settled_encodePooled format document balanced free
  unfold writeTo
  generalize codec.encodePooled format document = answer at settled ⊢
  rcases answer with ⟨error | buffer, after⟩
  · exact settled
  · refine settled.releaseBuffer ?_ buffer
    intro error failed
    exact not_retryable_of_writeFrame (Error.mem_of?_iff.mp failed)

end Pool

section Apart

variable (codec : Codec) (format : Format)

/-- Encoding into a caller's buffer takes none from the pool. -/
theorem buffers_encodeInto (document : Document) (buffer : ByteBuffer) :
    (codec.encodeInto format document buffer).2.buffers = codec.buffers := by
  obtain ⟨writeFrames, same⟩ := exists_encodeInto codec format document buffer
  rw [same]

/-- Reading from a source takes no buffer from the pool. -/
theorem buffers_readFrom (source : Source) :
    (codec.readFrom format source).2.1.buffers = codec.buffers := by
  obtain ⟨readFrames, scratch, same⟩ := exists_readFrom codec format source
  rw [same]

end Apart

end Codec

end DocumentCodec
