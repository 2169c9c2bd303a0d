import DocumentCodec.Proofs.Codec.Balance
import DocumentCodec.Proofs.Codec.Results
import DocumentCodec.Proofs.Codec.Session

namespace DocumentCodec

/-!
# Accounting of a session

The caller of a session holds the buffers that are in use, and the buffers that
were made are idle, held or detached (`Session.Balanced`).  An operation that
needs a buffer is refused when all are in use, and every other operation
settles; the books balance again either way.

Main statement: after any session the counts of the pool are exact, and so is
what any next operation does to them.
-/

namespace Operation

/-- Whether an operation asks the pool for a buffer. -/
def needsBuffer : Operation → Bool
  | acquireBuffer | encode _ _ | encodePooled _ _ | writeTo _ _ _ => true
  | _ => false

/-- Whether an operation hands its caller a buffer of the pool when it succeeds. -/
def handsOut : Operation → Bool
  | acquireBuffer | encodePooled _ _ => true
  | _ => false

/-- The error that an operation comes to once it has the buffer that it needs. -/
def failureWithBuffer? : Operation → Option Error
  | encode format document | encodePooled format document =>
      Error.of? (format.encoding document)
  | writeTo format document sink =>
      match format.encoding document with
      | .ok payload => Error.of? (Codec.writeFrame format payload sink).1
      | .error error => some error
  | _ => none

/-- Whether an operation ends the caller's hold on a buffer. -/
def endsHold : Operation → Bool
  | giveBack _ | detach _ => true
  | _ => false

end Operation

namespace Session

/-- The error that an operation ends with, if it fails. -/
def failure? (session : Session) : Operation → Option Error
  | .onThread _ | .change _ _ | .giveBack _ | .detach _ => none
  | .acquireBuffer => Error.of? session.codec.acquireBuffer.1
  | .encode format document => Error.of? (session.codec.encode format document).1
  | .encodePooled format document =>
      Error.of? (session.codec.encodePooled format document).1
  | .encodeInto format document buffer =>
      Error.of? (session.codec.encodeInto format document buffer).1.1
  | .encodeIntoHeld format document place =>
      session.held[place]?.bind fun buffer =>
        Error.of? (session.codec.encodeInto format document buffer).1.1
  | .decode format bytes => Error.of? (session.codec.decode format bytes).1
  | .decodeInto format bytes target =>
      Error.of? (session.codec.decodeInto format bytes target).1
  | .decodeShared format bytes => Error.of? (session.codec.decodeShared format bytes).1
  | .writeTo format document sink =>
      Error.of? (session.codec.writeTo format document sink).1
  | .readFrom format source => Error.of? (session.codec.readFrom format source).1

/-- Whether an operation hands its caller a buffer of the pool. -/
def grants (session : Session) : Operation → Bool
  | .acquireBuffer => session.codec.acquireBuffer.1.isOk
  | .encodePooled format document => (session.codec.encodePooled format document).1.isOk
  | _ => false

/-- The books of the pool balance with the buffers that the caller holds and detached. -/
def Balanced (session : Session) (ceiling : Nat) : Prop :=
  session.codec.buffers.Balanced ceiling session.held.length session.detached.length

/-- An operation fails for want of a buffer, and changes nothing. -/
structure Refused (session : Session) (ceiling : Nat) (operation : Operation) : Prop where
  needsBuffer : operation.needsBuffer = true
  full : session.held.length = ceiling
  failure?_eq : session.failure? operation = some (.poolOverflow ceiling)
  unchanged : session.perform operation = session

/-- An operation has its way, or fails for another reason than the pool's. -/
structure Settled (session : Session) (ceiling : Nat) (operation : Operation) : Prop where
  free : operation.needsBuffer = true → session.held.length < ceiling
  settled :
    session.codec.Settled ceiling (session.perform operation).held.length
      (session.perform operation).detached.length (session.failure? operation)
      (session.perform operation).codec

variable {session : Session} {ceiling : Nat}

/-- A session without a free slot holds as many buffers as there are slots. -/
theorem Balanced.full
    (balanced : session.Balanced ceiling)
    (notFree : ¬ session.held.length < ceiling) :
    session.held.length = ceiling := by
  have within := BoundedPool.Balanced.within balanced
  omega

/-- Where there is no error there is none to retry. -/
theorem noFailure : ∀ error ∈ (none : Option Error), error.retryable = false := by
  intro error never
  cases never

/-- An operation that needs a buffer and may hand it out is refused or settles. -/
theorem refused_or_settled_of_hold
    {operation : Operation}
    {answer : Except Error ByteBuffer × Codec}
    (balanced : session.Balanced ceiling)
    (needsBuffer : operation.needsBuffer = true)
    (performed : session.perform operation = session.hold answer)
    (failed : session.failure? operation = Error.of? answer.1)
    (refused :
      ¬ session.held.length < ceiling →
        answer = (.error (.poolOverflow ceiling), session.codec))
    (settled :
      session.held.length < ceiling →
        session.codec.Settled ceiling (session.held.length + Codec.gained answer.1)
          session.detached.length (Error.of? answer.1) answer.2) :
    session.Refused ceiling operation ∨ session.Settled ceiling operation := by
  by_cases free : session.held.length < ceiling
  · refine .inr ⟨fun _ => free, ?_⟩
    have settled := settled free
    rw [performed, failed]
    rcases answer with ⟨error | buffer, after⟩
    · exact settled
    · rw [hold, List.length_append]
      exact settled
  · have same := refused free
    subst same
    exact .inl ⟨needsBuffer, balanced.full free, failed, performed⟩

/-- An operation that needs a buffer for itself is refused or settles. -/
theorem refused_or_settled_of_onCodec
    {operation : Operation}
    {after : Codec}
    (balanced : session.Balanced ceiling)
    (needsBuffer : operation.needsBuffer = true)
    (performed : session.perform operation = session.onCodec after)
    (refused :
      ¬ session.held.length < ceiling →
        session.failure? operation = some (.poolOverflow ceiling) ∧ after = session.codec)
    (settled :
      session.held.length < ceiling →
        session.codec.Settled ceiling session.held.length session.detached.length
          (session.failure? operation) after) :
    session.Refused ceiling operation ∨ session.Settled ceiling operation := by
  by_cases free : session.held.length < ceiling
  · refine .inr ⟨fun _ => free, ?_⟩
    rw [performed]
    exact settled free
  · obtain ⟨failed, rfl⟩ := refused free
    exact .inl ⟨needsBuffer, balanced.full free, failed, performed⟩

/-- An operation that leaves the pool and the caller's buffers alone settles. -/
theorem settled_of_apart
    {operation : Operation}
    (balanced : session.Balanced ceiling)
    (apart : operation.needsBuffer = false)
    (sameBuffers : (session.perform operation).codec.buffers = session.codec.buffers)
    (sameHeld : (session.perform operation).held.length = session.held.length)
    (sameDetached : (session.perform operation).detached = session.detached)
    (notRetryable : ∀ error ∈ session.failure? operation, error.retryable = false) :
    session.Settled ceiling operation := by
  refine ⟨fun needs => absurd (needs.symm.trans apart) Bool.noConfusion, ?_⟩
  rw [sameHeld, sameDetached]
  exact .of_same balanced sameBuffers notRetryable

/-- An operation on a held buffer settles if it does so with a buffer that is there. -/
theorem settled_of_withHeld
    {operation : Operation}
    {place : Nat}
    {action : ByteBuffer → Session}
    (balanced : session.Balanced ceiling)
    (apart : operation.needsBuffer = false)
    (performed : session.perform operation = session.withHeld place action)
    (missing : session.held[place]? = none → session.failure? operation = none)
    (acted :
      ∀ buffer, session.held[place]? = some buffer →
        session.codec.Settled ceiling (action buffer).held.length
          (action buffer).detached.length (session.failure? operation)
          (action buffer).codec) :
    session.Settled ceiling operation := by
  refine ⟨fun needs => absurd (needs.symm.trans apart) Bool.noConfusion, ?_⟩
  rw [performed, withHeld]
  cases found : session.held[place]? with
  | none =>
      rw [missing found]
      exact .of_same balanced rfl noFailure
  | some buffer => exact acted buffer found

/-- Without the buffer at a place one buffer less is held. -/
theorem Balanced.of_found
    {place : Nat}
    {buffer : ByteBuffer}
    (balanced : session.Balanced ceiling)
    (found : session.held[place]? = some buffer) :
    session.codec.buffers.Balanced ceiling ((session.held.eraseIdx place).length + 1)
      session.detached.length := by
  obtain ⟨within, _⟩ := List.getElem?_eq_some_iff.mp found
  rw [List.length_eraseIdx_add_one within]
  exact balanced

/-- An operation is refused for want of a buffer, or settles. -/
theorem Balanced.refused_or_settled
    (balanced : session.Balanced ceiling)
    (clean : session.codec.Clean)
    (operation : Operation) :
    session.Refused ceiling operation ∨ session.Settled ceiling operation := by
  cases operation with
  | onThread thread => exact .inr (settled_of_apart balanced rfl rfl rfl rfl noFailure)
  | acquireBuffer =>
      exact refused_or_settled_of_hold balanced rfl rfl rfl
        (Codec.acquireBuffer_of_full balanced) (Codec.settled_acquireBuffer balanced)
  | change place edit =>
      exact .inr (settled_of_apart balanced rfl rfl (List.length_modify _ _ _) rfl noFailure)
  | giveBack place =>
      refine .inr (settled_of_withHeld balanced rfl rfl (fun _ => rfl) fun buffer found => ?_)
      have released := (balanced.of_found found).release session.codec.thread buffer
      exact ⟨released, .inl rfl, noFailure⟩
  | detach place =>
      refine .inr (settled_of_withHeld balanced rfl rfl (fun _ => rfl) fun buffer found => ?_)
      rw [List.length_append]
      exact ⟨(balanced.of_found found).forget, .inl rfl, noFailure⟩
  | encode format document =>
      refine refused_or_settled_of_onCodec balanced rfl rfl (fun full => ?_)
        (Codec.settled_encode format document balanced)
      have refused := Codec.encode_of_full format document balanced full
      rw [failure?, refused]
      exact ⟨rfl, rfl⟩
  | encodePooled format document =>
      exact refused_or_settled_of_hold balanced rfl rfl rfl
        (Codec.encodePooled_of_full format document balanced)
        (Codec.settled_encodePooled format document balanced)
  | encodeInto format document buffer =>
      refine .inr (settled_of_apart balanced rfl (Codec.buffers_encodeInto _ _ _ _) rfl rfl ?_)
      intro error failed
      exact Codec.not_retryable_of_encodeInto (Error.mem_of?_iff.mp failed)
  | encodeIntoHeld format document place =>
      refine .inr (settled_of_withHeld balanced rfl rfl ?_ fun buffer found => ?_)
      · intro missing
        rw [failure?, missing]
        rfl
      · have same := Codec.buffers_encodeInto session.codec format document buffer
        rw [failure?, found, List.length_set]
        refine .of_same balanced same fun error failed => ?_
        exact Codec.not_retryable_of_encodeInto (Error.mem_of?_iff.mp failed)
  | decode format bytes =>
      refine .inr (settled_of_apart balanced rfl rfl rfl rfl ?_)
      intro error failed
      exact Codec.not_retryable_of_decoding (Codec.decode_eq_decoding clean format bytes)
        (Error.mem_of?_iff.mp failed)
  | decodeInto format bytes target =>
      refine .inr (settled_of_apart balanced rfl rfl rfl rfl ?_)
      intro error failed
      exact Codec.not_retryable_of_decoding
        (Codec.decodeInto_eq_decoding clean format bytes target) (Error.mem_of?_iff.mp failed)
  | decodeShared format bytes =>
      refine .inr (settled_of_apart balanced rfl rfl rfl rfl ?_)
      intro error failed
      exact Codec.not_retryable_of_decoding
        (Codec.decodeShared_eq_decoding clean format bytes) (Error.mem_of?_iff.mp failed)
  | writeTo format document sink =>
      refine refused_or_settled_of_onCodec balanced rfl rfl (fun full => ?_)
        (fun free => Codec.settled_writeTo format document balanced free sink)
      have refused := Codec.writeTo_of_full format document balanced full sink
      rw [failure?, refused]
      exact ⟨rfl, rfl⟩
  | readFrom format source =>
      refine .inr (settled_of_apart balanced rfl (Codec.buffers_readFrom _ _ _) rfl rfl ?_)
      intro error failed
      have read := Codec.readFrom_eq_reading clean format source
      exact Frame.not_retryable_of_reading
        ((congrArg Prod.fst read).symm.trans (Error.mem_of?_iff.mp failed))

/-- Every operation leaves the counters in balance with what the session holds. -/
theorem Balanced.perform
    (balanced : session.Balanced ceiling)
    (clean : session.codec.Clean)
    (operation : Operation) :
    (session.perform operation).Balanced ceiling := by
  rcases balanced.refused_or_settled clean operation with refused | settled
  · rw [refused.unchanged]
    exact balanced
  · exact settled.settled.balanced

/-- The counters stay in balance over all operations of a session. -/
theorem Balanced.run
    {config : Config}
    (balanced : session.Balanced ceiling)
    (sound : session.Sound config)
    (operations : List Operation) :
    (session.run operations).Balanced ceiling := by
  induction operations generalizing session with
  | nil => exact balanced
  | cons operation rest inductionHypothesis =>
      exact inductionHypothesis (balanced.perform sound.reachable.clean operation)
        (sound.perform operation)

/-- An operation that neither ends a hold nor is granted a buffer leaves as many held. -/
theorem length_held_perform
    {operation : Operation}
    (keeps : operation.endsHold = false)
    (grantless : session.grants operation = false) :
    (session.perform operation).held.length = session.held.length := by
  cases operation with
  | giveBack place => cases keeps
  | detach place => cases keeps
  | acquireBuffer =>
      rw [grants] at grantless
      rw [perform]
      generalize session.codec.acquireBuffer = answer at grantless ⊢
      rcases answer with ⟨error | buffer, after⟩
      · rfl
      · cases grantless
  | encodePooled format document =>
      rw [grants] at grantless
      rw [perform]
      generalize session.codec.encodePooled format document = answer at grantless ⊢
      rcases answer with ⟨error | buffer, after⟩
      · rfl
      · cases grantless
  | change place edit => exact List.length_modify _ _ _
  | encodeIntoHeld format document place =>
      rw [perform, withHeld]
      split
      · exact List.length_set
      · rfl
  | _ => rfl

/-- A buffer that was handed out is held. -/
theorem length_held_of_handsOut
    {operation : Operation}
    (handsOut : operation.handsOut = true)
    (succeeded : session.failure? operation = none) :
    (session.perform operation).held.length = session.held.length + 1 := by
  have holds {answer : Except Error ByteBuffer × Codec} (succeeded : Error.of? answer.1 = none) :
      (session.hold answer).held.length = session.held.length + 1 := by
    rcases answer with ⟨error | buffer, after⟩
    · cases succeeded
    · exact List.length_append
  cases operation with
  | acquireBuffer => exact holds succeeded
  | encodePooled format document => exact holds succeeded
  | _ => cases handsOut

/-- With a slot free an operation has its buffer, and fails for its document or its sink only. -/
theorem failure?_of_free
    {operation : Operation}
    (clean : session.codec.Clean)
    (free : session.codec.buffers.gate.inUse < session.codec.buffers.gate.ceiling)
    (needsBuffer : operation.needsBuffer = true) :
    session.failure? operation = operation.failureWithBuffer? := by
  cases operation with
  | acquireBuffer =>
      obtain ⟨buffer, acquired, -⟩ := BoundedPool.exists_acquire free session.codec.thread
      have taken : session.codec.acquireBuffer.1 = .ok buffer := acquired
      rw [failure?, taken]
      rfl
  | encode format document =>
      exact congrArg Error.of? (Codec.encode_eq_encoding clean free format document)
  | encodePooled format document =>
      have encodes :=
        congrArg Error.of? (Codec.encodePooled_eq_encoding clean free format document)
      rwa [Error.of?_map, Error.of?_map] at encodes
  | writeTo format document sink =>
      have written :=
        congrArg Prod.fst (Codec.writeTo_eq_encoding clean free format document sink)
      rw [failure?, Operation.failureWithBuffer?, written]
      cases format.encoding document <;> rfl
  | _ => cases needsBuffer

/-- The counts of the pool are those of the buffers that are held, idle and detached. -/
structure ExactCounts (session : Session) (ceiling : Nat) : Prop where
  inUse_eq : session.codec.stats.inUse = session.held.length
  waiting_eq : session.codec.stats.waiting = 0
  ceiling_eq : session.codec.stats.ceiling = ceiling
  within : session.codec.stats.idle + session.codec.stats.inUse ≤ ceiling
  created_eq :
    session.codec.stats.idle + session.codec.stats.inUse + session.detached.length =
      session.codec.buffers.created

/-- What an operation does to the counts, and when the pool is what it fails for. -/
structure ExactStep (session : Session) (operation : Operation) : Prop where
  grows :
    session.codec.buffers.GrowsWhenEmpty (session.perform operation).codec.buffers
  overflow_iff (ceiling : Nat) :
    session.failure? operation = some (.poolOverflow ceiling) ↔
      operation.needsBuffer = true ∧ session.codec.stats.inUse = ceiling ∧
        session.codec.stats.ceiling = ceiling
  unchanged (ceiling : Nat) :
    session.failure? operation = some (.poolOverflow ceiling) →
      session.perform operation = session
  served :
    operation.needsBuffer = true →
      session.codec.stats.inUse < session.codec.stats.ceiling →
        session.failure? operation = operation.failureWithBuffer?
  granted :
    operation.handsOut = true → session.failure? operation = none →
      (session.perform operation).held.length = session.held.length + 1 ∧
        (session.perform operation).codec.stats.inUse = session.codec.stats.inUse + 1
  inUse_eq :
    operation.endsHold = false → session.grants operation = false →
      (session.perform operation).codec.stats.inUse = session.codec.stats.inUse

/-- Counters that are in balance are exact. -/
theorem Balanced.exactCounts (balanced : session.Balanced ceiling) :
    session.ExactCounts ceiling := by
  obtain ⟨inUse_eq, ceiling_eq, nobody, within, created_eq⟩ := balanced
  refine ⟨inUse_eq, congrArg List.length nobody, ceiling_eq, ?_, ?_⟩
  · change session.codec.buffers.idle.size + session.codec.buffers.gate.inUse ≤ ceiling
    rw [inUse_eq]
    exact within
  · change session.codec.buffers.idle.size + session.codec.buffers.gate.inUse +
      session.detached.length = session.codec.buffers.created
    rw [inUse_eq]
    exact created_eq

/-- A refused operation does nothing, and is refused for the pool. -/
theorem Refused.exactStep
    {operation : Operation}
    (refused : session.Refused ceiling operation)
    (counts : session.ExactCounts ceiling) :
    session.ExactStep operation := by
  have ⟨needsBuffer, full, failed, unchanged⟩ := refused
  refine ⟨?_, fun other => ?_, fun _ _ => unchanged, fun _ free => ?_, fun _ succeeded => ?_,
    fun _ _ => ?_⟩
  · rw [unchanged]
    exact .inl rfl
  · rw [failed, counts.inUse_eq, counts.ceiling_eq]
    constructor
    · rintro ⟨⟩
      exact ⟨needsBuffer, full, rfl⟩
    · rintro ⟨-, -, rfl⟩
      rfl
  · rw [counts.inUse_eq, counts.ceiling_eq] at free
    exact absurd full free.ne
  · rw [failed] at succeeded
    cases succeeded
  · rw [unchanged]

/-- An operation that settles does to the counts what its answer tells. -/
theorem Settled.exactStep
    {operation : Operation}
    (settled : session.Settled ceiling operation)
    (clean : session.codec.Clean)
    (counts : session.ExactCounts ceiling) :
    session.ExactStep operation := by
  have ⟨free, balanced, grows, notRetryable⟩ := settled
  -- an overflow is worth a retry, and a settled operation has no error that is
  have notOverflow : ∀ other, session.failure? operation ≠ some (.poolOverflow other) := by
    intro other overflowed
    cases notRetryable _ overflowed
  refine ⟨grows, fun other => ?_, fun other overflowed => ?_, fun needsBuffer slot => ?_,
    fun handsOut succeeded => ?_, fun keeps grantless => ?_⟩
  · rw [counts.inUse_eq, counts.ceiling_eq]
    constructor
    · intro overflowed
      exact absurd overflowed (notOverflow other)
    · rintro ⟨needsBuffer, full, rfl⟩
      exact absurd full (free needsBuffer).ne
  · exact absurd overflowed (notOverflow other)
  · exact failure?_of_free clean slot needsBuffer
  · have held := length_held_of_handsOut handsOut succeeded
    exact ⟨held, by rw [counts.inUse_eq, ← held]; exact balanced.inUse_eq⟩
  · rw [counts.inUse_eq, ← length_held_perform keeps grantless]
    exact balanced.inUse_eq

/-- Whatever operation comes next does to the counts what its answer tells. -/
theorem Balanced.exactStep
    (balanced : session.Balanced ceiling)
    (clean : session.codec.Clean)
    (operation : Operation) :
    session.ExactStep operation := by
  rcases balanced.refused_or_settled clean operation with refused | settled
  · exact refused.exactStep balanced.exactCounts
  · exact settled.exactStep clean balanced.exactCounts

/--
After any session the counts of the pool are exact.  Whatever comes next, it
makes a buffer only when no segment has an idle one, and fails for the pool if
and only if it needs a buffer and all are in use, with their number as the
ceiling; nothing is changed then.  With a slot free it has its buffer, and fails
only as its document or its sink makes it fail.  A buffer that is handed out is
one more in use; only an operation that hands one out or ends the hold on one
changes the number in use.

Nobody else holds a buffer, so a caller that waits for one, for a limited time,
does so in vain and fails as one that does not wait.  A wait without a limit
would not end; the model has it fail in the same way.
-/
theorem accounts_exact
    (config : Config)
    (policy : OverflowPolicy)
    (operations : List Operation) :
    let session := (new config policy).run operations
    session.ExactCounts (max config.bufferCeiling 1) ∧
      ∀ operation, session.ExactStep operation := by
  intro session
  have created : (new config policy).Balanced (max config.bufferCeiling 1) :=
    BoundedPool.balanced_create config.initialBuffers config.bufferCeiling policy _
  have sound : (new config policy).Sound config := sound_run_new config policy []
  have balanced := created.run sound operations
  have clean := (sound.run operations).reachable.clean
  exact ⟨balanced.exactCounts, balanced.exactStep clean⟩

/-- A codec with one buffer refuses a second one until the first is dropped. -/
theorem accounts_exact_of_one_buffer :
    let config := Config.standard.withBufferCeiling 1
    let session := (new config (.waiting (some 5))).run [.acquireBuffer]
    session.codec.stats.inUse = 1 ∧
      session.failure? .acquireBuffer = some (.poolOverflow 1) ∧
        (session.run [.giveBack 0]).failure? .acquireBuffer = none := by
  intro config session
  obtain ⟨counts, step⟩ := accounts_exact config (.waiting (some 5)) [.acquireBuffer]
  obtain ⟨-, stepAfter⟩ :=
    accounts_exact config (.waiting (some 5)) [.acquireBuffer, .giveBack 0]
  exact ⟨counts.inUse_eq, ((step .acquireBuffer).overflow_iff 1).mpr ⟨rfl, rfl, rfl⟩,
    (stepAfter .acquireBuffer).served rfl Nat.one_pos⟩

end Session

end DocumentCodec
