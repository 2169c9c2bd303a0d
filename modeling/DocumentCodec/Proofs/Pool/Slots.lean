import DocumentCodec.Proofs.Pool.Idle
import DocumentCodec.Stream.Frame

namespace DocumentCodec

/-!
# Slots in use

An item that is taken claims a slot of its pool's gate, and giving it back
frees the slot.  An encoding that succeeds keeps the slot of its buffer, and
one that fails gives it back.
-/

/-- As many slots are in use, of as many. -/
structure Gate.SameSlots (gate other : Gate) : Prop where
  inUse_eq : gate.inUse = other.inUse
  ceiling_eq : gate.ceiling = other.ceiling

namespace Gate

variable {gate claimed : Gate}

/-- The gate with one slot more in use. -/
def claim (gate : Gate) : Gate :=
  { gate with inUse := gate.inUse + 1 }

/-- Gates that agree with a third agree with each other. -/
theorem SameSlots.trans
    {first second third : Gate}
    (same : first.SameSlots second)
    (others : second.SameSlots third) :
    first.SameSlots third :=
  ⟨same.inUse_eq.trans others.inUse_eq, same.ceiling_eq.trans others.ceiling_eq⟩

/-- To claim a slot keeps gates in agreement. -/
theorem SameSlots.claim
    {other : Gate}
    (same : gate.SameSlots other) :
    gate.claim.SameSlots other.claim :=
  ⟨congrArg (· + 1) same.inUse_eq, same.ceiling_eq⟩

/-- To take a waiter off the list leaves the slots alone. -/
theorem sameSlots_popWaiter (gate : Gate) : gate.popWaiter.2.SameSlots gate := by
  unfold popWaiter
  split <;> exact ⟨rfl, rfl⟩

/-- To go on the list leaves the slots alone. -/
theorem sameSlots_register (gate : Gate) (thread : ThreadId) :
    (gate.register thread).SameSlots gate := by
  unfold register
  split <;> exact ⟨rfl, rfl⟩

/-- To leave the list leaves the slots alone. -/
theorem sameSlots_deregister (gate : Gate) (thread : ThreadId) :
    (gate.deregister thread).2.SameSlots gate := by
  unfold deregister withdraw?
  by_cases listed : thread ∈ gate.waiters
  · simp only [if_pos listed]
    exact ⟨rfl, rfl⟩
  · simp only [if_neg listed]
    exact gate.sameSlots_popWaiter

/-- To reserve is to claim a slot. -/
theorem sameSlots_reserve?
    (reserved : gate.reserve? = some claimed) :
    claimed.SameSlots gate.claim := by
  unfold reserve? at reserved
  split at reserved
  · cases reserved
    exact ⟨rfl, rfl⟩
  · cases reserved

/-- Giving a slot back undoes claiming it, but for the thread that is woken. -/
theorem sameSlots_release
    (claims : claimed.SameSlots gate.claim) :
    claimed.release.2.SameSlots gate := by
  refine claimed.free.sameSlots_popWaiter.trans ⟨?_, claims.ceiling_eq⟩
  rw [free, claims.inUse_eq]
  exact Nat.add_sub_cancel gate.inUse 1

end Gate

/-- A wait that ends with a slot has claimed it, and one that fails has not. -/
theorem OverflowPolicy.sameSlots_waitAlone
    (policy : OverflowPolicy)
    (thread : ThreadId)
    (gate : Gate) :
    match policy.waitAlone thread gate with
    | (.ok (), after) => after.SameSlots gate.claim
    | (.error _, after) => after.SameSlots gate := by
  cases policy with
  | failFast => exact ⟨rfl, rfl⟩
  | blocking timeout? spins =>
      have registers := gate.sameSlots_register thread
      unfold waitAlone
      cases reserved : (gate.register thread).reserve? with
      | some claimed =>
          have claims := (Gate.sameSlots_reserve? reserved).trans registers.claim
          simp only [reserved]
          exact (claimed.sameSlots_deregister thread).trans claims
      | none =>
          simp only [reserved]
          exact ((gate.register thread).sameSlots_deregister thread).trans registers

/-- An acquire that gives an item has claimed a slot, and one that fails has not. -/
theorem BoundedPool.sameSlots_acquire
    (pool : BoundedPool α)
    (thread : ThreadId) :
    match pool.acquire thread with
    | (.ok _, after) => after.gate.SameSlots pool.gate.claim
    | (.error _, after) => after.gate.SameSlots pool.gate := by
  unfold acquire
  cases reserved : pool.gate.reserve? with
  | some claimed =>
      dsimp only
      rw [gate_takeIdle]
      exact Gate.sameSlots_reserve? reserved
  | none =>
      have waited := pool.policy.sameSlots_waitAlone thread pool.gate
      rcases outcome : pool.policy.waitAlone thread pool.gate with ⟨_ | _, after⟩ <;>
        rw [outcome] at waited <;>
        dsimp only
      · exact waited
      · rw [gate_takeIdle]
        exact waited

namespace Codec

/-- The gate that an encoding leaves, once a buffer that it ended with is given back. -/
def gateBehind : Except Error ByteBuffer × Codec → Gate
  | (.ok _, after) => after.buffers.gate.release.2
  | (.error _, after) => after.buffers.gate

/-- Encoding that has its buffer neither claims nor releases. -/
theorem sameSlots_encodeAcquired
    (codec : Codec)
    (format : Format)
    (document : Document) :
    (gateBehind (codec.encodeAcquired format document)).SameSlots codec.buffers.gate := by
  have acquires : match codec.acquireBuffer with
      | (.ok _, after) => after.buffers.gate.SameSlots codec.buffers.gate.claim
      | (.error _, after) => after.buffers.gate.SameSlots codec.buffers.gate := by
    have claims := codec.buffers.sameSlots_acquire codec.thread
    rcases ran : codec.buffers.acquire codec.thread with ⟨_ | item, pool⟩ <;>
      rw [ran] at claims <;>
      simp only [acquireBuffer, ran] <;>
      exact claims
  rcases taken : codec.acquireBuffer with ⟨_ | buffer, after⟩ <;>
    rw [taken] at acquires <;>
    rw [encodeAcquired, taken]
  · exact acquires
  · have released := Gate.sameSlots_release acquires
    -- Writing changes the lists of frames only, so the gate is the one of the taken buffer.
    have kept : (after.write format document buffer).2.buffers = after.buffers := rfl
    rw [← kept] at released
    rcases ran : after.write format document buffer with ⟨⟨_ | done, full⟩, last⟩ <;>
      rw [ran] at released <;>
      simp only [ran] <;>
      exact released

/-- Writing a document to a sink leaves as many slots in use as there were. -/
theorem sameSlots_writeTo
    (codec : Codec)
    (format : Format)
    (document : Document)
    (sink : Sink) :
    (codec.writeTo format document sink).2.1.buffers.gate.SameSlots codec.buffers.gate := by
  have settled := sameSlots_encodeAcquired codec format document
  rcases ran : codec.encodeAcquired format document with ⟨_ | buffer, after⟩ <;>
    rw [ran] at settled <;>
    simp only [writeTo, encodePooled, ran] <;>
    exact settled

end Codec

end DocumentCodec
