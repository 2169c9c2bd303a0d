import DocumentCodec.Pool.Gate

namespace DocumentCodec

/-!
# Bounded pools

A bounded pool hands out items up to a ceiling, makes new ones only when none
is idle, and resets an item when it comes back.  These are the operations of
one thread while no other uses the pool; `Pool.Interleaving` has the steps of
many threads.
-/

/-- Counts that a pool reports. -/
structure PoolStats where
  inUse : Nat
  idle : Nat
  ceiling : Nat
  waiting : Nat
  deriving Repr, DecidableEq

/-- Idle items behind a gate, and the way to make new ones. -/
structure BoundedPool (α : Type) where
  idle : Segments α
  gate : Gate
  /-- Number of items ever made. -/
  created : Nat
  /-- The item made after a number of others. -/
  factory : Nat → α
  policy : OverflowPolicy

namespace BoundedPool

/-- A pool with a number of items made in advance, which the ceiling limits. -/
def create (initial ceiling : Nat) (policy : OverflowPolicy)
    (factory : Nat → α) : BoundedPool α :=
  let gate := Gate.withCeiling ceiling
  let made := min initial gate.ceiling
  { idle := .seed ((List.range made).map factory)
    gate, created := made, factory, policy }

/-- The counts of a pool. -/
def stats (pool : BoundedPool α) : PoolStats where
  inUse := pool.gate.inUse
  idle := pool.idle.size
  ceiling := pool.gate.ceiling
  waiting := pool.gate.waiters.length

/-- Take an idle item, or make one when there is none. -/
def takeIdle (pool : BoundedPool α) (thread : ThreadId) : α × BoundedPool α :=
  match pool.idle.take? (homeSegment thread) with
  | some (item, idle) => (item, { pool with idle })
  | none =>
      (pool.factory pool.created, { pool with created := pool.created + 1 })

/-- Take an item if a slot is free. -/
def tryAcquire (pool : BoundedPool α) (thread : ThreadId) :
    Option α × BoundedPool α :=
  match pool.gate.reserve? with
  | some gate =>
      let (item, pool) := { pool with gate }.takeIdle thread
      (some item, pool)
  | none => (none, pool)

/-- Take an item, or do what the policy does when no slot is free. -/
def acquire (pool : BoundedPool α) (thread : ThreadId) :
    Except Error α × BoundedPool α :=
  match pool.gate.reserve? with
  | some gate =>
      let (item, pool) := { pool with gate }.takeIdle thread
      (.ok item, pool)
  | none =>
      match pool.policy.waitAlone thread pool.gate with
      | (.ok (), gate) =>
          let (item, pool) := { pool with gate }.takeIdle thread
          (.ok item, pool)
      | (.error error, gate) => (.error error, { pool with gate })

/-- Give up the slot of an item that does not come back. -/
def forget (pool : BoundedPool α) : BoundedPool α :=
  { pool with gate := pool.gate.release.2 }

/-- Give an item back. -/
def release [Reusable α] (pool : BoundedPool α) (thread : ThreadId) (item : α) :
    BoundedPool α :=
  let idle := pool.idle.push (homeSegment thread) (Reusable.reset item)
  { pool with idle }.forget

/--
Use an item for the length of an action.  The item comes back whatever the
action's result is.
-/
def withItem [Reusable α] (pool : BoundedPool α) (thread : ThreadId)
    (action : α → Except Error β × α) : Except Error β × BoundedPool α :=
  match pool.acquire thread with
  | (.ok item, pool) =>
      let (result, item) := action item
      (result, pool.release thread item)
  | (.error error, pool) => (.error error, pool)

end BoundedPool

end DocumentCodec
