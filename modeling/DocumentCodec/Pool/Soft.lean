import DocumentCodec.Pool.Segments

namespace DocumentCodec

/-!
# Soft pools

A soft pool never refuses an item.  It keeps at most a fixed number of idle
items in each segment and lets go of the rest.
-/

/-- Idle items and the way to make new ones. -/
structure SoftPool (α : Type) where
  idle : Segments α
  /-- The largest number of idle items kept in a segment. -/
  capacity : Nat
  /-- Number of items ever made. -/
  created : Nat
  /-- The item made after a number of others. -/
  factory : Nat → α

namespace SoftPool

/-- A pool without items. -/
def create (capacity : Nat) (factory : Nat → α) : SoftPool α :=
  ⟨.empty, capacity, 0, factory⟩

/-- Take an idle item, or make one when there is none. -/
def acquire (pool : SoftPool α) (thread : ThreadId) : α × SoftPool α :=
  match pool.idle.take? (homeSegment thread) with
  | some (item, idle) => (item, { pool with idle })
  | none =>
      (pool.factory pool.created, { pool with created := pool.created + 1 })

/-- Give an item back; the pool keeps it unless the home segment is full. -/
def release [Reusable α] (pool : SoftPool α) (thread : ThreadId) (item : α) :
    SoftPool α :=
  { pool with
    idle :=
      pool.idle.pushWithin (homeSegment thread) pool.capacity
        (Reusable.reset item) }

/-- Use an item for the length of an action, after which it comes back. -/
def borrow [Reusable α] (pool : SoftPool α) (thread : ThreadId)
    (action : α → β × α) : β × SoftPool α :=
  let (item, pool) := pool.acquire thread
  let (result, item) := action item
  (result, pool.release thread item)

end SoftPool

end DocumentCodec
