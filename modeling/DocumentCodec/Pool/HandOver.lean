import DocumentCodec.Pool.Interleaving

namespace DocumentCodec

/-!
# Items that change hands

A guard gives its item back in the thread that acquired it.  A bare item may go
to another thread, which then gives it back as if it had acquired it itself: to
its own home segment, and for the one slot that goes with the item.
-/

/-- What happens at a point of a schedule in which items may change hands. -/
inductive PoolEvent
  /-- A thread makes a move. -/
  | move (thread : ThreadId) (move : Move)
  /-- A thread hands one of the items that it holds to another thread. -/
  | handOver (giver : ThreadId) (index : Nat) (taker : ThreadId)
  deriving Repr, DecidableEq

namespace PoolUser

/-- The thread without one of the items that it holds. -/
def give (user : PoolUser α) (index : Nat) : PoolUser α :=
  { user with held := user.held.eraseIdx index }

/-- The thread with one more item in its hands. -/
def get (user : PoolUser α) (item : α) : PoolUser α :=
  { user with held := item :: user.held }

end PoolUser

namespace SharedPool

/--
The state after an item was handed over, if the giver holds it.  Neither thread
needs to rest: an item may be on its way while they use the pool.
-/
def handOver? (shared : SharedPool α) (giver : ThreadId) (index : Nat) (taker : ThreadId) :
    Option (SharedPool α) :=
  if giver = taker then
    none
  else do
    let user ← shared.users[giver]?
    let other ← shared.users[taker]?
    let item ← user.held[index]?
    some ((shared.put giver (user.give index)).put taker (other.get item))

/-- The state after an event, if it can happen. -/
def happen? [Reusable α] (shared : SharedPool α) : PoolEvent → Option (SharedPool α)
  | .move thread move => shared.step? thread move
  | .handOver giver index taker => shared.handOver? giver index taker

/-- The state after some events, if they can happen one after another. -/
def happenAll? [Reusable α] (shared : SharedPool α) : List PoolEvent → Option (SharedPool α)
  | [] => some shared
  | event :: rest => do
      let next ← shared.happen? event
      next.happenAll? rest

end SharedPool

end DocumentCodec
