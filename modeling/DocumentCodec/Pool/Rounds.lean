import DocumentCodec.Pool.Interleaving

namespace DocumentCodec

/-!
# Threads that take turns

A fair schedule of threads that share a bounded pool: in every pass each thread
makes one move, if it has one to make.  Every thread acquires an item and gives
it back, as often as its quota says.
-/

/-- Threads on a schedule, with the largest number of items held at one time. -/
structure Rounds (α : Type) where
  shared : SharedPool α
  mostHeld : Nat

namespace Rounds

/-- Number of items that threads hold. -/
def heldBy : List (PoolUser α) → Nat
  | [] => 0
  | user :: rest => user.held.length + heldBy rest

/-- Number of acquires that gave an item. -/
def servedTo : List (PoolUser α) → Nat
  | [] => 0
  | user :: rest => user.served + servedTo rest

/-- The next move of a thread with a quota of acquires. -/
def nextMove? (quota : Nat) (user : PoolUser α) : Option Move :=
  match user.phase with
  | .resting =>
      if user.held.length > 0 then
        some (.release 0)
      else if user.served + user.refused < quota then
        some .acquire
      else
        none
  | .parked => if user.token then some .proceed else none
  | _ => some .proceed

/-- The state after a move of a thread, or the same state if it cannot make it. -/
def move [Reusable α] (rounds : Rounds α) (thread : ThreadId) (move : Move) :
    Rounds α :=
  match rounds.shared.step? thread move with
  | some shared => ⟨shared, max rounds.mostHeld (heldBy shared.users)⟩
  | none => rounds

/-- One pass over some threads; the answer includes whether any of them moved. -/
def pass [Reusable α] (quota : ThreadId → Nat) :
    List ThreadId → Bool → Rounds α → Bool × Rounds α
  | [], moved, rounds => (moved, rounds)
  | thread :: rest, moved, rounds =>
      match rounds.shared.users[thread]?.bind (nextMove? (quota thread)) with
      | some next => pass quota rest true (rounds.move thread next)
      | none => pass quota rest moved rounds

/-- Passes over some threads until none of them moves, but at most so many. -/
def passes [Reusable α] (quota : ThreadId → Nat) (threads : List ThreadId) :
    Nat → Rounds α → Rounds α
  | 0, rounds => rounds
  | left + 1, rounds =>
      match pass quota threads false rounds with
      | (true, rounds) => passes quota threads left rounds
      | (false, rounds) => rounds

/-- More passes than a number of acquires can use. -/
def enoughPasses (policy : OverflowPolicy) (acquires : Nat) : Nat :=
  let attempts :=
    match policy with
    | .failFast => 1
    | .blocking _ spins => spins + 1
  4 * (acquires + 1) * (attempts + segmentCount + 16)

/-- Let some threads make their acquires, until all are done or asleep. -/
def settle [Reusable α] (rounds : Rounds α) (threads : List ThreadId)
    (quota : ThreadId → Nat) : Rounds α :=
  let acquires := threads.foldl (fun total thread => total + quota thread) 0
  passes quota threads (enoughPasses rounds.shared.pool.policy acquires) rounds

end Rounds

namespace BoundedPool

/-- Let threads acquire an item and give it back, each a number of times. -/
def contend [Reusable α] (pool : BoundedPool α) (threads acquires : Nat) :
    Rounds α :=
  Rounds.settle ⟨.start pool threads, 0⟩ (List.range threads) fun _ => acquires

/--
Let threads wait for an item, then give one back or forget it, so that each of
them acquires one and gives it back.  The answer has the number of acquires
that gave an item.
-/
def serveWaiting [Reusable α] (pool : BoundedPool α) (threads : Nat)
    (keeps : Bool) (item : α) : Nat × BoundedPool α :=
  let waiters := List.range' 1 threads
  let quota : ThreadId → Nat := fun thread => if thread = 0 then 0 else 1
  let shared : SharedPool α :=
    ⟨pool, .holding [item] :: List.replicate threads (.holding []), []⟩
  let waiting := Rounds.settle ⟨shared, 1⟩ waiters quota
  let returning := waiting.move 0 (if keeps then .release 0 else .detach 0)
  let finished := returning.settle (0 :: waiters) quota
  (Rounds.servedTo finished.shared.users.tail, finished.shared.pool)

end BoundedPool

end DocumentCodec
