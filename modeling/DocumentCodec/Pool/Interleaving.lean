import DocumentCodec.Pool.Bounded

namespace DocumentCodec

/-!
# Threads that share a bounded pool

The operations of many threads on one bounded pool, cut into steps that happen
at once: a read, a compare-and-exchange or a decrement of the counter of slots,
an access to the list of waiters, to one segment or to a wake-up token, and the
making of an item.

`SharedPool.step?` is the next state after a move of a thread, and none if the
thread cannot make that move.  A schedule is a list of moves.  In such a
schedule a thread gives back, or takes out for good, only items that it has
acquired itself, as guards do, which stay in their thread.  Items that change
hands are events of their own, which `SharedPool.happenAll?` adds to the moves.
-/

/-- Which attempt to claim a slot a thread makes. -/
inductive Attempt
  /-- The only one: a full pool is left at once. -/
  | single
  /-- The first one of an acquire. -/
  | first
  /-- One before going to sleep, with a number of such attempts left. -/
  | spinning (left : Nat)
  /-- One with the thread on the list of waiters. -/
  | listed
  deriving Repr, DecidableEq

/-- What a thread does once it is off the list or has passed a wake-up on. -/
inductive Sequel
  /-- Take an item for the slot that it has claimed. -/
  | take
  /-- Report that it got no slot. -/
  | refuse
  /-- Leave the pool. -/
  | leave
  deriving Repr, DecidableEq

/-- The step that a thread makes next. -/
inductive Phase (α : Type)
  /-- None: the thread does not use the pool. -/
  | resting
  /-- Read the counter. -/
  | reading (attempt : Attempt)
  /-- Raise the counter by one if it still is what was seen. -/
  | claiming (attempt : Attempt) (seen : Nat)
  /-- Go on the list of waiters. -/
  | enlisting
  /-- Look whether the time to wait is over. -/
  | timing
  /-- Wake up, for which a token is there or the system has a reason of its own. -/
  | parked
  /-- Go off the list of waiters. -/
  | delisting (sequel : Sequel)
  /-- Look into the first of some segments, or make an item if none is left. -/
  | searching (segments : List (Fin segmentCount))
  /-- Put a reset item on the home segment. -/
  | storing (item : α)
  /-- Lower the counter. -/
  | freeing
  /-- Take the newest waiter off the list. -/
  | waking (sequel : Sequel)
  /-- Give a wake-up token to a thread. -/
  | unparking (target : ThreadId) (sequel : Sequel)
  deriving Repr, DecidableEq

/-- A thread with its items, its wake-up token and its counts of results. -/
structure PoolUser (α : Type) where
  phase : Phase α
  /-- The items that the thread has acquired, the last one first. -/
  held : List α
  token : Bool
  /-- Number of acquires that gave an item. -/
  served : Nat
  /-- Number of acquires that did not. -/
  refused : Nat
  deriving Repr, DecidableEq

namespace PoolUser

/-- A thread that has not used the pool and holds some items. -/
def holding (items : List α) : PoolUser α :=
  ⟨.resting, items, false, 0, 0⟩

/-- The thread in another phase. -/
def enter (user : PoolUser α) (phase : Phase α) : PoolUser α :=
  { user with phase }

/-- The thread without a slot, back from the pool. -/
def refuse (user : PoolUser α) : PoolUser α :=
  { user with phase := .resting, refused := user.refused + 1 }

/-- The thread with one more item, back from the pool. -/
def receive (user : PoolUser α) (item : α) : PoolUser α :=
  { user with
    phase := .resting
    held := item :: user.held
    served := user.served + 1 }

/-- The thread on its way to an item. -/
def search (user : PoolUser α) (thread : ThreadId) : PoolUser α :=
  user.enter (.searching (Segments.searchOrder (homeSegment thread)))

/-- The thread after it has claimed a slot. -/
def accept (user : PoolUser α) (thread : ThreadId) : Attempt → PoolUser α
  | .listed => user.enter (.delisting .take)
  | .single | .first | .spinning _ => user.search thread

/-- The thread after it has found all slots in use. -/
def turnAway (user : PoolUser α) (policy : OverflowPolicy) :
    Attempt → PoolUser α
  | .single => user.refuse
  | .first =>
      match policy with
      | .failFast => user.refuse
      | .blocking _ 0 => user.enter .enlisting
      | .blocking _ (left + 1) => user.enter (.reading (.spinning left))
  | .spinning 0 => user.enter .enlisting
  | .spinning (left + 1) => user.enter (.reading (.spinning left))
  | .listed => user.enter .timing

/-- The thread after it has seen a count of slots in use. -/
def observe (user : PoolUser α) (policy : OverflowPolicy)
    (ceiling seen : Nat) (attempt : Attempt) : PoolUser α :=
  if seen < ceiling then
    user.enter (.claiming attempt seen)
  else
    user.turnAway policy attempt

/-- The thread after it has passed a wake-up on or found nobody to wake. -/
def follow (user : PoolUser α) (thread : ThreadId) : Sequel → PoolUser α
  | .take => user.search thread
  | .refuse => user.refuse
  | .leave => user.enter .resting

end PoolUser

/-- A bounded pool, the threads that share it, and the items taken out for good. -/
structure SharedPool (α : Type) where
  pool : BoundedPool α
  users : List (PoolUser α)
  detached : List α

/-- What a thread may do at a point of a schedule. -/
inductive Move
  /-- Begin to acquire an item. -/
  | acquire
  /-- Begin to acquire an item without waiting. -/
  | tryAcquire
  /-- Begin to give back one of the items held. -/
  | release (index : Nat)
  /-- Take one of the items held out of the pool for good, and begin to give up its slot. -/
  | detach (index : Nat)
  /-- Make the next step. -/
  | proceed
  /-- Fail to raise the counter although it is what was seen. -/
  | miss
  /-- Find that the time to wait is over. -/
  | expire
  /-- Wake up without a token. -/
  | stir
  deriving Repr, DecidableEq

namespace SharedPool

/-- A pool and threads that hold no items. -/
def start (pool : BoundedPool α) (threads : Nat) : SharedPool α :=
  ⟨pool, List.replicate threads (.holding []), []⟩

/-- The state with a thread replaced. -/
def put (shared : SharedPool α) (thread : ThreadId) (user : PoolUser α) :
    SharedPool α :=
  { shared with users := shared.users.set thread user }

/-- The state with another gate. -/
def withGate (shared : SharedPool α) (gate : Gate) : SharedPool α :=
  { shared with pool := { shared.pool with gate } }

/-- Give a wake-up token to a thread. -/
def unpark (shared : SharedPool α) (thread : ThreadId) : SharedPool α :=
  { shared with
    users := shared.users.modify thread fun user => { user with token := true } }

/-- Look into a segment for an item. -/
def searchSegment (shared : SharedPool α) (thread : ThreadId)
    (user : PoolUser α) :
    List (Fin segmentCount) → SharedPool α
  | [] =>
      { shared with
        pool := { shared.pool with created := shared.pool.created + 1 } }.put
        thread (user.receive (shared.pool.factory shared.pool.created))
  | segment :: rest =>
      match shared.pool.idle.pop? segment with
      | some (item, idle) =>
          { shared with pool := { shared.pool with idle } }.put thread
            (user.receive item)
      | none => shared.put thread (user.enter (.searching rest))

/-- The state after a thread has made its next step, if it can make one. -/
def advance? (shared : SharedPool α) (thread : ThreadId) (user : PoolUser α) :
    Option (SharedPool α) :=
  let pool := shared.pool
  let gate := pool.gate
  match user.phase with
  | .resting => none
  | .reading attempt =>
      some <| shared.put thread <|
        user.observe pool.policy gate.ceiling gate.inUse attempt
  | .claiming attempt seen =>
      if gate.inUse = seen then
        some <| (shared.withGate { gate with inUse := seen + 1 }).put thread <|
          user.accept thread attempt
      else
        some <| shared.put thread <|
          user.observe pool.policy gate.ceiling gate.inUse attempt
  | .enlisting =>
      some <| (shared.withGate (gate.register thread)).put thread <|
        user.enter (.reading .listed)
  | .timing => some (shared.put thread (user.enter .parked))
  | .parked =>
      if user.token then
        some <| shared.put thread { user with phase := .enlisting, token := false }
      else
        none
  | .delisting sequel =>
      match gate.withdraw? thread with
      | some withdrawn =>
          some <| (shared.withGate withdrawn).put thread <|
            user.follow thread sequel
      | none => some (shared.put thread (user.enter (.waking sequel)))
  | .searching segments => some (shared.searchSegment thread user segments)
  | .storing item =>
      some <| { shared with
        pool := { pool with idle := pool.idle.push (homeSegment thread) item } }.put
        thread (user.enter .freeing)
  | .freeing =>
      some <| (shared.withGate gate.free).put thread <|
        user.enter (.waking .leave)
  | .waking sequel =>
      match gate.popWaiter with
      | (some target, popped) =>
          some <| (shared.withGate popped).put thread <|
            user.enter (.unparking target sequel)
      | (none, _) => some (shared.put thread (user.follow thread sequel))
  | .unparking target sequel =>
      some <| (shared.put thread (user.follow thread sequel)).unpark target

/-- The state after a move of a thread, if the thread can make it. -/
def step? [Reusable α] (shared : SharedPool α) (thread : ThreadId)
    (move : Move) : Option (SharedPool α) := do
  let user ← shared.users[thread]?
  match move, user.phase with
  | .proceed, _ => shared.advance? thread user
  | .acquire, .resting =>
      some (shared.put thread (user.enter (.reading .first)))
  | .tryAcquire, .resting =>
      some (shared.put thread (user.enter (.reading .single)))
  | .release index, .resting => do
      let item ← user.held[index]?
      some <| shared.put thread
        { user with
          phase := .storing (Reusable.reset item)
          held := user.held.eraseIdx index }
  | .detach index, .resting => do
      let item ← user.held[index]?
      some <| { shared with detached := item :: shared.detached }.put thread
        { user with
          phase := .freeing
          held := user.held.eraseIdx index }
  | .miss, .claiming attempt _ =>
      let gate := shared.pool.gate
      some <| shared.put thread <|
        user.observe shared.pool.policy gate.ceiling gate.inUse attempt
  | .expire, .timing =>
      if shared.pool.policy.timeout?.isSome then
        some (shared.put thread (user.enter (.delisting .refuse)))
      else
        none
  | .stir, .parked => some (shared.put thread (user.enter .enlisting))
  | _, _ => none

/-- The state after a schedule, if the threads can follow it. -/
def run? [Reusable α] (shared : SharedPool α) :
    List (ThreadId × Move) → Option (SharedPool α)
  | [] => some shared
  | (thread, move) :: rest => do
      let next ← shared.step? thread move
      next.run? rest

end SharedPool

end DocumentCodec
