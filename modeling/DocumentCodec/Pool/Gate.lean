import DocumentCodec.Error
import DocumentCodec.Pool.Segments

namespace DocumentCodec

/-!
# Admission to a bounded pool

A gate counts the slots in use, up to its ceiling, and keeps the threads that
wait for one.  The thread that began to wait last is woken first.
-/

/-- The slots in use, their ceiling, and the waiting threads, the last one first. -/
structure Gate where
  inUse : Nat
  ceiling : Nat
  waiters : List ThreadId
  deriving Repr, DecidableEq

namespace Gate

/-- A gate without slots in use; a ceiling of zero counts as one. -/
def withCeiling (ceiling : Nat) : Gate :=
  ⟨0, max ceiling 1, []⟩

/-- Claim a slot if the ceiling allows it. -/
def reserve? (gate : Gate) : Option Gate :=
  if gate.inUse < gate.ceiling then
    some { gate with inUse := gate.inUse + 1 }
  else
    none

/-- Count one slot less in use. -/
def free (gate : Gate) : Gate :=
  { gate with inUse := gate.inUse - 1 }

/-- Take the thread off the list that began to wait last. -/
def popWaiter (gate : Gate) : Option ThreadId × Gate :=
  match gate.waiters with
  | [] => (none, gate)
  | newest :: older => (some newest, { gate with waiters := older })

/-- Put a thread on the list unless it is there. -/
def register (gate : Gate) (thread : ThreadId) : Gate :=
  if thread ∈ gate.waiters then
    gate
  else
    { gate with waiters := thread :: gate.waiters }

/-- The list without a thread, whose place the newest one takes. -/
def withdrawFrom (thread : ThreadId) : List ThreadId → List ThreadId
  | [] => []
  | newest :: older =>
      if newest = thread then
        older
      else
        older.map fun waiter => if waiter = thread then newest else waiter

/-- Take a thread off the list; none when it is not there. -/
def withdraw? (gate : Gate) (thread : ThreadId) : Option Gate :=
  if thread ∈ gate.waiters then
    some { gate with waiters := withdrawFrom thread gate.waiters }
  else
    none

/--
Take a thread off the list.  When another thread took it off, to wake it, the
wake-up goes to the next waiter; the answer includes that thread.
-/
def deregister (gate : Gate) (thread : ThreadId) : Option ThreadId × Gate :=
  match gate.withdraw? thread with
  | some withdrawn => (none, withdrawn)
  | none => gate.popWaiter

/-- Give a slot back; the answer includes the thread to be woken. -/
def release (gate : Gate) : Option ThreadId × Gate :=
  gate.free.popWaiter

end Gate

/-- What an acquire does when all slots are in use. -/
inductive OverflowPolicy
  /-- Report the overflow at once. -/
  | failFast
  /-- Try again a number of times, then sleep until a slot is given back, for at
  most some milliseconds if a limit is set. -/
  | blocking (timeout? : Option Nat) (spins : Nat)
  deriving Repr, DecidableEq

namespace OverflowPolicy

/-- How often a waiting thread tries again before it sleeps, unless told otherwise. -/
def standardSpins : Nat := 64

/-- The policy of waiting, for at most some milliseconds if a limit is set. -/
def waiting (timeout? : Option Nat) : OverflowPolicy :=
  .blocking timeout? standardSpins

/-- The longest wait in milliseconds, if the policy waits and has a limit. -/
def timeout? : OverflowPolicy → Option Nat
  | failFast => none
  | blocking timeout? _ => timeout?

/--
Wait for a slot while no other thread uses the gate.  No slot becomes free, so
the wait ends without one when its time is over, and the thread is on the list
no longer.  A wait without a limit would not end at all: for it the answer is
the one of a wait whose time is over.
-/
def waitAlone (policy : OverflowPolicy) (thread : ThreadId) (gate : Gate) :
    Except Error Unit × Gate :=
  match policy with
  | failFast => (.error (.poolOverflow gate.ceiling), gate)
  | blocking _ _ =>
      let registered := gate.register thread
      match registered.reserve? with
      | some reserved => (.ok (), (reserved.deregister thread).2)
      | none =>
          (.error (.poolOverflow gate.ceiling), (registered.deregister thread).2)

end OverflowPolicy

end DocumentCodec
