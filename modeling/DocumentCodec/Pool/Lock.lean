namespace DocumentCodec

/-!
# Locks

A lock guards a value: only the thread that holds the lock gets at it.
-/

/-- A guarded value, and whether some thread holds its lock. -/
structure Lock (α : Type) where
  held : Bool
  value : α
  deriving Repr, DecidableEq

namespace Lock

/-- A free lock around a value. -/
def create (value : α) : Lock α :=
  ⟨false, value⟩

/-- Take the lock if it is free. -/
def acquire? (lock : Lock α) : Option (Lock α) :=
  if lock.held then none else some { lock with held := true }

/-- Change the value under the lock that one holds. -/
def modify (lock : Lock α) (change : α → α) : Lock α :=
  { lock with value := change lock.value }

/-- Give the lock back. -/
def release (lock : Lock α) : Lock α :=
  { lock with held := false }

/-- Take a free lock, change its value, and give the lock back. -/
def exclusively (lock : Lock α) (change : α → α) : Option (Lock α) :=
  lock.acquire?.map fun taken => (taken.modify change).release

/--
The value after threads have changed it, each a number of times.  Changes under
the lock come one after another, so all threads together make that many.
-/
def race (threads changes : Nat) (change : α → α) (lock : Lock α) :
    Option (Lock α) :=
  (List.range (threads * changes)).foldlM (fun lock _ => lock.exclusively change) lock

end Lock

end DocumentCodec
