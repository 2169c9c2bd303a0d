import DocumentCodec.Pool.Bounded
import DocumentCodec.Pool.Soft

namespace DocumentCodec

/-!
# What pools hand out

A property that new items have and that resetting an item brings about is a
property of every item a pool holds and hands out.
-/

namespace Segments

variable {holds : α → Prop}

/-- Every idle item has a property. -/
def All (holds : α → Prop) (segments : Segments α) : Prop :=
  ∀ index, ∀ item ∈ segments.stack index, holds item

/-- A segment that is replaced holds the new items, and the others hold theirs. -/
theorem stack_set
    (segments : Segments α)
    (index other : Fin segmentCount)
    (items : List α) :
    (Segments.mk (segments.lists.set index items index.isLt)).stack other =
      if index.val = other.val then items else segments.stack other :=
  Vector.getElem_set index.isLt other.isLt

/-- What no item breaks holds of empty segments. -/
theorem all_empty : (empty : Segments α).All holds := by
  intro index item member
  have none : (empty : Segments α).stack index = [] := Vector.getElem_replicate _
  rw [none] at member
  cases member

/-- An item that is put back may be any that has the property. -/
theorem All.push
    {segments : Segments α}
    {item : α}
    (all : segments.All holds)
    (added : holds item)
    (index : Fin segmentCount) :
    (segments.push index item).All holds := by
  intro other found member
  rw [Segments.push, stack_set] at member
  split at member
  · cases member with
    | head => exact added
    | tail _ older => exact all index found older
  · exact all other found member

/-- An item that is put back where there is room may be any that has the property. -/
theorem All.pushWithin
    {segments : Segments α}
    {item : α}
    (all : segments.All holds)
    (added : holds item)
    (index : Fin segmentCount)
    (capacity : Nat) :
    (segments.pushWithin index capacity item).All holds := by
  unfold Segments.pushWithin
  split
  · exact all.push added index
  · exact all

/-- Items that a pool begins with may be any that have the property. -/
theorem All.seedFrom
    {segments : Segments α}
    {items : List α}
    (all : segments.All holds)
    (added : ∀ item ∈ items, holds item)
    (index : Nat) :
    (segments.seedFrom index items).All holds := by
  induction items generalizing segments index with
  | nil => exact all
  | cons item rest inductionHypothesis =>
      refine inductionHypothesis (all.push (added item List.mem_cons_self) _) ?_ _
      intro other member
      exact added other (List.mem_cons_of_mem item member)

/-- An item that is taken has the property, and so have those that are left. -/
theorem All.popFirst
    {segments remaining : Segments α}
    {order : List (Fin segmentCount)}
    {item : α}
    (all : segments.All holds)
    (taken : segments.popFirst? order = some (item, remaining)) :
    holds item ∧ remaining.All holds := by
  induction order with
  | nil => cases taken
  | cons index rest inductionHypothesis =>
      rw [popFirst?, pop?] at taken
      cases stacked : segments.stack index with
      | nil =>
          rw [stacked] at taken
          exact inductionHypothesis taken
      | cons top others =>
          rw [stacked] at taken
          cases taken
          have here := all index
          rw [stacked] at here
          refine ⟨here item List.mem_cons_self, ?_⟩
          intro other found member
          rw [stack_set] at member
          split at member
          · exact here found (List.mem_cons_of_mem item member)
          · exact all other found member

end Segments

namespace SoftPool

variable {holds : α → Prop} {pool : SoftPool α}

/-- Every item that the pool holds or will make has a property. -/
structure All (holds : α → Prop) (pool : SoftPool α) : Prop where
  idle : pool.idle.All holds
  made : ∀ count, holds (pool.factory count)

/-- A new pool holds what its factory makes. -/
theorem all_create
    {factory : Nat → α}
    (made : ∀ count, holds (factory count))
    (capacity : Nat) :
    (create capacity factory).All holds :=
  ⟨Segments.all_empty, made⟩

/-- An item that is acquired has the property, found or made. -/
theorem All.acquire (all : pool.All holds) (thread : ThreadId) :
    holds (pool.acquire thread).1 ∧ (pool.acquire thread).2.All holds := by
  unfold SoftPool.acquire
  cases taken : pool.idle.take? (homeSegment thread) with
  | none => exact ⟨all.made pool.created, all.idle, all.made⟩
  | some result =>
      obtain ⟨here, others⟩ := all.idle.popFirst taken
      exact ⟨here, others, all.made⟩

/-- A pool takes items back reset. -/
theorem All.release
    [Reusable α]
    {item : α}
    (all : pool.All holds)
    (reset : holds (Reusable.reset item))
    (thread : ThreadId) :
    (pool.release thread item).All holds :=
  ⟨all.idle.pushWithin reset _ _, all.made⟩

/-- A borrowed item has the property, and the pool keeps it for all of its items. -/
theorem All.borrow
    [Reusable α]
    (all : pool.All holds)
    (reset : ∀ item : α, holds (Reusable.reset item))
    (thread : ThreadId)
    (action : α → β × α) :
    ∃ item, holds item ∧ (pool.borrow thread action).1 = (action item).1 ∧
      (pool.borrow thread action).2.All holds := by
  obtain ⟨here, others⟩ := all.acquire thread
  exact ⟨_, here, rfl, others.release (reset _) thread⟩

end SoftPool

namespace BoundedPool

variable {holds : α → Prop} {pool : BoundedPool α}

/-- Every item that the pool holds or will make has a property. -/
structure All (holds : α → Prop) (pool : BoundedPool α) : Prop where
  idle : pool.idle.All holds
  made : ∀ count, holds (pool.factory count)

/-- A new pool holds what its factory makes. -/
theorem all_create
    {factory : Nat → α}
    (made : ∀ count, holds (factory count))
    (initial ceiling : Nat)
    (policy : OverflowPolicy) :
    (create initial ceiling policy factory).All holds := by
  refine ⟨Segments.All.seedFrom Segments.all_empty ?_ 0, made⟩
  intro item member
  obtain ⟨count, _, rfl⟩ := List.mem_map.mp member
  exact made count

/-- An item that is taken has the property, found or made. -/
theorem All.takeIdle (all : pool.All holds) (thread : ThreadId) :
    holds (pool.takeIdle thread).1 ∧ (pool.takeIdle thread).2.All holds := by
  unfold BoundedPool.takeIdle
  cases taken : pool.idle.take? (homeSegment thread) with
  | none => exact ⟨all.made pool.created, all.idle, all.made⟩
  | some result =>
      obtain ⟨here, others⟩ := all.idle.popFirst taken
      exact ⟨here, others, all.made⟩

/-- An item that is acquired has the property, if one is. -/
theorem All.acquire (all : pool.All holds) (thread : ThreadId) :
    (∀ item, (pool.acquire thread).1 = .ok item → holds item) ∧
      (pool.acquire thread).2.All holds := by
  have withGate (gate : Gate) : BoundedPool.All holds { pool with gate } :=
    ⟨all.idle, all.made⟩
  unfold BoundedPool.acquire
  split
  · rename_i gate reserved
    obtain ⟨here, others⟩ := (withGate gate).takeIdle thread
    refine ⟨fun item same => ?_, others⟩
    cases same
    exact here
  · split
    · rename_i gate waited
      obtain ⟨here, others⟩ := (withGate gate).takeIdle thread
      refine ⟨fun item same => ?_, others⟩
      cases same
      exact here
    · rename_i error gate waited
      refine ⟨fun item never => ?_, withGate gate⟩
      cases never

/-- Taking an item leaves the gate as it is. -/
theorem gate_takeIdle (pool : BoundedPool α) (thread : ThreadId) :
    (pool.takeIdle thread).2.gate = pool.gate := by
  unfold takeIdle
  split <;> rfl

/-- With a slot free, acquiring gives an item and claims the slot. -/
theorem exists_acquire
    (free : pool.gate.inUse < pool.gate.ceiling)
    (thread : ThreadId) :
    ∃ item, (pool.acquire thread).1 = .ok item ∧
      (pool.acquire thread).2.gate = { pool.gate with inUse := pool.gate.inUse + 1 } := by
  unfold BoundedPool.acquire Gate.reserve?
  rw [if_pos free]
  exact ⟨_, rfl, gate_takeIdle _ thread⟩

/-- To forget an item that is out changes nothing about those inside. -/
theorem All.forget (all : pool.All holds) : pool.forget.All holds :=
  ⟨all.idle, all.made⟩

/-- A pool takes items back reset. -/
theorem All.release
    [Reusable α]
    {item : α}
    (all : pool.All holds)
    (reset : holds (Reusable.reset item))
    (thread : ThreadId) :
    (pool.release thread item).All holds :=
  ⟨all.idle.push reset _, all.made⟩

end BoundedPool

end DocumentCodec
