import DocumentCodec.Proofs.Pool.Surplus

namespace DocumentCodec

/-!
# The books of a pool that one caller uses

Every item that a pool has made is idle, held by the caller or out of the pool
for good, and as many slots are in use as items are held (`Balanced`).  An
acquire takes an idle item when there is one in any segment, makes one
otherwise, and leaves the pool as it is when no slot is free.
-/

namespace Segments

variable {segments rest : Segments α}

/-- The idle items are those of all segments. -/
theorem size_eq_sum (segments : Segments α) :
    segments.size = ∑ index, (segments.stack index).length := by
  have counted := countP_items segments fun _ => true
  simp only [List.countP_true] at counted
  exact counted

/-- An item that is put back is one more. -/
theorem size_push (index : Fin segmentCount) (item : α) :
    (segments.push index item).size = segments.size + 1 := by
  have counted := @countP_push _ segments (fun _ => true) index item
  simp only [List.countP_true] at counted
  exact counted

/-- All items that a pool begins with are idle. -/
theorem size_seed (items : List α) : (seed items).size = items.length := by
  have counted := @countP_seed _ (fun _ => true) items
  simp only [List.countP_true] at counted
  exact counted

/-- An item that is taken is one less. -/
theorem size_popFirst?
    {order : List (Fin segmentCount)}
    {item : α}
    (taken : segments.popFirst? order = some (item, rest)) :
    segments.size = rest.size + 1 := by
  induction order with
  | nil => cases taken
  | cons index others inductionHypothesis =>
      rw [popFirst?] at taken
      split at taken
      · rename_i popped
        cases taken
        have counted := @countP_pop? _ segments (fun _ => true) _ _ _ popped
        simp only [List.countP_true] at counted
        exact counted
      · exact inductionHypothesis taken

/-- A search that finds nothing has found its segments empty. -/
theorem stack_eq_nil_of_popFirst?
    {order : List (Fin segmentCount)}
    (found : segments.popFirst? order = none) :
    ∀ index ∈ order, segments.stack index = [] := by
  induction order with
  | nil =>
      intro index never
      cases never
  | cons first others inductionHypothesis =>
      rw [popFirst?] at found
      split at found
      · cases found
      · rename_i empty
        intro index member
        cases member with
        | head =>
            unfold pop? at empty
            split at empty
            · assumption
            · cases empty
        | tail _ later => exact inductionHypothesis found index later

/-- A thread that finds no idle item has looked into every segment. -/
theorem stack_eq_nil_of_take?
    {home : Fin segmentCount}
    (found : segments.take? home = none)
    (index : Fin segmentCount) :
    segments.stack index = [] :=
  stack_eq_nil_of_popFirst? found index (mem_searchOrder home index)

/-- Empty segments hold nothing. -/
theorem size_eq_zero (empty : ∀ index, segments.stack index = []) : segments.size = 0 := by
  rw [size_eq_sum]
  exact Finset.sum_eq_zero fun index _ => by rw [empty index, List.length_nil]

end Segments

namespace Gate

variable {gate : Gate}

/-- With no slot free and nobody waiting, a wait ends as it began. -/
theorem waitAlone_of_full
    (nobody : gate.waiters = [])
    (full : ¬ gate.inUse < gate.ceiling)
    (policy : OverflowPolicy)
    (thread : ThreadId) :
    policy.waitAlone thread gate = (.error (.poolOverflow gate.ceiling), gate) := by
  rcases gate with ⟨inUse, ceiling, waiters⟩
  subst nobody
  cases policy with
  | failFast => rfl
  | blocking timeout? spins =>
      have registered : register ⟨inUse, ceiling, []⟩ thread = ⟨inUse, ceiling, [thread]⟩ :=
        if_neg List.not_mem_nil
      have refused : reserve? ⟨inUse, ceiling, [thread]⟩ = none := if_neg full
      have withdrawn : deregister ⟨inUse, ceiling, [thread]⟩ thread =
          (none, ⟨inUse, ceiling, []⟩) := by
        simp [deregister, withdraw?, withdrawFrom]
      simp only [OverflowPolicy.waitAlone, registered, refused, withdrawn]

/-- With nobody waiting a slot that is released is free. -/
theorem release_of_nobody (nobody : gate.waiters = []) : gate.release.2 = gate.free := by
  rw [release, popWaiter]
  simp only [free, nobody]

end Gate

namespace BoundedPool

variable {pool : BoundedPool α} {ceiling held detached : Nat}

/--
The idle items, the held ones and those out of the pool are all that were made,
and as many slots are in use as items are held.
-/
structure Balanced (pool : BoundedPool α) (ceiling held detached : Nat) : Prop where
  inUse_eq : pool.gate.inUse = held
  ceiling_eq : pool.gate.ceiling = ceiling
  waiters_eq : pool.gate.waiters = []
  within : pool.idle.size + held ≤ ceiling
  created_eq : pool.idle.size + held + detached = pool.created

/-- One item more was made, and before that no segment had one, or none was made. -/
def GrowsWhenEmpty (pool after : BoundedPool α) : Prop :=
  after.created = pool.created ∨
    (∀ index, pool.idle.stack index = []) ∧ after.created = pool.created + 1

/-- A new pool is in balance with nothing held. -/
theorem balanced_create
    (initial ceiling : Nat)
    (policy : OverflowPolicy)
    (factory : Nat → α) :
    (create initial ceiling policy factory).Balanced (max ceiling 1) 0 0 := by
  have seeded : (create initial ceiling policy factory).idle.size =
      min initial (max ceiling 1) := by
    rw [create, Segments.size_seed, List.length_map, List.length_range]
    rfl
  refine ⟨rfl, rfl, rfl, ?_, ?_⟩
  · rw [seeded]
    exact Nat.min_le_right _ _
  · rw [seeded]
    rfl

/-- What is taken was idle, or is made because nothing was. -/
theorem takeIdle_cases (pool : BoundedPool α) (thread : ThreadId) :
    ((pool.takeIdle thread).2.idle.size + 1 = pool.idle.size ∧
        (pool.takeIdle thread).2.created = pool.created) ∨
      (∀ index, pool.idle.stack index = []) ∧
        (pool.takeIdle thread).2.idle = pool.idle ∧
          (pool.takeIdle thread).2.created = pool.created + 1 := by
  unfold takeIdle
  split
  · rename_i taken
    exact .inl ⟨(Segments.size_popFirst? taken).symm, rfl⟩
  · rename_i none
    exact .inr ⟨Segments.stack_eq_nil_of_take? none, rfl, rfl⟩

namespace Balanced

/-- With no slot free an acquire fails, and leaves the pool as it is. -/
theorem acquire_of_full
    (balanced : pool.Balanced ceiling held detached)
    (full : ¬ held < ceiling)
    (thread : ThreadId) :
    pool.acquire thread = (.error (.poolOverflow ceiling), pool) := by
  obtain ⟨rfl, rfl, nobody, -, -⟩ := balanced
  have refused : pool.gate.reserve? = none := if_neg full
  simp only [acquire, refused, Gate.waitAlone_of_full nobody full]

/-- With a slot free an acquire gives an item, which is held from then on. -/
theorem exists_acquire
    (balanced : pool.Balanced ceiling held detached)
    (free : held < ceiling)
    (thread : ThreadId) :
    ∃ item after, pool.acquire thread = (.ok item, after) ∧
      after.Balanced ceiling (held + 1) detached ∧ pool.GrowsWhenEmpty after := by
  obtain ⟨rfl, rfl, nobody, within, created_eq⟩ := balanced
  have reserved : pool.gate.reserve? = some pool.gate.claim := if_pos free
  have acquired :
      pool.acquire thread =
        (.ok (takeIdle { pool with gate := pool.gate.claim } thread).1,
          (takeIdle { pool with gate := pool.gate.claim } thread).2) := by
    simp only [acquire, reserved]
  have claimed := gate_takeIdle { pool with gate := pool.gate.claim } thread
  have taken := takeIdle_cases { pool with gate := pool.gate.claim } thread
  refine ⟨_, _, acquired, ?_⟩
  generalize (takeIdle { pool with gate := pool.gate.claim } thread).2 = after at claimed taken ⊢
  dsimp only at claimed taken
  have inUse : after.gate.inUse = pool.gate.inUse + 1 := by rw [claimed, Gate.claim]
  have sameCeiling : after.gate.ceiling = pool.gate.ceiling := by rw [claimed, Gate.claim]
  have nobodyAfter : after.gate.waiters = [] := by rw [claimed, Gate.claim, nobody]
  obtain ⟨shrunk, sameCreated⟩ | ⟨empty, sameIdle, grown⟩ := taken
  · exact ⟨⟨inUse, sameCeiling, nobodyAfter, by omega, by omega⟩, .inl sameCreated⟩
  · have none : pool.idle.size = 0 := Segments.size_eq_zero empty
    have noneAfter : after.idle.size = 0 := by rw [sameIdle, none]
    exact ⟨⟨inUse, sameCeiling, nobodyAfter, by omega, by omega⟩, .inr ⟨empty, grown⟩⟩

/-- An item that is held and does not come back is out of the pool. -/
theorem forget (balanced : pool.Balanced ceiling (held + 1) detached) :
    pool.forget.Balanced ceiling held (detached + 1) := by
  obtain ⟨inUse_eq, ceiling_eq, nobody, within, created_eq⟩ := balanced
  have released := Gate.release_of_nobody nobody
  have inUse : pool.forget.gate.inUse = held := by
    rw [BoundedPool.forget, released, Gate.free, inUse_eq, Nat.add_sub_cancel]
  have sameCeiling : pool.forget.gate.ceiling = ceiling := by
    rw [BoundedPool.forget, released, Gate.free, ceiling_eq]
  have nobodyAfter : pool.forget.gate.waiters = [] := by
    rw [BoundedPool.forget, released, Gate.free, nobody]
  refine ⟨inUse, sameCeiling, nobodyAfter, ?_, ?_⟩
  · change pool.idle.size + held ≤ ceiling
    omega
  · change pool.idle.size + held + (detached + 1) = pool.created
    omega

/-- An item that is held and comes back is idle. -/
theorem release
    [Reusable α]
    (balanced : pool.Balanced ceiling (held + 1) detached)
    (thread : ThreadId)
    (item : α) :
    (pool.release thread item).Balanced ceiling held detached := by
  obtain ⟨inUse, sameCeiling, nobody, -, -⟩ := balanced.forget
  obtain ⟨-, -, -, within, created_eq⟩ := balanced
  have pushed : (pool.release thread item).idle.size = pool.idle.size + 1 :=
    Segments.size_push _ _
  refine ⟨inUse, sameCeiling, nobody, ?_, ?_⟩
  · omega
  · change (pool.release thread item).idle.size + held + detached = pool.created
    omega

end Balanced

end BoundedPool

end DocumentCodec
