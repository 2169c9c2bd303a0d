import DocumentCodec.Proofs.Pool.Ownership
import Mathlib.Algebra.Order.BigOperators.Group.Finset

namespace DocumentCodec

/-!
# How many items a pool comes to own

A thread makes an item when it has found every segment empty, but it looks at
them one after another, and others put items back behind it.  So a pool can come
to own more items than its ceiling.

The load of a segment is the number of its items and of those that threads at
home there will put on it.  When a thread finds a segment empty, only threads
with a slot add to its load, and the load does not grow while the thread looks
into other segments.  This bounds the items that there are when one is made.
-/

namespace Segments

/-- A search looks into every segment once. -/
theorem length_searchOrder (home : Fin segmentCount) :
    (searchOrder home).length = segmentCount := by
  simp [searchOrder]

/-- A search leaves no segment out. -/
theorem mem_searchOrder (home index : Fin segmentCount) : index ∈ searchOrder home := by
  refine List.mem_map.mpr ⟨(index - home).val, List.mem_range.mpr (index - home).isLt, ?_⟩
  have homeInside := home.isLt
  have inside := index.isLt
  refine Fin.ext ?_
  rw [Fin.ofNat_val_eq_self, Fin.val_add, Fin.val_sub]
  simp only [segmentCount] at *
  omega

/-- An item that is put back makes its segment longer by one. -/
theorem length_stack_push
    (segments : Segments α)
    (home index : Fin segmentCount)
    (item : α) :
    ((segments.push home item).stack index).length =
      (segments.stack index).length + if home = index then 1 else 0 := by
  rw [push, stack_set]
  by_cases same : home = index
  · subst index
    simp
  · rw [if_neg (Fin.val_ne_of_ne same), if_neg same, Nat.add_zero]

/-- An item that is taken makes its segment shorter by one. -/
theorem length_stack_pop?
    {segments rest : Segments α}
    {segment : Fin segmentCount}
    {item : α}
    (popped : segments.pop? segment = some (item, rest))
    (index : Fin segmentCount) :
    (rest.stack index).length + (if segment = index then 1 else 0) =
      (segments.stack index).length := by
  unfold pop? at popped
  split at popped
  · cases popped
  · rename_i others stacked
    cases popped
    rw [stack_set]
    by_cases same : segment = index
    · subst index
      simp [stacked]
    · rw [if_neg (Fin.val_ne_of_ne same), if_neg same, Nat.add_zero]

/-- A search begins at home. -/
theorem searchOrder_eq_cons (home : Fin segmentCount) :
    ∃ rest, searchOrder home = home :: rest := by
  simp [searchOrder, List.range_succ_eq_map]

end Segments

namespace Phase

/-- The segments that a thread has yet to look into. -/
def search? : Phase α → Option (List (Fin segmentCount))
  | searching segments => some segments
  | _ => none

/-- A thread that looks for an item has reserved one slot for it. -/
theorem slots_eq_of_search?
    {phase : Phase α}
    {segments : List (Fin segmentCount)}
    (searches : phase.search? = some segments) :
    phase.slots = 1 := by
  unfold search? at searches
  split at searches
  · rfl
  · cases searches

/-- The items that a thread brings to its home segment, besides those that it holds. -/
def backed (phase : Phase α) : Nat :=
  match phase with
  | storing _ => 1
  | searching segments => if segments.length < segmentCount then 1 else 0
  | _ => 0

end Phase

namespace PoolUser

/--
The items that a thread brings to its home segment, unless it takes them out of
the pool.  One that it has yet to find or make counts once it has looked there.
-/
def backed (user : PoolUser α) : Nat :=
  user.held.length + user.phase.backed

variable (user : PoolUser α) (thread : ThreadId) (policy : OverflowPolicy)
  (attempt : Attempt) (sequel : Sequel)

@[simp] theorem backed_enter (phase : Phase α) :
    (user.enter phase).backed = user.held.length + phase.backed :=
  rfl

@[simp] theorem backed_accept : (user.accept thread attempt).backed = user.held.length := by
  cases attempt <;> rfl

@[simp] theorem backed_turnAway : (user.turnAway policy attempt).backed = user.held.length := by
  unfold turnAway
  split <;> first | rfl | (split <;> rfl)

@[simp] theorem backed_follow : (user.follow thread sequel).backed = user.held.length := by
  cases sequel <;> rfl

/-- A thread that is accepted has all segments before it. -/
theorem search?_accept
    {segments : List (Fin segmentCount)}
    (searches : (user.accept thread attempt).phase.search? = some segments) :
    segments = Segments.searchOrder (homeSegment thread) := by
  cases attempt <;> cases searches <;> rfl

@[simp] theorem search?_turnAway : (user.turnAway policy attempt).phase.search? = none := by
  unfold turnAway
  split <;> first | rfl | (split <;> rfl)

/-- A thread that goes on to search has all segments before it. -/
theorem search?_follow
    {segments : List (Fin segmentCount)}
    (searches : (user.follow thread sequel).phase.search? = some segments) :
    segments = Segments.searchOrder (homeSegment thread) := by
  cases sequel with
  | take =>
      cases searches
      rfl
  | refuse | leave => cases searches

/-- A thread that looks for an item has a slot for it. -/
theorem slots_pos
    {user : PoolUser α}
    {segments : List (Fin segmentCount)}
    (searches : user.phase.search? = some segments) :
    0 < user.slots := by
  rw [slots, Phase.slots_eq_of_search? searches]
  exact Nat.succ_pos _

/-- A thread brings home what it holds. -/
theorem held_le_backed : user.held.length ≤ user.backed :=
  Nat.le_add_right _ _

/-- Every item that a thread brings home has a slot. -/
theorem backed_le_slots : user.backed ≤ user.slots := by
  refine Nat.add_le_add_left ?_ _
  cases user.phase <;> simp [Phase.backed, Phase.slots]
  split <;> decide

/-- A thread brings all the items home that it has. -/
theorem length_items_le_backed : user.items.length ≤ user.backed := by
  rw [items, List.length_append]
  refine Nat.add_le_add_left ?_ _
  cases user.phase <;> simp [Phase.backed, Phase.items]

end PoolUser

/-- The items of a segment, and those that threads at home there bring to it. -/
def load (idle : Segments α) (users : List (PoolUser α)) (index : Fin segmentCount) : Nat :=
  (idle.stack index).length +
    PoolUser.total
      (fun thread user => if homeSegment thread = index then user.backed else 0) users

/-- What a thread has passed is not loaded too much. -/
structure Charted (gate : Gate) (idle : Segments α) (users : List (PoolUser α)) : Prop where
  begins : ∀ (thread : ThreadId) (user : PoolUser α), users[thread]? = some user →
    ∀ segments, user.phase.search? = some segments →
      segments = Segments.searchOrder (homeSegment thread) ∨ segments.length < segmentCount
  passed : ∀ (thread : ThreadId) (user : PoolUser α), users[thread]? = some user →
    ∀ segments, user.phase.search? = some segments → ∀ index, index ∉ segments →
      load idle users index ≤ gate.ceiling - 1 + if homeSegment thread = index then 1 else 0

section

variable {gate after : Gate} {idle left : Segments α} {users : List (PoolUser α)}
  {thread : ThreadId} {user changed : PoolUser α}

/-- A change to one thread and the idle items moves each load by what these two add or take. -/
theorem load_set
    (found : users[thread]? = some user)
    (changed : PoolUser α)
    (index : Fin segmentCount) :
    load left (users.set thread changed) index + (idle.stack index).length +
        (if homeSegment thread = index then user.backed else 0) =
      load idle users index + (left.stack index).length +
        (if homeSegment thread = index then changed.backed else 0) := by
  have totals :=
    @PoolUser.total_set _
      (fun thread user => if homeSegment thread = index then user.backed else 0) _ _ _ found changed
  simp only [load] at totals ⊢
  omega

/-- A thread goes on, but not to another segment, and no load grows. -/
theorem Charted.move
    (charted : Charted gate idle users)
    (found : users[thread]? = some user)
    (ceiling_eq : after.ceiling = gate.ceiling)
    (loads : ∀ index,
      (left.stack index).length + (if homeSegment thread = index then changed.backed else 0) ≤
        (idle.stack index).length + if homeSegment thread = index then user.backed else 0)
    (starts : ∀ segments, changed.phase.search? = some segments →
      segments = Segments.searchOrder (homeSegment thread)) :
    Charted after left (users.set thread changed) where
  begins :=
    PoolUser.forall_set found (fun segments searches => .inl (starts segments searches))
      fun other waiting _ => charted.begins other waiting
  passed := by
    refine PoolUser.forall_set found (fun segments searches index passed => ?_)
      fun other waiting _ foundWaiting segments searches index passed => ?_
    · rw [starts segments searches] at passed
      exact (passed (Segments.mem_searchOrder _ _)).elim
    · have before := charted.passed other waiting foundWaiting segments searches index passed
      have loadSet := @load_set _ idle left _ _ _ found changed index
      have le := loads index
      rw [ceiling_eq]
      omega

/-- A thread goes on, but not to another segment, and brings no more items home. -/
theorem Charted.set
    (charted : Charted gate idle users)
    (found : users[thread]? = some user)
    (backed_le : changed.backed ≤ user.backed)
    (starts : ∀ segments, changed.phase.search? = some segments →
      segments = Segments.searchOrder (homeSegment thread)) :
    Charted gate idle (users.set thread changed) := by
  refine charted.move found rfl (fun index => Nat.add_le_add_left ?_ _) starts
  split
  · exact backed_le
  · exact Nat.le_refl 0

/-- What the chart tells of the gate is its ceiling. -/
theorem Charted.of_ceiling
    (charted : Charted gate idle users)
    (ceiling_eq : after.ceiling = gate.ceiling) :
    Charted after idle users where
  begins := charted.begins
  passed := by
    rw [ceiling_eq]
    exact charted.passed

/--
A thread with a slot leaves fewer slots than the ceiling to others, so others do
not bring that many items to a segment.
-/
theorem Accounted.brought_le
    (accounted : Accounted gate users)
    (found : users[thread]? = some user)
    (reserved : 0 < user.slots)
    (index : Fin segmentCount) :
    PoolUser.total
        (fun thread user => if homeSegment thread = index then user.backed else 0) users ≤
      gate.ceiling - 1 + if homeSegment thread = index then 1 else 0 := by
  have within := accounted.le_ceiling
  rw [accounted.inUse_eq] at within
  have bounds (second : ThreadId) (user : PoolUser α) (_ : users[second]? = some user) :
      (if homeSegment second = index then user.backed else 0) ≤ user.slots := by
    split
    · exact user.backed_le_slots
    · exact Nat.zero_le _
  by_cases home : homeSegment thread = index
  · have total_le := @PoolUser.total_mono _ _ (fun _ user => user.slots) _ bounds
    rw [if_pos home]
    omega
  · have total_lt := @PoolUser.total_lt_total _ _ (fun _ user => user.slots) _ _ _ found
      (by rwa [if_neg home]) bounds
    rw [if_neg home]
    omega

/-- A thread that looks into a segment is at its home segment or has passed that. -/
theorem Charted.home_or_past
    {segment : Fin segmentCount}
    {rest : List (Fin segmentCount)}
    (charted : Charted gate idle users)
    (found : users[thread]? = some user)
    (searching : user.phase = .searching (segment :: rest)) :
    rest.length < segmentCount ∧
      (homeSegment thread = segment ∧ user.backed = user.held.length ∨
        user.backed = user.held.length + 1) := by
  have searches : user.phase.search? = some (segment :: rest) := by rw [searching]; rfl
  have backed_eq : user.backed =
      user.held.length + if (segment :: rest).length < segmentCount then 1 else 0 := by
    rw [PoolUser.backed, searching]
    rfl
  rcases charted.begins thread user found _ searches with start | fewer
  · have length := Segments.length_searchOrder (homeSegment thread)
    obtain ⟨_, order⟩ := Segments.searchOrder_eq_cons (homeSegment thread)
    rw [← start] at length
    rw [order] at start
    rw [if_neg length.not_lt] at backed_eq
    exact ⟨Nat.lt_of_succ_le length.le, .inl ⟨(List.cons.inj start).1.symm, backed_eq⟩⟩
  · rw [if_pos fewer] at backed_eq
    exact ⟨Nat.lt_of_succ_lt fewer, .inr backed_eq⟩

/-- A thread finds a segment empty and goes on to the next one. -/
theorem Charted.skip
    {segment : Fin segmentCount}
    {rest : List (Fin segmentCount)}
    (charted : Charted gate idle users)
    (found : users[thread]? = some user)
    (searching : user.phase = .searching (segment :: rest))
    (empty : idle.stack segment = [])
    (accounted : Accounted gate (users.set thread (user.enter (.searching rest)))) :
    Charted gate idle (users.set thread (user.enter (.searching rest))) := by
  obtain ⟨fewer, place⟩ := charted.home_or_past found searching
  have brings : (user.enter (.searching rest)).backed = user.held.length + 1 := by
    simp only [PoolUser.backed_enter, Phase.backed, if_pos fewer]
  -- the load of the empty segment may grow, if the thread is at home there, and no other
  have others {index : Fin segmentCount} (ne : index ≠ segment) :
      load idle (users.set thread (user.enter (.searching rest))) index =
        load idle users index := by
    have loadSet := @load_set _ idle idle _ _ _ found (user.enter (.searching rest)) index
    rcases place with ⟨home, backed_eq⟩ | backed_eq
    · rw [if_neg (home ▸ ne.symm), if_neg (home ▸ ne.symm)] at loadSet
      omega
    · rw [brings, backed_eq] at loadSet
      omega
  have before : ∀ (other : ThreadId) (waiting : PoolUser α),
      (users.set thread (user.enter (.searching rest)))[other]? = some waiting →
        ∀ segments, waiting.phase.search? = some segments →
          ∀ index, index ≠ segment → index ∉ segments →
            load idle users index ≤
              gate.ceiling - 1 + if homeSegment other = index then 1 else 0 := by
    refine PoolUser.forall_set found (fun segments searches index ne passed => ?_)
      fun other waiting _ foundWaiting segments searches index _ passed =>
        charted.passed other waiting foundWaiting segments searches index passed
    cases searches
    exact charted.passed thread user found _ (by rw [searching]; rfl) index
      (List.not_mem_cons_of_ne_of_not_mem ne passed)
  constructor
  · refine PoolUser.forall_set found (fun segments searches => ?_)
      fun other waiting _ => charted.begins other waiting
    cases searches
    exact .inr fewer
  · intro other waiting foundWaiting segments searches index passed
    by_cases here : index = segment
    · subst index
      have brought := accounted.brought_le foundWaiting (PoolUser.slots_pos searches) segment
      simpa [load, empty] using brought
    · rw [others here]
      exact before other waiting foundWaiting segments searches index here passed

/-- A wake-up brings no item anywhere. -/
theorem Charted.giveToken
    (charted : Charted gate idle users)
    (target : ThreadId) :
    Charted gate idle (PoolUser.giveToken users target) where
  begins := PoolUser.forall_giveToken charted.begins (fun _ _ same => same) target
  passed := by
    have load_eq (index : Fin segmentCount) :
        load idle (PoolUser.giveToken users target) index = load idle users index := by
      rw [load, PoolUser.total_giveToken fun _ _ => rfl]
      rfl
    simp only [load_eq]
    exact PoolUser.forall_giveToken charted.passed (fun _ _ same => same) target

/-- A thread takes an item, from its home segment or after it has passed that. -/
theorem Charted.take
    {segment : Fin segmentCount}
    {rest : List (Fin segmentCount)}
    {item : α}
    (charted : Charted gate idle users)
    (found : users[thread]? = some user)
    (searching : user.phase = .searching (segment :: rest))
    (popped : idle.pop? segment = some (item, left)) :
    Charted gate left (users.set thread (user.receive item)) := by
  refine charted.move found rfl (fun index => ?_) (fun segments never => by cases never)
  have lengths := Segments.length_stack_pop? popped index
  have received : (user.receive item).backed = user.held.length + 1 := rfl
  obtain ⟨-, ⟨home, backed_eq⟩ | backed_eq⟩ := charted.home_or_past found searching
  · rw [received, backed_eq, home]
    by_cases here : segment = index
    · simp only [if_pos here] at lengths ⊢
      omega
    · simp only [if_neg here] at lengths ⊢
      omega
  · rw [received, backed_eq]
    omega

/-- The loads of all segments are the idle items and what the threads bring home. -/
theorem sum_load (idle : Segments α) (users : List (PoolUser α)) :
    ∑ index, load idle users index =
      idle.items.length + PoolUser.total (fun _ user => user.backed) users := by
  have lengths := idle.countP_items fun _ => true
  simp only [List.countP_true] at lengths
  rw [lengths, ← PoolUser.sum_total_of_group homeSegment, ← Finset.sum_add_distrib]
  rfl

/-- Before an item is made, there are fewer items in the pool than the loads allow. -/
theorem Charted.items_le
    (charted : Charted gate idle users)
    (found : users[thread]? = some user)
    (searching : user.phase = .searching []) :
    idle.items.length + PoolUser.total (fun _ user => user.items.length) users ≤
      segmentCount * (gate.ceiling - 1) := by
  have searches : user.phase.search? = some [] := by rw [searching]; rfl
  have loads : ∑ index, load idle users index ≤ segmentCount * (gate.ceiling - 1) + 1 := by
    refine (Finset.sum_le_sum fun index _ =>
      charted.passed thread user found [] searches index List.not_mem_nil).trans_eq ?_
    simp [Finset.sum_add_distrib]
  rw [sum_load] at loads
  have fewer := @PoolUser.total_lt_total _ (fun _ user => user.items.length)
    (fun _ user => user.backed) _ _ _ found
    (by simp [PoolUser.items, PoolUser.backed, searching, Phase.items, Phase.backed])
    fun _ user _ => user.length_items_le_backed
  omega

/-- At first nobody looks for an item, so no segment has been passed. -/
theorem charted_start (pool : BoundedPool α) (threads : Nat) :
    Charted (SharedPool.start pool threads).pool.gate (SharedPool.start pool threads).pool.idle
      (SharedPool.start pool threads).users where
  begins thread user found segments searches := by
    rw [SharedPool.eq_holding_of_start found] at searches
    cases searches
  passed thread user found segments searches := by
    rw [SharedPool.eq_holding_of_start found] at searches
    cases searches

end

namespace SharedPool

variable [Reusable α] {shared next : SharedPool α} {thread : ThreadId} {user : PoolUser α}
  {move : Move}

/-- No step loads a segment too much that a thread has passed. -/
theorem charted_step
    (charted : Charted shared.pool.gate shared.pool.idle shared.users)
    (accounted : Accounted shared.pool.gate shared.users)
    (found : shared.users[thread]? = some user)
    (step : Step shared thread user move next) :
    Charted next.pool.gate next.pool.idle next.users := by
  have accountedNext := accounted_step accounted found step
  cases step with
  | acquire | tryAcquire | see | park | expire | wake | stir | handOver | call | free =>
      refine Charted.of_ceiling (charted.set found user.held_le_backed ?_) rfl
      simp [Phase.search?]
  | enlist =>
      have same := (shared.pool.gate.sameSlots_register thread).ceiling_eq
      refine Charted.of_ceiling (charted.set found user.held_le_backed ?_) same
      simp [Phase.search?]
  | release resting held | detach resting held =>
      obtain ⟨inside, -⟩ := List.getElem?_eq_some_iff.mp held
      have less := List.length_eraseIdx_add_one inside
      refine charted.set found ?_ (by simp [Phase.search?])
      simp only [PoolUser.backed, resting, Phase.backed]
      omega
  | turnAway looks full =>
      exact charted.set found (by simp [PoolUser.held_le_backed]) (by simp)
  | claim claiming =>
      exact (charted.set found (by simp [PoolUser.held_le_backed])
        (fun _ => user.search?_accept thread _)).of_ceiling rfl
  | withdraw | callNobody =>
      exact (charted.set found (by simp [PoolUser.held_le_backed])
        (fun _ => user.search?_follow thread _)).of_ceiling rfl
  | make searching =>
      refine charted.set found ?_ ?_ <;>
        simp [PoolUser.backed, searching, Phase.backed, Phase.search?]
  | take searching popped => exact charted.take found searching popped
  | skip searching empty => exact charted.skip found searching empty accountedNext
  | store storing =>
      -- the item was among those that the thread brings home, so no load grows
      refine charted.move found rfl (fun index => ?_) (by simp [Phase.search?])
      have lengths := shared.pool.idle.length_stack_push (homeSegment thread) index
      simp [PoolUser.backed, storing, Phase.backed, lengths]
      split <;> omega
  | unpark unparking =>
      exact (charted.set found (by simp [PoolUser.held_le_backed])
        (fun _ => user.search?_follow thread _)).giveToken _

/-- Every schedule keeps the segments charted while threads give back what they took. -/
theorem Reaches.charted
    {first : SharedPool α}
    (reached : first.Reaches shared)
    (charted : Charted first.pool.gate first.pool.idle first.users)
    (accounted : Accounted first.pool.gate first.users) :
    Charted shared.pool.gate shared.pool.idle shared.users := by
  have both : Accounted shared.pool.gate shared.users ∧
      Charted shared.pool.gate shared.pool.idle shared.users := by
    refine Reaches.invariant reached ⟨accounted, charted⟩ ?_
    exact fun before found step =>
      ⟨accounted_step before.1 found step, charted_step before.2 before.1 found step⟩
  exact both.2

/-- An item is made by a thread that has passed every segment, and by no other step. -/
theorem Step.created_le
    (step : Step shared thread user move next) :
    next.pool.created ≤ shared.pool.created ∧
        shared.detached.length ≤ next.detached.length ∨
      user.phase = .searching [] ∧ next.pool.created = shared.pool.created + 1 ∧
        next.detached = shared.detached := by
  cases step with
  | make searching => exact .inr ⟨searching, rfl, rfl⟩
  | detach => exact .inl ⟨Nat.le_refl _, Nat.le_succ _⟩
  | _ => exact .inl ⟨Nat.le_refl _, Nat.le_refl _⟩

/-- The items that are not detached are bounded, while threads give back what they took. -/
theorem Reaches.created_le
    {initial ceiling threads : Nat}
    {policy : OverflowPolicy}
    {factory : Nat → α}
    (reached : (start (.create initial ceiling policy factory) threads).Reaches shared) :
    shared.pool.created ≤ shared.detached.length + (segmentCount * (ceiling - 1) + 1) := by
  let pool : BoundedPool α := .create initial ceiling policy factory
  have charted := charted_start pool threads
  have accounted := accounted_start pool rfl threads
  induction reached with
  | refl =>
      simp only [start, BoundedPool.create, Gate.withCeiling, segmentCount]
      omega
  | step before found step inductionHypothesis =>
      rcases step.created_le with ⟨created, detached⟩ | ⟨searching, created, detached⟩
      · omega
      · have within := (before.charted charted accounted).items_le found searching
        have ceiling_eq : _ = max ceiling 1 := before.fixed.1
        rw [ceiling_eq, ← Nat.sub_eq_max_sub] at within
        rw [created, detached, before.created_eq]
        omega

/--
A schedule of three threads for a pool of two items.  The first has looked into
all segments but the two that hold an item, when the second takes one of these
and puts it behind the first; then the third takes the other one.
-/
def surplusSchedule : List (ThreadId × Move) :=
  (2, .acquire) :: List.replicate 16 (2, .proceed) ++
    (3, .acquire) :: List.replicate 16 (3, .proceed) ++
      (3, .release 0) :: List.replicate 3 (3, .proceed) ++
        (2, .proceed) :: (1, .acquire) :: List.replicate 3 (1, .proceed) ++
          List.replicate 2 (2, .proceed)

/-- A pool can own more items than its ceiling. -/
theorem run_exceeds_ceiling :
    let _ : Reusable Nat := ⟨id⟩
    ∃ shared : SharedPool Nat,
      (start (.create 2 2 .failFast id) 4).run? surplusSchedule = some shared ∧
        shared.pool.gate.ceiling = 2 ∧ shared.pool.created = 3 ∧ shared.detached = [] ∧
          ¬ shared.pool.created - shared.detached.length ≤ shared.pool.gate.ceiling :=
  ⟨_, rfl, rfl, rfl, rfl, by decide⟩

end SharedPool

end DocumentCodec
