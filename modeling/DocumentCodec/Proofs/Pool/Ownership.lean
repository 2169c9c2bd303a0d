import DocumentCodec.Proofs.Pool.Refusals

namespace DocumentCodec

/-!
# Where items are

Every item that was ever made is in one place: on a segment, in the hands of a
thread, or out of the pool for good.  Items are counted by a property that
resetting leaves alone; since the counts agree for every property, so do the
items up to a reset.
-/

namespace Segments

variable {segments : Segments α} {property : α → Bool}

/-- Idle items with a property are those of all segments. -/
theorem countP_items (segments : Segments α) (property : α → Bool) :
    segments.items.countP property = ∑ index, (segments.stack index).countP property := by
  have lists : segments.lists.toList = List.ofFn segments.stack := by
    refine List.ext_getElem (by simp) fun index inside _ => ?_
    rw [Vector.getElem_toList, List.getElem_ofFn]
    rfl
  rw [items, lists, List.countP_flatten, List.map_ofFn, List.sum_ofFn]
  rfl

/-- To replace a segment's items exchanges them in the count. -/
theorem countP_set
    (index : Fin segmentCount)
    (items : List α) :
    (Segments.mk (segments.lists.set index items index.isLt)).items.countP property +
        (segments.stack index).countP property =
      segments.items.countP property + items.countP property := by
  rw [countP_items, countP_items, ← Finset.add_sum_erase _ _ (Finset.mem_univ index),
    ← Finset.add_sum_erase _ (fun other => (segments.stack other).countP property)
      (Finset.mem_univ index)]
  have others : ∑ other ∈ Finset.univ.erase index,
      ((Segments.mk (segments.lists.set index items index.isLt)).stack other).countP property =
        ∑ other ∈ Finset.univ.erase index, (segments.stack other).countP property := by
    refine Finset.sum_congr rfl fun other member => ?_
    rw [stack_set, if_neg fun same => (Finset.mem_erase.mp member).1 (Fin.ext same.symm)]
  rw [others, stack_set, if_pos rfl]
  omega

/-- An item that is put back counts among the idle ones. -/
theorem countP_push (index : Fin segmentCount) (item : α) :
    (segments.push index item).items.countP property =
      segments.items.countP property + [item].countP property := by
  have changed := @countP_set _ segments property index (item :: segments.stack index)
  rw [List.countP_cons] at changed
  rw [List.countP_singleton, push]
  omega

/-- An item that is taken counts among the idle ones no more. -/
theorem countP_pop?
    {index : Fin segmentCount}
    {item : α}
    {rest : Segments α}
    (popped : segments.pop? index = some (item, rest)) :
    segments.items.countP property = rest.items.countP property + [item].countP property := by
  unfold pop? at popped
  split at popped
  · cases popped
  · rename_i others stacked
    cases popped
    have changed := @countP_set _ segments property index others
    rw [stacked, List.countP_cons] at changed
    rw [List.countP_singleton]
    omega

/-- The items that a pool begins with all count among the idle ones. -/
theorem countP_seed (items : List α) :
    (seed items).items.countP property = items.countP property := by
  have spread (index : Nat) (segments : Segments α) :
      (segments.seedFrom index items).items.countP property =
        segments.items.countP property + items.countP property := by
    induction items generalizing index segments with
    | nil => rfl
    | cons item rest inductionHypothesis =>
        rw [seedFrom, inductionHypothesis, countP_push, List.countP_singleton, List.countP_cons]
        omega
  have none : (empty : Segments α).items.countP property = 0 := by
    simp [countP_items, stack, empty]
  rw [seed, spread, none, Nat.zero_add]

end Segments

namespace Phase

/-- The item that a thread is about to put on a segment. -/
def items : Phase α → List α
  | storing item => [item]
  | _ => []

/-- A thread that looks at the counter has no item in hand. -/
theorem Looks.items_eq
    {phase : Phase α}
    {inUse : Nat}
    {attempt : Attempt}
    {move : Move}
    (looks : phase.Looks inUse attempt move) :
    phase.items = [] := by
  cases looks <;> rfl

end Phase

namespace PoolUser

/-- The items in the hands of a thread. -/
def items (user : PoolUser α) : List α :=
  user.held ++ user.phase.items

theorem items_eq_held
    {user : PoolUser α}
    (none : user.phase.items = []) :
    user.items = user.held := by
  rw [items, none, List.append_nil]

variable (user : PoolUser α) (thread : ThreadId) (policy : OverflowPolicy)
  (attempt : Attempt) (sequel : Sequel)

@[simp] theorem items_enter (phase : Phase α) :
    (user.enter phase).items = user.held ++ phase.items :=
  rfl

@[simp] theorem items_accept : (user.accept thread attempt).items = user.held := by
  cases attempt <;> exact List.append_nil user.held

@[simp] theorem items_turnAway : (user.turnAway policy attempt).items = user.held := by
  unfold turnAway
  split <;> first | exact List.append_nil user.held | (split <;> exact List.append_nil user.held)

@[simp] theorem items_follow : (user.follow thread sequel).items = user.held := by
  cases sequel <;> exact List.append_nil user.held

/-- The items of all threads are counted thread by thread. -/
theorem countP_flatMap_items (users : List (PoolUser α)) (property : α → Bool) :
    (users.flatMap items).countP property =
      total (fun _ user => user.items.countP property) users := by
  induction users with
  | nil => rfl
  | cons user rest inductionHypothesis => simp [inductionHypothesis]

end PoolUser

/-- As many items with the property are somewhere as were made. -/
def Conserved (property : α → Bool) (pool : BoundedPool α) (users : List (PoolUser α))
    (detached : List α) : Prop :=
  pool.idle.items.countP property +
      PoolUser.total (fun _ user => user.items.countP property) users +
      detached.countP property =
    ((List.range pool.created).map pool.factory).countP property

section

variable {property : α → Bool} {pool after : BoundedPool α} {users : List (PoolUser α)}
  {detached left : List α} {thread : ThreadId} {user changed : PoolUser α}

/-- Items move between the segments, a thread, and those out of the pool. -/
theorem Conserved.move
    (conserved : Conserved property pool users detached)
    (found : users[thread]? = some user)
    (created_eq : after.created = pool.created)
    (factory_eq : after.factory = pool.factory)
    (balance :
      after.idle.items.countP property + changed.items.countP property + left.countP property =
        pool.idle.items.countP property + user.items.countP property +
          detached.countP property) :
    Conserved property after (users.set thread changed) left := by
  have totals :=
    @PoolUser.total_set _ (fun _ user => user.items.countP property) _ _ _ found changed
  simp only [Conserved, created_eq, factory_eq] at conserved totals ⊢
  omega

/-- A thread goes on with the items that it has. -/
theorem Conserved.set
    (conserved : Conserved property pool users detached)
    (found : users[thread]? = some user)
    (items_eq : changed.items = user.items) :
    Conserved property pool (users.set thread changed) detached :=
  conserved.move found rfl rfl (by rw [items_eq])

/-- A thread makes one more item. -/
theorem Conserved.make
    (conserved : Conserved property pool users detached)
    (found : users[thread]? = some user)
    (items_eq : changed.items = pool.factory pool.created :: user.items) :
    Conserved property { pool with created := pool.created + 1 } (users.set thread changed)
      detached := by
  have totals :=
    @PoolUser.total_set _ (fun _ user => user.items.countP property) _ _ _ found changed
  simp only [Conserved, items_eq, List.countP_cons, List.range_succ, List.map_append,
    List.map_cons, List.map_nil, List.countP_append, List.countP_nil] at conserved totals ⊢
  omega

/-- A wake-up moves no item. -/
theorem Conserved.giveToken
    (conserved : Conserved property pool users detached)
    (target : ThreadId) :
    Conserved property pool (PoolUser.giveToken users target) detached := by
  rw [Conserved, PoolUser.total_giveToken fun _ _ => rfl]
  exact conserved

/-- An item that is given away counts among the thread's no more. -/
theorem countP_eraseIdx
    {items : List α}
    {index : Nat}
    {item : α}
    (found : items[index]? = some item) :
    items.countP property = [item].countP property + (items.eraseIdx index).countP property := by
  obtain ⟨inside, rfl⟩ := List.getElem?_eq_some_iff.mp found
  rw [← (List.getElem_cons_eraseIdx_perm inside).countP_eq, ← List.countP_append]
  rfl

end

namespace SharedPool

variable {property : α → Bool} {shared next : SharedPool α} {thread : ThreadId}
  {user : PoolUser α} {move : Move}

/-- All items: on the segments, in the hands of threads, and out of the pool. -/
def items (shared : SharedPool α) : List α :=
  shared.pool.idle.items ++ shared.users.flatMap PoolUser.items ++ shared.detached

/-- At first all items are idle. -/
theorem conserved_start
    (initial ceiling : Nat)
    (policy : OverflowPolicy)
    (factory : Nat → α)
    (threads : Nat) :
    Conserved property (.create initial ceiling policy factory)
      (start (.create initial ceiling policy factory) threads).users [] := by
  have nothing :
      PoolUser.total (fun _ user => user.items.countP property)
        (start (.create initial ceiling policy factory) threads).users = 0 := by
    rw [← PoolUser.countP_flatMap_items]
    have empty : (start (.create initial ceiling policy factory) threads).users.flatMap
        PoolUser.items = [] := by
      simp [start, PoolUser.holding, PoolUser.items, Phase.items]
    rw [empty, List.countP_nil]
  rw [Conserved, nothing, BoundedPool.create, Segments.countP_seed]
  rfl

/-- Every item that was made is idle, in the hands of a thread, or out of the pool. -/
theorem created_eq_of_conserved
    (conserved : Conserved (fun _ => true) shared.pool shared.users shared.detached) :
    shared.pool.created =
      shared.pool.idle.items.length +
          PoolUser.total (fun _ user => user.items.length) shared.users +
        shared.detached.length := by
  simpa [Conserved] using conserved.symm

/-- Items whose numbers are all different are not in the hands of two threads. -/
theorem number_ne_of_nodup
    {number : α → Nat}
    {other : ThreadId}
    {sharer : PoolUser α}
    (distinct : (shared.items.map number).Nodup)
    (different : thread ≠ other)
    (found : shared.users[thread]? = some user)
    (foundOther : shared.users[other]? = some sharer) :
    ∀ item ∈ user.items, ∀ same ∈ sharer.items, number item ≠ number same := by
  have held : ((shared.users.flatMap PoolUser.items).map number).Nodup := by
    rw [items, List.map_append, List.map_append] at distinct
    exact distinct.of_append_left.of_append_right
  rw [List.map_flatMap, List.nodup_flatMap] at held
  have apart := List.pairwise_iff_getElem.mp held.2
  obtain ⟨inside, rfl⟩ := List.getElem?_eq_some_iff.mp found
  obtain ⟨insideOther, rfl⟩ := List.getElem?_eq_some_iff.mp foundOther
  intro item member same memberSame equal
  have here := List.mem_map_of_mem (f := number) member
  have there := List.mem_map_of_mem (f := number) memberSame
  rw [equal] at here
  rcases Nat.lt_or_gt_of_ne different with before | behind
  · exact apart thread other inside insideOther before here there
  · exact apart other thread insideOther inside behind there here

section

variable [Reusable α]

/-- Every step moves items from one place to another, or makes one. -/
theorem conserved_step
    (conserved : Conserved property shared.pool shared.users shared.detached)
    (resets : ∀ item, property (Reusable.reset item) = property item)
    (found : shared.users[thread]? = some user)
    (step : Step shared thread user move next) :
    Conserved property next.pool next.users next.detached := by
  cases step with
  | acquire resting | tryAcquire resting =>
      exact conserved.set found (by simp [PoolUser.items, resting, Phase.items])
  | release resting held =>
      have counts := @countP_eraseIdx _ property _ _ _ held
      refine conserved.move found rfl rfl ?_
      simp [PoolUser.items, resting, Phase.items, resets, counts, Nat.add_comm]
  | detach resting held =>
      have counts := @countP_eraseIdx _ property _ _ _ held
      refine conserved.move found rfl rfl ?_
      simp [PoolUser.items, resting, Phase.items, counts, List.countP_cons]
      omega
  | see looks free =>
      exact conserved.set found (by simp [PoolUser.items_eq_held looks.items_eq, Phase.items])
  | turnAway looks full =>
      exact conserved.set found (by simp [PoolUser.items_eq_held looks.items_eq])
  | claim claiming =>
      exact conserved.set found (by simp [PoolUser.items_eq_held, claiming, Phase.items])
  | enlist enlisting =>
      exact conserved.set found (by simp [PoolUser.items_eq_held, enlisting, Phase.items])
  | park timing | expire timing =>
      exact conserved.set found (by simp [PoolUser.items, timing, Phase.items])
  | wake parked | stir parked =>
      exact conserved.set found (by simp [PoolUser.items, parked, Phase.items])
  | withdraw delisting listed =>
      exact conserved.set found (by simp [PoolUser.items_eq_held, delisting, Phase.items])
  | handOver delisting absent =>
      exact conserved.set found (by simp [PoolUser.items, delisting, Phase.items])
  | make searching =>
      exact conserved.make found (by simp [PoolUser.items, searching, Phase.items])
  | take searching popped =>
      have counts := @Segments.countP_pop? _ _ property _ _ _ popped
      refine conserved.move found rfl rfl ?_
      simp [PoolUser.items, searching, Phase.items, counts, List.countP_cons]
      omega
  | skip searching =>
      exact conserved.set found (by simp [PoolUser.items, searching, Phase.items])
  | store storing =>
      refine conserved.move found rfl rfl ?_
      simp [PoolUser.items, storing, Phase.items, Segments.countP_push]
      omega
  | free freeing => exact conserved.set found (by simp [PoolUser.items, freeing, Phase.items])
  | call waking waiters => exact conserved.set found (by simp [PoolUser.items, waking, Phase.items])
  | callNobody waking nobody =>
      exact conserved.set found (by simp [PoolUser.items_eq_held, waking, Phase.items])
  | unpark unparking =>
      exact (conserved.set found
        (by simp [PoolUser.items_eq_held, unparking, Phase.items])).giveToken _

/-- No schedule loses an item or makes one twice. -/
theorem Reaches.conserved
    {first : SharedPool α}
    (reached : first.Reaches shared)
    (conserved : Conserved property first.pool first.users first.detached)
    (resets : ∀ item, property (Reusable.reset item) = property item) :
    Conserved property shared.pool shared.users shared.detached := by
  refine Reaches.invariant reached conserved ?_
  exact fun conserved => conserved_step conserved resets

/-- No step changes the ceiling or the way in which items are made. -/
theorem Step.fixed (step : Step shared thread user move next) :
    next.pool.gate.ceiling = shared.pool.gate.ceiling ∧
      next.pool.factory = shared.pool.factory := by
  cases step with
  | enlist => exact ⟨(shared.pool.gate.sameSlots_register thread).ceiling_eq, rfl⟩
  | _ => exact ⟨rfl, rfl⟩

/-- No schedule changes the ceiling or the factory. -/
theorem Reaches.fixed
    {first : SharedPool α}
    (reached : first.Reaches shared) :
    shared.pool.gate.ceiling = first.pool.gate.ceiling ∧
      shared.pool.factory = first.pool.factory := by
  refine Reaches.invariant reached ⟨rfl, rfl⟩ ?_
  exact fun same _ step => ⟨step.fixed.1.trans same.1, step.fixed.2.trans same.2⟩

/-- Up to a reset, the items that are somewhere are the ones that were made. -/
theorem Reaches.perm_items
    {initial ceiling threads : Nat}
    {policy : OverflowPolicy}
    {factory : Nat → α}
    {tag : α → β}
    (reached : (start (.create initial ceiling policy factory) threads).Reaches shared)
    (resets : ∀ item, tag (Reusable.reset item) = tag item) :
    (shared.items.map tag).Perm ((List.range shared.pool.created).map (tag ∘ factory)) := by
  classical
  refine List.perm_iff_count.mpr fun value => ?_
  have conserved : Conserved (fun item => tag item == value) shared.pool shared.users
      shared.detached :=
    reached.conserved (conserved_start initial ceiling policy factory threads) fun item => by
      rw [resets]
  rw [Conserved, reached.fixed.2, ← PoolUser.countP_flatMap_items, ← List.countP_append,
    ← List.countP_append, List.countP_map] at conserved
  rw [List.count_eq_countP, List.count_eq_countP, List.countP_map, List.countP_map]
  exact conserved

/-- If items are numbered as they are made, every number is in one place. -/
theorem Reaches.perm_numbers
    {initial ceiling threads : Nat}
    {policy : OverflowPolicy}
    {factory : Nat → α}
    {number : α → Nat}
    (reached : (start (.create initial ceiling policy factory) threads).Reaches shared)
    (numbered : ∀ count, number (factory count) = count)
    (resets : ∀ item, number (Reusable.reset item) = number item) :
    (shared.items.map number).Perm (List.range shared.pool.created) := by
  have perm := reached.perm_items resets
  rwa [show number ∘ factory = id from funext numbered, List.map_id] at perm

/-- The items that were made are idle, with the threads or detached. -/
theorem Reaches.created_eq
    {initial ceiling threads : Nat}
    {policy : OverflowPolicy}
    {factory : Nat → α}
    (reached : (start (.create initial ceiling policy factory) threads).Reaches shared) :
    shared.pool.created =
      shared.pool.idle.items.length +
          PoolUser.total (fun _ user => user.items.length) shared.users +
        shared.detached.length := by
  have conserved : Conserved (fun _ => true) shared.pool shared.users shared.detached :=
    reached.conserved (conserved_start initial ceiling policy factory threads) fun _ => rfl
  exact created_eq_of_conserved conserved

/--
Slots and items of a pool that threads share.  Whatever they have done with a
new pool, the counter is the number of slots that they have reserved and not
given up; it is within the ceiling, it is not zero when a thread is about to
lower it, and no fewer than the items that threads hold.  Every item that was
made is in one place, so no two threads have the same one.  A thread that is
refused an item has neither a slot nor an item for it, at any time since it
began to acquire it.
-/
theorem run_accounts_for_slots_and_items
    {initial ceiling threads : Nat}
    {policy : OverflowPolicy}
    {factory : Nat → α}
    {schedule : List (ThreadId × Move)}
    (ran : (start (.create initial ceiling policy factory) threads).run? schedule = some shared) :
    let gate := shared.pool.gate
    (gate.inUse = PoolUser.total (fun _ user => user.slots) shared.users ∧
      gate.inUse ≤ gate.ceiling ∧ gate.ceiling = max ceiling 1 ∧
      (∀ user ∈ shared.users, user.phase = .freeing → 0 < gate.inUse) ∧
      PoolUser.total (fun _ user => user.held.length) shared.users ≤ gate.inUse) ∧
    (∀ number : α → Nat, (∀ count, number (factory count) = count) →
      (∀ item, number (Reusable.reset item) = number item) →
        (shared.items.map number).Perm (List.range shared.pool.created) ∧
          ∀ (thread other : ThreadId) (user sharer : PoolUser α), thread ≠ other →
            shared.users[thread]? = some user → shared.users[other]? = some sharer →
              ∀ item ∈ user.items, ∀ same ∈ sharer.items, number item ≠ number same) ∧
    ∀ (thread : ThreadId) (user : PoolUser α) (begin : Move), shared.users[thread]? = some user →
      user.phase = .resting → begin = .acquire ∨ begin = .tryAcquire →
        ∀ (first second : List (ThreadId × Move)) (middle last : SharedPool α),
          shared.run? ((thread, begin) :: first) = some middle →
          middle.run? second = some last →
          (∀ choice ∈ first ++ second, choice.1 = thread → choice.2.begins = false) →
            ∀ between after, middle.users[thread]? = some between →
              last.users[thread]? = some after → after.refused ≠ user.refused →
                between.held = user.held ∧ between.slots = user.slots := by
  intro gate
  have reached := reaches_of_run? ran
  have accounted : Accounted gate shared.users := reached.accounted (accounted_start _ rfl threads)
  refine ⟨⟨accounted.inUse_eq, accounted.le_ceiling, reached.fixed.1, ?_, ?_⟩, ?_, ?_⟩
  · intro user member freeing
    obtain ⟨thread, found⟩ := List.mem_iff_getElem?.mp member
    have reserved := accounted.slots_le found
    simp only [PoolUser.slots, freeing, Phase.slots] at reserved
    omega
  · rw [accounted.inUse_eq]
    exact PoolUser.total_mono fun _ user _ => Nat.le_add_right user.held.length user.phase.slots
  · intro number numbered resets
    have perm := reached.perm_numbers numbered resets
    refine ⟨perm, fun thread other user sharer different found foundOther => ?_⟩
    exact number_ne_of_nodup (perm.nodup_iff.mpr List.nodup_range) different found foundOther
  · intro thread user begin found resting begins first second middle last ranFirst ranSecond
      goesOn between after foundBetween foundAfter refused
    exact slots_of_refused resting found begins ranFirst ranSecond goesOn foundBetween foundAfter
      refused

end

/-- A schedule with which a thread takes the first item of a pool. -/
def takingSchedule : List (ThreadId × Move) :=
  (0, .acquire) :: List.replicate 19 (0, .proceed)

/-- One thread has the only item, and another one is refused it. -/
theorem run_refuses_second_thread :
    let _ : Reusable Nat := ⟨id⟩
    ∃ (shared last : SharedPool Nat) (after : PoolUser Nat),
      (start (.create 0 1 .failFast id) 2).run? takingSchedule = some shared ∧
        shared.run? [(1, .acquire), (1, .proceed)] = some last ∧
          last.users[1]? = some after ∧ after.refused = 1 ∧
            (shared.items.map id).Perm (List.range 1) ∧ after.held = [] ∧ after.slots = 0 := by
  intro reusable
  obtain ⟨shared, ran, users, created, last, ranLast, usersLast⟩ :
      ∃ shared : SharedPool Nat,
        (start (.create 0 1 .failFast id) 2).run? takingSchedule = some shared ∧
          shared.users = [⟨.resting, [0], false, 1, 0⟩, ⟨.resting, [], false, 0, 0⟩] ∧
            shared.pool.created = 1 ∧
            ∃ last, shared.run? [(1, .acquire), (1, .proceed)] = some last ∧
              last.users = [⟨.resting, [0], false, 1, 0⟩, ⟨.resting, [], false, 0, 1⟩] :=
    ⟨_, rfl, rfl, rfl, _, rfl, rfl⟩
  have found : shared.users[1]? = some ⟨.resting, [], false, 0, 0⟩ := by simp [users]
  have foundLast : last.users[1]? = some ⟨.resting, [], false, 0, 1⟩ := by simp [usersLast]
  obtain ⟨-, numbered, refusals⟩ := run_accounts_for_slots_and_items ran
  have perm := (numbered id (fun _ => rfl) fun _ => rfl).1
  obtain ⟨held, slots⟩ :=
    refusals 1 _ .acquire found rfl (.inl rfl) [(1, .proceed)] [] last last ranLast rfl
      (by simp [Move.begins]) _ _ foundLast foundLast (by simp)
  rw [created] at perm
  exact ⟨shared, last, _, ran, ranLast, foundLast, rfl, perm, held, slots⟩

end SharedPool

end DocumentCodec
