import DocumentCodec.Proofs.Pool.Surplus

namespace DocumentCodec

/-!
# Pools that own as many items as they can

The bound on the items that a pool comes to own is reached.  When a thread looks
for an item, the threads at home on the next segment hold all the items of that
segment for the moment in which the thread looks into it.  So it passes every
segment as long as none has as many items as the ceiling, and makes a new item.

A `Scene` is what such a schedule has to know of a state, and each lemma leads
the threads from one scene to the next.
-/

/-- The counts of a state in which threads rest or look for an item. -/
@[ext] structure Scene where
  inUse : Nat
  /-- Number of idle items of each segment. -/
  idle : Fin segmentCount → Nat
  /-- Number of items that each thread holds. -/
  hands : ThreadId → Nat
  /-- The segments that a thread has yet to look into, if it looks for an item. -/
  way? : ThreadId → Option (List (Fin segmentCount))

/-- The phase of a thread that rests or looks for an item. -/
def Phase.ofWay : Option (List (Fin segmentCount)) → Phase α
  | none => .resting
  | some segments => .searching segments

/-- A state shows a scene: some threads are as it says, and nobody waits. -/
structure Staged (ceiling size : Nat) (scene : Scene) (shared : SharedPool α) : Prop where
  gate_eq : shared.pool.gate = ⟨scene.inUse, ceiling, []⟩
  idle_eq : ∀ index, (shared.pool.idle.stack index).length = scene.idle index
  detached_eq : shared.detached = []
  users_length : shared.users.length = size
  users_eq : ∀ thread user, shared.users[thread]? = some user →
    user.phase = .ofWay (scene.way? thread) ∧ user.held.length = scene.hands thread

namespace SharedPool

/-- The later of two changes to a thread counts. -/
@[simp] theorem put_put (shared : SharedPool α) (thread : ThreadId) (user changed : PoolUser α) :
    (shared.put thread user).put thread changed = shared.put thread changed := by
  simp [put]

/-- A change to the gate and one to a thread commute. -/
theorem withGate_put (shared : SharedPool α) (thread : ThreadId) (user : PoolUser α) (gate : Gate) :
    (shared.put thread user).withGate gate = (shared.withGate gate).put thread user :=
  rfl

end SharedPool

namespace Staged

variable {ceiling size : Nat} {scene : Scene} {shared : SharedPool α} {thread : ThreadId}

/-- Every thread of a scene is there, as the scene says. -/
theorem exists_user
    (staged : Staged ceiling size scene shared)
    (inside : thread < size) :
    ∃ user, shared.users[thread]? = some user ∧ user.phase = .ofWay (scene.way? thread) ∧
      user.held.length = scene.hands thread := by
  rw [← staged.users_length] at inside
  exact ⟨shared.users[thread], List.getElem?_eq_getElem inside,
    staged.users_eq thread _ (List.getElem?_eq_getElem inside)⟩

/-- The scene after one thread has gone on. -/
theorem put
    {next : SharedPool α}
    {user changed : PoolUser α}
    {later : Scene}
    (staged : Staged ceiling size scene shared)
    (found : shared.users[thread]? = some user)
    (gate_eq : next.pool.gate = ⟨later.inUse, ceiling, []⟩)
    (idle_eq : ∀ index, (next.pool.idle.stack index).length = later.idle index)
    (detached_eq : next.detached = [])
    (users_eq : next.users = shared.users.set thread changed)
    (self : changed.phase = .ofWay (later.way? thread) ∧
      changed.held.length = later.hands thread)
    (others : ∀ other, other ≠ thread →
      later.way? other = scene.way? other ∧ later.hands other = scene.hands other) :
    Staged ceiling size later next where
  gate_eq := gate_eq
  idle_eq := idle_eq
  detached_eq := detached_eq
  users_length := by rw [users_eq, List.length_set, staged.users_length]
  users_eq := by
    rw [users_eq]
    refine PoolUser.forall_set found self fun other waiting different foundWaiting => ?_
    rw [(others other different).1, (others other different).2]
    exact staged.users_eq other waiting foundWaiting

end Staged

namespace Scene

/-- The scene in which a thread has claimed a slot and looks into no segment yet. -/
def enter (scene : Scene) (thread : ThreadId) : Scene :=
  { scene with
    inUse := scene.inUse + 1
    way? := Function.update scene.way? thread
      (some (Segments.searchOrder (homeSegment thread))) }

/-- The scene in which a thread has passed a segment. -/
def pass (scene : Scene) (thread : ThreadId) (rest : List (Fin segmentCount)) : Scene :=
  { scene with way? := Function.update scene.way? thread (some rest) }

/-- The scene in which a thread has found an item on a segment. -/
def take (scene : Scene) (thread : ThreadId) (segment : Fin segmentCount) : Scene :=
  { scene with
    idle := Function.update scene.idle segment (scene.idle segment - 1)
    hands := Function.update scene.hands thread (scene.hands thread + 1)
    way? := Function.update scene.way? thread none }

/-- The scene in which a thread has made an item. -/
def make (scene : Scene) (thread : ThreadId) : Scene :=
  { scene with
    hands := Function.update scene.hands thread (scene.hands thread + 1)
    way? := Function.update scene.way? thread none }

/-- The scene in which a thread has given an item back. -/
def giveBack (scene : Scene) (thread : ThreadId) : Scene :=
  { scene with
    inUse := scene.inUse - 1
    idle := Function.update scene.idle (homeSegment thread) (scene.idle (homeSegment thread) + 1)
    hands := Function.update scene.hands thread (scene.hands thread - 1) }

end Scene

namespace SharedPool

variable [Reusable α] {shared : SharedPool α} {thread : ThreadId} {user : PoolUser α}
  {ceiling size : Nat} {scene : Scene}

/-- Schedules one after the other are a schedule. -/
theorem Reaches.trans
    {first middle last : SharedPool α}
    (before : first.Reaches middle)
    (behind : middle.Reaches last) :
    first.Reaches last := by
  induction behind with
  | refl => exact before
  | step _ found step inductionHypothesis => exact inductionHypothesis.step found step

/-- A thread claims a slot that is free. -/
theorem reaches_search
    (found : shared.users[thread]? = some user)
    (resting : user.phase = .resting)
    (free : shared.pool.gate.inUse < shared.pool.gate.ceiling) :
    shared.Reaches ((shared.withGate shared.pool.gate.claim).put thread (user.search thread)) := by
  have reading := Reaches.refl.step found (.acquire resting)
  have claiming := reading.step (PoolUser.getElem?_set_self found _) (.see .reads free)
  have searching := claiming.step
    (PoolUser.getElem?_set_self (PoolUser.getElem?_set_self found _) _) (.claim rfl)
  simp only [withGate_put, put_put] at searching
  exact searching

/-- A thread gives an item back while nobody waits. -/
theorem reaches_giveBack
    {item : α}
    {others : List α}
    (found : shared.users[thread]? = some user)
    (resting : user.phase = .resting)
    (held : user.held = item :: others)
    (nobody : shared.pool.gate.waiters = []) :
    shared.Reaches
      ({ shared with
        pool :=
          { shared.pool with
            idle := shared.pool.idle.push (homeSegment thread) (Reusable.reset item)
            gate := shared.pool.gate.free } }.put thread { user with held := others }) := by
  have storing := Reaches.refl.step found (.release resting
    (show user.held[0]? = some item by rw [held]; rfl))
  have freeing := storing.step (PoolUser.getElem?_set_self found _) (.store rfl)
  have waking := freeing.step
    (PoolUser.getElem?_set_self (PoolUser.getElem?_set_self found _) _) (.free rfl)
  have left := waking.step
    (PoolUser.getElem?_set_self (PoolUser.getElem?_set_self
      (PoolUser.getElem?_set_self found _) _) _) (.callNobody rfl nobody)
  simpa [SharedPool.put, withGate, PoolUser.enter, PoolUser.follow, held, resting] using left

end SharedPool

namespace Staged

variable [Reusable α] {ceiling size : Nat} {scene : Scene} {shared : SharedPool α}
  {thread : ThreadId}

/-- A thread at rest can begin to look for an item while a slot is free. -/
theorem exists_enter
    (staged : Staged ceiling size scene shared)
    (inside : thread < size)
    (rests : scene.way? thread = none)
    (free : scene.inUse < ceiling) :
    ∃ next, shared.Reaches next ∧ Staged ceiling size (scene.enter thread) next := by
  obtain ⟨user, found, resting, held⟩ := staged.exists_user inside
  rw [rests] at resting
  refine ⟨_, SharedPool.reaches_search found resting (by rw [staged.gate_eq]; exact free), ?_⟩
  refine staged.put found ?_ staged.idle_eq staged.detached_eq rfl ⟨?_, held⟩ ?_
  · simp [Scene.enter, Gate.claim, staged.gate_eq]
  · simp [Scene.enter, PoolUser.search, Phase.ofWay]
  · intro other different
    simp [Scene.enter, different]

/-- A thread that finds a segment empty can look on. -/
theorem exists_pass
    {segment : Fin segmentCount}
    {rest : List (Fin segmentCount)}
    (staged : Staged ceiling size scene shared)
    (inside : thread < size)
    (searches : scene.way? thread = some (segment :: rest))
    (empty : scene.idle segment = 0) :
    ∃ next, shared.Reaches next ∧ Staged ceiling size (scene.pass thread rest) next := by
  obtain ⟨user, found, searching, held⟩ := staged.exists_user inside
  rw [searches] at searching
  have bare : shared.pool.idle.stack segment = [] :=
    List.eq_nil_of_length_eq_zero ((staged.idle_eq segment).trans empty)
  refine ⟨_, SharedPool.Reaches.refl.step found (.skip searching bare), ?_⟩
  refine staged.put found staged.gate_eq staged.idle_eq staged.detached_eq rfl ⟨?_, held⟩ ?_
  · simp [Scene.pass, Phase.ofWay]
  · intro other different
    simp [Scene.pass, different]

/-- A thread that finds an item can take it. -/
theorem exists_take
    {segment : Fin segmentCount}
    {rest : List (Fin segmentCount)}
    (staged : Staged ceiling size scene shared)
    (inside : thread < size)
    (searches : scene.way? thread = some (segment :: rest))
    (stocked : 0 < scene.idle segment) :
    ∃ next, shared.Reaches next ∧ Staged ceiling size (scene.take thread segment) next := by
  obtain ⟨user, found, searching, held⟩ := staged.exists_user inside
  rw [searches] at searching
  obtain ⟨item, others, stacked⟩ :=
    List.exists_cons_of_length_pos ((staged.idle_eq segment).symm ▸ stocked)
  obtain ⟨left, popped⟩ : ∃ left, shared.pool.idle.pop? segment = some (item, left) :=
    ⟨_, by rw [Segments.pop?, stacked]⟩
  refine ⟨_, SharedPool.Reaches.refl.step found (.take searching popped), ?_⟩
  refine staged.put found staged.gate_eq (fun index => ?_) staged.detached_eq rfl ⟨?_, ?_⟩ ?_
  · have lengths := Segments.length_stack_pop? popped index
    rw [staged.idle_eq] at lengths
    by_cases same : index = segment
    · subst index
      simpa [Scene.take] using Nat.eq_sub_of_add_eq lengths
    · simpa [Scene.take, same, Ne.symm same] using lengths
  · simp [Scene.take, Phase.ofWay]
  · simp [Scene.take, held]
  · intro other different
    simp [Scene.take, different]

/-- A thread that has looked everywhere can make an item. -/
theorem exists_make
    (staged : Staged ceiling size scene shared)
    (inside : thread < size)
    (searches : scene.way? thread = some []) :
    ∃ next, shared.Reaches next ∧ Staged ceiling size (scene.make thread) next := by
  obtain ⟨user, found, searching, held⟩ := staged.exists_user inside
  rw [searches] at searching
  refine ⟨_, SharedPool.Reaches.refl.step found (.make searching), ?_⟩
  refine staged.put found staged.gate_eq staged.idle_eq staged.detached_eq rfl ⟨?_, ?_⟩ ?_
  · simp [Scene.make, Phase.ofWay]
  · simp [Scene.make, held]
  · intro other different
    simp [Scene.make, different]

/-- A thread that holds an item can put it back on its own segment. -/
theorem exists_giveBack
    (staged : Staged ceiling size scene shared)
    (inside : thread < size)
    (rests : scene.way? thread = none)
    (holds : 0 < scene.hands thread) :
    ∃ next, shared.Reaches next ∧ Staged ceiling size (scene.giveBack thread) next := by
  obtain ⟨user, found, resting, held⟩ := staged.exists_user inside
  rw [rests] at resting
  obtain ⟨item, others, stock⟩ := List.exists_cons_of_length_pos (held ▸ holds)
  refine ⟨_, SharedPool.reaches_giveBack found resting stock (by rw [staged.gate_eq]), ?_⟩
  refine staged.put found ?_ (fun index => ?_) staged.detached_eq rfl ⟨?_, ?_⟩ ?_
  · simp [Scene.giveBack, Gate.free, staged.gate_eq]
  · have lengths := shared.pool.idle.length_stack_push (homeSegment thread) index
      (Reusable.reset item)
    rw [staged.idle_eq] at lengths
    by_cases same : index = homeSegment thread
    · subst index
      simpa [Scene.giveBack] using lengths
    · simpa [Scene.giveBack, same, Ne.symm same] using lengths
  · simp [Scene.giveBack, resting, rests]
  · rw [stock] at held
    simp [Scene.giveBack, ← held]
  · intro other different
    simp [Scene.giveBack, different]

end Staged

namespace Scene

/-- All threads rest and hold nothing. -/
def calm (idle : Fin segmentCount → Nat) : Scene where
  inUse := 0
  idle
  hands _ := 0
  way? _ := none

/--
One thread has some segments left to look into.  Some of the threads at home on
one segment hold an item of it each, and all others rest.
-/
def crowded (idle : Fin segmentCount → Nat) (walker : ThreadId) (segment : Fin segmentCount)
    (helpers : Nat) (segments : List (Fin segmentCount)) : Scene where
  inUse := helpers + 1
  idle := Function.update idle segment (idle segment - helpers)
  hands thread :=
    if homeSegment thread = segment ∧ thread / segmentCount < helpers then 1 else 0
  way? := Function.update (fun _ => none) walker (some segments)

end Scene

/-- One of the threads at home on a segment. -/
def helper (segment : Fin segmentCount) (index : Nat) : Nat :=
  segmentCount * index + segment

/-- Helpers of a segment are at home on it. -/
theorem homeSegment_helper (segment : Fin segmentCount) (index : Nat) :
    homeSegment (helper segment index) = segment := by
  refine Fin.ext ?_
  change (segmentCount * index + segment) % segmentCount = segment
  rw [Nat.mul_add_mod, Nat.mod_eq_of_lt segment.isLt]

/-- Helpers of a segment are numbered. -/
theorem helper_div (segment : Fin segmentCount) (index : Nat) :
    helper segment index / segmentCount = index := by
  rw [helper, Nat.mul_add_div (Nat.succ_pos _), Nat.div_eq_of_lt segment.isLt, Nat.add_zero]

/-- Every thread at home on a segment is a helper of it. -/
theorem eq_helper
    {thread : ThreadId}
    {segment : Fin segmentCount}
    (home : homeSegment thread = segment) :
    thread = helper segment (thread / segmentCount) := by
  subst segment
  exact (Nat.div_add_mod thread segmentCount).symm

/-- A thread is one helper exactly by its segment and its number. -/
theorem home_and_div_iff
    {thread : ThreadId}
    {segment : Fin segmentCount}
    {index : Nat} :
    homeSegment thread = segment ∧ thread / segmentCount = index ↔
      thread = helper segment index := by
  constructor
  · rintro ⟨home, rfl⟩
    exact eq_helper home
  · rintro rfl
    exact ⟨homeSegment_helper segment index, helper_div segment index⟩

namespace Scene

variable {idle : Fin segmentCount → Nat} {walker : ThreadId} {segment : Fin segmentCount}
  {helpers : Nat} {segments rest : List (Fin segmentCount)}

/-- With one more helper that one holds an item, and the others what they did. -/
theorem hands_crowded_succ :
    (crowded idle walker segment (helpers + 1) segments).hands =
      Function.update (crowded idle walker segment helpers segments).hands
        (helper segment helpers) 1 := by
  funext thread
  by_cases same : thread = helper segment helpers
  · subst thread
    simp [crowded, homeSegment_helper, helper_div]
  · rw [Function.update_of_ne same]
    have others : homeSegment thread = segment → thread / segmentCount ≠ helpers :=
      fun home div => same (home_and_div_iff.mp ⟨home, div⟩)
    refine if_congr (and_congr_right fun home => ?_) rfl rfl
    exact Nat.lt_succ_iff_lt_or_eq.trans (or_iff_left (others home))

/-- The next helper holds nothing yet. -/
theorem hands_crowded_helper :
    (crowded idle walker segment helpers segments).hands (helper segment helpers) = 0 := by
  simp [crowded, helper_div]

/-- No thread but the walker looks for an item. -/
theorem way?_crowded
    {thread : ThreadId}
    (different : thread ≠ walker) :
    (crowded idle walker segment helpers segments).way? thread = none := by
  simp [crowded, different]

/-- One more thread comes to hold an item of its home segment. -/
theorem crowded_take (awake : helper segment helpers ≠ walker) :
    ((crowded idle walker segment helpers segments).enter (helper segment helpers)).take
        (helper segment helpers) segment =
      crowded idle walker segment (helpers + 1) segments := by
  refine Scene.ext rfl ?_ ?_ ?_
  · simp [take, enter, crowded, Nat.sub_sub]
  · rw [hands_crowded_succ]
    simp [take, enter, hands_crowded_helper]
  · have way := @way?_crowded idle _ segment helpers segments _ awake
    simp [take, enter, ← way]
    rfl

/-- One of the threads gives its item back. -/
theorem crowded_giveBack (stocked : helpers < idle segment) :
    (crowded idle walker segment (helpers + 1) segments).giveBack (helper segment helpers) =
      crowded idle walker segment helpers segments := by
  refine Scene.ext rfl ?_ ?_ rfl
  · have one : idle segment - (helpers + 1) + 1 = idle segment - helpers := by omega
    simp [giveBack, crowded, homeSegment_helper, one]
  · simp [giveBack, hands_crowded_succ, hands_crowded_helper]

/-- The walker looks on and leaves the helpers as they are. -/
theorem crowded_pass :
    (crowded idle walker segment helpers segments).pass walker rest =
      crowded idle walker segment helpers rest := by
  simp [crowded, pass]

/-- With no item in the hands of others, it does not matter for which segment they stand by. -/
theorem crowded_zero (segment other : Fin segmentCount) :
    crowded idle walker segment 0 segments = crowded idle walker other 0 segments := by
  simp [crowded]

end Scene

/-- Numbers below the ceiling belong to threads that are there. -/
theorem lt_of_div_lt
    {thread ceiling : Nat}
    (lt : thread / segmentCount < ceiling) :
    thread < segmentCount * ceiling := by
  rw [Nat.mul_comm]
  exact (Nat.div_lt_iff_lt_mul (Nat.succ_pos _)).mp lt

namespace Staged

variable [Reusable α] {ceiling : Nat} {idle : Fin segmentCount → Nat} {shared : SharedPool α}
  {walker : Nat} {segment : Fin segmentCount} {segments rest : List (Fin segmentCount)}

/--
A thread passes a segment with fewer items than the ceiling.  The induction is
on the items that nobody has in hands: the next thread at home there takes one,
and puts it back when the segment has been passed.
-/
theorem exists_bypass
    {left helpers : Nat}
    (few : idle segment ≤ walker / segmentCount)
    (room : walker / segmentCount < ceiling)
    (all : helpers + left = idle segment)
    (staged : Staged ceiling (segmentCount * ceiling)
      (.crowded idle walker segment helpers (segment :: rest)) shared) :
    ∃ next, shared.Reaches next ∧
      Staged ceiling (segmentCount * ceiling) (.crowded idle walker segment helpers rest) next := by
  induction left generalizing helpers shared with
  | zero =>
      have bare :
          (Scene.crowded idle walker segment helpers (segment :: rest)).idle segment = 0 := by
        simp [Scene.crowded, ← all]
      have searches : (Scene.crowded idle walker segment helpers (segment :: rest)).way? walker =
          some (segment :: rest) := by
        simp [Scene.crowded]
      obtain ⟨next, reached, staged⟩ := staged.exists_pass (lt_of_div_lt room) searches bare
      rw [Scene.crowded_pass] at staged
      exact ⟨next, reached, staged⟩
  | succ left inductionHypothesis =>
      have behind : helpers < walker / segmentCount := by omega
      have free : helpers + 1 < ceiling := by omega
      have awake : helper segment helpers ≠ walker := by
        rintro rfl
        rw [helper_div] at behind
        exact behind.ne rfl
      have inside : helper segment helpers < segmentCount * ceiling :=
        lt_of_div_lt (by rw [helper_div]; omega)
      -- a helper holds an item while the walker passes, and then puts it back
      obtain ⟨entered, toEntered, staged⟩ :=
        staged.exists_enter inside (Scene.way?_crowded awake) free
      obtain ⟨order, begins⟩ := Segments.searchOrder_eq_cons segment
      obtain ⟨taken, toTaken, staged⟩ := staged.exists_take inside
        (by simp only [Scene.enter, Function.update_self, homeSegment_helper]; rw [begins])
        (by simp [Scene.enter, Scene.crowded]; omega)
      rw [Scene.crowded_take awake] at staged
      obtain ⟨passed, toPassed, staged⟩ := inductionHypothesis (by omega) staged
      obtain ⟨next, toNext, staged⟩ := staged.exists_giveBack inside
        (Scene.way?_crowded awake) (by simp [Scene.hands_crowded_succ])
      rw [Scene.crowded_giveBack (by omega)] at staged
      exact ⟨next, ((toEntered.trans toTaken).trans toPassed).trans toNext, staged⟩

/-- A thread passes all segments if none has as many items as the ceiling. -/
theorem exists_walk
    (few : ∀ index, idle index ≤ walker / segmentCount)
    (room : walker / segmentCount < ceiling)
    (staged : Staged ceiling (segmentCount * ceiling)
      (.crowded idle walker segment 0 segments) shared) :
    ∃ next, shared.Reaches next ∧
      Staged ceiling (segmentCount * ceiling) (.crowded idle walker segment 0 []) next := by
  induction segments generalizing shared with
  | nil => exact ⟨shared, .refl, staged⟩
  | cons first rest inductionHypothesis =>
      rw [Scene.crowded_zero segment first] at staged
      obtain ⟨passed, toPassed, staged⟩ :=
        staged.exists_bypass (few first) room (Nat.zero_add _)
      rw [Scene.crowded_zero first segment] at staged
      obtain ⟨next, toNext, staged⟩ := inductionHypothesis staged
      exact ⟨next, toPassed.trans toNext, staged⟩

/-- The pool comes to own one more item, on any segment. -/
theorem exists_grown
    (positive : 0 < ceiling)
    (few : ∀ index, idle index ≤ ceiling - 1)
    (staged : Staged ceiling (segmentCount * ceiling) (.calm idle) shared)
    (segment : Fin segmentCount) :
    ∃ next, shared.Reaches next ∧
      Staged ceiling (segmentCount * ceiling)
        (.calm (Function.update idle segment (idle segment + 1))) next := by
  have turn : helper segment (ceiling - 1) / segmentCount = ceiling - 1 := helper_div segment _
  have room : helper segment (ceiling - 1) / segmentCount < ceiling := by
    rw [turn]
    omega
  have inside := lt_of_div_lt room
  obtain ⟨entered, toEntered, staged⟩ := staged.exists_enter inside rfl positive
  have enters : (Scene.calm idle).enter (helper segment (ceiling - 1)) =
      .crowded idle (helper segment (ceiling - 1)) segment 0
        (Segments.searchOrder (homeSegment (helper segment (ceiling - 1)))) := by
    simp [Scene.calm, Scene.enter, Scene.crowded]
  rw [enters] at staged
  obtain ⟨walked, toWalked, staged⟩ := staged.exists_walk (by rwa [turn]) room
  obtain ⟨made, toMade, staged⟩ := staged.exists_make inside (by simp [Scene.crowded])
  obtain ⟨next, toNext, staged⟩ := staged.exists_giveBack inside
    (by simp [Scene.make]) (by simp [Scene.make])
  have leaves : ((Scene.crowded idle (helper segment (ceiling - 1)) segment 0 []).make
      (helper segment (ceiling - 1))).giveBack (helper segment (ceiling - 1)) =
        .calm (Function.update idle segment (idle segment + 1)) := by
    simp [Scene.calm, Scene.make, Scene.giveBack, Scene.crowded, homeSegment_helper]
  rw [leaves] at staged
  exact ⟨next, ((toEntered.trans toWalked).trans toMade).trans toNext, staged⟩

/-- One more item on one segment is one more on all. -/
theorem sum_update_succ (idle : Fin segmentCount → Nat) (segment : Fin segmentCount) :
    ∑ index, Function.update idle segment (idle segment + 1) index = ∑ index, idle index + 1 := by
  rw [Finset.sum_update_of_mem (Finset.mem_univ segment),
    ← Finset.add_sum_erase _ _ (Finset.mem_univ segment), Finset.sdiff_singleton_eq_erase]
  omega

/-- The pool comes to own any number of items, as long as no segment must have too many. -/
theorem exists_filled
    (positive : 0 < ceiling)
    (staged : Staged ceiling (segmentCount * ceiling) (.calm fun _ => 0) shared)
    {count : Nat}
    (room : count ≤ segmentCount * (ceiling - 1)) :
    ∃ idle next, shared.Reaches next ∧
      Staged ceiling (segmentCount * ceiling) (.calm idle) next ∧
        (∀ index, idle index ≤ ceiling - 1) ∧ ∑ index, idle index = count := by
  induction count with
  | zero => exact ⟨_, shared, .refl, staged, fun _ => Nat.zero_le _, by simp⟩
  | succ count inductionHypothesis =>
      obtain ⟨idle, middle, toMiddle, staged, few, sum_eq⟩ :=
        inductionHypothesis (Nat.le_of_succ_le room)
      obtain ⟨segment, -, fewer⟩ : ∃ segment ∈ Finset.univ, idle segment < ceiling - 1 := by
        refine Finset.exists_lt_of_sum_lt ?_
        simpa [sum_eq] using Nat.lt_of_succ_le room
      obtain ⟨next, toNext, staged⟩ := staged.exists_grown positive few segment
      refine ⟨_, next, toMiddle.trans toNext, staged, fun index => ?_, ?_⟩
      · by_cases same : index = segment
        · subst index
          simpa using Nat.succ_le_of_lt fewer
        · simpa [same] using few index
      · rw [sum_update_succ, sum_eq]

end Staged

/-- A new pool with all threads at rest is a calm scene. -/
theorem staged_start
    (ceiling : Nat)
    (policy : OverflowPolicy)
    (factory : Nat → α)
    (threads : Nat) :
    Staged (max ceiling 1) threads (.calm fun _ => 0)
      (SharedPool.start (.create 0 ceiling policy factory) threads) where
  gate_eq := rfl
  idle_eq index := by
    simp [SharedPool.start, BoundedPool.create, Segments.seed, Segments.seedFrom, Segments.stack,
      Segments.empty, Scene.calm]
  detached_eq := rfl
  users_length := List.length_replicate
  users_eq thread user found := by
    rw [SharedPool.eq_holding_of_start found]
    exact ⟨rfl, rfl⟩

namespace SharedPool

/-- While all threads rest and hold nothing, every item is idle or was taken out for good. -/
theorem created_eq_of_calm
    {bound size : Nat}
    {idle : Fin segmentCount → Nat}
    {shared : SharedPool α}
    (conserved : Conserved (fun _ => true) shared.pool shared.users shared.detached)
    (staged : Staged bound size (.calm idle) shared) :
    shared.pool.created = ∑ index, idle index := by
  have none : PoolUser.total (fun _ user => user.items.length) shared.users = 0 := by
    refine Nat.eq_zero_of_not_pos fun positive => ?_
    obtain ⟨thread, user, found, holds⟩ := PoolUser.exists_of_total_pos positive
    obtain ⟨resting, held⟩ := staged.users_eq thread user found
    simp [PoolUser.items, resting, Phase.ofWay, Phase.items, Scene.calm] at holds held
    simp [held] at holds
  have lengths := shared.pool.idle.countP_items fun _ => true
  simp only [List.countP_true, staged.idle_eq] at lengths
  rw [created_eq_of_conserved conserved, none, staged.detached_eq, lengths]
  simp [Scene.calm]

/-- Some schedule makes a pool own as many items as it can at all. -/
theorem exists_run_owning_most
    [Reusable α]
    (ceiling : Nat)
    (policy : OverflowPolicy)
    (factory : Nat → α) :
    ∃ threads schedule shared,
      (start (.create 0 ceiling policy factory) threads).run? schedule = some shared ∧
        shared.detached = [] ∧ shared.pool.created = segmentCount * (ceiling - 1) + 1 := by
  let most := max ceiling 1
  have positive : 0 < most := Nat.lt_of_lt_of_le Nat.one_pos (Nat.le_max_right ceiling 1)
  have staged := staged_start ceiling policy factory (segmentCount * most)
  obtain ⟨idle, middle, toMiddle, staged, few, sum_eq⟩ :=
    staged.exists_filled positive (Nat.le_refl _)
  obtain ⟨shared, toShared, staged⟩ := staged.exists_grown positive few 0
  have reached := toMiddle.trans toShared
  obtain ⟨schedule, ran⟩ := reached.exists_run?
  refine ⟨_, schedule, shared, ran, staged.detached_eq, ?_⟩
  have conserved : Conserved (fun _ => true) shared.pool shared.users shared.detached :=
    reached.conserved (conserved_start 0 ceiling policy factory _) fun _ => rfl
  rw [created_eq_of_calm conserved staged, Staged.sum_update_succ, sum_eq, ← Nat.sub_eq_max_sub]

end SharedPool

end DocumentCodec
