import DocumentCodec.Proofs.Pool.Handing
import DocumentCodec.Proofs.Pool.Saturation

namespace DocumentCodec

/-!
# Pools that own any number of items

When items change hands, a pool with two slots can come to own any number of
them.  All items lie on one segment, and a thread that looks for an item has
passed another one.  Then two threads take the items one by one from the segment
in front of it to the one behind it: the one at home there takes an item and
hands it to the other, which puts it on its own home segment.  The thread finds
all other segments empty and makes an item.
-/

namespace Scene

/-- The scene in which a thread has handed an item to another thread. -/
def handOver (scene : Scene) (giver taker : ThreadId) : Scene :=
  { scene with
    hands :=
      Function.update (Function.update scene.hands giver (scene.hands giver - 1)) taker
        (scene.hands taker + 1) }

/-- The scene in which an item has come from one segment to another. -/
def carry (scene : Scene) (source target : Fin segmentCount) : Scene :=
  { scene with
    idle :=
      Function.update (Function.update scene.idle source (scene.idle source - 1)) target
        (scene.idle target + 1) }

/-- The thread that makes the items. -/
def maker : ThreadId := 15

/-- All items lie on the home segments of two threads, and a third may look for another item. -/
def paired (first second : Nat) (way? : Option (List (Fin segmentCount))) : Scene where
  inUse := if way?.isSome then 1 else 0
  idle index :=
    if index = homeSegment 0 then first else if index = homeSegment 1 then second else 0
  hands _ := 0
  way? := Function.update (fun _ => none) maker way?

variable {scene : Scene} {giver taker : ThreadId} {source target : Fin segmentCount}
  {first second : Nat} {way? : Option (List (Fin segmentCount))}

/-- One thread takes an item from its home segment, and another one puts it on its own. -/
theorem carry_eq
    (different : giver ≠ taker)
    (apart : source ≠ homeSegment taker)
    (rests : scene.way? giver = none) :
    (((scene.enter giver).take giver source).handOver giver taker).giveBack taker =
      scene.carry source (homeSegment taker) := by
  refine Scene.ext rfl ?_ ?_ ?_
  · simp [giveBack, handOver, take, enter, carry, apart.symm]
  · simp [giveBack, handOver, take, enter, carry, different.symm]
  · simp [giveBack, handOver, take, enter, carry, ← rests]

/-- The home segments of the two threads are not the same. -/
theorem homeSegment_ne : homeSegment 1 ≠ homeSegment 0 := by
  decide

/-- An item that is put away on the first thread's segment joins those there. -/
theorem paired_carry_back :
    (paired first (second + 1) way?).carry (homeSegment 1) (homeSegment 0) =
      paired (first + 1) second way? := by
  refine Scene.ext rfl (funext fun index => ?_) rfl rfl
  by_cases home : index = homeSegment 0
  · simp [carry, paired, home]
  · by_cases next : index = homeSegment 1 <;>
      simp [carry, paired, home, next, homeSegment_ne]

/-- An item that is put away on the second thread's segment joins those there. -/
theorem paired_carry_on :
    (paired (first + 1) second way?).carry (homeSegment 0) (homeSegment 1) =
      paired first (second + 1) way? := by
  refine Scene.ext rfl (funext fun index => ?_) rfl rfl
  by_cases home : index = homeSegment 0
  · simp [carry, paired, home, homeSegment_ne.symm]
  · by_cases next : index = homeSegment 1 <;>
      simp [carry, paired, home, next, homeSegment_ne]

/-- The third thread looks on and leaves the items where they are. -/
theorem paired_pass
    {segment : Fin segmentCount}
    {rest : List (Fin segmentCount)} :
    (paired first second (some (segment :: rest))).pass maker rest =
      paired first second (some rest) := by
  simp [paired, pass]

/-- The third thread begins to look for an item. -/
theorem paired_enter :
    (paired first second none).enter maker =
      paired first second (some (Segments.searchOrder (homeSegment maker))) := by
  simp [paired, enter]

/-- The item that was made comes to the first segment. -/
theorem paired_make :
    (((paired first second (some [])).make maker).handOver maker 0).giveBack 0 =
      paired (first + 1) second none := by
  refine Scene.ext rfl (funext fun index => ?_) ?_ ?_
  · by_cases home : index = homeSegment 0 <;> simp [giveBack, handOver, make, paired, home]
  · simp [giveBack, handOver, make, paired, maker]
  · simp [giveBack, handOver, make, paired]

/-- No other thread looks for an item. -/
theorem way?_paired
    {thread : ThreadId}
    (different : thread ≠ maker) :
    (paired first second way?).way? thread = none := by
  simp [paired, different]

end Scene

namespace Staged

variable [Reusable α] {ceiling size : Nat} {scene : Scene} {shared : SharedPool α}
  {giver taker : ThreadId}

/-- A thread with an item can hand it to any other. -/
theorem exists_handOver
    (staged : Staged ceiling size scene shared)
    (insideGiver : giver < size)
    (insideTaker : taker < size)
    (different : giver ≠ taker)
    (holds : 0 < scene.hands giver) :
    ∃ next, shared.LeadsTo next ∧ Staged ceiling size (scene.handOver giver taker) next := by
  obtain ⟨user, found, phase, held⟩ := staged.exists_user insideGiver
  obtain ⟨other, foundOther, otherPhase, otherHeld⟩ := staged.exists_user insideTaker
  obtain ⟨item, rest, stock⟩ := List.exists_cons_of_length_pos (held ▸ holds)
  have first : user.held[0]? = some item := by rw [stock]; rfl
  refine ⟨_, SharedPool.leadsTo_handOver different found foundOther first, ?_⟩
  let given : Scene :=
    { scene with hands := Function.update scene.hands giver (scene.hands giver - 1) }
  have gave : Staged ceiling size given (shared.put giver (user.give 0)) := by
    refine staged.put found staged.gate_eq staged.idle_eq staged.detached_eq rfl ⟨phase, ?_⟩ ?_
    · simp [given, PoolUser.give, ← held, stock]
    · intro thread apart
      simp [given, apart]
  refine gave.put (PoolUser.getElem?_set_other found foundOther different _) gave.gate_eq
    gave.idle_eq gave.detached_eq rfl ⟨otherPhase, ?_⟩ ?_
  · simp [Scene.handOver, PoolUser.get, otherHeld]
  · intro thread apart
    simp [Scene.handOver, given, apart]

/-- An item comes from the home segment of one thread to that of another. -/
theorem exists_carry
    (staged : Staged ceiling size scene shared)
    (insideGiver : giver < size)
    (insideTaker : taker < size)
    (apart : homeSegment giver ≠ homeSegment taker)
    (rests : scene.way? giver = none)
    (restsTaker : scene.way? taker = none)
    (free : scene.inUse < ceiling)
    (stocked : 0 < scene.idle (homeSegment giver)) :
    ∃ next, shared.LeadsTo next ∧
      Staged ceiling size (scene.carry (homeSegment giver) (homeSegment taker)) next := by
  have different : giver ≠ taker := fun same => apart (congrArg homeSegment same)
  obtain ⟨order, begins⟩ := Segments.searchOrder_eq_cons (homeSegment giver)
  obtain ⟨entered, toEntered, staged⟩ := staged.exists_enter insideGiver rests free
  obtain ⟨taken, toTaken, staged⟩ := staged.exists_take insideGiver
    (by simp only [Scene.enter, Function.update_self]; rw [begins]) stocked
  obtain ⟨handed, toHanded, staged⟩ :=
    staged.exists_handOver insideGiver insideTaker different (by simp [Scene.take])
  obtain ⟨next, toNext, staged⟩ := staged.exists_giveBack insideTaker
    (by simp [Scene.handOver, Scene.take, Scene.enter, different.symm, restsTaker])
    (by simp [Scene.handOver])
  rw [Scene.carry_eq different apart rests] at staged
  exact ⟨next, ((toEntered.trans toTaken).leadsTo.trans toHanded).trans toNext.leadsTo, staged⟩

variable {first second : Nat} {way? : Option (List (Fin segmentCount))}

/-- All items come to the first segment, whether a thread looks for one or not. -/
theorem exists_gathered
    (room : 1 < ceiling)
    (staged : Staged ceiling segmentCount (.paired first second way?) shared) :
    ∃ next, shared.LeadsTo next ∧
      Staged ceiling segmentCount (.paired (first + second) 0 way?) next := by
  induction second generalizing first shared with
  | zero => exact ⟨shared, .refl shared, staged⟩
  | succ second inductionHypothesis =>
      have free : (Scene.paired first (second + 1) way?).inUse < ceiling := by
        simp only [Scene.paired]
        split <;> omega
      obtain ⟨carried, toCarried, staged⟩ :=
        @exists_carry _ _ _ _ _ _ 1 0 staged (by decide) (by decide) (by decide)
          (Scene.way?_paired (by decide)) (Scene.way?_paired (by decide)) free
          (by simp [Scene.paired, Scene.homeSegment_ne])
      rw [Scene.paired_carry_back] at staged
      obtain ⟨next, toNext, staged⟩ := inductionHypothesis staged
      rw [Nat.succ_add_eq_add_succ] at staged
      exact ⟨next, toCarried.trans toNext, staged⟩

/-- All items come to the second segment while no thread looks for one. -/
theorem exists_spread
    (room : 1 < ceiling)
    (staged : Staged ceiling segmentCount (.paired first second none) shared) :
    ∃ next, shared.LeadsTo next ∧
      Staged ceiling segmentCount (.paired 0 (first + second) none) next := by
  induction first generalizing second shared with
  | zero =>
      rw [Nat.zero_add]
      exact ⟨shared, .refl shared, staged⟩
  | succ first inductionHypothesis =>
      obtain ⟨carried, toCarried, staged⟩ :=
        @exists_carry _ _ _ _ _ _ 0 1 staged (by decide) (by decide) (by decide)
          (Scene.way?_paired (by decide)) (Scene.way?_paired (by decide))
          (Nat.zero_lt_of_lt room) (by simp [Scene.paired])
      rw [Scene.paired_carry_on] at staged
      obtain ⟨next, toNext, staged⟩ := inductionHypothesis staged
      rw [← Nat.succ_add_eq_add_succ] at staged
      exact ⟨next, toCarried.trans toNext, staged⟩

/-- A thread passes segments on which no item lies. -/
theorem exists_passed
    {segments rest : List (Fin segmentCount)}
    (bare : ∀ segment ∈ segments, (Scene.paired first second none).idle segment = 0)
    (staged : Staged ceiling segmentCount (.paired first second (some (segments ++ rest))) shared) :
    ∃ next, shared.LeadsTo next ∧
      Staged ceiling segmentCount (.paired first second (some rest)) next := by
  induction segments generalizing shared with
  | nil => exact ⟨shared, .refl shared, staged⟩
  | cons segment others inductionHypothesis =>
      obtain ⟨empty, bareOthers⟩ := List.forall_mem_cons.mp bare
      have inside : Scene.maker < segmentCount := by decide
      have searches : (Scene.paired first second (some (segment :: (others ++ rest)))).way?
          Scene.maker = some (segment :: (others ++ rest)) := by
        simp [Scene.paired]
      obtain ⟨passed, toPassed, staged⟩ := staged.exists_pass inside searches empty
      rw [List.cons_append, Scene.paired_pass] at staged
      obtain ⟨next, toNext, staged⟩ := inductionHypothesis bareOthers staged
      exact ⟨next, toPassed.leadsTo.trans toNext, staged⟩

/-- The pool comes to own one more item, however many it owns. -/
theorem exists_increased
    {count : Nat}
    (room : 1 < ceiling)
    (staged : Staged ceiling segmentCount (.paired 0 count none) shared) :
    ∃ next, shared.LeadsTo next ∧
      Staged ceiling segmentCount (.paired 0 (count + 1) none) next := by
  have inside : Scene.maker < segmentCount := by decide
  have insideTaker : 0 < segmentCount := by decide
  have apart : Scene.maker ≠ 0 := by decide
  have free : (Scene.paired 0 count none).inUse < ceiling := Nat.zero_lt_of_lt room
  obtain ⟨entered, toEntered, staged⟩ := staged.exists_enter inside rfl free
  rw [Scene.paired_enter] at staged
  -- the maker passes its own segment and the first one, then all items come there
  let front := [homeSegment Scene.maker, homeSegment 0]
  let back := (Segments.searchOrder (homeSegment Scene.maker)).drop 2
  have way : Segments.searchOrder (homeSegment Scene.maker) = front ++ (back ++ []) := by decide
  have inFront : ∀ segment ∈ front, segment ≠ homeSegment 1 := by decide
  have behind : ∀ segment ∈ back, segment ≠ homeSegment 0 := by decide
  rw [way] at staged
  obtain ⟨started, toStarted, staged⟩ := staged.exists_passed fun segment member => by
    simp [Scene.paired, inFront segment member]
  obtain ⟨gathered, toGathered, staged⟩ := staged.exists_gathered room
  obtain ⟨passed, toPassed, staged⟩ := staged.exists_passed fun segment member => by
    simp [Scene.paired, behind segment member]
  obtain ⟨made, toMade, staged⟩ := staged.exists_make inside (by simp [Scene.paired])
  obtain ⟨handed, toHanded, staged⟩ :=
    staged.exists_handOver inside insideTaker apart (by simp [Scene.make])
  obtain ⟨left, toLeft, staged⟩ := staged.exists_giveBack insideTaker
    (by simp [Scene.handOver, Scene.make, Scene.paired, Scene.maker]) (by simp [Scene.handOver])
  rw [Scene.paired_make] at staged
  obtain ⟨next, toNext, staged⟩ := staged.exists_spread room
  rw [Nat.zero_add, Nat.add_zero] at staged
  refine ⟨next, ?_, staged⟩
  exact toEntered.leadsTo.trans <| toStarted.trans <| toGathered.trans <| toPassed.trans <|
    toMade.leadsTo.trans <| toHanded.trans <| toLeft.leadsTo.trans toNext

/-- The pool comes to own any number of items. -/
theorem exists_hoard
    (room : 1 < ceiling)
    (staged : Staged ceiling segmentCount (.paired 0 0 none) shared)
    (count : Nat) :
    ∃ next, shared.LeadsTo next ∧
      Staged ceiling segmentCount (.paired 0 count none) next := by
  induction count with
  | zero => exact ⟨shared, .refl shared, staged⟩
  | succ count inductionHypothesis =>
      obtain ⟨middle, toMiddle, staged⟩ := inductionHypothesis
      obtain ⟨next, toNext, staged⟩ := staged.exists_increased room
      exact ⟨next, toMiddle.trans toNext, staged⟩

end Staged

namespace SharedPool

variable [Reusable α]

/-- Items that change hands make a pool of more than one own any number of items. -/
theorem exists_happenAll_owning
    {ceiling : Nat}
    (room : 1 < ceiling)
    (policy : OverflowPolicy)
    (factory : Nat → α)
    (count : Nat) :
    ∃ threads events shared,
      (start (.create 0 ceiling policy factory) threads).happenAll? events = some shared ∧
        shared.detached = [] ∧ shared.pool.created = count := by
  have begins := staged_start ceiling policy factory segmentCount
  have calm : Scene.calm (fun _ => 0) = .paired 0 0 none := by simp [Scene.calm, Scene.paired]
  have most : max ceiling 1 = ceiling := Nat.max_eq_left (Nat.le_of_lt room)
  rw [calm, most] at begins
  obtain ⟨shared, ⟨events, happened⟩, staged⟩ := begins.exists_hoard room count
  have conserved : Conserved (fun _ => true) shared.pool shared.users shared.detached :=
    LeadsTo.conserved ⟨events, happened⟩ (conserved_start 0 ceiling policy factory segmentCount)
      fun _ => rfl
  have rests : Scene.paired 0 count none = .calm (Scene.paired 0 count none).idle := by
    simp [Scene.calm, Scene.paired]
  rw [rests] at staged
  refine ⟨_, events, shared, happened, staged.detached_eq, ?_⟩
  rw [created_eq_of_calm conserved staged]
  have only : ∀ index, (Scene.paired 0 count none).idle index =
      if index = homeSegment 1 then count else 0 := fun index => by
    by_cases home : index = homeSegment 0 <;> simp [Scene.paired, home, Scene.homeSegment_ne.symm]
  simp [only]

/--
How many items a new pool makes that are not taken out for good.  While threads
give back only what they have acquired themselves, it is at most sixteen times
the ceiling less one, and one more; for every ceiling some schedule makes the
pool own that many.  When items change hands this still holds of a pool with a
ceiling of one, and a pool with a larger ceiling comes to own any number.
-/
theorem run_owns_at_most
    (ceiling : Nat)
    (policy : OverflowPolicy)
    (factory : Nat → α) :
    (∀ initial threads schedule shared,
      (start (.create initial ceiling policy factory) threads).run? schedule = some shared →
        shared.pool.created ≤ shared.detached.length + (segmentCount * (ceiling - 1) + 1)) ∧
    (∃ threads schedule shared,
      (start (.create 0 ceiling policy factory) threads).run? schedule = some shared ∧
        shared.detached = [] ∧ shared.pool.created = segmentCount * (ceiling - 1) + 1) ∧
    (ceiling ≤ 1 → ∀ initial threads events shared,
      (start (.create initial ceiling policy factory) threads).happenAll? events = some shared →
        shared.pool.created ≤ shared.detached.length + 1) ∧
    (1 < ceiling → ∀ count, ∃ threads events shared,
      (start (.create 0 ceiling policy factory) threads).happenAll? events = some shared ∧
        shared.detached = [] ∧ shared.pool.created = count) := by
  refine ⟨?_, exists_run_owning_most ceiling policy factory, ?_, ?_⟩
  · exact fun _ _ _ _ ran => (reaches_of_run? ran).created_le
  · exact fun single _ _ events _ happened =>
      LeadsTo.created_le_of_single single ⟨events, happened⟩
  · exact fun room => exists_happenAll_owning room policy factory

/--
A schedule of two threads for a pool of one item: the first takes the item and
hands it to the second, which gives it back, and takes it again.
-/
def handingSchedule : List PoolEvent :=
  takingSchedule.map (fun choice => .move choice.1 choice.2) ++
    .handOver 0 0 1 :: .move 1 (.release 0) :: List.replicate 3 (.move 1 .proceed) ++
      .move 0 .acquire :: List.replicate 4 (.move 0 .proceed)

/--
A pool of two that owns three items, and one that owns forty because they change
hands; a pool of one whose item was handed over, given back and taken again.
-/
theorem run_owns_three :
    let _ : Reusable Nat := ⟨id⟩
    (∃ shared : SharedPool Nat,
      (start (.create 2 2 .failFast id) 4).run? surplusSchedule = some shared ∧
        shared.pool.created = 3 ∧
          shared.pool.created ≤ shared.detached.length + (segmentCount * (2 - 1) + 1)) ∧
    (∃ (threads : Nat) (events : List PoolEvent) (shared : SharedPool Nat),
      (start (.create 0 2 .failFast id) threads).happenAll? events = some shared ∧
        shared.detached = [] ∧ shared.pool.created = 40) ∧
    ∃ shared : SharedPool Nat,
      (start (.create 0 1 .failFast id) 2).happenAll? handingSchedule = some shared ∧
        shared.pool.created = 1 ∧ shared.pool.created ≤ shared.detached.length + 1 := by
  intro reusable
  obtain ⟨shared, ran, created⟩ : ∃ shared : SharedPool Nat,
      (start (.create 2 2 .failFast id) 4).run? surplusSchedule = some shared ∧
        shared.pool.created = 3 := ⟨_, rfl, rfl⟩
  obtain ⟨handed, happened, makes⟩ : ∃ shared : SharedPool Nat,
      (start (.create 0 1 .failFast id) 2).happenAll? handingSchedule = some shared ∧
        shared.pool.created = 1 := ⟨_, rfl, rfl⟩
  refine ⟨⟨shared, ran, created, (run_owns_at_most 2 .failFast id).1 _ _ _ _ ran⟩, ?_, ?_⟩
  · exact (run_owns_at_most 2 .failFast id).2.2.2 (by decide) 40
  · exact ⟨handed, happened, makes,
      (run_owns_at_most 1 .failFast id).2.2.1 (Nat.le_refl 1) _ _ _ _ happened⟩

end SharedPool

end DocumentCodec
