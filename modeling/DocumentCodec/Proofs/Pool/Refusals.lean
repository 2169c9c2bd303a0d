import DocumentCodec.Proofs.Pool.Reservations

namespace DocumentCodec

/-!
# Refused acquires

A thread that begins to acquire an item either claims a slot, and then takes an
item for it, or is refused, and then has neither.
-/

namespace Phase

/-- The thread wants an item and has no slot for it. -/
def seeks : Phase α → Bool
  | reading _ | claiming _ _ | enlisting | timing | parked => true
  | delisting sequel | waking sequel | unparking _ sequel => sequel = .refuse
  | _ => false

/-- The thread has claimed a slot and goes on to take an item. -/
def granted : Phase α → Bool
  | searching _ => true
  | delisting sequel | waking sequel | unparking _ sequel => sequel = .take
  | _ => false

variable {phase : Phase α} {inUse : Nat} {attempt : Attempt} {move : Move}

/-- A thread that seeks a slot has not reserved one. -/
theorem slots_of_seeks (seeks : phase.seeks = true) : phase.slots = 0 := by
  cases phase <;> simp_all [Phase.seeks, Phase.slots, Sequel.slots]

/-- A thread that looks at the counter has not been granted a slot. -/
theorem Looks.granted_eq (looks : phase.Looks inUse attempt move) : phase.granted = false := by
  cases looks <;> rfl

/-- A thread that looks at the counter is not at rest. -/
theorem Looks.ne_resting (looks : phase.Looks inUse attempt move) : phase ≠ .resting := by
  cases looks <;> simp

end Phase

/--
What has become of a thread since it began to acquire an item, and whether it
has claimed a slot since.
-/
inductive Acquiring (before : PoolUser α) : Bool → PoolUser α → Prop
  | seeking {now}
      (seeks : now.phase.seeks = true)
      (held_eq : now.held = before.held)
      (refused_eq : now.refused = before.refused) :
      Acquiring before false now
  | refused {now}
      (resting : now.phase = .resting)
      (held_eq : now.held = before.held)
      (refused_eq : now.refused = before.refused + 1) :
      Acquiring before false now
  | granted {now}
      (granted : now.phase.granted = true)
      (refused_eq : now.refused = before.refused) :
      Acquiring before true now
  | served {now}
      (resting : now.phase = .resting)
      (refused_eq : now.refused = before.refused) :
      Acquiring before true now

namespace Acquiring

variable {before now : PoolUser α} {slot : Bool}

/-- A refusal ends the attempt without a slot. -/
theorem refuse
    (held_eq : now.held = before.held)
    (refused_eq : now.refused = before.refused) :
    Acquiring before false now.refuse :=
  .refused rfl held_eq (congrArg (· + 1) refused_eq)

/-- A thread that is turned away waits on or is refused. -/
theorem turnAway
    (held_eq : now.held = before.held)
    (refused_eq : now.refused = before.refused)
    (policy : OverflowPolicy)
    (attempt : Attempt) :
    Acquiring before false (now.turnAway policy attempt) := by
  unfold PoolUser.turnAway
  split
  · exact refuse held_eq refused_eq
  · split
    · exact refuse held_eq refused_eq
    · exact .seeking rfl held_eq refused_eq
    · exact .seeking rfl held_eq refused_eq
  · exact .seeking rfl held_eq refused_eq
  · exact .seeking rfl held_eq refused_eq
  · exact .seeking rfl held_eq refused_eq

/-- A thread that is accepted has its slot. -/
theorem accept
    (refused_eq : now.refused = before.refused)
    (thread : ThreadId)
    (attempt : Attempt) :
    Acquiring before true (now.accept thread attempt) := by
  cases attempt <;> exact .granted rfl refused_eq

/-- A token changes nothing about what has become of a thread. -/
theorem giveToken
    {users : List (PoolUser α)}
    {thread : ThreadId}
    (acquiring : Acquiring before slot now)
    (found : users[thread]? = some now)
    (target : ThreadId) :
    ∃ after, (PoolUser.giveToken users target)[thread]? = some after ∧
      Acquiring before slot after := by
  refine ⟨if target = thread then { now with token := true } else now, ?_, ?_⟩
  · rw [PoolUser.getElem?_giveToken, found]
    rfl
  · split
    · cases acquiring with
      | seeking seeks held_eq refused_eq => exact .seeking seeks held_eq refused_eq
      | refused resting held_eq refused_eq => exact .refused resting held_eq refused_eq
      | granted granted refused_eq => exact .granted granted refused_eq
      | served resting refused_eq => exact .served resting refused_eq
    · exact acquiring

/-- A thread that was refused, or is to be, has no slot but those that it had. -/
theorem slots_eq
    (acquiring : Acquiring before false now)
    (resting : before.phase = .resting) :
    now.held = before.held ∧ now.slots = before.slots := by
  cases acquiring with
  | seeking seeks held_eq refused_eq =>
      refine ⟨held_eq, ?_⟩
      rw [PoolUser.slots, PoolUser.slots, held_eq, Phase.slots_of_seeks seeks, resting]
      rfl
  | refused rests held_eq refused_eq =>
      exact ⟨held_eq, by simp [PoolUser.slots, held_eq, rests, resting]⟩

/-- A thread that has claimed a slot is not refused. -/
theorem refused_eq (acquiring : Acquiring before true now) : now.refused = before.refused := by
  cases acquiring with
  | granted granted refused_eq => exact refused_eq
  | served resting refused_eq => exact refused_eq

end Acquiring

namespace SharedPool

variable [Reusable α] {shared next : SharedPool α} {thread : ThreadId} {user : PoolUser α}
  {move : Move} {before : PoolUser α} {slot : Bool}

/-- A thread at rest moves by beginning something. -/
theorem begins_of_step
    (step : Step shared thread user move next)
    (resting : user.phase = .resting) :
    move.begins = true := by
  cases step with
  | see looks | turnAway looks => exact (looks.ne_resting resting).elim
  | _ => simp_all [Move.begins]

/-- A thread that seeks a slot goes on seeking, is refused, or claims one. -/
theorem acquiring_of_seeks
    (seeks : user.phase.seeks = true)
    (held_eq : user.held = before.held)
    (refused_eq : user.refused = before.refused)
    (found : shared.users[thread]? = some user)
    (step : Step shared thread user move next) :
    ∃ now later, next.users[thread]? = some now ∧ Acquiring before later now := by
  have self := PoolUser.getElem?_set_self found
  cases step with
  | acquire resting | tryAcquire resting | release resting | detach resting =>
      simp [resting, Phase.seeks] at seeks
  | see looks => exact ⟨_, _, self _, .seeking rfl held_eq refused_eq⟩
  | turnAway looks => exact ⟨_, _, self _, .turnAway held_eq refused_eq _ _⟩
  | claim claiming => exact ⟨_, _, self _, .accept refused_eq _ _⟩
  | enlist | park | expire | wake | stir => exact ⟨_, _, self _, .seeking rfl held_eq refused_eq⟩
  | @withdraw sequel delisting =>
      obtain rfl : sequel = .refuse := by simpa [delisting, Phase.seeks] using seeks
      exact ⟨_, _, self _, .refuse held_eq refused_eq⟩
  | @handOver sequel delisting =>
      obtain rfl : sequel = .refuse := by simpa [delisting, Phase.seeks] using seeks
      exact ⟨_, _, self _, .seeking rfl held_eq refused_eq⟩
  | make searching | take searching | skip searching => simp [searching, Phase.seeks] at seeks
  | store storing => simp [storing, Phase.seeks] at seeks
  | free freeing => simp [freeing, Phase.seeks] at seeks
  | @call sequel _ _ waking =>
      obtain rfl : sequel = .refuse := by simpa [waking, Phase.seeks] using seeks
      exact ⟨_, _, self _, .seeking rfl held_eq refused_eq⟩
  | @callNobody sequel waking =>
      obtain rfl : sequel = .refuse := by simpa [waking, Phase.seeks] using seeks
      exact ⟨_, _, self _, .refuse held_eq refused_eq⟩
  | @unpark target sequel unparking =>
      obtain rfl : sequel = .refuse := by simpa [unparking, Phase.seeks] using seeks
      obtain ⟨now, foundNow, acquiring⟩ :=
        Acquiring.giveToken (.refuse held_eq refused_eq) (self _) target
      exact ⟨now, false, foundNow, acquiring⟩

/-- A thread that has claimed a slot goes on to take an item. -/
theorem acquiring_of_granted
    (granted : user.phase.granted = true)
    (refused_eq : user.refused = before.refused)
    (found : shared.users[thread]? = some user)
    (step : Step shared thread user move next) :
    ∃ now, next.users[thread]? = some now ∧ Acquiring before true now := by
  have self := PoolUser.getElem?_set_self found
  cases step with
  | acquire resting | tryAcquire resting | release resting | detach resting =>
      simp [resting, Phase.granted] at granted
  | see looks | turnAway looks => simp [looks.granted_eq] at granted
  | claim claiming => simp [claiming, Phase.granted] at granted
  | enlist enlisting => simp [enlisting, Phase.granted] at granted
  | park timing | expire timing => simp [timing, Phase.granted] at granted
  | wake parked | stir parked => simp [parked, Phase.granted] at granted
  | @withdraw sequel delisting =>
      obtain rfl : sequel = .take := by simpa [delisting, Phase.granted] using granted
      exact ⟨_, self _, .granted rfl refused_eq⟩
  | @handOver sequel delisting =>
      obtain rfl : sequel = .take := by simpa [delisting, Phase.granted] using granted
      exact ⟨_, self _, .granted rfl refused_eq⟩
  | make | take => exact ⟨_, self _, .served rfl refused_eq⟩
  | skip => exact ⟨_, self _, .granted rfl refused_eq⟩
  | store storing => simp [storing, Phase.granted] at granted
  | free freeing => simp [freeing, Phase.granted] at granted
  | @call sequel _ _ waking =>
      obtain rfl : sequel = .take := by simpa [waking, Phase.granted] using granted
      exact ⟨_, self _, .granted rfl refused_eq⟩
  | @callNobody sequel waking =>
      obtain rfl : sequel = .take := by simpa [waking, Phase.granted] using granted
      exact ⟨_, self _, .granted rfl refused_eq⟩
  | @unpark target sequel unparking =>
      obtain rfl : sequel = .take := by simpa [unparking, Phase.granted] using granted
      have taking : Acquiring before true (user.follow thread .take) := .granted rfl refused_eq
      exact taking.giveToken (self _) target

/-- A step of another thread leaves a thread as it is, but for its token. -/
theorem acquiring_step_other
    {other : ThreadId}
    {now : PoolUser α}
    (acquiring : Acquiring before slot now)
    (foundNow : shared.users[other]? = some now)
    (found : shared.users[thread]? = some user)
    (step : Step shared thread user move next)
    (different : other ≠ thread) :
    ∃ after, next.users[other]? = some after ∧ Acquiring before slot after := by
  have kept (changed : PoolUser α) : (shared.users.set thread changed)[other]? = some now := by
    simp [PoolUser.getElem?_set found, different, foundNow]
  cases step with
  | unpark => exact acquiring.giveToken (kept _) _
  | _ => exact ⟨now, kept _, acquiring⟩

/-- A step with which a thread does not begin a new call. -/
theorem acquiring_step
    {other : ThreadId}
    {now : PoolUser α}
    (acquiring : Acquiring before slot now)
    (foundNow : shared.users[other]? = some now)
    (found : shared.users[thread]? = some user)
    (step : Step shared thread user move next)
    (goesOn : thread = other → move.begins = false) :
    ∃ after later, next.users[other]? = some after ∧ (slot = true → later = true) ∧
      Acquiring before later after := by
  by_cases same : thread = other
  · subst other
    rw [found] at foundNow
    cases foundNow
    have begins (resting : user.phase = .resting) : False := by
      have started := begins_of_step step resting
      rw [goesOn rfl] at started
      cases started
    cases acquiring with
    | seeking seeks held_eq refused_eq =>
        obtain ⟨after, later, foundAfter, acquiring⟩ :=
          acquiring_of_seeks seeks held_eq refused_eq found step
        exact ⟨after, later, foundAfter, by simp, acquiring⟩
    | granted granted refused_eq =>
        obtain ⟨after, foundAfter, acquiring⟩ :=
          acquiring_of_granted granted refused_eq found step
        exact ⟨after, true, foundAfter, id, acquiring⟩
    | refused resting | served resting => exact (begins resting).elim
  · obtain ⟨after, foundAfter, acquiring⟩ :=
      acquiring_step_other acquiring foundNow found step (Ne.symm same)
    exact ⟨after, slot, foundAfter, id, acquiring⟩

/-- Whatever the threads do until the thread begins another call. -/
theorem acquiring_run
    {last : SharedPool α}
    {schedule : List (ThreadId × Move)}
    {now : PoolUser α}
    (acquiring : Acquiring before slot now)
    (found : shared.users[thread]? = some now)
    (ran : shared.run? schedule = some last)
    (goesOn : ∀ choice ∈ schedule, choice.1 = thread → choice.2.begins = false) :
    ∃ after later, last.users[thread]? = some after ∧ (slot = true → later = true) ∧
      Acquiring before later after := by
  induction schedule generalizing shared slot now with
  | nil =>
      cases ran
      exact ⟨now, slot, found, id, acquiring⟩
  | cons choice rest inductionHypothesis =>
      rcases choice with ⟨mover, move⟩
      obtain ⟨next, moved, ranRest⟩ := Option.bind_eq_some_iff.mp ran
      obtain ⟨user, foundUser, step⟩ := step_of_step? moved
      obtain ⟨middle, kept, foundMiddle, keeps, acquiring⟩ :=
        acquiring_step acquiring found foundUser step (goesOn _ List.mem_cons_self)
      obtain ⟨after, later, foundAfter, keepsLater, acquiring⟩ :=
        inductionHypothesis acquiring foundMiddle ranRest fun choice member =>
          goesOn choice (List.mem_cons_of_mem _ member)
      exact ⟨after, later, foundAfter, keepsLater ∘ keeps, acquiring⟩

/--
A thread begins to acquire an item, and at the end of a schedule, in which it
begins nothing else, it has been refused.  Then it never had a slot for it.
-/
theorem slots_of_refused
    {middle last : SharedPool α}
    {first second : List (ThreadId × Move)}
    {between after : PoolUser α}
    (resting : user.phase = .resting)
    (found : shared.users[thread]? = some user)
    (begins : move = .acquire ∨ move = .tryAcquire)
    (ranFirst : shared.run? ((thread, move) :: first) = some middle)
    (ranSecond : middle.run? second = some last)
    (goesOn : ∀ choice ∈ first ++ second, choice.1 = thread → choice.2.begins = false)
    (foundBetween : middle.users[thread]? = some between)
    (foundAfter : last.users[thread]? = some after)
    (refused : after.refused ≠ user.refused) :
    between.held = user.held ∧ between.slots = user.slots := by
  obtain ⟨begun, moved, ranRest⟩ := Option.bind_eq_some_iff.mp ranFirst
  obtain ⟨now, foundNow, acquiring⟩ : ∃ now, begun.users[thread]? = some now ∧
      Acquiring user false now := by
    have self := PoolUser.getElem?_set_self found
    rcases begins with rfl | rfl <;>
    · simp only [step?, found, resting, Option.bind_eq_bind, Option.bind_some,
        Option.some.injEq] at moved
      subst begun
      exact ⟨_, self _, .seeking rfl rfl rfl⟩
  obtain ⟨_, slot, foundSame, -, acquiringBetween⟩ :=
    acquiring_run acquiring foundNow ranRest fun choice member =>
      goesOn choice (List.mem_append_left _ member)
  rw [foundBetween] at foundSame
  cases foundSame
  obtain ⟨_, later, foundSame, keeps, acquiringAfter⟩ :=
    acquiring_run acquiringBetween foundBetween ranSecond fun choice member =>
      goesOn choice (List.mem_append_right _ member)
  rw [foundAfter] at foundSame
  cases foundSame
  cases slot with
  | false => exact acquiringBetween.slots_eq resting
  | true =>
      obtain rfl := keeps rfl
      exact (refused acquiringAfter.refused_eq).elim

end SharedPool

end DocumentCodec
