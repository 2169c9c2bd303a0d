import DocumentCodec.Pool.Interleaving

namespace DocumentCodec

/-!
# Steps of threads that share a pool

`SharedPool.Step` says once what a move of a thread can do: there is a
constructor for each thing that happens at once, with what must hold before it
and the state behind it.  `SharedPool.Reaches` are the states that steps lead
to, and every schedule is such a way.
-/

/-- The moves with which a thread begins to use the pool. -/
def Move.begins : Move → Bool
  | acquire | tryAcquire | release _ | detach _ => true
  | proceed | miss | expire | stir => false

namespace Phase

/-- The move shows the counter to a thread in the phase, for an attempt. -/
inductive Looks (inUse : Nat) (attempt : Attempt) : Phase α → Move → Prop
  | reads : Looks inUse attempt (.reading attempt) .proceed
  | compares {seen} (stale : inUse ≠ seen) : Looks inUse attempt (.claiming attempt seen) .proceed
  | misses (seen : Nat) : Looks inUse attempt (.claiming attempt seen) .miss

end Phase

namespace PoolUser

section

variable {users : List (PoolUser α)} {thread : ThreadId} {user : PoolUser α}
  {property : ThreadId → PoolUser α → Prop}

/-- The threads after one of them has changed. -/
theorem getElem?_set
    (found : users[thread]? = some user)
    (changed : PoolUser α)
    (other : ThreadId) :
    (users.set thread changed)[other]? =
      if other = thread then some changed else users[other]? := by
  have inside : thread < users.length := (List.getElem?_eq_some_iff.mp found).1
  by_cases same : other = thread
  · subst other
    simp [inside]
  · simp [same, Ne.symm same]

/-- A thread that is changed is what it was changed to. -/
theorem getElem?_set_self
    (found : users[thread]? = some user)
    (changed : PoolUser α) :
    (users.set thread changed)[thread]? = some changed := by
  simp [getElem?_set found]

/-- What holds of the thread that has changed and of the others holds of all. -/
theorem forall_set
    {changed : PoolUser α}
    (found : users[thread]? = some user)
    (self : property thread changed)
    (others : ∀ (other : ThreadId) (waiting : PoolUser α), other ≠ thread →
      users[other]? = some waiting → property other waiting) :
    ∀ (other : ThreadId) (waiting : PoolUser α),
      (users.set thread changed)[other]? = some waiting → property other waiting := by
  intro other waiting foundWaiting
  rw [getElem?_set found] at foundWaiting
  by_cases same : other = thread
  · subst other
    rw [if_pos rfl] at foundWaiting
    cases foundWaiting
    exact self
  · rw [if_neg same] at foundWaiting
    exact others other waiting same foundWaiting

/-- The threads after one of them has got a token. -/
def giveToken (users : List (PoolUser α)) (target : ThreadId) : List (PoolUser α) :=
  users.modify target fun user => { user with token := true }

/-- A token goes to one thread, and the others are as before. -/
theorem getElem?_giveToken (users : List (PoolUser α)) (target other : ThreadId) :
    (giveToken users target)[other]? =
      users[other]?.map fun user =>
        if target = other then { user with token := true } else user :=
  List.getElem?_modify _ _ _ _

/-- What holds of all threads, whatever their tokens, holds after one has got a token. -/
theorem forall_giveToken
    (all : ∀ (other : ThreadId) (waiting : PoolUser α), users[other]? = some waiting →
      property other waiting)
    (tokens : ∀ (other : ThreadId) (waiting : PoolUser α), property other waiting →
      property other { waiting with token := true })
    (target : ThreadId) :
    ∀ (other : ThreadId) (waiting : PoolUser α),
      (giveToken users target)[other]? = some waiting → property other waiting := by
  intro other waiting foundWaiting
  rw [getElem?_giveToken] at foundWaiting
  obtain ⟨before, foundBefore, rfl⟩ := Option.map_eq_some_iff.mp foundWaiting
  have here := all other before foundBefore
  split
  · exact tokens other before here
  · exact here

end

variable (user : PoolUser α)

@[simp] theorem enter_phase (phase : Phase α) : (user.enter phase).phase = phase :=
  rfl

@[simp] theorem enter_held (phase : Phase α) : (user.enter phase).held = user.held :=
  rfl

@[simp] theorem enter_token (phase : Phase α) : (user.enter phase).token = user.token :=
  rfl

@[simp] theorem receive_phase (item : α) : (user.receive item).phase = .resting :=
  rfl

@[simp] theorem receive_held (item : α) : (user.receive item).held = item :: user.held :=
  rfl

end PoolUser

namespace SharedPool

section

variable (shared : SharedPool α) (thread : ThreadId) (user : PoolUser α) (gate : Gate)

@[simp] theorem put_pool : (shared.put thread user).pool = shared.pool :=
  rfl

@[simp] theorem put_users : (shared.put thread user).users = shared.users.set thread user :=
  rfl

@[simp] theorem put_detached : (shared.put thread user).detached = shared.detached :=
  rfl

@[simp] theorem withGate_pool : (shared.withGate gate).pool = { shared.pool with gate } :=
  rfl

@[simp] theorem withGate_users : (shared.withGate gate).users = shared.users :=
  rfl

@[simp] theorem unpark_pool : (shared.unpark thread).pool = shared.pool :=
  rfl

@[simp] theorem unpark_users :
    (shared.unpark thread).users = PoolUser.giveToken shared.users thread :=
  rfl

end

/-- At the start all threads rest and hold nothing. -/
theorem eq_holding_of_start
    {pool : BoundedPool α}
    {threads : Nat}
    {thread : ThreadId}
    {user : PoolUser α}
    (found : (start pool threads).users[thread]? = some user) :
    user = .holding [] := by
  simp only [start, List.getElem?_replicate, Option.ite_none_right_eq_some] at found
  exact (Option.some.inj found.2).symm

/-- What a move of a thread does. -/
inductive Step [Reusable α] (shared : SharedPool α) (thread : ThreadId)
    (user : PoolUser α) : Move → SharedPool α → Prop
  | acquire
      (resting : user.phase = .resting) :
      Step shared thread user .acquire
        (shared.put thread (user.enter (.reading .first)))
  | tryAcquire
      (resting : user.phase = .resting) :
      Step shared thread user .tryAcquire
        (shared.put thread (user.enter (.reading .single)))
  | release {index item}
      (resting : user.phase = .resting)
      (held : user.held[index]? = some item) :
      Step shared thread user (.release index)
        (shared.put thread
          { user with
            phase := .storing (Reusable.reset item)
            held := user.held.eraseIdx index })
  | detach {index item}
      (resting : user.phase = .resting)
      (held : user.held[index]? = some item) :
      Step shared thread user (.detach index)
        ({ shared with detached := item :: shared.detached }.put thread
          { user with
            phase := .freeing
            held := user.held.eraseIdx index })
  /-- A slot is seen to be free. -/
  | see {move attempt}
      (looks : user.phase.Looks shared.pool.gate.inUse attempt move)
      (free : shared.pool.gate.inUse < shared.pool.gate.ceiling) :
      Step shared thread user move
        (shared.put thread (user.enter (.claiming attempt shared.pool.gate.inUse)))
  /-- No slot is seen to be free. -/
  | turnAway {move attempt}
      (looks : user.phase.Looks shared.pool.gate.inUse attempt move)
      (full : shared.pool.gate.ceiling ≤ shared.pool.gate.inUse) :
      Step shared thread user move
        (shared.put thread (user.turnAway shared.pool.policy attempt))
  | claim {attempt}
      (claiming : user.phase = .claiming attempt shared.pool.gate.inUse) :
      Step shared thread user .proceed
        ((shared.withGate
          { shared.pool.gate with inUse := shared.pool.gate.inUse + 1 }).put thread
          (user.accept thread attempt))
  | enlist
      (enlisting : user.phase = .enlisting) :
      Step shared thread user .proceed
        ((shared.withGate (shared.pool.gate.register thread)).put thread
          (user.enter (.reading .listed)))
  | park
      (timing : user.phase = .timing) :
      Step shared thread user .proceed (shared.put thread (user.enter .parked))
  | expire
      (timing : user.phase = .timing)
      (limited : shared.pool.policy.timeout?.isSome) :
      Step shared thread user .expire
        (shared.put thread (user.enter (.delisting .refuse)))
  | wake
      (parked : user.phase = .parked)
      (token : user.token = true) :
      Step shared thread user .proceed
        (shared.put thread { user with phase := .enlisting, token := false })
  | stir
      (parked : user.phase = .parked) :
      Step shared thread user .stir (shared.put thread (user.enter .enlisting))
  /-- The thread takes itself off the list. -/
  | withdraw {sequel}
      (delisting : user.phase = .delisting sequel)
      (listed : thread ∈ shared.pool.gate.waiters) :
      Step shared thread user .proceed
        ((shared.withGate
          { shared.pool.gate with
            waiters := Gate.withdrawFrom thread shared.pool.gate.waiters }).put thread
          (user.follow thread sequel))
  /-- Another thread took the thread off the list, and its wake-up is to be passed on. -/
  | handOver {sequel}
      (delisting : user.phase = .delisting sequel)
      (absent : thread ∉ shared.pool.gate.waiters) :
      Step shared thread user .proceed (shared.put thread (user.enter (.waking sequel)))
  | make
      (searching : user.phase = .searching []) :
      Step shared thread user .proceed
        ({ shared with
          pool := { shared.pool with created := shared.pool.created + 1 } }.put thread
          (user.receive (shared.pool.factory shared.pool.created)))
  | take {segment rest item idle}
      (searching : user.phase = .searching (segment :: rest))
      (found : shared.pool.idle.pop? segment = some (item, idle)) :
      Step shared thread user .proceed
        ({ shared with pool := { shared.pool with idle } }.put thread (user.receive item))
  | skip {segment rest}
      (searching : user.phase = .searching (segment :: rest))
      (empty : shared.pool.idle.stack segment = []) :
      Step shared thread user .proceed
        (shared.put thread (user.enter (.searching rest)))
  | store {item}
      (storing : user.phase = .storing item) :
      Step shared thread user .proceed
        ({ shared with
          pool :=
            { shared.pool with
              idle := shared.pool.idle.push (homeSegment thread) item } }.put thread
          (user.enter .freeing))
  | free
      (freeing : user.phase = .freeing) :
      Step shared thread user .proceed
        ((shared.withGate shared.pool.gate.free).put thread
          (user.enter (.waking .leave)))
  /-- The newest waiter is taken off the list, to be woken. -/
  | call {sequel target older}
      (waking : user.phase = .waking sequel)
      (waiters : shared.pool.gate.waiters = target :: older) :
      Step shared thread user .proceed
        ((shared.withGate { shared.pool.gate with waiters := older }).put thread
          (user.enter (.unparking target sequel)))
  /-- Nobody is there to be woken. -/
  | callNobody {sequel}
      (waking : user.phase = .waking sequel)
      (waiters : shared.pool.gate.waiters = []) :
      Step shared thread user .proceed (shared.put thread (user.follow thread sequel))
  | unpark {target sequel}
      (unparking : user.phase = .unparking target sequel) :
      Step shared thread user .proceed
        ((shared.put thread (user.follow thread sequel)).unpark target)

variable [Reusable α] {shared next : SharedPool α} {thread : ThreadId} {user : PoolUser α}

/-- A thread that sees the counter acts on what it has seen. -/
theorem step_observe
    {move : Move}
    {attempt : Attempt}
    (looks : user.phase.Looks shared.pool.gate.inUse attempt move) :
    Step shared thread user move
      (shared.put thread
        (user.observe shared.pool.policy shared.pool.gate.ceiling
          shared.pool.gate.inUse attempt)) := by
  unfold PoolUser.observe
  split
  · rename_i free
    exact .see looks free
  · rename_i full
    exact .turnAway looks (Nat.le_of_not_lt full)

/-- A thread on its way looks into the next segment. -/
theorem step_of_searchSegment
    {segments : List (Fin segmentCount)}
    (searching : user.phase = .searching segments) :
    Step shared thread user .proceed (shared.searchSegment thread user segments) := by
  cases segments with
  | nil => exact .make searching
  | cons segment rest =>
      cases popped : shared.pool.idle.pop? segment with
      | some found =>
          simp only [searchSegment, popped]
          exact .take searching popped
      | none =>
          simp only [searchSegment, popped]
          refine .skip searching ?_
          unfold Segments.pop? at popped
          split at popped
          · assumption
          · cases popped

/-- Going on is one of the steps. -/
theorem step_of_advance?
    (advanced : shared.advance? thread user = some next) :
    Step shared thread user .proceed next := by
  unfold advance? at advanced
  cases phase : user.phase with
  | resting => simp [phase] at advanced
  | reading attempt =>
      simp only [phase, Option.some.injEq] at advanced
      subst next
      exact step_observe (phase ▸ .reads)
  | claiming attempt seen =>
      simp only [phase] at advanced
      split at advanced
      · rename_i same
        subst seen
        cases advanced
        exact .claim phase
      · rename_i stale
        cases advanced
        exact step_observe (phase ▸ .compares stale)
  | enlisting =>
      simp only [phase, Option.some.injEq] at advanced
      subst next
      exact .enlist phase
  | timing =>
      simp only [phase, Option.some.injEq] at advanced
      subst next
      exact .park phase
  | parked =>
      simp only [phase] at advanced
      split at advanced
      · rename_i token
        cases advanced
        exact .wake phase token
      · cases advanced
  | delisting sequel =>
      by_cases listed : thread ∈ shared.pool.gate.waiters
      · simp only [phase, Gate.withdraw?, if_pos listed, Option.some.injEq] at advanced
        subst next
        exact .withdraw phase listed
      · simp only [phase, Gate.withdraw?, if_neg listed, Option.some.injEq] at advanced
        subst next
        exact .handOver phase listed
  | searching segments =>
      simp only [phase, Option.some.injEq] at advanced
      subst next
      exact step_of_searchSegment phase
  | storing item =>
      simp only [phase, Option.some.injEq] at advanced
      subst next
      exact .store phase
  | freeing =>
      simp only [phase, Option.some.injEq] at advanced
      subst next
      exact .free phase
  | waking sequel =>
      cases waiters : shared.pool.gate.waiters with
      | nil =>
          simp only [phase, Gate.popWaiter, waiters, Option.some.injEq] at advanced
          subst next
          exact .callNobody phase waiters
      | cons target older =>
          simp only [phase, Gate.popWaiter, waiters, Option.some.injEq] at advanced
          subst next
          exact .call phase waiters
  | unparking target sequel =>
      simp only [phase, Option.some.injEq] at advanced
      subst next
      exact .unpark phase

/-- A move that a thread can make is one of the steps. -/
theorem step_of_step?
    {move : Move}
    (moved : shared.step? thread move = some next) :
    ∃ user, shared.users[thread]? = some user ∧ Step shared thread user move next := by
  unfold step? at moved
  cases found : shared.users[thread]? with
  | none => simp [found] at moved
  | some user =>
      refine ⟨user, rfl, ?_⟩
      simp only [found, Option.bind_eq_bind, Option.bind_some] at moved
      split at moved
      · exact step_of_advance? moved
      · rename_i resting
        cases moved
        exact .acquire resting
      · rename_i resting
        cases moved
        exact .tryAcquire resting
      · rename_i index resting
        cases held : user.held[index]? with
        | none => simp [held] at moved
        | some item =>
            simp only [held, Option.bind_some, Option.some.injEq] at moved
            subst next
            exact .release resting held
      · rename_i index resting
        cases held : user.held[index]? with
        | none => simp [held] at moved
        | some item =>
            simp only [held, Option.bind_some, Option.some.injEq] at moved
            subst next
            exact .detach resting held
      · rename_i attempt seen claiming
        cases moved
        exact step_observe (claiming ▸ .misses seen)
      · rename_i timing
        split at moved
        · rename_i limited
          cases moved
          exact .expire timing limited
        · cases moved
      · rename_i parked
        cases moved
        exact .stir parked
      · cases moved

/-- Each of the steps is what some move does. -/
theorem step?_of_step
    {move : Move}
    (found : shared.users[thread]? = some user)
    (step : Step shared thread user move next) :
    shared.step? thread move = some next := by
  cases step with
  | acquire resting | tryAcquire resting => simp [step?, found, resting]
  | release resting held | detach resting held => simp [step?, found, resting, held]
  | see looks free =>
      generalize phase : user.phase = now at looks
      cases looks with
      | reads => simp [step?, found, advance?, phase, PoolUser.observe, free]
      | compares stale => simp [step?, found, advance?, phase, stale, PoolUser.observe, free]
      | misses seen => simp [step?, found, phase, PoolUser.observe, free]
  | turnAway looks full =>
      have none : ¬ shared.pool.gate.inUse < shared.pool.gate.ceiling := Nat.not_lt.mpr full
      generalize phase : user.phase = now at looks
      cases looks with
      | reads => simp [step?, found, advance?, phase, PoolUser.observe, none]
      | compares stale => simp [step?, found, advance?, phase, stale, PoolUser.observe, none]
      | misses seen => simp [step?, found, phase, PoolUser.observe, none]
  | claim claiming => simp [step?, found, advance?, claiming]
  | enlist enlisting => simp [step?, found, advance?, enlisting]
  | park timing => simp [step?, found, advance?, timing]
  | expire timing limited => simp [step?, found, timing, limited]
  | wake parked token => simp [step?, found, advance?, parked, token]
  | stir parked => simp [step?, found, parked]
  | withdraw delisting listed => simp [step?, found, advance?, delisting, Gate.withdraw?, listed]
  | handOver delisting absent => simp [step?, found, advance?, delisting, Gate.withdraw?, absent]
  | make searching => simp [step?, found, advance?, searching, searchSegment]
  | take searching popped => simp [step?, found, advance?, searching, searchSegment, popped]
  | skip searching empty =>
      simp [step?, found, advance?, searching, searchSegment, Segments.pop?, empty]
  | store storing => simp [step?, found, advance?, storing]
  | free freeing => simp [step?, found, advance?, freeing]
  | call waking waiters | callNobody waking waiters =>
      simp [step?, found, advance?, waking, Gate.popWaiter, waiters]
  | unpark unparking => simp [step?, found, advance?, unparking]

/-- The states that steps of the threads lead to. -/
inductive Reaches (first : SharedPool α) : SharedPool α → Prop
  | refl : Reaches first first
  | step {shared thread user move next}
      (before : Reaches first shared)
      (found : shared.users[thread]? = some user)
      (step : Step shared thread user move next) :
      Reaches first next

/-- What holds at first and is kept by every step holds of all states reached. -/
@[elab_as_elim] theorem Reaches.invariant
    {first : SharedPool α}
    {holds : SharedPool α → Prop}
    (reached : first.Reaches shared)
    (initially : holds first)
    (kept : ∀ {shared next : SharedPool α} {thread : ThreadId} {user : PoolUser α} {move : Move},
      holds shared → shared.users[thread]? = some user → Step shared thread user move next →
        holds next) :
    holds shared := by
  induction reached with
  | refl => exact initially
  | step _ found step inductionHypothesis => exact kept inductionHypothesis found step

/-- What a run leads to is reached. -/
theorem Reaches.run?
    {first last : SharedPool α}
    {schedule : List (ThreadId × Move)}
    (before : first.Reaches shared)
    (ran : shared.run? schedule = some last) :
    first.Reaches last := by
  induction schedule generalizing shared with
  | nil =>
      cases ran
      exact before
  | cons choice rest inductionHypothesis =>
      rcases choice with ⟨thread, move⟩
      cases moved : shared.step? thread move with
      | none => simp [SharedPool.run?, moved] at ran
      | some next =>
          obtain ⟨user, found, step⟩ := step_of_step? moved
          refine inductionHypothesis (before.step found step) ?_
          simpa [SharedPool.run?, moved] using ran

/-- A schedule that the threads can follow leads to a state that they reach. -/
theorem reaches_of_run?
    {first last : SharedPool α}
    {schedule : List (ThreadId × Move)}
    (ran : first.run? schedule = some last) :
    first.Reaches last :=
  Reaches.refl.run? ran

/-- A schedule in two parts is run one part after the other. -/
theorem run?_append
    (shared : SharedPool α)
    (first second : List (ThreadId × Move)) :
    shared.run? (first ++ second) = (shared.run? first).bind fun middle => middle.run? second := by
  induction first generalizing shared with
  | nil => rfl
  | cons choice rest inductionHypothesis =>
      rcases choice with ⟨thread, move⟩
      cases moved : shared.step? thread move with
      | none => simp [run?, moved]
      | some next => simp [run?, moved, inductionHypothesis]

/-- The threads can follow some schedule to every state that they reach. -/
theorem Reaches.exists_run?
    {first : SharedPool α}
    (reached : first.Reaches shared) :
    ∃ schedule, first.run? schedule = some shared := by
  induction reached with
  | refl => exact ⟨[], rfl⟩
  | @step middle thread user move next before found step inductionHypothesis =>
      obtain ⟨schedule, ran⟩ := inductionHypothesis
      refine ⟨schedule ++ [(thread, move)], ?_⟩
      simp [run?_append, ran, SharedPool.run?, step?_of_step found step]

end SharedPool

end DocumentCodec
