import DocumentCodec.Pool.HandOver
import DocumentCodec.Proofs.Pool.Surplus
import DocumentCodec.Proofs.Pool.Wakeups

namespace DocumentCodec

/-!
# Threads that hand items over

A hand-over moves an item, and the slot that goes with it, from one thread to
another.  Slots and items stay as many, and no thread changes what it is about
to do.  So all is counted as before, and nobody who sleeps is forgotten.

What a hand-over can break is the bound on the items of a pool: the item may
come to be put on another segment than the one it would have gone to.  In a pool
of one item this makes no difference, for the thread that looks for an item has
the only slot, so nobody holds an item that could be handed over.
-/

namespace PoolUser

variable {users : List (PoolUser α)} {giver taker : ThreadId}
  {user other changed otherChanged : PoolUser α}

/-- The taker is still there when the giver has changed. -/
theorem getElem?_set_other
    (found : users[giver]? = some user)
    (foundOther : users[taker]? = some other)
    (different : giver ≠ taker)
    (changed : PoolUser α) :
    (users.set giver changed)[taker]? = some other := by
  rw [getElem?_set found, if_neg different.symm, foundOther]

/-- When two threads are changed, a total changes as their numbers do. -/
theorem total_set_set
    {count : ThreadId → PoolUser α → Nat}
    (found : users[giver]? = some user)
    (foundOther : users[taker]? = some other)
    (different : giver ≠ taker)
    (changed otherChanged : PoolUser α) :
    total count ((users.set giver changed).set taker otherChanged) +
        (count giver user + count taker other) =
      total count users + (count giver changed + count taker otherChanged) := by
  have first := @total_set _ count _ _ _ found changed
  have second :=
    @total_set _ count _ _ _ (getElem?_set_other found foundOther different changed) otherChanged
  omega

/-- What holds of two threads that have changed and of the others holds of all. -/
theorem forall_set_set
    {property : ThreadId → PoolUser α → Prop}
    (found : users[giver]? = some user)
    (foundOther : users[taker]? = some other)
    (different : giver ≠ taker)
    (all : ∀ (thread : ThreadId) (waiting : PoolUser α), users[thread]? = some waiting →
      property thread waiting)
    (gave : property giver user → property giver changed)
    (got : property taker other → property taker otherChanged) :
    ∀ (thread : ThreadId) (waiting : PoolUser α),
      ((users.set giver changed).set taker otherChanged)[thread]? = some waiting →
        property thread waiting := by
  have after : ∀ (thread : ThreadId) (waiting : PoolUser α),
      (users.set giver changed)[thread]? = some waiting → property thread waiting :=
    forall_set found (gave (all giver user found)) fun thread waiting _ => all thread waiting
  exact forall_set (getElem?_set_other found foundOther different changed)
    (got (all taker other foundOther)) fun thread waiting _ => after thread waiting

end PoolUser

section

variable {gate : Gate} {users : List (PoolUser α)} {thread : ThreadId} {user : PoolUser α}

/-- What a thread holds says nothing about who waits. -/
theorem Watched.hold
    (watched : Watched gate users)
    (found : users[thread]? = some user)
    (items : List α) :
    Watched gate (users.set thread { user with held := items }) where
  distinct := watched.distinct
  listed other member := by
    obtain ⟨waiting, foundWaiting, may⟩ := watched.listed other member
    by_cases same : other = thread
    · subst other
      rw [found] at foundWaiting
      cases foundWaiting
      exact ⟨_, PoolUser.getElem?_set_self found _, may⟩
    · exact ⟨waiting, by rw [PoolUser.getElem?_set found, if_neg same, foundWaiting], may⟩
  told := by
    -- whoever was about to wake a thread still is
    have kept {other : ThreadId} {waiting after : PoolUser α}
        (told : Told users other waiting)
        (token : after.token = waiting.token) :
        Told (users.set thread { user with held := items }) other after := by
      rcases told with awake | ⟨second, waker, sequel, foundWaker, unparking⟩
      · exact .inl (token.trans awake)
      · by_cases same : second = thread
        · subst second
          rw [found] at foundWaker
          cases foundWaker
          exact .inr ⟨thread, _, sequel, PoolUser.getElem?_set_self found _, unparking⟩
        · refine .inr ⟨second, waker, sequel, ?_, unparking⟩
          rw [PoolUser.getElem?_set found, if_neg same, foundWaker]
    refine PoolUser.forall_set found (fun went absent => ?_)
      fun other waiting _ foundWaiting went absent => ?_
    · exact kept (watched.told thread user found went absent) rfl
    · exact kept (watched.told other waiting foundWaiting went absent) rfl
  promised := by
    rintro ⟨other, member, waiting, foundWaiting, vain⟩
    have soon : SleepsSoon gate users := by
      by_cases same : other = thread
      · subst other
        rw [PoolUser.getElem?_set_self found] at foundWaiting
        cases foundWaiting
        exact ⟨thread, member, user, found, vain⟩
      · rw [PoolUser.getElem?_set found, if_neg same] at foundWaiting
        exact ⟨other, member, waiting, foundWaiting, vain⟩
    have totals := @PoolUser.total_set _ (PoolUser.promises gate.waiters) _ _ _ found
      { user with held := items }
    have same : PoolUser.promises gate.waiters thread { user with held := items } =
        PoolUser.promises gate.waiters thread user := rfl
    rw [same] at totals
    rw [Nat.add_right_cancel totals]
    exact watched.promised soon

end

namespace SharedPool

/-- What a hand-over does. -/
inductive HandOver (shared : SharedPool α) : SharedPool α → Prop
  | between {giver taker index user other item}
      (different : giver ≠ taker)
      (found : shared.users[giver]? = some user)
      (foundOther : shared.users[taker]? = some other)
      (held : user.held[index]? = some item) :
      HandOver shared ((shared.put giver (user.give index)).put taker (other.get item))

variable {shared next : SharedPool α} {property : α → Bool}

/-- An event that hands an item over does what a hand-over does, and nothing else does. -/
theorem handOver?_eq_some_iff {giver taker : ThreadId} {index : Nat} :
    shared.handOver? giver index taker = some next ↔
      giver ≠ taker ∧ ∃ user other item, shared.users[giver]? = some user ∧
        shared.users[taker]? = some other ∧ user.held[index]? = some item ∧
          next = (shared.put giver (user.give index)).put taker (other.get item) := by
  unfold handOver?
  split
  · rename_i same
    simp [same]
  · rename_i different
    simp only [Option.bind_eq_bind, Option.bind_eq_some_iff, Option.some.injEq]
    constructor
    · rintro ⟨user, found, other, foundOther, item, held, rfl⟩
      exact ⟨different, user, other, item, found, foundOther, held, rfl⟩
    · rintro ⟨-, user, other, item, found, foundOther, held, rfl⟩
      exact ⟨user, found, other, foundOther, item, held, rfl⟩

/-- A hand-over leaves the pool alone. -/
theorem HandOver.pool_eq (handed : shared.HandOver next) : next.pool = shared.pool := by
  cases handed
  rfl

/-- A hand-over leaves detached items alone. -/
theorem HandOver.detached_eq (handed : shared.HandOver next) :
    next.detached = shared.detached := by
  cases handed
  rfl

/-- A hand-over leaves as many slots reserved. -/
theorem HandOver.accounted
    (handed : shared.HandOver next)
    (accounted : Accounted shared.pool.gate shared.users) :
    Accounted next.pool.gate next.users := by
  cases handed with
  | @between giver taker index user other item different found foundOther held =>
      obtain ⟨inside, -⟩ := List.getElem?_eq_some_iff.mp held
      refine ⟨accounted.inUse_eq.trans ?_, accounted.le_ceiling, ?_⟩
      · have totals :=
          @PoolUser.total_set_set _ _ _ _ _ _ (fun _ user => user.slots) found foundOther different
            (user.give index) (other.get item)
        have gives : (user.give index).slots + 1 = user.slots := by
          simp only [PoolUser.slots, PoolUser.give, List.length_eraseIdx_of_lt inside]
          omega
        have gets : (other.get item).slots = other.slots + 1 := by
          simp only [PoolUser.slots, PoolUser.get, List.length_cons]
          omega
        simp only [put_users] at totals ⊢
        omega
      · exact PoolUser.forall_set_set found foundOther different accounted.seen_lt id id

/-- A hand-over leaves every item somewhere. -/
theorem HandOver.conserved
    (handed : shared.HandOver next)
    (conserved : Conserved property shared.pool shared.users shared.detached) :
    Conserved property next.pool next.users next.detached := by
  cases handed with
  | @between giver taker index user other item different found foundOther held =>
      have totals :=
        @PoolUser.total_set_set _ _ _ _ _ _ (fun _ user => user.items.countP property) found
          foundOther different (user.give index) (other.get item)
      have counts := @countP_eraseIdx _ property _ _ _ held
      have gives : user.items.countP property =
          (user.give index).items.countP property + [item].countP property := by
        simp only [PoolUser.items, PoolUser.give, List.countP_append, counts]
        omega
      have gets : (other.get item).items.countP property =
          other.items.countP property + [item].countP property := by
        simp only [PoolUser.items, PoolUser.get, List.countP_append, List.countP_cons,
          List.countP_nil]
        omega
      simp only [Conserved, put_pool, put_users, put_detached] at conserved totals ⊢
      omega

/-- A hand-over forgets no waiting thread. -/
theorem HandOver.watched
    (handed : shared.HandOver next)
    (watched : Watched shared.pool.gate shared.users) :
    Watched next.pool.gate next.users := by
  cases handed with
  | between different found foundOther held =>
      exact (watched.hold found _).hold
        (PoolUser.getElem?_set_other found foundOther different _) _

/-- In a pool of one item nobody looks for an item when another is handed over. -/
theorem HandOver.search?_eq_none
    {thread : ThreadId}
    {waiting : PoolUser α}
    (handed : shared.HandOver next)
    (accounted : Accounted next.pool.gate next.users)
    (single : next.pool.gate.ceiling ≤ 1)
    (foundWaiting : next.users[thread]? = some waiting) :
    waiting.phase.search? = none := by
  by_contra looks
  obtain ⟨segments, searches⟩ := Option.ne_none_iff_exists'.mp looks
  have within := Nat.le_trans accounted.le_ceiling single
  cases handed with
  | @between giver taker index user other item different found foundOther held =>
      have foundTaker := PoolUser.getElem?_set_self
        (PoolUser.getElem?_set_other found foundOther different (user.give index)) (other.get item)
      by_cases same : thread = taker
      · -- the taker has a slot for the item that it got and one for the item that it looks for
        subst thread
        obtain rfl := Option.some.inj (foundTaker.symm.trans foundWaiting)
        have both : (other.get item).slots = other.held.length + 1 + 1 :=
          congrArg (other.held.length + 1 + ·) (Phase.slots_eq_of_search? searches)
        have reserved := accounted.slots_le foundTaker
        omega
      · have reserved := accounted.slots_add_le foundWaiting foundTaker same
        have looking := PoolUser.slots_pos searches
        have holding : 0 < (other.get item).slots := Nat.add_pos_left (Nat.succ_pos _) _
        omega

/-- In a pool of one item a hand-over does not mislead any thread that looks for one. -/
theorem HandOver.charted
    (handed : shared.HandOver next)
    (accounted : Accounted next.pool.gate next.users)
    (single : next.pool.gate.ceiling ≤ 1) :
    Charted next.pool.gate next.pool.idle next.users where
  begins thread waiting found segments searches := by
    rw [handed.search?_eq_none accounted single found] at searches
    cases searches
  passed thread waiting found segments searches := by
    rw [handed.search?_eq_none accounted single found] at searches
    cases searches

/-- A pool of one item that owns no more than one. -/
structure Modest (shared : SharedPool α) : Prop where
  ceiling_eq : shared.pool.gate.ceiling = 1
  accounted : Accounted shared.pool.gate shared.users
  charted : Charted shared.pool.gate shared.pool.idle shared.users
  conserved : Conserved (fun _ => true) shared.pool shared.users shared.detached
  created_le : shared.pool.created ≤ shared.detached.length + 1

/-- A hand-over in a pool of one item makes no difference to what the pool owns. -/
theorem Modest.handOver
    (modest : shared.Modest)
    (handed : shared.HandOver next) :
    next.Modest where
  ceiling_eq := by rw [handed.pool_eq, modest.ceiling_eq]
  accounted := handed.accounted modest.accounted
  charted := by
    refine handed.charted (handed.accounted modest.accounted) ?_
    rw [handed.pool_eq, modest.ceiling_eq]
  conserved := handed.conserved modest.conserved
  created_le := by
    rw [handed.pool_eq, handed.detached_eq]
    exact modest.created_le

variable [Reusable α] {first last : SharedPool α}

/-- Moves and hand-overs lead from one state to another. -/
def LeadsTo (first last : SharedPool α) : Prop :=
  ∃ events, first.happenAll? events = some last

/-- A schedule in two parts happens one part after the other. -/
theorem happenAll?_append
    (shared : SharedPool α)
    (before behind : List PoolEvent) :
    shared.happenAll? (before ++ behind) =
      (shared.happenAll? before).bind fun middle => middle.happenAll? behind := by
  induction before generalizing shared with
  | nil => rfl
  | cons event rest inductionHypothesis =>
      cases happened : shared.happen? event with
      | none => simp [happenAll?, happened]
      | some next => simp [happenAll?, happened, inductionHypothesis]

/-- A schedule without hand-overs is a list of moves. -/
theorem happenAll?_moves
    (shared : SharedPool α)
    (schedule : List (ThreadId × Move)) :
    shared.happenAll? (schedule.map fun choice => .move choice.1 choice.2) =
      shared.run? schedule := by
  induction schedule generalizing shared with
  | nil => rfl
  | cons choice rest inductionHypothesis =>
      cases moved : shared.step? choice.1 choice.2 with
      | none => simp [happenAll?, run?, happen?, moved]
      | some next => simp [happenAll?, run?, happen?, moved, inductionHypothesis]

/-- When nothing happens the state stays. -/
theorem LeadsTo.refl (shared : SharedPool α) : shared.LeadsTo shared :=
  ⟨[], rfl⟩

/-- Schedules one after the other are a schedule. -/
theorem LeadsTo.trans
    {middle : SharedPool α}
    (before : first.LeadsTo middle)
    (behind : middle.LeadsTo last) :
    first.LeadsTo last := by
  obtain ⟨events, happened⟩ := before
  obtain ⟨others, happenedBehind⟩ := behind
  exact ⟨events ++ others, by rw [happenAll?_append, happened]; exact happenedBehind⟩

/-- Steps of the threads alone lead to a state. -/
theorem Reaches.leadsTo (reached : first.Reaches last) : first.LeadsTo last := by
  obtain ⟨schedule, ran⟩ := reached.exists_run?
  exact ⟨_, (happenAll?_moves first schedule).trans ran⟩

/-- A thread that holds an item hands it over. -/
theorem leadsTo_handOver
    {giver taker : ThreadId}
    {index : Nat}
    {user other : PoolUser α}
    {item : α}
    (different : giver ≠ taker)
    (found : shared.users[giver]? = some user)
    (foundOther : shared.users[taker]? = some other)
    (held : user.held[index]? = some item) :
    shared.LeadsTo ((shared.put giver (user.give index)).put taker (other.get item)) := by
  have happened : shared.handOver? giver index taker = some _ :=
    handOver?_eq_some_iff.mpr ⟨different, user, other, item, found, foundOther, held, rfl⟩
  exact ⟨[.handOver giver index taker], by simp [happenAll?, happen?, happened]⟩

/-- What holds at first and is kept by every step and every hand-over holds in the end. -/
@[elab_as_elim] theorem LeadsTo.invariant
    {holds : SharedPool α → Prop}
    (led : first.LeadsTo last)
    (initially : holds first)
    (kept : ∀ {shared next : SharedPool α} {thread : ThreadId} {user : PoolUser α} {move : Move},
      holds shared → shared.users[thread]? = some user → Step shared thread user move next →
        holds next)
    (handed : ∀ {shared next : SharedPool α}, holds shared → shared.HandOver next → holds next) :
    holds last := by
  obtain ⟨events, happened⟩ := led
  induction events generalizing first with
  | nil =>
      cases happened
      exact initially
  | cons event rest inductionHypothesis =>
      cases one : first.happen? event with
      | none => simp [happenAll?, one] at happened
      | some next =>
          refine inductionHypothesis ?_ (by simpa [happenAll?, one] using happened)
          cases event with
          | move thread move =>
              obtain ⟨user, found, step⟩ := step_of_step? one
              exact kept initially found step
          | handOver giver index taker =>
              obtain ⟨different, user, other, item, found, foundOther, held, rfl⟩ :=
                handOver?_eq_some_iff.mp one
              exact handed initially (.between different found foundOther held)

/-- Slots stay accounted for, whoever gives back the items. -/
theorem LeadsTo.accounted
    (led : first.LeadsTo last)
    (accounted : Accounted first.pool.gate first.users) :
    Accounted last.pool.gate last.users :=
  led.invariant accounted accounted_step fun before handed => handed.accounted before

/-- Items stay conserved, whoever holds them. -/
theorem LeadsTo.conserved
    (led : first.LeadsTo last)
    (conserved : Conserved property first.pool first.users first.detached)
    (resets : ∀ item, property (Reusable.reset item) = property item) :
    Conserved property last.pool last.users last.detached := by
  refine LeadsTo.invariant led conserved ?_ fun before handed => handed.conserved before
  exact fun conserved => conserved_step conserved resets

/-- Those who wait stay watched, whoever gives back the items. -/
theorem LeadsTo.watched
    (led : first.LeadsTo last)
    (watched : Watched first.pool.gate first.users) :
    Watched last.pool.gate last.users :=
  led.invariant watched watched_step fun before handed => handed.watched before

/--
Items that change hands are accounted for as those that do not, and nobody
sleeps for long.  Whatever threads do with a new pool, the counter is the number
of slots that they have reserved, and is within the ceiling; every item that was
made is somewhere; and while a slot is free, a thread that sleeps without a
token is not alone with threads that rest or sleep.
-/
theorem happenAll_keeps_account
    {initial ceiling threads : Nat}
    {policy : OverflowPolicy}
    {factory : Nat → α}
    {events : List PoolEvent}
    (happened :
      (start (.create initial ceiling policy factory) threads).happenAll? events = some shared) :
    let gate := shared.pool.gate
    (gate.inUse = PoolUser.total (fun _ user => user.slots) shared.users ∧
      gate.inUse ≤ gate.ceiling) ∧
    shared.pool.created =
      shared.pool.idle.items.length +
          PoolUser.total (fun _ user => user.items.length) shared.users +
        shared.detached.length ∧
    ∀ (thread : ThreadId) (user : PoolUser α), shared.users[thread]? = some user →
      user.Asleep → gate.inUse < gate.ceiling →
        ∃ (other : ThreadId) (helper : PoolUser α), other ≠ thread ∧
          shared.users[other]? = some helper ∧ helper.Busy := by
  intro gate
  have led : (start (.create initial ceiling policy factory) threads).LeadsTo shared :=
    ⟨events, happened⟩
  have accounted := led.accounted (accounted_start _ rfl threads)
  have watched := led.watched (watched_start _ rfl threads)
  have conserved : Conserved (fun _ => true) shared.pool shared.users shared.detached :=
    led.conserved (conserved_start initial ceiling policy factory threads) fun _ => rfl
  exact ⟨⟨accounted.inUse_eq, accounted.le_ceiling⟩, created_eq_of_conserved conserved,
    fun thread user found => watched.exists_busy found⟩

/-- A step makes an item for a pool of one only when that owns none. -/
theorem Modest.step
    {thread : ThreadId}
    {user : PoolUser α}
    {move : Move}
    (modest : shared.Modest)
    (found : shared.users[thread]? = some user)
    (step : Step shared thread user move next) :
    next.Modest where
  ceiling_eq := step.fixed.1.trans modest.ceiling_eq
  accounted := accounted_step modest.accounted found step
  charted := charted_step modest.charted modest.accounted found step
  conserved := conserved_step modest.conserved (fun _ => rfl) found step
  created_le := by
    have owned := modest.created_le
    rcases step.created_le with ⟨created, detached⟩ | ⟨searching, created, detached⟩
    · omega
    · have none := modest.charted.items_le found searching
      have counted := created_eq_of_conserved modest.conserved
      rw [modest.ceiling_eq] at none
      rw [created, detached]
      omega

/-- A pool with a ceiling of one owns one item at most, whoever has it. -/
theorem LeadsTo.created_le_of_single
    {initial ceiling threads : Nat}
    {policy : OverflowPolicy}
    {factory : Nat → α}
    (single : ceiling ≤ 1)
    (led : (start (.create initial ceiling policy factory) threads).LeadsTo shared) :
    shared.pool.created ≤ shared.detached.length + 1 := by
  have one : max ceiling 1 = 1 := Nat.max_eq_right single
  have modest : (start (.create initial ceiling policy factory) threads).Modest := {
    ceiling_eq := one
    accounted := accounted_start _ rfl threads
    charted := charted_start _ threads
    conserved := conserved_start initial ceiling policy factory threads
    created_le := by
      simp only [start, BoundedPool.create, Gate.withCeiling, one]
      omega }
  have kept : shared.Modest := by
    refine LeadsTo.invariant led modest ?_ fun modest handed => modest.handOver handed
    exact fun modest found step => modest.step found step
  exact kept.created_le

end SharedPool

end DocumentCodec
