import DocumentCodec.Proofs.Pool.Slots
import DocumentCodec.Proofs.Pool.Steps
import DocumentCodec.Proofs.Pool.Totals

namespace DocumentCodec

/-!
# Reserved slots

The slots in use are the ones that threads have reserved and not given up: one
for each item that a thread holds, one while it looks for the item of a slot
that it has claimed, and one while it gives an item back.
-/

/-- The slots reserved by a thread that has yet to leave the list or pass a wake-up on. -/
def Sequel.slots : Sequel → Nat
  | take => 1
  | refuse | leave => 0

namespace Phase

/-- The slots that a thread has reserved, besides those of the items that it holds. -/
def slots : Phase α → Nat
  | searching _ | storing _ | freeing => 1
  | delisting sequel | waking sequel | unparking _ sequel => sequel.slots
  | resting | reading _ | claiming _ _ | enlisting | timing | parked => 0

/-- The count of slots in use from which the thread is about to claim the next one. -/
def seen? : Phase α → Option Nat
  | claiming _ seen => some seen
  | _ => none

variable {phase : Phase α} {inUse : Nat} {attempt : Attempt} {move : Move}

/-- A thread that looks at the counter has reserved nothing. -/
theorem Looks.slots_eq (looks : phase.Looks inUse attempt move) : phase.slots = 0 := by
  cases looks <;> rfl

end Phase

namespace PoolUser

/-- The slots that a thread has reserved and not given up. -/
def slots (user : PoolUser α) : Nat :=
  user.held.length + user.phase.slots

variable (user : PoolUser α) (thread : ThreadId) (policy : OverflowPolicy)
  (attempt : Attempt) (sequel : Sequel)

@[simp] theorem slots_accept :
    (user.accept thread attempt).slots = user.held.length + 1 := by
  cases attempt <;> rfl

@[simp] theorem seen?_accept : (user.accept thread attempt).phase.seen? = none := by
  cases attempt <;> rfl

@[simp] theorem slots_turnAway : (user.turnAway policy attempt).slots = user.held.length := by
  unfold turnAway
  split <;> first | rfl | (split <;> rfl)

@[simp] theorem seen?_turnAway : (user.turnAway policy attempt).phase.seen? = none := by
  unfold turnAway
  split <;> first | rfl | (split <;> rfl)

@[simp] theorem slots_follow :
    (user.follow thread sequel).slots = user.held.length + sequel.slots := by
  cases sequel <;> rfl

@[simp] theorem seen?_follow : (user.follow thread sequel).phase.seen? = none := by
  cases sequel <;> rfl

end PoolUser

/-- The gate counts the slots that threads have reserved, and no thread will claim too many. -/
structure Accounted (gate : Gate) (users : List (PoolUser α)) : Prop where
  inUse_eq : gate.inUse = PoolUser.total (fun _ user => user.slots) users
  le_ceiling : gate.inUse ≤ gate.ceiling
  seen_lt : ∀ (thread : ThreadId) (user : PoolUser α), users[thread]? = some user →
    ∀ seen, user.phase.seen? = some seen → seen < gate.ceiling

section

variable {gate after : Gate} {users : List (PoolUser α)} {thread : ThreadId}
  {user changed : PoolUser α}

/-- What the account tells depends on the counters alone. -/
theorem Accounted.of_sameSlots
    (accounted : Accounted gate users)
    (same : after.SameSlots gate) :
    Accounted after users where
  inUse_eq := same.inUse_eq.trans accounted.inUse_eq
  le_ceiling := by
    rw [same.inUse_eq, same.ceiling_eq]
    exact accounted.le_ceiling
  seen_lt := by
    rw [same.ceiling_eq]
    exact accounted.seen_lt

/-- A thread raises or lowers the counter as it reserves or gives up slots. -/
theorem Accounted.count
    {inUse : Nat}
    (accounted : Accounted gate users)
    (found : users[thread]? = some user)
    (balance : inUse + user.slots = gate.inUse + changed.slots)
    (within : inUse ≤ gate.ceiling)
    (seen_lt : ∀ seen, changed.phase.seen? = some seen → seen < gate.ceiling) :
    Accounted { gate with inUse } (users.set thread changed) where
  inUse_eq := by
    have total := accounted.inUse_eq
    have totals := @PoolUser.total_set _ (fun _ user => user.slots) _ _ _ found changed
    simp only at totals ⊢
    omega
  le_ceiling := within
  seen_lt :=
    PoolUser.forall_set found seen_lt fun other waiting _ => accounted.seen_lt other waiting

/-- A thread goes on and reserves as many slots as before. -/
theorem Accounted.set
    (accounted : Accounted gate users)
    (found : users[thread]? = some user)
    (slots_eq : changed.slots = user.slots)
    (seen_lt : ∀ seen, changed.phase.seen? = some seen → seen < gate.ceiling) :
    Accounted gate (users.set thread changed) :=
  accounted.count found (congrArg (gate.inUse + ·) slots_eq.symm) accounted.le_ceiling seen_lt

/-- A thread that has reserved a slot keeps the counter from running below zero. -/
theorem Accounted.slots_le
    (accounted : Accounted gate users)
    (found : users[thread]? = some user) :
    user.slots ≤ gate.inUse := by
  rw [accounted.inUse_eq]
  exact @PoolUser.le_total _ (fun _ user => user.slots) _ _ _ found

/-- The slots of two threads are all counted. -/
theorem Accounted.slots_add_le
    {other : ThreadId}
    {sharer : PoolUser α}
    (accounted : Accounted gate users)
    (found : users[thread]? = some user)
    (foundOther : users[other]? = some sharer)
    (different : thread ≠ other) :
    user.slots + sharer.slots ≤ gate.inUse := by
  have without := @PoolUser.total_set _ (fun _ user => user.slots) _ _ _ found (.holding [])
  have kept : (users.set thread (.holding []))[other]? = some sharer := by
    rw [PoolUser.getElem?_set found, if_neg different.symm, foundOther]
  have least := @PoolUser.le_total _ (fun _ user => user.slots) _ _ _ kept
  have nothing : (PoolUser.holding [] : PoolUser α).slots = 0 := rfl
  rw [accounted.inUse_eq]
  omega

/-- A wake-up reserves nothing. -/
theorem Accounted.giveToken
    (accounted : Accounted gate users)
    (target : ThreadId) :
    Accounted gate (PoolUser.giveToken users target) where
  inUse_eq := accounted.inUse_eq.trans (PoolUser.total_giveToken (fun _ _ => rfl) target).symm
  le_ceiling := accounted.le_ceiling
  seen_lt := PoolUser.forall_giveToken accounted.seen_lt (fun _ _ same => same) target

/-- At first no slot is in use. -/
theorem accounted_start
    (pool : BoundedPool α)
    (unused : pool.gate.inUse = 0)
    (threads : Nat) :
    Accounted (SharedPool.start pool threads).pool.gate
      (SharedPool.start pool threads).users where
  inUse_eq := by
    refine unused.trans (Nat.eq_zero_of_not_pos fun positive => ?_).symm
    obtain ⟨thread, user, found, reserved⟩ := PoolUser.exists_of_total_pos positive
    rw [SharedPool.eq_holding_of_start found] at reserved
    cases reserved
  le_ceiling := unused.trans_le (Nat.zero_le _)
  seen_lt thread user found seen same := by
    rw [SharedPool.eq_holding_of_start found] at same
    cases same

end

namespace SharedPool

variable [Reusable α] {shared next : SharedPool α} {thread : ThreadId} {user : PoolUser α}
  {move : Move}

/-- Every step counts the slots that it reserves or gives up. -/
theorem accounted_step
    (accounted : Accounted shared.pool.gate shared.users)
    (found : shared.users[thread]? = some user)
    (step : Step shared thread user move next) :
    Accounted next.pool.gate next.users := by
  cases step with
  | acquire resting | tryAcquire resting =>
      refine accounted.set found ?_ ?_ <;>
        simp [PoolUser.slots, resting, Phase.slots, Phase.seen?]
  | release resting held | detach resting held =>
      obtain ⟨inside, -⟩ := List.getElem?_eq_some_iff.mp held
      refine accounted.set found ?_ ?_
      · simp [PoolUser.slots, resting, Phase.slots, List.length_eraseIdx_of_lt inside]
        omega
      · simp [Phase.seen?]
  | see looks free =>
      refine accounted.set found ?_ (by simp [Phase.seen?, free])
      rw [PoolUser.slots, PoolUser.slots, looks.slots_eq]
      rfl
  | turnAway looks full =>
      refine accounted.set found ?_ (by simp)
      rw [PoolUser.slots_turnAway, PoolUser.slots, looks.slots_eq]
      rfl
  | claim claiming =>
      -- the slot is claimed from the count that was seen, which was below the ceiling
      have room := accounted.seen_lt thread user found _ (by rw [claiming]; rfl)
      refine accounted.count found ?_ room (by simp)
      rw [PoolUser.slots_accept, PoolUser.slots, claiming]
      simp only [Phase.slots]
      omega
  | enlist enlisting =>
      refine Accounted.of_sameSlots (accounted.set found ?_ ?_)
        (shared.pool.gate.sameSlots_register thread) <;>
        simp [PoolUser.slots, enlisting, Phase.slots, Phase.seen?]
  | park timing | expire timing =>
      refine accounted.set found ?_ ?_ <;>
        simp [PoolUser.slots, timing, Phase.slots, Phase.seen?, Sequel.slots]
  | wake parked | stir parked =>
      refine accounted.set found ?_ ?_ <;>
        simp [PoolUser.slots, parked, Phase.slots, Phase.seen?]
  | withdraw delisting listed =>
      refine Accounted.of_sameSlots (accounted.set found ?_ (by simp)) ⟨rfl, rfl⟩
      rw [PoolUser.slots_follow, PoolUser.slots, delisting]
      rfl
  | handOver delisting absent =>
      refine accounted.set found ?_ ?_ <;>
        simp [PoolUser.slots, delisting, Phase.slots, Phase.seen?]
  | make searching | take searching | skip searching =>
      refine accounted.set found ?_ ?_ <;>
        simp [PoolUser.slots, searching, Phase.slots, Phase.seen?]
  | store storing =>
      refine accounted.set found ?_ ?_ <;>
        simp [PoolUser.slots, storing, Phase.slots, Phase.seen?]
  | free freeing =>
      -- the slot is still counted, so the counter does not go below zero
      have reserved := accounted.slots_le found
      have within := accounted.le_ceiling
      simp only [PoolUser.slots, freeing, Phase.slots] at reserved
      refine accounted.count found ?_ ?_ ?_
      · simp [PoolUser.slots, freeing, Phase.slots, Sequel.slots]
        omega
      · omega
      · simp [Phase.seen?]
  | call waking waiters =>
      refine Accounted.of_sameSlots (accounted.set found ?_ ?_) ⟨rfl, rfl⟩ <;>
        simp [PoolUser.slots, waking, Phase.slots, Phase.seen?]
  | callNobody waking nobody =>
      refine accounted.set found ?_ (by simp)
      rw [PoolUser.slots_follow, PoolUser.slots, waking]
      rfl
  | unpark unparking =>
      refine Accounted.giveToken (accounted.set found ?_ (by simp)) _
      rw [PoolUser.slots_follow, PoolUser.slots, unparking]
      rfl

/-- Every schedule keeps account of the slots. -/
theorem Reaches.accounted
    {first : SharedPool α}
    (reached : first.Reaches shared)
    (accounted : Accounted first.pool.gate first.users) :
    Accounted shared.pool.gate shared.users :=
  reached.invariant accounted accounted_step

end SharedPool

end DocumentCodec
