import DocumentCodec.Proofs.Pool.Slots
import DocumentCodec.Proofs.Pool.Steps
import DocumentCodec.Proofs.Pool.Totals

namespace DocumentCodec

/-!
# Wake-ups

A thread sleeps only while no slot is free, or while another thread is on its
way that will take the free slot or wake a sleeper for it.

The proof counts promises.  A thread that will still look for a slot after it
went on the list, and one that is about to wake a waiter, each see to one free
slot; a thread that was taken off the list sees to one more, for it hands the
wake-up over if it does not need it.  As soon as a listed thread has looked in
vain there are as many promises as free slots, and no step breaks this.
-/

namespace Gate

/-- To put a waiter in another's place is to let it join and the other leave, up to order. -/
theorem perm_replaced
    {thread newest : ThreadId}
    {older : List ThreadId}
    (distinct : older.Nodup)
    (listed : thread ∈ older) :
    (thread :: older.map fun waiter => if waiter = thread then newest else waiter).Perm
      (newest :: older) := by
  induction older with
  | nil => cases listed
  | cons head rest inductionHypothesis =>
      obtain ⟨absent, distinctRest⟩ := List.nodup_cons.mp distinct
      by_cases same : head = thread
      · subst head
        have kept : (rest.map fun waiter => if waiter = thread then newest else waiter) = rest := by
          refine (List.map_congr_left fun waiter member => ?_).trans rest.map_id
          refine if_neg ?_
          rintro rfl
          exact absent member
        rw [List.map_cons, if_pos rfl, kept]
        exact .swap _ _ _
      · have inRest : thread ∈ rest := (List.mem_cons.mp listed).resolve_left (Ne.symm same)
        rw [List.map_cons, if_neg same]
        have others := (inductionHypothesis distinctRest inRest).cons head
        exact (List.Perm.swap _ _ _).trans (others.trans (.swap _ _ _))

/-- A thread that is taken off the list is the one that the list lacks. -/
theorem perm_withdrawFrom
    {thread : ThreadId}
    {waiters : List ThreadId}
    (distinct : waiters.Nodup)
    (listed : thread ∈ waiters) :
    (thread :: withdrawFrom thread waiters).Perm waiters := by
  cases waiters with
  | nil => cases listed
  | cons newest older =>
      by_cases same : newest = thread
      · subst newest
        rw [withdrawFrom, if_pos rfl]
      · have inOlder : thread ∈ older := (List.mem_cons.mp listed).resolve_left (Ne.symm same)
        rw [withdrawFrom, if_neg same]
        exact perm_replaced distinct.of_cons inOlder

/-- Those on the list are those that were and the one that went on it. -/
theorem mem_register
    {gate : Gate}
    {thread other : ThreadId} :
    other ∈ (gate.register thread).waiters ↔ other = thread ∨ other ∈ gate.waiters := by
  unfold register
  split
  · rename_i listed
    constructor
    · exact .inr
    · rintro (rfl | member)
      · exact listed
      · exact member
  · exact List.mem_cons

/-- Nobody is on the list twice. -/
theorem nodup_register
    {gate : Gate}
    (distinct : gate.waiters.Nodup)
    (thread : ThreadId) :
    (gate.register thread).waiters.Nodup := by
  unfold register
  split
  · exact distinct
  · rename_i absent
    exact List.nodup_cons.mpr ⟨absent, distinct⟩

end Gate

/-- The attempt is made with the thread on the list. -/
def Attempt.isListed : Attempt → Bool
  | listed => true
  | single | first | spinning _ => false

namespace Phase

/-- The thread waits for a slot and may be on the list of waiters. -/
def mayBeListed : Phase α → Bool
  | reading attempt | claiming attempt _ => attempt.isListed
  | enlisting | timing | parked | delisting _ => true
  | _ => false

/-- The thread went on the list and waits for a slot. -/
def wentOnList : Phase α → Bool
  | reading attempt | claiming attempt _ => attempt.isListed
  | timing | parked => true
  | _ => false

/-- The thread found no slot after it went on the list. -/
def lookedInVain : Phase α → Bool
  | timing | parked => true
  | _ => false

/-- The thread will look for a slot from the list, or is about to wake a waiter. -/
def isAlert : Phase α → Bool
  | reading attempt | claiming attempt _ => attempt.isListed
  | waking _ => true
  | _ => false

variable {phase : Phase α} {inUse : Nat} {attempt : Attempt} {move : Move}

@[simp] theorem mayBeListed_claiming (attempt : Attempt) (seen : Nat) :
    (claiming attempt seen : Phase α).mayBeListed = attempt.isListed :=
  rfl

@[simp] theorem wentOnList_claiming (attempt : Attempt) (seen : Nat) :
    (claiming attempt seen : Phase α).wentOnList = attempt.isListed :=
  rfl

@[simp] theorem lookedInVain_claiming (attempt : Attempt) (seen : Nat) :
    (claiming attempt seen : Phase α).lookedInVain = false :=
  rfl

@[simp] theorem isAlert_claiming (attempt : Attempt) (seen : Nat) :
    (claiming attempt seen : Phase α).isAlert = attempt.isListed :=
  rfl

/-- Only a thread that may be on the list went on it. -/
theorem not_wentOnList (never : phase.mayBeListed = false) : ¬ phase.wentOnList = true := by
  cases phase <;> simp_all [wentOnList, mayBeListed]

/-- A thread that looks at the counter may be on the list if its attempt is made from there. -/
theorem Looks.mayBeListed_eq (looks : phase.Looks inUse attempt move) :
    phase.mayBeListed = attempt.isListed := by
  cases looks <;> rfl

/-- A thread that looks at the counter went on the list if its attempt is made from there. -/
theorem Looks.wentOnList_eq (looks : phase.Looks inUse attempt move) :
    phase.wentOnList = attempt.isListed := by
  cases looks <;> rfl

/-- A thread that looks at the counter is alert if its attempt is made from the list. -/
theorem Looks.isAlert_eq (looks : phase.Looks inUse attempt move) :
    phase.isAlert = attempt.isListed := by
  cases looks <;> rfl

/-- A thread that looks at the counter is not about to wake another. -/
theorem Looks.ne_unparking
    (looks : phase.Looks inUse attempt move)
    (target : ThreadId)
    (sequel : Sequel) :
    phase ≠ .unparking target sequel := by
  cases looks <;> simp

end Phase

namespace PoolUser

/-- The thread sleeps, and nobody has told it to wake up. -/
def Asleep (user : PoolUser α) : Prop :=
  user.phase = .parked ∧ user.token = false

/-- The thread uses the pool and does not sleep. -/
def Busy (user : PoolUser α) : Prop :=
  user.phase ≠ .resting ∧ ¬ user.Asleep

/-- How many free slots the thread sees to. -/
def promises (waiters : List ThreadId) (thread : ThreadId) (user : PoolUser α) : Nat :=
  user.phase.isAlert.toNat + (user.phase.mayBeListed && !decide (thread ∈ waiters)).toNat

section

variable (user : PoolUser α) (thread : ThreadId) (policy : OverflowPolicy)
  (attempt : Attempt) (sequel : Sequel)

/-- A thread that is accepted may still be on the list if its attempt was made from there. -/
@[simp] theorem mayBeListed_accept :
    (user.accept thread attempt).phase.mayBeListed = attempt.isListed := by
  cases attempt <;> rfl

/-- A thread that is accepted waits no longer. -/
@[simp] theorem wentOnList_accept :
    (user.accept thread attempt).phase.wentOnList = false := by
  cases attempt <;> rfl

@[simp] theorem lookedInVain_accept :
    (user.accept thread attempt).phase.lookedInVain = false := by
  cases attempt <;> rfl

@[simp] theorem isAlert_accept :
    (user.accept thread attempt).phase.isAlert = false := by
  cases attempt <;> rfl

/-- A thread that is turned away stays on the list. -/
theorem mayBeListed_turnAway (listed : attempt.isListed = true) :
    (user.turnAway policy attempt).phase.mayBeListed = true := by
  cases attempt <;> first | rfl | cases listed

/-- A thread is turned away from the list only to time its sleep. -/
theorem wentOnList_turnAway :
    (user.turnAway policy attempt).phase.wentOnList = attempt.isListed := by
  unfold turnAway
  split <;> first | rfl | (split <;> rfl)

@[simp] theorem token_turnAway : (user.turnAway policy attempt).token = user.token := by
  unfold turnAway
  split <;> first | rfl | (split <;> rfl)

/-- A thread that has woken another is not on the list. -/
@[simp] theorem mayBeListed_follow :
    (user.follow thread sequel).phase.mayBeListed = false := by
  cases sequel <;> rfl

end

variable {user : PoolUser α}

/-- A thread that is about to wake another uses the pool. -/
theorem busy_of_unparking
    {target : ThreadId}
    {sequel : Sequel}
    (unparking : user.phase = .unparking target sequel) :
    user.Busy := by
  simp [Busy, Asleep, unparking]

/-- A thread that sees to a free slot uses the pool, unless it waits to be told. -/
theorem busy_or_of_promises
    {waiters : List ThreadId}
    {thread : ThreadId}
    (promises : 0 < promises waiters thread user) :
    user.Busy ∨ user.Asleep ∧ thread ∉ waiters := by
  by_cases asleep : user.Asleep
  · refine .inr ⟨asleep, fun member => ?_⟩
    simp [PoolUser.promises, asleep.1, member, Phase.isAlert] at promises
  · refine .inl ⟨fun resting => ?_, asleep⟩
    simp [PoolUser.promises, resting, Phase.isAlert, Phase.mayBeListed] at promises

end PoolUser

/-- The thread has a token, or another thread is about to give it one. -/
def Told (users : List (PoolUser α)) (thread : ThreadId) (user : PoolUser α) : Prop :=
  user.token = true ∨
    ∃ other : ThreadId, ∃ waker sequel, users[other]? = some waker ∧
      waker.phase = .unparking thread sequel

/-- A thread on the list found no slot after it went there. -/
def SleepsSoon (gate : Gate) (users : List (PoolUser α)) : Prop :=
  ∃ thread ∈ gate.waiters, ∃ user, users[thread]? = some user ∧
    user.phase.lookedInVain = true

/-- Nobody who waits is forgotten. -/
structure Watched (gate : Gate) (users : List (PoolUser α)) : Prop where
  distinct : gate.waiters.Nodup
  listed : ∀ thread ∈ gate.waiters, ∃ user, users[thread]? = some user ∧
    user.phase.mayBeListed = true
  told : ∀ thread user, users[thread]? = some user → user.phase.wentOnList = true →
    thread ∉ gate.waiters → Told users thread user
  promised : SleepsSoon gate users →
    gate.ceiling ≤ gate.inUse + PoolUser.total (PoolUser.promises gate.waiters) users

/-- What one thread may do to the gate and to itself so that nobody is forgotten. -/
structure Careful (gate after : Gate) (thread : ThreadId) (user changed : PoolUser α) :
    Prop where
  ceiling_eq : after.ceiling = gate.ceiling
  distinct : gate.waiters.Nodup → after.waiters.Nodup
  others : ∀ other, other ≠ thread → (other ∈ after.waiters ↔ other ∈ gate.waiters)
  listed : thread ∈ after.waiters → changed.phase.mayBeListed = true
  told : changed.phase.wentOnList = true → thread ∉ after.waiters →
    user.phase.wentOnList = true ∧ thread ∉ gate.waiters ∧ changed.token = user.token
  quiet : ∀ target sequel, user.phase ≠ .unparking target sequel
  promised : after.waiters ≠ [] → after.inUse < after.ceiling →
    (thread ∈ after.waiters → changed.phase.lookedInVain = true →
      thread ∈ gate.waiters ∧ user.phase.lookedInVain = true) ∧
    gate.inUse + PoolUser.promises gate.waiters thread user ≤
      after.inUse + PoolUser.promises after.waiters thread changed

section

variable {gate after : Gate} {users : List (PoolUser α)} {thread : ThreadId}
  {user changed : PoolUser α}

/-- A thread stays told while others change, unless they were about to wake it. -/
theorem Told.set
    {other : ThreadId}
    {waiting : PoolUser α}
    (told : Told users other waiting)
    (found : users[thread]? = some user)
    (quiet : ∀ sequel, user.phase ≠ .unparking other sequel)
    (changed : PoolUser α) :
    Told (users.set thread changed) other waiting := by
  rcases told with token | ⟨second, waker, sequel, foundWaker, unparking⟩
  · exact .inl token
  · refine .inr ⟨second, waker, sequel, ?_, unparking⟩
    have different : second ≠ thread := by
      rintro rfl
      rw [found] at foundWaker
      cases foundWaker
      exact quiet sequel unparking
    rw [PoolUser.getElem?_set found, if_neg different]
    exact foundWaker

/-- A thread on the list is in a phase that may be listed. -/
theorem Watched.mayBeListed
    (watched : Watched gate users)
    (found : users[thread]? = some user)
    (member : thread ∈ gate.waiters) :
    user.phase.mayBeListed = true := by
  obtain ⟨same, foundSame, may⟩ := watched.listed thread member
  rw [found] at foundSame
  cases foundSame
  exact may

/-- A thread whose phase is never listed is not on the list. -/
theorem Watched.not_mem
    (watched : Watched gate users)
    (found : users[thread]? = some user)
    (never : user.phase.mayBeListed = false) :
    thread ∉ gate.waiters := by
  intro member
  have may := watched.mayBeListed found member
  rw [never] at may
  cases may

/-- A careful step of one thread forgets nobody. -/
theorem Watched.set
    (watched : Watched gate users)
    (found : users[thread]? = some user)
    (careful : Careful gate after thread user changed) :
    Watched after (users.set thread changed) where
  distinct := careful.distinct watched.distinct
  listed other member := by
    by_cases same : other = thread
    · subst other
      exact ⟨changed, PoolUser.getElem?_set_self found _, careful.listed member⟩
    · obtain ⟨waiting, foundWaiting, may⟩ :=
        watched.listed other ((careful.others other same).mp member)
      exact ⟨waiting, by simp [PoolUser.getElem?_set found, same, foundWaiting], may⟩
  told := by
    refine PoolUser.forall_set found (fun went absent => ?_)
      fun other waiting different foundWaiting went absent => ?_
    · obtain ⟨wentBefore, absentBefore, tokens⟩ := careful.told went absent
      have told := (watched.told thread user found wentBefore absentBefore).set found
        (careful.quiet _) changed
      rwa [Told, ← tokens] at told
    · have absentBefore : other ∉ gate.waiters := fun member =>
        absent ((careful.others other different).mpr member)
      exact (watched.told other waiting foundWaiting went absentBefore).set found
        (careful.quiet _) changed
  promised := by
    rintro ⟨other, member, waiting, foundWaiting, vain⟩
    by_cases full : after.ceiling ≤ after.inUse
    · exact Nat.le_add_right_of_le full
    · obtain ⟨keeps, balance⟩ :=
        careful.promised (List.ne_nil_of_mem member) (Nat.lt_of_not_le full)
      -- somebody sleeps soon after the step only if somebody did before it
      have before : ∀ (other : ThreadId) (waiting : PoolUser α),
          (users.set thread changed)[other]? = some waiting → other ∈ after.waiters →
            waiting.phase.lookedInVain = true → SleepsSoon gate users := by
        refine PoolUser.forall_set found (fun member vain => ?_)
          fun other waiting different foundWaiting member vain => ?_
        · obtain ⟨memberBefore, vainBefore⟩ := keeps member vain
          exact ⟨thread, memberBefore, user, found, vainBefore⟩
        · exact ⟨other, (careful.others other different).mp member, waiting, foundWaiting, vain⟩
      have promised := watched.promised (before other waiting foundWaiting member vain)
      have agree (second : ThreadId) (user : PoolUser α) (ne : second ≠ thread) :
          PoolUser.promises after.waiters second user =
            PoolUser.promises gate.waiters second user := by
        simp [PoolUser.promises, careful.others second ne]
      have totals :=
        @PoolUser.total_set_of_agree _ (PoolUser.promises gate.waiters)
          (PoolUser.promises after.waiters) _ _ _ found
          (fun second user _ => agree second user) changed
      rw [careful.ceiling_eq]
      omega

/-- A thread that is not on the list, before and after. -/
theorem careful_of_unlisted
    {inUse : Nat}
    (absent : thread ∉ gate.waiters)
    (never : changed.phase.mayBeListed = false)
    (quiet : ∀ target sequel, user.phase ≠ .unparking target sequel)
    (balance : gate.inUse + user.phase.isAlert.toNat + user.phase.mayBeListed.toNat ≤
      inUse + changed.phase.isAlert.toNat) :
    Careful gate { gate with inUse } thread user changed where
  ceiling_eq := rfl
  distinct := id
  others _ _ := Iff.rfl
  listed member := (absent member).elim
  told went := (Phase.not_wentOnList never went).elim
  quiet := quiet
  promised _ _ := by
    refine ⟨fun member => (absent member).elim, ?_⟩
    simpa [PoolUser.promises, absent, never, Nat.add_assoc] using balance

/-- A thread that may be on the list and does not change that. -/
theorem careful_of_waiting
    {inUse : Nat}
    (mayBefore : user.phase.mayBeListed = true)
    (may : changed.phase.mayBeListed = true)
    (quiet : ∀ target sequel, user.phase ≠ .unparking target sequel)
    (told : changed.phase.wentOnList = true →
      user.phase.wentOnList = true ∧ changed.token = user.token)
    (vain : changed.phase.lookedInVain = true → user.phase.lookedInVain = true)
    (balance : gate.inUse + user.phase.isAlert.toNat ≤ inUse + changed.phase.isAlert.toNat) :
    Careful gate { gate with inUse } thread user changed where
  ceiling_eq := rfl
  distinct := id
  others _ _ := Iff.rfl
  listed _ := may
  told went absent := ⟨(told went).1, absent, (told went).2⟩
  quiet := quiet
  promised _ _ := by
    refine ⟨fun member looked => ⟨member, vain looked⟩, ?_⟩
    simp only [PoolUser.promises, mayBefore, may]
    omega

/-- A thread that finds no slot. -/
theorem careful_of_full
    (full : gate.ceiling ≤ gate.inUse)
    (may : thread ∈ gate.waiters → changed.phase.mayBeListed = true)
    (quiet : ∀ target sequel, user.phase ≠ .unparking target sequel)
    (told : changed.phase.wentOnList = true →
      user.phase.wentOnList = true ∧ changed.token = user.token) :
    Careful gate gate thread user changed where
  ceiling_eq := rfl
  distinct := id
  others _ _ := Iff.rfl
  listed := may
  told went absent := ⟨(told went).1, absent, (told went).2⟩
  quiet := quiet
  promised _ free := (Nat.not_le_of_lt free full).elim

/-- A thread that finds nobody on the list. -/
theorem careful_of_nobody
    (nobody : gate.waiters = [])
    (never : changed.phase.mayBeListed = false)
    (quiet : ∀ target sequel, user.phase ≠ .unparking target sequel) :
    Careful gate gate thread user changed where
  ceiling_eq := rfl
  distinct := id
  others _ _ := Iff.rfl
  listed member := by simp [nobody] at member
  told went := (Phase.not_wentOnList never went).elim
  quiet := quiet
  promised somebody := (somebody nobody).elim

/-- A thread that goes on the list, to look for a slot from there. -/
theorem careful_register (enlisting : user.phase = .enlisting) :
    Careful gate (gate.register thread) thread user (user.enter (.reading .listed)) where
  ceiling_eq := (Gate.sameSlots_register gate thread).ceiling_eq
  distinct distinct := Gate.nodup_register distinct thread
  others other different := by simp [Gate.mem_register, different]
  listed _ := rfl
  told _ absent := (absent (Gate.mem_register.mpr (.inl rfl))).elim
  quiet := by simp [enlisting]
  promised _ _ := by
    refine ⟨fun _ never => (nomatch never), ?_⟩
    rw [(Gate.sameSlots_register gate thread).inUse_eq]
    simp [PoolUser.promises, enlisting, Phase.isAlert, Phase.mayBeListed, Attempt.isListed,
      Gate.mem_register, Bool.toNat_le]

/-- A thread that takes itself off the list. -/
theorem careful_withdraw
    {sequel : Sequel}
    (distinct : gate.waiters.Nodup)
    (listed : thread ∈ gate.waiters)
    (delisting : user.phase = .delisting sequel)
    (never : changed.phase.mayBeListed = false) :
    Careful gate { gate with waiters := Gate.withdrawFrom thread gate.waiters } thread user
      changed := by
  have same := Gate.perm_withdrawFrom distinct listed
  obtain ⟨absent, left⟩ := List.nodup_cons.mp (same.nodup_iff.mpr distinct)
  exact {
    ceiling_eq := rfl
    distinct := fun _ => left
    others := fun other different => by simp [← same.mem_iff, different]
    listed := fun member => (absent member).elim
    told := fun went => (Phase.not_wentOnList never went).elim
    quiet := by simp [delisting]
    promised := fun _ _ => by
      refine ⟨fun member => (absent member).elim, ?_⟩
      simp [PoolUser.promises, delisting, Phase.isAlert, Phase.mayBeListed, listed] }

/-- Threads that are not on the list stay told when a thread goes on that does not wake them. -/
theorem Watched.told_set
    (watched : Watched gate users)
    (found : users[thread]? = some user)
    (never : changed.phase.mayBeListed = false) :
    ∀ (other : ThreadId) (waiting : PoolUser α),
      (users.set thread changed)[other]? = some waiting → waiting.phase.wentOnList = true →
        other ∉ gate.waiters → (∀ sequel, user.phase ≠ .unparking other sequel) →
          Told (users.set thread changed) other waiting := by
  refine PoolUser.forall_set found (fun went => (Phase.not_wentOnList never went).elim) ?_
  intro other waiting _ foundWaiting went absent quiet
  exact (watched.told other waiting foundWaiting went absent).set found quiet changed

/-- A thread keeps what it is told when another one has got a token. -/
theorem Told.giveToken
    {other target : ThreadId}
    {waiting : PoolUser α}
    (told : Told users other waiting) :
    Told (PoolUser.giveToken users target) other waiting := by
  rcases told with token | ⟨second, waker, sequel, foundWaker, unparking⟩
  · exact .inl token
  · refine .inr ⟨second, _, sequel, by rw [PoolUser.getElem?_giveToken, foundWaker]; rfl, ?_⟩
    split <;> exact unparking

/-- A thread that takes another one off the list sees to its wake-up. -/
theorem Watched.call
    {target : ThreadId}
    {older : List ThreadId}
    {sequel : Sequel}
    (watched : Watched gate users)
    (found : users[thread]? = some user)
    (waking : user.phase = .waking sequel)
    (waiters : gate.waiters = target :: older) :
    Watched { gate with waiters := older }
      (users.set thread (user.enter (.unparking target sequel))) := by
  have absent : thread ∉ gate.waiters :=
    watched.not_mem found (by simp [waking, Phase.mayBeListed])
  have distinct := watched.distinct
  rw [waiters, List.nodup_cons] at distinct
  have older_sub {other : ThreadId} (member : other ∈ older) : other ∈ gate.waiters := by
    simp [waiters, member]
  have older_ne {other : ThreadId} (member : other ∈ older) : other ≠ thread := by
    rintro rfl
    exact absent (older_sub member)
  refine ⟨distinct.2, fun other member => ?_, ?_, ?_⟩
  · obtain ⟨waiting, foundWaiting, may⟩ := watched.listed other (older_sub member)
    exact ⟨waiting, by simp [PoolUser.getElem?_set found, older_ne member, foundWaiting], may⟩
  · intro other waiting foundWaiting went missing
    by_cases called : other = target
    · subst other
      exact .inr ⟨thread, _, sequel, PoolUser.getElem?_set_self found _, rfl⟩
    · exact watched.told_set found rfl other waiting foundWaiting went
        (by simp [waiters, called, missing]) (by simp [waking])
  · rintro ⟨other, member, waiting, foundWaiting, vain⟩
    rw [PoolUser.getElem?_set found, if_neg (older_ne member)] at foundWaiting
    have promised := watched.promised ⟨other, older_sub member, waiting, foundWaiting, vain⟩
    obtain ⟨called, foundCalled, mayCalled⟩ := watched.listed target (by simp [waiters])
    -- what the caller no longer sees to, the thread that it calls does
    have calledTotal :=
      @PoolUser.total_of_agree _ (PoolUser.promises gate.waiters) (PoolUser.promises older)
        _ _ _ foundCalled fun second user _ different => by
          simp [PoolUser.promises, waiters, different]
    have callerTotal :=
      @PoolUser.total_set _ (PoolUser.promises older) _ _ _ found
        (user.enter (.unparking target sequel))
    have calledBefore : PoolUser.promises gate.waiters target called =
        called.phase.isAlert.toNat := by
      simp [PoolUser.promises, waiters]
    have calledAfter : PoolUser.promises older target called =
        called.phase.isAlert.toNat + 1 := by
      simp [PoolUser.promises, mayCalled, distinct.1]
    have callerBefore : PoolUser.promises older thread user = 1 := by
      simp [PoolUser.promises, waking, Phase.isAlert, Phase.mayBeListed]
    have callerAfter :
        PoolUser.promises older thread (user.enter (.unparking target sequel)) = 0 := by
      simp [PoolUser.promises, Phase.isAlert, Phase.mayBeListed]
    simp only at promised ⊢
    omega

/-- A thread that gives a token to another has done what it saw to. -/
theorem Watched.unpark
    {target : ThreadId}
    {sequel : Sequel}
    (watched : Watched gate users)
    (found : users[thread]? = some user)
    (unparking : user.phase = .unparking target sequel)
    (never : changed.phase.mayBeListed = false) :
    Watched gate (PoolUser.giveToken (users.set thread changed) target) := by
  have absent : thread ∉ gate.waiters :=
    watched.not_mem found (by simp [unparking, Phase.mayBeListed])
  have after {other : ThreadId} (different : other ≠ thread) :
      (PoolUser.giveToken (users.set thread changed) target)[other]? =
        users[other]?.map fun user =>
          if target = other then { user with token := true } else user := by
    rw [PoolUser.getElem?_giveToken, PoolUser.getElem?_set found, if_neg different]
  refine ⟨watched.distinct, fun other member => ?_, fun other waiting foundWaiting => ?_, ?_⟩
  · have different : other ≠ thread := fun same => absent (same ▸ member)
    obtain ⟨waiting, foundWaiting, may⟩ := watched.listed other member
    refine ⟨_, by rw [after different, foundWaiting]; rfl, ?_⟩
    split <;> exact may
  · rw [PoolUser.getElem?_giveToken] at foundWaiting
    obtain ⟨before, foundBefore, rfl⟩ := Option.map_eq_some_iff.mp foundWaiting
    by_cases called : target = other
    · exact fun _ _ => .inl (by simp [called])
    · rw [if_neg called]
      intro went missing
      refine Told.giveToken (watched.told_set found never other before foundBefore went missing ?_)
      simp [unparking, called]
  · rintro ⟨other, member, waiting, foundWaiting, vain⟩
    have different : other ≠ thread := fun same => absent (same ▸ member)
    rw [after different] at foundWaiting
    obtain ⟨before, foundBefore, rfl⟩ := Option.map_eq_some_iff.mp foundWaiting
    have promised :=
      watched.promised ⟨other, member, before, foundBefore, by split at vain <;> exact vain⟩
    have tokens :=
      @PoolUser.total_giveToken _ (PoolUser.promises gate.waiters) (users.set thread changed)
        (fun _ _ => rfl) target
    have totals := @PoolUser.total_set _ (PoolUser.promises gate.waiters) _ _ _ found changed
    have nothing : PoolUser.promises gate.waiters thread user = 0 := by
      simp [PoolUser.promises, unparking, Phase.isAlert, Phase.mayBeListed]
    omega

/-- A thread that sleeps and is not on the list is about to be woken by another. -/
theorem Watched.exists_waker
    (watched : Watched gate users)
    (found : users[thread]? = some user)
    (asleep : user.Asleep)
    (absent : thread ∉ gate.waiters) :
    ∃ other : ThreadId, ∃ waker sequel, users[other]? = some waker ∧
      waker.phase = .unparking thread sequel := by
  rcases watched.told thread user found (by simp [asleep.1, Phase.wentOnList]) absent with
    token | waker
  · simp [asleep.2] at token
  · exact waker

/-- While a slot is free, a thread that sleeps does not do so alone. -/
theorem Watched.exists_busy
    (watched : Watched gate users)
    (found : users[thread]? = some user)
    (asleep : user.Asleep)
    (free : gate.inUse < gate.ceiling) :
    ∃ other helper, other ≠ thread ∧ users[other]? = some helper ∧ helper.Busy := by
  have awake {other : ThreadId} {helper : PoolUser α} (foundHelper : users[other]? = some helper)
      (busy : helper.Busy) : other ≠ thread := by
    rintro rfl
    rw [found] at foundHelper
    cases foundHelper
    exact busy.2 asleep
  have waker {target : ThreadId} {sleeper : PoolUser α} (found : users[target]? = some sleeper)
      (asleep : sleeper.Asleep) (absent : target ∉ gate.waiters) :
      ∃ other helper, other ≠ thread ∧ users[other]? = some helper ∧ helper.Busy := by
    obtain ⟨other, helper, _, foundHelper, unparking⟩ := watched.exists_waker found asleep absent
    have busy := PoolUser.busy_of_unparking unparking
    exact ⟨other, helper, awake foundHelper busy, foundHelper, busy⟩
  by_cases listed : thread ∈ gate.waiters
  · have promised := watched.promised
      ⟨thread, listed, user, found, by simp [asleep.1, Phase.lookedInVain]⟩
    have positive : 0 < PoolUser.total (PoolUser.promises gate.waiters) users := by omega
    obtain ⟨other, helper, foundHelper, promises⟩ := PoolUser.exists_of_total_pos positive
    rcases PoolUser.busy_or_of_promises promises with busy | ⟨sleeps, absent⟩
    · exact ⟨other, helper, awake foundHelper busy, foundHelper, busy⟩
    · exact waker foundHelper sleeps absent
  · exact waker found asleep listed

/-- At first nobody waits. -/
theorem watched_start
    (pool : BoundedPool α)
    (nobody : pool.gate.waiters = [])
    (threads : Nat) :
    Watched (SharedPool.start pool threads).pool.gate (SharedPool.start pool threads).users where
  distinct := by simp [SharedPool.start, nobody]
  listed thread member := by simp [SharedPool.start, nobody] at member
  told thread user found went _ := by
    rw [SharedPool.eq_holding_of_start found] at went
    cases went
  promised := by
    rintro ⟨thread, member, -⟩
    simp [SharedPool.start, nobody] at member

end

namespace SharedPool

variable [Reusable α] {shared next : SharedPool α} {thread : ThreadId} {user : PoolUser α}
  {move : Move}

/-- No step forgets a waiting thread. -/
theorem watched_step
    (watched : Watched shared.pool.gate shared.users)
    (found : shared.users[thread]? = some user)
    (step : Step shared thread user move next) :
    Watched next.pool.gate next.users := by
  have unlisted (never : user.phase.mayBeListed = false) : thread ∉ shared.pool.gate.waiters :=
    watched.not_mem found never
  -- only a call and an unpark concern a second thread
  cases step with
  | acquire resting | tryAcquire resting | release resting | detach resting =>
      refine watched.set found (careful_of_unlisted (unlisted ?_) rfl ?_ ?_) <;>
        simp [resting, Phase.mayBeListed, Phase.isAlert, Attempt.isListed]
  | @see _ attempt looks free =>
      have may := looks.mayBeListed_eq
      have alert := looks.isAlert_eq
      cases listed : attempt.isListed with
      | false =>
          refine watched.set found
            (careful_of_unlisted (unlisted ?_) ?_ looks.ne_unparking ?_) <;>
            simp [may, alert, listed]
      | true =>
          refine watched.set found
            (careful_of_waiting ?_ ?_ looks.ne_unparking ?_ ?_ ?_) <;>
            simp [may, alert, listed, looks.wentOnList_eq]
  | @turnAway _ attempt looks full =>
      refine watched.set found (careful_of_full full (fun member => ?_) looks.ne_unparking ?_)
      · have may := watched.mayBeListed found member
        rw [looks.mayBeListed_eq] at may
        exact user.mayBeListed_turnAway _ attempt may
      · simp [looks.wentOnList_eq, PoolUser.wentOnList_turnAway]
  | @claim attempt claiming =>
      cases listed : attempt.isListed with
      | false =>
          refine watched.set found (careful_of_unlisted (unlisted ?_) ?_ ?_ ?_) <;>
            simp [claiming, listed]
      | true =>
          refine watched.set found (careful_of_waiting ?_ ?_ ?_ ?_ ?_ ?_) <;>
            simp [claiming, listed]
  | enlist enlisting => exact watched.set found (careful_register enlisting)
  | park timing | expire timing =>
      refine watched.set found (careful_of_waiting ?_ rfl ?_ ?_ ?_ ?_) <;>
        simp [timing, Phase.mayBeListed, Phase.wentOnList, Phase.lookedInVain, Phase.isAlert]
  | wake parked | stir parked =>
      refine watched.set found (careful_of_waiting ?_ rfl ?_ ?_ ?_ ?_) <;>
        simp [parked, Phase.mayBeListed, Phase.wentOnList, Phase.lookedInVain, Phase.isAlert]
  | withdraw delisting listed =>
      exact watched.set found
        (careful_withdraw watched.distinct listed delisting (user.mayBeListed_follow _ _))
  | handOver delisting absent =>
      refine watched.set found (careful_of_unlisted absent rfl ?_ ?_) <;>
        simp [delisting, Phase.mayBeListed, Phase.isAlert]
  | make searching | take searching | skip searching =>
      refine watched.set found (careful_of_unlisted (unlisted ?_) rfl ?_ ?_) <;>
        simp [searching, Phase.mayBeListed, Phase.isAlert]
  | store storing =>
      refine watched.set found (careful_of_unlisted (unlisted ?_) rfl ?_ ?_) <;>
        simp [storing, Phase.mayBeListed, Phase.isAlert]
  | free freeing =>
      refine watched.set found (careful_of_unlisted (unlisted ?_) rfl ?_ ?_) <;>
        simp [freeing, Phase.mayBeListed, Phase.isAlert]
      omega
  | call waking waiters => exact watched.call found waking waiters
  | callNobody waking nobody =>
      exact watched.set found
        (careful_of_nobody nobody (user.mayBeListed_follow _ _) (by simp [waking]))
  | unpark unparking =>
      exact watched.unpark found unparking (user.mayBeListed_follow _ _)

/-- Every schedule keeps those who wait watched. -/
theorem Reaches.watched
    {first : SharedPool α}
    (reached : first.Reaches shared)
    (watched : Watched first.pool.gate first.users) :
    Watched shared.pool.gate shared.users :=
  reached.invariant watched watched_step

/--
No wake-up is lost.  Whatever threads did with a new pool, a thread is on the
list of waiters at most once and only while it waits for a slot; and while a
slot is free, a thread that sleeps without a token is never alone with threads
that rest or sleep.
-/
theorem run_loses_no_wakeup
    {initial ceiling threads : Nat}
    {policy : OverflowPolicy}
    {factory : Nat → α}
    {schedule : List (ThreadId × Move)}
    (ran : (start (.create initial ceiling policy factory) threads).run? schedule = some shared) :
    let gate := shared.pool.gate
    gate.waiters.Nodup ∧
      (∀ thread ∈ gate.waiters, ∃ user, shared.users[thread]? = some user ∧
        user.phase.mayBeListed = true) ∧
      (∀ (thread : ThreadId) (user : PoolUser α), shared.users[thread]? = some user →
        user.Asleep → gate.inUse < gate.ceiling →
          ∃ (other : ThreadId) (helper : PoolUser α), other ≠ thread ∧
            shared.users[other]? = some helper ∧ helper.Busy) ∧
      ¬ (gate.inUse < gate.ceiling ∧ (∃ user ∈ shared.users, user.Asleep) ∧
        ∀ user ∈ shared.users, user.phase = .resting ∨ user.Asleep) := by
  intro gate
  have watched : Watched gate shared.users :=
    (reaches_of_run? ran).watched (watched_start _ rfl threads)
  refine ⟨watched.distinct, watched.listed, fun thread user found => watched.exists_busy found, ?_⟩
  rintro ⟨free, ⟨user, member, asleep⟩, idle⟩
  obtain ⟨thread, found⟩ := List.mem_iff_getElem?.mp member
  obtain ⟨other, helper, -, foundHelper, busy⟩ := watched.exists_busy found asleep free
  rcases idle helper (List.mem_of_getElem? foundHelper) with resting | sleeps
  · exact busy.1 resting
  · exact busy.2 sleeps

/--
A schedule of two threads for a pool of one item: the first takes the item, the
second goes to sleep, and the first frees the slot and has yet to wake it.
-/
def wakingSchedule : List (ThreadId × Move) :=
  (0, .acquire) :: List.replicate 19 (0, .proceed) ++
    (1, .acquire) :: List.replicate 4 (1, .proceed) ++
      (0, .release 0) :: List.replicate 2 (0, .proceed)

/-- A thread sleeps on the list, and the other has freed its slot and will wake it. -/
theorem run_wakes_sleeper :
    ∃ shared : SharedPool (List Nat),
      (start (.create 0 1 (.blocking none 0) ([·])) 2).run? wakingSchedule = some shared ∧
        shared.pool.gate = ⟨0, 1, [1]⟩ ∧
        (∃ sleeper : PoolUser (List Nat), shared.users[1]? = some sleeper ∧ sleeper.Asleep) ∧
        ∃ (other : ThreadId) (helper : PoolUser (List Nat)), other ≠ 1 ∧
          shared.users[other]? = some helper ∧ helper.Busy := by
  obtain ⟨shared, ran, gate, users⟩ : ∃ shared : SharedPool (List Nat),
      (start (.create 0 1 (.blocking none 0) ([·])) 2).run? wakingSchedule = some shared ∧
        shared.pool.gate = ⟨0, 1, [1]⟩ ∧
        shared.users = [⟨.waking .leave, [], false, 1, 0⟩, ⟨.parked, [], false, 0, 0⟩] :=
    ⟨_, rfl, rfl, rfl⟩
  have found : shared.users[1]? = some ⟨.parked, [], false, 0, 0⟩ := by simp [users]
  obtain ⟨-, -, helped, -⟩ := run_loses_no_wakeup ran
  exact ⟨shared, ran, gate, ⟨_, found, rfl, rfl⟩, helped 1 _ found ⟨rfl, rfl⟩ (by simp [gate])⟩

end SharedPool

end DocumentCodec
