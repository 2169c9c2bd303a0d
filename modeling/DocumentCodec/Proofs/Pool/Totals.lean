import DocumentCodec.Proofs.Pool.Steps
import Mathlib.Algebra.BigOperators.Fin

namespace DocumentCodec

/-!
# Totals over threads

A number that each thread has is added up over all threads.  When one thread
changes, the total changes as the number of that thread does.
-/

namespace PoolUser

/-- The sum of a number that each thread has. -/
def total (count : ThreadId → PoolUser α → Nat) (users : List (PoolUser α)) : Nat :=
  (users.mapIdx count).sum

variable {count other : ThreadId → PoolUser α → Nat} {users : List (PoolUser α)}
  {thread : Nat} {old : PoolUser α}

@[simp] theorem total_nil : total count [] = 0 :=
  rfl

@[simp] theorem total_cons (user : PoolUser α) (users : List (PoolUser α)) :
    total count (user :: users) =
      count 0 user + total (fun thread => count (thread + 1)) users := by
  simp [total, List.mapIdx_cons]

/--
When one thread is changed, and another number is as large as this one for all
other threads, the totals differ as the numbers of that thread do.
-/
theorem total_set_of_agree
    (found : users[thread]? = some old)
    (agree : ∀ second user, users[second]? = some user → second ≠ thread →
      other second user = count second user)
    (user : PoolUser α) :
    total other (users.set thread user) + count thread old =
      total count users + other thread user := by
  induction users generalizing thread count other with
  | nil => cases found
  | cons first rest inductionHypothesis =>
      cases thread with
      | zero =>
          cases found
          have others : total (fun thread => other (thread + 1)) rest =
              total (fun thread => count (thread + 1)) rest := by
            refine congrArg List.sum (List.mapIdx_eq_mapIdx_iff.mpr fun second inside => ?_)
            exact agree (second + 1) _ (List.getElem?_eq_getElem inside) (Nat.succ_ne_zero _)
          simp only [List.set_cons_zero, total_cons, others]
          omega
      | succ thread =>
          have here := agree 0 first rfl (Nat.succ_ne_zero thread).symm
          have others :=
            @inductionHypothesis (fun thread => count (thread + 1))
              (fun thread => other (thread + 1)) thread found fun second user found ne =>
                agree (second + 1) user found (fun eq => ne (Nat.succ.inj eq))
          simp only [List.set_cons_succ, total_cons]
          omega

/-- When one thread is changed, the total changes as the number of that thread does. -/
theorem total_set
    (found : users[thread]? = some old)
    (user : PoolUser α) :
    total count (users.set thread user) + count thread old =
      total count users + count thread user :=
  total_set_of_agree found (fun _ _ _ _ => rfl) user

/-- A number that is as large as another for all threads but one. -/
theorem total_of_agree
    (found : users[thread]? = some old)
    (agree : ∀ second user, users[second]? = some user → second ≠ thread →
      other second user = count second user) :
    total other users + count thread old = total count users + other thread old := by
  obtain ⟨inside, rfl⟩ := List.getElem?_eq_some_iff.mp found
  have changed := total_set_of_agree found agree users[thread]
  rwa [List.set_getElem_self inside] at changed

/-- A larger count for each thread makes a larger total. -/
theorem total_mono
    (le : ∀ thread user, users[thread]? = some user → count thread user ≤ other thread user) :
    total count users ≤ total other users := by
  induction users generalizing count other with
  | nil => exact Nat.le_refl 0
  | cons first rest inductionHypothesis =>
      simp only [total_cons]
      refine Nat.add_le_add (le 0 first rfl) (inductionHypothesis fun thread user found => ?_)
      exact le (thread + 1) user found

/-- A number that is larger for one thread and not smaller for any has a larger total. -/
theorem total_lt_total
    (found : users[thread]? = some old)
    (lt : count thread old < other thread old)
    (le : ∀ thread user, users[thread]? = some user → count thread user ≤ other thread user) :
    total count users < total other users := by
  induction users generalizing thread count other with
  | nil => cases found
  | cons first rest inductionHypothesis =>
      have leRest (thread : ThreadId) (user : PoolUser α) (found : rest[thread]? = some user) :
          count (thread + 1) user ≤ other (thread + 1) user :=
        le (thread + 1) user found
      simp only [total_cons]
      cases thread with
      | zero =>
          cases found
          exact Nat.add_lt_add_of_lt_of_le lt (total_mono leRest)
      | succ thread =>
          exact Nat.add_lt_add_of_le_of_lt (le 0 first rfl)
            (inductionHypothesis found lt leRest)

/-- A number that does not depend on the token has the same total after a thread gets one. -/
theorem total_giveToken
    (same : ∀ thread user, count thread { user with token := true } = count thread user)
    (target : ThreadId) :
    total count (giveToken users target) = total count users := by
  unfold giveToken
  induction users generalizing target count with
  | nil => cases target <;> rfl
  | cons first rest inductionHypothesis =>
      cases target with
      | zero => simp [List.modify_zero_cons, same]
      | succ target =>
          simp only [List.modify_succ_cons, total_cons]
          exact congrArg (count 0 first + ·)
            (inductionHypothesis (fun thread user => same (thread + 1) user) target)

/-- No thread counts for more than all of them. -/
theorem le_total (found : users[thread]? = some old) : count thread old ≤ total count users := by
  induction users generalizing thread count with
  | nil => cases found
  | cons first rest inductionHypothesis =>
      simp only [total_cons]
      cases thread with
      | zero =>
          cases found
          exact Nat.le_add_right _ _
      | succ thread =>
          have others := @inductionHypothesis (fun thread => count (thread + 1)) _ found
          exact Nat.le_trans others (Nat.le_add_left _ _)

theorem total_zero (users : List (PoolUser α)) : total (fun _ _ => 0) users = 0 := by
  induction users with
  | nil => rfl
  | cons first rest inductionHypothesis => simpa using inductionHypothesis

/-- Something is counted of some thread, if anything is. -/
theorem exists_of_total_pos
    (positive : 0 < total count users) :
    ∃ thread user, users[thread]? = some user ∧ 0 < count thread user := by
  by_contra none
  push Not at none
  have nothing : total count users ≤ total (fun _ _ => 0) users := total_mono none
  rw [total_zero] at nothing
  omega

/-- A number that is counted for each group of threads apart adds up to its total. -/
theorem sum_total_of_group
    (group : ThreadId → Fin size)
    (users : List (PoolUser α)) :
    ∑ index, total (fun thread user => if group thread = index then count thread user else 0)
        users =
      total count users := by
  induction users generalizing count group with
  | nil => simp
  | cons first rest inductionHypothesis =>
      simp only [total_cons, Finset.sum_add_distrib, Finset.sum_ite_eq, Finset.mem_univ, if_true]
      rw [inductionHypothesis fun thread => group (thread + 1)]

end PoolUser

end DocumentCodec
