import DocumentCodec.Proofs.Document.LastBinding
import DocumentCodec.Value.Equality

namespace DocumentCodec.Value

/-!
# Equality by recursion

The comparison of values works off a list of pairs.  Here equality is said by
recursion on the left value, and the comparison is shown to decide it.
-/

mutual

/-- Equality of values, container by container. -/
def same : Value → Value → Bool
  | .array items, .array others => sameItems items others
  | .map entries, .map others =>
      entries.length == others.length && sameEntries entries others
  | left, right => equalScalars left right

/-- Equality of arrays' items, one by one. -/
def sameItems : List Value → List Value → Bool
  | [], [] => true
  | item :: items, other :: others => same item other && sameItems items others
  | _, _ => false

/-- Whether every entry of a map has an equal one under its key in another. -/
def sameEntries : List (String × Value) → Entries → Bool
  | [], _ => true
  | (key, value) :: rest, others =>
      match others.last? key with
      | some other => same value other && sameEntries rest others
      | none => false

end

/-- Equality of the two values of every pair. -/
def samePairs (pending : List (Value × Value)) : Bool :=
  pending.all fun pair => same pair.1 pair.2

/-- Pairs are equal if the first is and the others are. -/
theorem samePairs_cons (left right : Value) (pending : List (Value × Value)) :
    samePairs ((left, right) :: pending) = (same left right && samePairs pending) :=
  rfl

/-- The index of a map finds the last value under a key. -/
theorem getElem?_indexEntries (entries : Entries) (key : String) :
    (indexEntries entries)[key]? = entries.last? key := by
  have general (index : Std.HashMap String Value) :
      (entries.foldl (fun index entry => index.insert entry.1 entry.2) index)[key]? =
        match entries.last? key with
        | some value => some value
        | none => index[key]? := by
    induction entries generalizing index with
    | nil => rfl
    | cons entry rest inductionHypothesis =>
        rcases entry with ⟨name, value⟩
        rw [List.foldl_cons, inductionHypothesis, Entries.last?]
        cases Entries.last? key rest with
        | some later => rfl
        | none =>
            rw [Std.HashMap.getElem?_insert]
            by_cases found : name = key
            · simp [found]
            · simp [found]
  rw [indexEntries, general ∅]
  cases entries.last? key with
  | some value => rfl
  | none => exact Std.HashMap.getElem?_empty

/-- Lists of one length are equal if all their pairs are. -/
theorem samePairs_zip_append
    (items others : List Value)
    (pending : List (Value × Value))
    (sized : items.length = others.length) :
    samePairs (items.zip others ++ pending) =
      (sameItems items others && samePairs pending) := by
  induction items generalizing others with
  | nil =>
      cases others with
      | nil => rfl
      | cons other others => cases sized
  | cons item items inductionHypothesis =>
      cases others with
      | nil => cases sized
      | cons other others =>
          rw [List.zip_cons_cons, List.cons_append, samePairs_cons,
            inductionHypothesis others (Nat.succ.inj sized), sameItems, Bool.and_assoc]

/-- Equal lists have one length. -/
theorem length_eq_of_sameItems
    {items others : List Value}
    (equal : sameItems items others = true) :
    items.length = others.length := by
  induction items generalizing others with
  | nil =>
      cases others with
      | nil => rfl
      | cons other others => cases equal
  | cons item items inductionHypothesis =>
      cases others with
      | nil => cases equal
      | cons other others =>
          rw [sameItems, Bool.and_eq_true] at equal
          exact congrArg Nat.succ (inductionHypothesis equal.2)

/-- Whether all that a shallow comparison leaves to compare is equal. -/
def settles (remaining? : Option (List (Value × Value))) : Bool :=
  match remaining? with
  | some remaining => samePairs remaining
  | none => false

/-- Pairing values under equal keys settles whether the entries are the same. -/
theorem settles_pairValues
    (others : Entries)
    (pending : List (Value × Value))
    (entries : Entries) :
    settles (pairValues (indexEntries others) pending entries) =
      (sameEntries entries others && samePairs pending) := by
  induction entries generalizing pending with
  | nil => rfl
  | cons entry rest inductionHypothesis =>
      rcases entry with ⟨key, value⟩
      rw [pairValues, getElem?_indexEntries, sameEntries]
      cases Entries.last? key others with
      | none => rfl
      | some other =>
          dsimp only
          rw [inductionHypothesis, samePairs_cons, ← Bool.and_assoc,
            Bool.and_comm (sameEntries rest others)]

/-- A shallow comparison neither loses nor adds a difference. -/
theorem settles_compareShallow
    (pending : List (Value × Value))
    (left right : Value) :
    settles (compareShallow pending left right) =
      (same left right && samePairs pending) := by
  unfold compareShallow same
  split
  · rename_i items others
    split
    · rename_i sized
      exact samePairs_zip_append items others pending sized
    · rename_i different
      change false = (sameItems items others && samePairs pending)
      cases equal : sameItems items others with
      | true => exact absurd (length_eq_of_sameItems equal) different
      | false => rfl
  · rename_i entries others
    split
    · rename_i sized
      rw [settles_pairValues]
      simp [sized]
    · rename_i different
      simp [settles, different]
  · split
    · rename_i equal
      simp [settles, equal]
    · rename_i different
      simp [settles, different]

/-- Comparing a list of pairs is comparing them one by one. -/
theorem comparePending_eq_samePairs (pending : List (Value × Value)) :
    comparePending pending = samePairs pending := by
  induction pending using comparePending.induct with
  | case1 =>
      rw [comparePending]
      rfl
  | case2 left right pending remaining compared smaller inductionHypothesis =>
      have settled := settles_compareShallow pending left right
      rw [compared] at settled
      rw [comparePending, samePairs_cons, ← settled]
      split
      · rename_i found again
        cases compared.symm.trans again
        exact inductionHypothesis
      · rename_i again
        cases compared.symm.trans again
  | case3 left right pending compared =>
      have settled := settles_compareShallow pending left right
      rw [compared] at settled
      rw [comparePending, samePairs_cons, ← settled]
      split
      · rename_i found again
        cases compared.symm.trans again
      · rfl

/-- The comparison of values decides their equality. -/
theorem equal_eq_same (left right : Value) : equal left right = same left right := by
  rw [equal, comparePending_eq_samePairs, samePairs_cons]
  exact Bool.and_true (same left right)

/-- The values that are not a NaN, which is not even equal to itself. -/
def NotNaN : Value → Prop
  | .float32 bits => Ieee.isNaN32 bits = false
  | .float64 bits => Ieee.isNaN64 bits = false
  | _ => True

/-- A scalar that is not a NaN equals itself. -/
theorem equalScalars_self
    {value : Value}
    (plain : value.isContainer = false)
    (number : NotNaN value) :
    equalScalars value value = true := by
  cases value with
  | float32 bits =>
      change Ieee.isNaN32 bits = false at number
      simp [equalScalars, Ieee.equal32, number]
  | float64 bits =>
      change Ieee.isNaN64 bits = false at number
      simp [equalScalars, Ieee.equal64, number]
  | array items => cases plain
  | map entries => cases plain
  | _ => simp [equalScalars, Decimal.numericEqual]

/-- Entries are found in others if each key has an equal value there. -/
theorem sameEntries_eq_true_iff (entries others : Entries) :
    sameEntries entries others = true ↔
      ∀ entry ∈ entries, ∃ other,
        others.last? entry.1 = some other ∧ same entry.2 other = true := by
  induction entries with
  | nil => simp [sameEntries]
  | cons entry rest inductionHypothesis =>
      rcases entry with ⟨key, value⟩
      rw [List.forall_mem_cons, ← inductionHypothesis, sameEntries]
      cases Entries.last? key others with
      | none => simp
      | some other => simp

end DocumentCodec.Value
