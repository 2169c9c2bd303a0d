import Mathlib.Algebra.GroupWithZero.Nat
import Mathlib.Data.List.Basic
import DocumentCodec.Document.Builder

namespace DocumentCodec.Entries

/-!
# What repeated keys come to

Entries whose keys may repeat stand for the map that results from inserting
them one after another.  `settled` says directly what that map holds: each
key once, where it occurs first, with the value of its last occurrence.
-/

/-- The value of the last entry with a key. -/
def last? (key : String) : Entries → Option Value
  | [] => none
  | (name, value) :: rest =>
      match last? key rest with
      | some later => some later
      | none => if name = key then some value else none

/-- Every key in the order of first occurrences, with the value of the last one. -/
def settled (entries : Entries) : Entries :=
  entries.keys.eraseDups.filterMap fun key =>
    (last? key entries).map fun value => (key, value)

theorem keys_append (front back : Entries) :
    keys (front ++ back) = keys front ++ keys back :=
  List.map_append

theorem insertAll_cons (entries : Entries) (entry : String × Value) (rest : Entries) :
    insertAll entries (entry :: rest) = insertAll (entries.insert entry.1 entry.2) rest :=
  rfl

/-- A key that is inserted has the new value, and the others keep theirs. -/
theorem get?_insert (key other : String) (value : Value) (entries : Entries) :
    (entries.insert key value).get? other =
      if key = other then some value else entries.get? other := by
  split
  · rename_i same
    subst same
    exact get?_insert_self key value entries
  · rename_i different
    exact get?_insert_of_ne different value entries

/-- After insertions a key has the value that it was last given. -/
theorem get?_insertAll (key : String) (entries additions : Entries) :
    (insertAll entries additions).get? key =
      match last? key additions with
      | some value => some value
      | none => entries.get? key := by
  induction additions generalizing entries with
  | nil => rfl
  | cons entry rest inductionHypothesis =>
      rcases entry with ⟨name, value⟩
      rw [insertAll_cons, inductionHypothesis, last?]
      cases last? key rest with
      | some later => rfl
      | none =>
          rw [get?_insert]
          by_cases same : name = key
          · simp only [same, if_true]
          · simp only [same, if_false]

/-- To insert a key makes no second entry for it. -/
theorem nodup_keys_insert
    {entries : Entries}
    (distinct : entries.keys.Nodup)
    (key : String)
    (value : Value) :
    (entries.insert key value).keys.Nodup := by
  rw [keys_insert]
  split
  · exact distinct
  · rename_i absent
    refine List.nodup_append.mpr ⟨distinct, List.pairwise_singleton _ key, ?_⟩
    intro name member other single same
    rw [List.mem_singleton.mp single] at same
    exact absent (same ▸ member)

/-- Insertions make no key occur twice. -/
theorem nodup_keys_insertAll
    {entries : Entries}
    (distinct : entries.keys.Nodup)
    (additions : Entries) :
    (insertAll entries additions).keys.Nodup := by
  induction additions generalizing entries with
  | nil => exact distinct
  | cons entry rest inductionHypothesis =>
      exact inductionHypothesis (nodup_keys_insert distinct entry.1 entry.2)

/-- Names that are distinct stay as they are. -/
theorem eraseDups_of_nodup
    {names : List String}
    (distinct : names.Nodup) :
    names.eraseDups = names := by
  induction names with
  | nil => rfl
  | cons name rest inductionHypothesis =>
      obtain ⟨absent, restDistinct⟩ := List.nodup_cons.mp distinct
      have others : rest.filter (fun other => !other == name) = rest := by
        refine List.filter_eq_self.mpr fun other member => ?_
        have different : other ≠ name := fun same => absent (same ▸ member)
        simp [different]
      rw [List.eraseDups_cons, others, inductionHypothesis restDistinct]

/-- Inserting entries brings in their keys in the order of first occurrences. -/
theorem keys_insertAll
    {entries : Entries}
    (distinct : entries.keys.Nodup)
    (additions : Entries) :
    (insertAll entries additions).keys =
      (entries.keys ++ additions.keys).eraseDups := by
  induction additions generalizing entries with
  | nil => rw [keys_nil, List.append_nil, eraseDups_of_nodup distinct]; rfl
  | cons entry rest inductionHypothesis =>
      rw [insertAll_cons,
        inductionHypothesis (nodup_keys_insert distinct entry.1 entry.2), keys_insert,
        keys_cons]
      split
      · rename_i present
        have contained : entries.keys.contains entry.1 = true :=
          List.contains_iff_mem.mpr present
        rw [List.eraseDups_append, List.eraseDups_append, List.cons_removeAll,
          contained]
        rfl
      · rw [List.append_assoc]
        rfl

/-- A map is given by its keys and what is found under them. -/
theorem filterMap_get?
    {entries : Entries}
    (distinct : entries.keys.Nodup) :
    (entries.keys.filterMap fun key =>
      (entries.get? key).map fun value => (key, value)) = entries := by
  induction entries with
  | nil => rfl
  | cons entry rest inductionHypothesis =>
      rcases entry with ⟨name, value⟩
      obtain ⟨absent, restDistinct⟩ := List.nodup_cons.mp distinct
      have others :
          ((keys rest).filterMap fun key =>
            (get? key ((name, value) :: rest)).map fun found => (key, found)) =
            rest := by
        refine (List.filterMap_congr fun key member => ?_).trans
          (inductionHypothesis restDistinct)
        have different : name ≠ key := fun same => absent (same ▸ member)
        rw [get?, if_neg different]
      have here : get? name ((name, value) :: rest) = some value := if_pos rfl
      rw [keys_cons, List.filterMap_cons, here, others]
      rfl

/-- What is inserted one after another is what the keys are bound to last. -/
theorem insertAll_nil_eq_settled (entries : Entries) :
    insertAll [] entries = settled entries := by
  have empty : (keys []).Nodup := List.nodup_nil
  have distinct := nodup_keys_insertAll empty entries
  have keysInserted := keys_insertAll empty entries
  have found (key : String) : (insertAll [] entries).get? key = last? key entries := by
    rw [get?_insertAll]
    cases last? key entries <;> rfl
  rw [← filterMap_get? distinct, keysInserted]
  simp only [found, keys_nil, List.nil_append, settled]

/-- A new key goes behind the others. -/
theorem insert_of_not_mem
    {key : String}
    {entries : Entries}
    (absent : key ∉ entries.keys)
    (value : Value) :
    entries.insert key value = entries ++ [(key, value)] := by
  induction entries with
  | nil => rfl
  | cons entry rest inductionHypothesis =>
      rw [keys_cons, List.mem_cons, not_or] at absent
      rw [insert, if_neg (Ne.symm absent.1), inductionHypothesis absent.2]
      rfl

/-- Distinct keys are put one behind the other. -/
theorem insertAll_of_nodup
    {entries additions : Entries}
    (distinct : (entries ++ additions).keys.Nodup) :
    insertAll entries additions = entries ++ additions := by
  induction additions generalizing entries with
  | nil => rw [List.append_nil]; rfl
  | cons entry rest inductionHypothesis =>
      have absent : entry.1 ∉ entries.keys := by
        rw [keys_append] at distinct
        intro member
        exact (List.nodup_append.mp distinct).2.2 _ member _ List.mem_cons_self rfl
      rw [List.append_cons] at distinct ⊢
      rw [insertAll_cons, insert_of_not_mem absent, inductionHypothesis distinct]

/-- Entries whose keys differ stand for themselves. -/
theorem settled_of_nodup
    {entries : Entries}
    (distinct : entries.keys.Nodup) :
    settled entries = entries := by
  rw [← insertAll_nil_eq_settled]
  exact insertAll_of_nodup distinct

/-- A key that is not there has no value. -/
theorem last?_eq_none
    {key : String}
    {entries : Entries}
    (absent : key ∉ entries.keys) :
    last? key entries = none := by
  induction entries with
  | nil => rfl
  | cons entry rest inductionHypothesis =>
      rw [keys_cons, List.mem_cons, not_or] at absent
      rw [last?, inductionHypothesis absent.2]
      exact if_neg (Ne.symm absent.1)

/-- Where keys are distinct each has the value beside it. -/
theorem last?_of_mem
    {key : String}
    {value : Value}
    {entries : Entries}
    (distinct : entries.keys.Nodup)
    (member : (key, value) ∈ entries) :
    last? key entries = some value := by
  induction entries with
  | nil => cases member
  | cons entry rest inductionHypothesis =>
      obtain ⟨absent, restDistinct⟩ := List.nodup_cons.mp distinct
      cases member with
      | head =>
          rw [last?, last?_eq_none absent]
          exact if_pos rfl
      | tail _ later => rw [last?, inductionHypothesis restDistinct later]

/-- The value of a key is in an entry beside it. -/
theorem mem_of_last?
    {key : String}
    {value : Value}
    {entries : Entries}
    (found : last? key entries = some value) :
    (key, value) ∈ entries := by
  induction entries with
  | nil => cases found
  | cons entry rest inductionHypothesis =>
      rcases entry with ⟨name, previous⟩
      rw [last?] at found
      cases later : last? key rest with
      | some other =>
          rw [later] at found
          cases found
          exact List.mem_cons_of_mem _ (inductionHypothesis later)
      | none =>
          rw [later] at found
          dsimp only at found
          split at found
          · rename_i same
            cases same
            cases found
            exact List.mem_cons_self
          · cases found

/-- Settling adds no entries. -/
theorem mem_of_mem_settled
    {entry : String × Value}
    {entries : Entries}
    (member : entry ∈ settled entries) :
    entry ∈ entries := by
  obtain ⟨key, _, found⟩ := List.mem_filterMap.mp member
  obtain ⟨value, last, rfl⟩ := Option.map_eq_some_iff.mp found
  exact mem_of_last? last

/-- Settled entries have distinct keys. -/
theorem nodup_keys_settled (entries : Entries) : (settled entries).keys.Nodup := by
  have empty : (keys []).Nodup := List.nodup_nil
  rw [← insertAll_nil_eq_settled]
  exact nodup_keys_insertAll empty entries

section Weights

variable (weight : String × Value → Nat)

/-- An insertion adds at most the weight of what is inserted. -/
theorem sum_insert_le (key : String) (value : Value) (entries : Entries) :
    ((entries.insert key value).map weight).sum ≤
      (entries.map weight).sum + weight (key, value) := by
  induction entries with
  | nil => simp
  | cons entry rest inductionHypothesis =>
      rcases entry with ⟨name, previous⟩
      rw [insert]
      split
      · rename_i same
        subst same
        simp only [List.map_cons, List.sum_cons]
        omega
      · simp only [List.map_cons, List.sum_cons]
        omega

/-- Entries that replace others weigh no more than both together. -/
theorem sum_insertAll_le (entries additions : Entries) :
    ((insertAll entries additions).map weight).sum ≤
      (entries.map weight).sum + (additions.map weight).sum := by
  induction additions generalizing entries with
  | nil => simp [insertAll]
  | cons entry rest inductionHypothesis =>
      rcases entry with ⟨key, value⟩
      have later := inductionHypothesis (entries.insert key value)
      have here := sum_insert_le weight key value entries
      change ((insertAll (entries.insert key value) rest).map weight).sum ≤ _
      rw [List.map_cons, List.sum_cons]
      omega

/-- Settling makes entries weigh no more. -/
theorem sum_settled_le (entries : Entries) :
    ((settled entries).map weight).sum ≤ (entries.map weight).sum := by
  rw [← insertAll_nil_eq_settled]
  have bound := sum_insertAll_le weight [] entries
  rwa [List.map_nil, List.sum_nil, Nat.zero_add] at bound

/-- Settling leaves no more entries than there were. -/
theorem length_settled_le (entries : Entries) :
    (settled entries).length ≤ entries.length := by
  have bound := sum_settled_le (fun _ => 1) entries
  simpa using bound

end Weights

end DocumentCodec.Entries
