import Mathlib.Data.List.Perm.Subperm
import DocumentCodec.Proofs.Value.Equality
import DocumentCodec.Proofs.Value.Numbers
import DocumentCodec.Proofs.Value.Tree

namespace DocumentCodec.Value

/-!
# What makes values equal

Which values are equal is said by what they are and hold: numbers of one kind
by what they stand for, integers whatever their width, arrays item by item and
maps key by key.

Main statements: the comparison decides this relation between trees whose maps
have each key once, and the relation is symmetric, transitive, and reflexive
exactly where no NaN occurs.
-/

/-- The integer that a value of either width is. -/
def integer? : Value → Option Int
  | .int32 value => some value.toInt
  | .int64 value => some value.toInt
  | _ => none

/-- Equality of values, by what they are and what they hold. -/
inductive Equals : Value → Value → Prop
  | null : Equals .null .null
  | bool (value : Bool) : Equals (.bool value) (.bool value)
  | integer {left right number}
      (here : left.integer? = some number)
      (there : right.integer? = some number) :
      Equals left right
  | float32 {left right number}
      (here : Ieee.number32? left = some number)
      (there : Ieee.number32? right = some number) :
      Equals (.float32 left) (.float32 right)
  | float64 {left right number}
      (here : Ieee.number64? left = some number)
      (there : Ieee.number64? right = some number) :
      Equals (.float64 left) (.float64 right)
  | string (text : String) : Equals (.string text) (.string text)
  | binary (subtype : UInt8) (bytes : ByteArray) :
      Equals (.binary ⟨subtype, bytes⟩) (.binary ⟨subtype, bytes⟩)
  | objectId (identifier : ObjectId) : Equals (.objectId identifier) (.objectId identifier)
  | dateTime (time : DateTime) : Equals (.dateTime time) (.dateTime time)
  | decimal {left right : Decimal}
      (same : left.number = right.number) :
      Equals (.decimal left) (.decimal right)
  | extension (kind : Int8) (data : ByteArray) :
      Equals (.extension ⟨kind, data⟩) (.extension ⟨kind, data⟩)
  | array {items others : List Value}
      (sized : items.length = others.length)
      (pointwise : ∀ (position : Nat) item other,
        items[position]? = some item → others[position]? = some other → Equals item other) :
      Equals (.array items) (.array others)
  | map {entries others : Entries}
      (sameKeys : ∀ key, key ∈ Entries.keys entries ↔ key ∈ Entries.keys others)
      (sameValues : ∀ key value other,
        (key, value) ∈ entries → (key, other) ∈ others → Equals value other) :
      Equals (.map entries) (.map others)

/-- Equality goes both ways. -/
theorem Equals.symm {left right : Value} (equals : Equals left right) : Equals right left := by
  induction equals with
  | null => exact .null
  | bool value => exact .bool value
  | integer here there => exact .integer there here
  | float32 here there => exact .float32 there here
  | float64 here there => exact .float64 there here
  | string text => exact .string text
  | binary subtype bytes => exact .binary subtype bytes
  | objectId identifier => exact .objectId identifier
  | dateTime time => exact .dateTime time
  | decimal same => exact .decimal same.symm
  | extension kind data => exact .extension kind data
  | array sized pointwise inductionHypothesis =>
      exact .array sized.symm fun position other item there here =>
        inductionHypothesis position item other here there
  | map sameKeys sameValues inductionHypothesis =>
      exact .map (fun key => (sameKeys key).symm) fun key other value there here =>
        inductionHypothesis key value other here there

/-- Only integers equal an integer. -/
theorem Equals.integer?_eq
    {left right : Value}
    {number : Int}
    (equals : Equals left right)
    (here : left.integer? = some number) :
    right.integer? = some number := by
  cases equals with
  | integer other there =>
      rw [here] at other
      cases other
      exact there
  | _ => cases here

/-- What equals the same is equal. -/
theorem Equals.trans
    {left middle right : Value}
    (first : Equals left middle)
    (second : Equals middle right) :
    Equals left right := by
  induction first generalizing right with
  | integer here there => exact .integer here (second.integer?_eq there)
  | float32 here there =>
      cases second with
      | integer other => cases other
      | float32 other behind =>
          rw [there] at other
          cases other
          exact .float32 here behind
  | float64 here there =>
      cases second with
      | integer other => cases other
      | float64 other behind =>
          rw [there] at other
          cases other
          exact .float64 here behind
  | decimal same =>
      cases second with
      | integer other => cases other
      | decimal behind => exact .decimal (same.trans behind)
  | @array items others sized pointwise inductionHypothesis =>
      cases second with
      | integer other => cases other
      | @array _ last sizedBehind pointwiseBehind =>
          refine .array (sized.trans sizedBehind) fun position item behind here there => ?_
          have inside : position < others.length := by
            rw [← sized]
            exact (List.getElem?_eq_some_iff.mp here).1
          have between := List.getElem?_eq_getElem inside
          exact inductionHypothesis _ _ _ here between (pointwiseBehind _ _ _ between there)
  | @map entries others sameKeys sameValues inductionHypothesis =>
      cases second with
      | integer other => cases other
      | @map _ last sameKeysBehind sameValuesBehind =>
          refine .map (fun key => (sameKeys key).trans (sameKeysBehind key)) ?_
          intro key value behind here there
          -- the map between has the key too, with a value to compare both others with
          have named : key ∈ Entries.keys others :=
            (sameKeys key).mp (List.mem_map_of_mem here)
          obtain ⟨⟨_, between⟩, present, rfl⟩ := List.mem_map.mp named
          exact inductionHypothesis _ _ _ here present (sameValuesBehind _ _ _ present there)
  | _ => exact second

/-- A value equals itself as far as no NaN occurs in it. -/
theorem everywhere_notNaN_of_equals
    {value : Value}
    (equals : Equals value value) :
    value.Everywhere NotNaN := by
  induction value using Value.induction with
  | step value inductionHypothesis =>
      rw [everywhere_iff]
      cases equals with
      | integer here there =>
          cases value with
          | int32 number => exact ⟨trivial, fun child member => by cases member⟩
          | int64 number => exact ⟨trivial, fun child member => by cases member⟩
          | _ => cases here
      | float32 here there =>
          exact ⟨Ieee.isNaN32_eq_false_iff.mpr ⟨_, here⟩, fun child member => by cases member⟩
      | float64 here there =>
          exact ⟨Ieee.isNaN64_eq_false_iff.mpr ⟨_, here⟩, fun child member => by cases member⟩
      | array sized pointwise =>
          refine ⟨trivial, fun child member => inductionHypothesis child member ?_⟩
          obtain ⟨position, found⟩ := List.getElem?_of_mem member
          exact pointwise position child child found found
      | map sameKeys sameValues =>
          refine ⟨trivial, fun child member => inductionHypothesis child member ?_⟩
          obtain ⟨⟨key, _⟩, present, rfl⟩ := List.mem_map.mp member
          exact sameValues key _ _ present present
      | _ => exact ⟨trivial, fun child member => by cases member⟩

/-- An integer is one of 32 or of 64 bits. -/
theorem exists_of_integer?
    {value : Value}
    {number : Int}
    (found : value.integer? = some number) :
    (∃ narrow : Int32, value = .int32 narrow ∧ narrow.toInt = number) ∨
      ∃ wide : Int64, value = .int64 wide ∧ wide.toInt = number := by
  cases value with
  | int32 narrow => exact .inl ⟨narrow, rfl, Option.some.inj found⟩
  | int64 wide => exact .inr ⟨wide, rfl, Option.some.inj found⟩
  | _ => cases found

/-- Integers are compared as numbers, whatever their widths. -/
theorem equalScalars_of_integer?
    {left right : Value}
    {number : Int}
    (here : left.integer? = some number)
    (there : right.integer? = some number) :
    equalScalars left right = true := by
  obtain ⟨first, rfl, rfl⟩ | ⟨first, rfl, rfl⟩ := exists_of_integer? here <;>
    obtain ⟨second, rfl, same⟩ | ⟨second, rfl, same⟩ := exists_of_integer? there
  · exact beq_iff_eq.mpr (Int32.toInt_inj.mp same.symm)
  · exact beq_iff_eq.mpr (Int64.toInt_inj.mp ((Int32.toInt_toInt64 first).trans same.symm))
  · exact beq_iff_eq.mpr (Int64.toInt_inj.mp (same.symm.trans (Int32.toInt_toInt64 second).symm))
  · exact beq_iff_eq.mpr (Int64.toInt_inj.mp same.symm)

/-- Scalars that are equal are found so without looking into them. -/
theorem equalScalars_of_equals
    {left right : Value}
    (plain : left.isContainer = false)
    (equals : Equals left right) :
    equalScalars left right = true := by
  cases equals with
  | integer here there => exact equalScalars_of_integer? here there
  | float32 here there => exact Ieee.equal32_iff.mpr ⟨_, here, there⟩
  | float64 here there => exact Ieee.equal64_iff.mpr ⟨_, here, there⟩
  | decimal same => exact Decimal.numericEqual_iff.mpr same
  | array sized pointwise => cases plain
  | map sameKeys sameValues => cases plain
  | _ => simp [equalScalars]

/-- Scalars that are found equal are equal. -/
theorem equals_of_equalScalars
    {left right : Value}
    (equal : equalScalars left right = true) :
    Equals left right := by
  unfold equalScalars at equal
  split at equal
  · exact .null
  · obtain rfl := beq_iff_eq.mp equal
    exact .bool _
  · obtain rfl := beq_iff_eq.mp equal
    exact .integer rfl rfl
  · obtain rfl := beq_iff_eq.mp equal
    exact .integer rfl rfl
  · obtain rfl := beq_iff_eq.mp equal
    exact .integer rfl (congrArg some (Int32.toInt_toInt64 _))
  · obtain rfl := beq_iff_eq.mp equal
    exact .integer (congrArg some (Int32.toInt_toInt64 _)) rfl
  · obtain ⟨number, here, there⟩ := Ieee.equal32_iff.mp equal
    exact .float32 here there
  · obtain ⟨number, here, there⟩ := Ieee.equal64_iff.mp equal
    exact .float64 here there
  · obtain rfl := beq_iff_eq.mp equal
    exact .string _
  · obtain rfl := beq_iff_eq.mp equal
    exact .binary _ _
  · obtain rfl := beq_iff_eq.mp equal
    exact .objectId _
  · obtain rfl := beq_iff_eq.mp equal
    exact .dateTime _
  · exact .decimal (Decimal.numericEqual_iff.mp equal)
  · obtain rfl := beq_iff_eq.mp equal
    exact .extension _ _
  · cases equal

/-- Items are found the same if as many are, place by place. -/
theorem sameItems_eq_true_iff (items others : List Value) :
    sameItems items others = true ↔
      items.length = others.length ∧
        ∀ (position : Nat) item other, items[position]? = some item →
          others[position]? = some other → same item other = true := by
  induction items generalizing others with
  | nil =>
      cases others with
      | nil => simp [sameItems]
      | cons other others => simp [sameItems]
  | cons item items inductionHypothesis =>
      cases others with
      | nil => simp [sameItems]
      | cons other others =>
          rw [sameItems, Bool.and_eq_true, inductionHypothesis]
          constructor
          · rintro ⟨first, sized, later⟩
            refine ⟨congrArg Nat.succ sized, fun position => ?_⟩
            cases position with
            | zero =>
                rintro _ _ ⟨⟩ ⟨⟩
                exact first
            | succ position => exact later position
          · rintro ⟨sized, pointwise⟩
            exact ⟨pointwise 0 item other rfl rfl, Nat.succ.inj sized,
              fun position => pointwise (position + 1)⟩

/-- Maps of distinct keys that have as many entries and no others have the same keys. -/
theorem mem_keys_iff_of_subset
    {entries others : Entries}
    (distinct : entries.keys.Nodup)
    (sized : entries.length = others.length)
    (subset : ∀ key ∈ entries.keys, key ∈ others.keys)
    (key : String) :
    key ∈ entries.keys ↔ key ∈ others.keys := by
  have short : others.keys.length ≤ entries.keys.length := by
    simp [Entries.keys, sized]
  exact ((List.subperm_of_subset distinct subset).perm_of_length_le short).mem_iff

/-- Maps with the same distinct keys have as many entries. -/
theorem length_eq_of_keys
    {entries others : Entries}
    (distinct : entries.keys.Nodup)
    (distinctOthers : others.keys.Nodup)
    (sameKeys : ∀ key, key ∈ entries.keys ↔ key ∈ others.keys) :
    entries.length = others.length := by
  have permuted := (List.perm_ext_iff_of_nodup distinct distinctOthers).mpr sameKeys
  simpa [Entries.keys] using permuted.length_eq

/-- On values that hold no other ones, equality is that of scalars. -/
theorem same_of_plain
    {left : Value}
    (plain : left.isContainer = false)
    (right : Value) :
    same left right = equalScalars left right := by
  cases left with
  | array items => cases plain
  | map entries => cases plain
  | _ => rw [same] <;> simp

/-- Arrays are found equal exactly if they are, given that for their items. -/
theorem same_array_iff
    {items others : List Value}
    (each : ∀ item ∈ items, ∀ other ∈ others, same item other = true ↔ Equals item other) :
    same (.array items) (.array others) = true ↔ Equals (.array items) (.array others) := by
  have at_position {position : Nat} {item other : Value}
      (here : items[position]? = some item)
      (there : others[position]? = some other) :
      same item other = true ↔ Equals item other :=
    each item (List.mem_of_getElem? here) other (List.mem_of_getElem? there)
  rw [same, sameItems_eq_true_iff]
  constructor
  · rintro ⟨sized, pointwise⟩
    exact .array sized fun position item other here there =>
      (at_position here there).mp (pointwise position item other here there)
  · intro equals
    cases equals with
    | integer here there => cases here
    | array sized pointwise =>
        exact ⟨sized, fun position item other here there =>
          (at_position here there).mpr (pointwise position item other here there)⟩

/-- Maps are found equal exactly if they are, given that for their values. -/
theorem same_map_iff
    {entries others : Entries}
    (distinct : entries.keys.Nodup)
    (distinctOthers : others.keys.Nodup)
    (each : ∀ entry ∈ entries, ∀ other ∈ others,
      same entry.2 other.2 = true ↔ Equals entry.2 other.2) :
    same (.map entries) (.map others) = true ↔ Equals (.map entries) (.map others) := by
  rw [same, Bool.and_eq_true, beq_iff_eq, sameEntries_eq_true_iff]
  constructor
  · rintro ⟨sized, found⟩
    have subset (key : String) (named : key ∈ entries.keys) : key ∈ others.keys := by
      obtain ⟨entry, present, rfl⟩ := List.mem_map.mp named
      obtain ⟨other, last, -⟩ := found entry present
      exact List.mem_map.mpr ⟨_, Entries.mem_of_last? last, rfl⟩
    refine .map (mem_keys_iff_of_subset distinct sized subset) ?_
    intro key value other here there
    obtain ⟨bound, last, equal⟩ := found _ here
    rw [Entries.last?_of_mem distinctOthers there] at last
    cases last
    exact (each _ here _ there).mp equal
  · intro equals
    cases equals with
    | integer here there => cases here
    | map sameKeys sameValues =>
        refine ⟨length_eq_of_keys distinct distinctOthers sameKeys, ?_⟩
        rintro ⟨key, value⟩ here
        have named : key ∈ others.keys := (sameKeys key).mp (List.mem_map_of_mem here)
        obtain ⟨⟨_, other⟩, there, rfl⟩ := List.mem_map.mp named
        exact ⟨other, Entries.last?_of_mem distinctOthers there,
          (each _ here _ there).mpr (sameValues _ value other here there)⟩

/-- Trees are compared as what they are and hold. -/
theorem same_eq_true_iff_equals
    {left right : Value}
    (distinct : left.Everywhere KeysDistinct)
    (distinctOther : right.Everywhere KeysDistinct) :
    same left right = true ↔ Equals left right := by
  induction left using Value.induction generalizing right with
  | step left inductionHypothesis =>
      have children (child : Value) (member : child ∈ left.children) (other : Value)
          (memberOther : other ∈ right.children) :
          same child other = true ↔ Equals child other :=
        inductionHypothesis child member (distinct.inside member)
          (distinctOther.inside memberOther)
      have scalars (plain : left.isContainer = false) :
          same left right = true ↔ Equals left right := by
        rw [same_of_plain plain]
        exact ⟨equals_of_equalScalars, equalScalars_of_equals plain⟩
      cases left with
      | array items =>
          cases right with
          | array others => exact same_array_iff children
          | _ =>
              constructor
              · intro equal
                cases equal
              · intro equals
                cases equals with
                | integer here there => cases here
      | map entries =>
          cases right with
          | map others =>
              exact same_map_iff distinct.here distinctOther.here fun entry here other there =>
                children _ (List.mem_map_of_mem here) _ (List.mem_map_of_mem there)
          | _ =>
              constructor
              · intro equal
                cases equal
              · intro equals
                cases equals with
                | integer here there => cases here
      | _ => exact scalars rfl

/-- A tree equals itself when no NaN occurs in it. -/
theorem equals_self_iff
    {value : Value}
    (distinct : value.Everywhere KeysDistinct) :
    Equals value value ↔ value.Everywhere NotNaN := by
  refine ⟨everywhere_notNaN_of_equals, fun numbers => ?_⟩
  induction value using Value.induction with
  | step value inductionHypothesis =>
      have children (child : Value) (member : child ∈ value.children) : Equals child child :=
        inductionHypothesis child member (distinct.inside member) (numbers.inside member)
      cases value with
      | array items =>
          refine .array rfl fun position item other here there => ?_
          cases here.symm.trans there
          exact children item (List.mem_of_getElem? here)
      | map entries =>
          refine .map (fun key => Iff.rfl) fun key value other here there => ?_
          have bound := Entries.last?_of_mem distinct.here here
          cases bound.symm.trans (Entries.last?_of_mem distinct.here there)
          exact children value (List.mem_map_of_mem here)
      | _ => exact equals_of_equalScalars (equalScalars_self rfl numbers.here)

/--
The comparison of values decides which of them are equal by what they are and
hold, and that of documents compares them as values.  It is symmetric and
transitive, and a value is equal to itself exactly when no NaN occurs in it.
Each map has its keys once, as insertion keeps it.
-/
theorem equality_is_structural
    {left middle right : Value}
    (leftDistinct : left.Everywhere KeysDistinct)
    (middleDistinct : middle.Everywhere KeysDistinct)
    (rightDistinct : right.Everywhere KeysDistinct) :
    ((left == right) = true ↔ Equals left right) ∧
      (left == right) = (right == left) ∧
      ((left == middle) = true → (middle == right) = true → (left == right) = true) ∧
      ((left == left) = true ↔ left.Everywhere NotNaN) ∧
      ∀ first second : Document, (first == second) = (first.toValue == second.toValue) := by
  have decides {first second : Value}
      (distinct : first.Everywhere KeysDistinct)
      (distinctOther : second.Everywhere KeysDistinct) :
      (first == second) = true ↔ Equals first second := by
    change equal first second = true ↔ _
    rw [equal_eq_same]
    exact same_eq_true_iff_equals distinct distinctOther
  refine ⟨decides leftDistinct rightDistinct, ?_, ?_, ?_, fun first second => rfl⟩
  · rw [Bool.eq_iff_iff, decides leftDistinct rightDistinct, decides rightDistinct leftDistinct]
    exact ⟨Equals.symm, Equals.symm⟩
  · rw [decides leftDistinct middleDistinct, decides middleDistinct rightDistinct,
      decides leftDistinct rightDistinct]
    exact Equals.trans
  · rw [decides leftDistinct leftDistinct]
    exact equals_self_iff leftDistinct

/--
Entries in another order, an integer of another width, a zero of another sign
and decimals with other exponents make no difference; a NaN does, wherever it is.
-/
theorem equality_of_reordered_maps :
    let left : Value :=
      .map [("a", .int32 1), ("b", .array [.decimal ⟨15, -1⟩, .float64 0])]
    let middle : Value :=
      .map [("b", .array [.decimal ⟨150, -2⟩, .float64 0x8000000000000000]), ("a", .int64 1)]
    let right : Value :=
      .map [("a", .int64 1), ("b", .array [.decimal ⟨1500, -3⟩, .float64 0])]
    let unequal : Value := .map [("a", .array [.float64 0x7ff8000000000000])]
    (left == middle) = true ∧ (middle == right) = true ∧ (left == right) = true ∧
      (right == left) = true ∧ (left == left) = true ∧ (unequal == unequal) = false := by
  intro left middle right unequal
  have distinct :
      left.Everywhere KeysDistinct ∧ middle.Everywhere KeysDistinct ∧
        right.Everywhere KeysDistinct ∧ unequal.Everywhere KeysDistinct := by
    simp (disch := decide) [left, middle, right, unequal, everywhere_map, everywhere_array,
      everywhere_scalar, KeysDistinct]
  have numbers : left.Everywhere NotNaN := by
    have zero : Ieee.isNaN64 0 = false := by decide
    simp (disch := decide) [left, everywhere_map, everywhere_array, everywhere_scalar,
      NotNaN, zero]
  have noNumber : ¬ unequal.Everywhere NotNaN := by
    have quiet : Ieee.isNaN64 0x7ff8000000000000 = true := by decide
    simp (disch := decide) [unequal, everywhere_map, everywhere_array, everywhere_scalar,
      NotNaN, quiet]
  have first : (left == middle) = true :=
    (equal_eq_same left middle).trans (by decide +kernel)
  have second : (middle == right) = true :=
    (equal_eq_same middle right).trans (by decide +kernel)
  obtain ⟨leftDistinct, middleDistinct, rightDistinct, unequalDistinct⟩ := distinct
  obtain ⟨-, symmetric, transitive, reflexive, -⟩ :=
    equality_is_structural leftDistinct middleDistinct rightDistinct
  obtain ⟨-, -, -, irreflexive, -⟩ :=
    equality_is_structural unequalDistinct unequalDistinct unequalDistinct
  have equal := transitive first second
  exact ⟨first, second, equal, symmetric ▸ equal, reflexive.mpr numbers,
    Bool.eq_false_iff.mpr fun same => noNumber (irreflexive.mp same)⟩

end DocumentCodec.Value
