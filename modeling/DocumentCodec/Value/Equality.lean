import Std.Data.HashMap
import DocumentCodec.Document.Basic

namespace DocumentCodec

/-!
# Equality of values

Two integers are equal when they have the same numeric value, whatever their
widths; floats and decimals are compared numerically; arrays item by item and
maps key by key, whatever the order of their entries.

`equal` keeps the pairs still to be compared on a list of its own, so that it
takes a tree of any depth.
-/

namespace Value

/-- The values of a map, found by their keys. -/
def indexEntries (entries : Entries) : Std.HashMap String Value :=
  entries.foldl (fun index entry => index.insert entry.1 entry.2) ∅

/-- Put the values that two maps hold under the same keys before other pairs. -/
def pairValues (index : Std.HashMap String Value)
    (pending : List (Value × Value)) : Entries → Option (List (Value × Value))
  | [] => some pending
  | (key, value) :: rest =>
      match index[key]? with
      | some other => pairValues index ((value, other) :: pending) rest
      | none => none

/-- Equality of scalars; a container is not a scalar and equals none. -/
def equalScalars : Value → Value → Bool
  | null, null => true
  | bool left, bool right => left == right
  | int32 left, int32 right => left == right
  | int64 left, int64 right => left == right
  | int32 left, int64 right => left.toInt64 == right
  | int64 left, int32 right => left == right.toInt64
  | float32 left, float32 right => Ieee.equal32 left right
  | float64 left, float64 right => Ieee.equal64 left right
  | string left, string right => left == right
  | binary left, binary right => left == right
  | objectId left, objectId right => left == right
  | dateTime left, dateTime right => left == right
  | decimal left, decimal right => left.numericEqual right
  | extension left, extension right => left == right
  | _, _ => false

/--
Compare two values without looking inside containers: none when they differ
already, and otherwise the given pairs with the pairs of their children.
-/
def compareShallow (pending : List (Value × Value)) :
    Value → Value → Option (List (Value × Value))
  | array left, array right =>
      if left.length = right.length then
        some (left.zip right ++ pending)
      else
        none
  | map left, map right =>
      if left.length = right.length then
        pairValues (indexEntries right) pending left
      else
        none
  | left, right =>
      if equalScalars left right then some pending else none

/-- The size of the left sides of pairs still to be compared. -/
noncomputable def pendingSize : List (Value × Value) → Nat
  | [] => 0
  | (left, _) :: pending => sizeOf left + pendingSize pending

/-- Zipping adds at most the size of the left list. -/
theorem pendingSize_zip_append_le
    (left right : List Value)
    (pending : List (Value × Value)) :
    pendingSize (left.zip right ++ pending) ≤ sizeOf left + pendingSize pending := by
  induction left generalizing right with
  | nil => simp
  | cons item rest inductionHypothesis =>
      cases right with
      | nil =>
          simp
      | cons other others =>
          have shorter := inductionHypothesis others
          simp only [pendingSize, List.zip_cons_cons, List.cons_append,
            List.cons.sizeOf_spec] at *
          omega

/-- Pairing the values of maps adds at most the size of the left entries. -/
theorem pendingSize_pairValues_le
    {index : Std.HashMap String Value}
    {pending result : List (Value × Value)}
    {entries : Entries}
    (paired : pairValues index pending entries = some result) :
    pendingSize result ≤ sizeOf entries + pendingSize pending := by
  induction entries generalizing pending with
  | nil =>
      simp only [pairValues, Option.some.injEq] at paired
      subst paired
      omega
  | cons entry rest inductionHypothesis =>
      rcases entry with ⟨key, value⟩
      simp only [pairValues] at paired
      split at paired
      · have bound := inductionHypothesis paired
        simp only [pendingSize, List.cons.sizeOf_spec,
          Prod.mk.sizeOf_spec] at *
        omega
      · simp at paired

/-- A shallow comparison leaves less to compare than it was given. -/
theorem pendingSize_compareShallow_lt
    {pending result : List (Value × Value)}
    {left right : Value}
    (compared : compareShallow pending left right = some result) :
    pendingSize result < sizeOf left + pendingSize pending := by
  have positive := left.sizeOf_pos
  unfold compareShallow at compared
  split at compared
  · rename_i items others
    split at compared
    · simp only [Option.some.injEq] at compared
      subst compared
      have bound := pendingSize_zip_append_le items others pending
      simp only [Value.array.sizeOf_spec]
      omega
    · simp at compared
  · split at compared
    · have bound := pendingSize_pairValues_le compared
      simp only [Value.map.sizeOf_spec]
      omega
    · simp at compared
  · split at compared
    · simp only [Option.some.injEq] at compared
      subst compared
      omega
    · simp at compared

/-- Compare all pairs, putting the children of containers before the rest. -/
def comparePending : List (Value × Value) → Bool
  | [] => true
  | (left, right) :: pending =>
      match compared : compareShallow pending left right with
      | some remaining =>
          have := pendingSize_compareShallow_lt compared
          comparePending remaining
      | none => false
termination_by pending => pendingSize pending
decreasing_by
  simp only [pendingSize] at *
  omega

/-- Equality of values; not reflexive, because a NaN differs from itself. -/
def equal (left right : Value) : Bool :=
  comparePending [(left, right)]

instance : BEq Value :=
  ⟨equal⟩

end Value

namespace Document

/-- Equality of documents, whatever the order of their entries. -/
def equal (left right : Document) : Bool :=
  left.toValue.equal right.toValue

instance : BEq Document :=
  ⟨equal⟩

end Document

end DocumentCodec
