import DocumentCodec.Proofs.MessagePack.Scalars
import DocumentCodec.Proofs.Value.Equality
import DocumentCodec.Proofs.Value.Tree

namespace DocumentCodec

/-!
# Narrowed trees

MessagePack does not tell the widths of integers, so that one that 32 bits
hold comes back as `Value.int32`.  Narrowing a tree does that to all of its
integers and nothing else, and what results is equal to the tree.
-/

namespace Value

mutual

/-- A tree with its 64-bit integers in 32 bits where these hold them. -/
def narrowed : Value → Value
  | .int64 value =>
      if MessagePack.IsWide value.toInt then
        .int64 value
      else
        .int32 (Int32.ofInt value.toInt)
  | .array items => .array (narrowedItems items)
  | .map entries => .map (narrowedEntries entries)
  | value => value

def narrowedItems : List Value → List Value
  | [] => []
  | item :: rest => narrowed item :: narrowedItems rest

def narrowedEntries : List (String × Value) → Entries
  | [] => []
  | (name, value) :: rest => (name, narrowed value) :: narrowedEntries rest

end

/-- Narrowing keeps the number. -/
theorem toInt64_narrowed
    {value : Int64}
    (fits : ¬ MessagePack.IsWide value.toInt) :
    (Int32.ofInt value.toInt).toInt64 = value := by
  unfold MessagePack.IsWide at fits
  apply Int64.toInt_inj.mp
  rw [Int32.toInt_toInt64]
  exact Int32.toInt_ofInt_of_le (by omega) (by omega)

/-- An integer is narrowed to what its number is read as. -/
theorem narrowed_int64 (value : Int64) :
    narrowed (.int64 value) = MessagePack.narrow value.toInt := by
  rw [narrowed]
  split
  · rename_i wide
    exact (MessagePack.narrow_int64 wide).symm
  · rename_i fits
    exact (MessagePack.narrow_of_not_isWide fits).symm

/-- Narrowing leaves as many items as there are. -/
@[simp]
theorem length_narrowedItems (items : List Value) :
    (narrowedItems items).length = items.length := by
  induction items with
  | nil => rfl
  | cons item rest inductionHypothesis => exact congrArg Nat.succ inductionHypothesis

/-- Narrowing leaves as many entries as there are. -/
@[simp]
theorem length_narrowedEntries (entries : Entries) :
    (narrowedEntries entries).length = entries.length := by
  induction entries with
  | nil => rfl
  | cons entry rest inductionHypothesis => exact congrArg Nat.succ inductionHypothesis

/-- Narrowing leaves the keys as they are. -/
@[simp]
theorem keys_narrowedEntries (entries : Entries) :
    (narrowedEntries entries).keys = entries.keys := by
  induction entries with
  | nil => rfl
  | cons entry rest inductionHypothesis =>
      rw [narrowedEntries, Entries.keys_cons, inductionHypothesis]
      rfl

/-- A narrowed entry comes from one with the same key. -/
theorem exists_of_mem_narrowedEntries
    {entry : String × Value}
    {entries : Entries}
    (member : entry ∈ narrowedEntries entries) :
    ∃ value, (entry.1, value) ∈ entries ∧ entry.2 = narrowed value := by
  induction entries with
  | nil => cases member
  | cons first rest inductionHypothesis =>
      cases member with
      | head => exact ⟨first.2, List.mem_cons_self, rfl⟩
      | tail _ later =>
          obtain ⟨value, present, narrowedTo⟩ := inductionHypothesis later
          exact ⟨value, List.mem_cons_of_mem _ present, narrowedTo⟩

/-- Items are equal to what each of them is narrowed to. -/
theorem sameItems_narrowedItems
    {items : List Value}
    (each : ∀ item ∈ items, same (narrowed item) item = true) :
    sameItems (narrowedItems items) items = true := by
  induction items with
  | nil => rfl
  | cons item rest inductionHypothesis =>
      obtain ⟨here, later⟩ := List.forall_mem_cons.mp each
      rw [narrowedItems, sameItems, here, inductionHypothesis later]
      rfl

/-- A tree without a NaN equals its narrowing. -/
theorem same_narrowed
    {value : Value}
    (distinct : value.Everywhere KeysDistinct)
    (numbers : value.Everywhere NotNaN) :
    same (narrowed value) value = true := by
  induction value using Value.induction with
  | step value inductionHypothesis =>
      have each (child : Value) (member : child ∈ value.children) :
          same (narrowed child) child = true :=
        inductionHypothesis child member (distinct.inside member)
          (numbers.inside member)
      cases value with
      | int64 number =>
          rw [narrowed]
          split
          · exact @equalScalars_self (.int64 number) rfl trivial
          · rename_i fits
            change ((Int32.ofInt number.toInt).toInt64 == number) = true
            rw [toInt64_narrowed fits]
            exact beq_self_eq_true number
      | array items => exact sameItems_narrowedItems each
      | map entries =>
          rw [narrowed, same, length_narrowedEntries, beq_self_eq_true, Bool.true_and,
            sameEntries_eq_true_iff]
          intro entry member
          obtain ⟨held, present, narrowedTo⟩ := exists_of_mem_narrowedEntries member
          refine ⟨held, Entries.last?_of_mem distinct.here present, ?_⟩
          rw [narrowedTo]
          exact each held (List.mem_map_of_mem present)
      | _ => exact equalScalars_self rfl numbers.here

end Value

namespace Document

/-- A document with its integers narrowed. -/
def narrowed (document : Document) : Document :=
  ⟨Value.narrowedEntries document.entries⟩

/-- A document without a NaN equals its narrowing. -/
theorem narrowed_beq
    {document : Document}
    (wellFormed : document.WellFormed)
    (numbers : document.toValue.Everywhere Value.NotNaN) :
    (document.narrowed == document) = true := by
  change Value.equal (.map (Value.narrowedEntries document.entries)) document.toValue = true
  rw [Value.equal_eq_same]
  exact Value.same_narrowed wellFormed numbers

end Document

end DocumentCodec
