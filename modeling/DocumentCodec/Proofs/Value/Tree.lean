import DocumentCodec.Document.Basic

namespace DocumentCodec

/-!
# Trees

Induction over the tree of a value, and what holds everywhere in it.
-/

namespace Value

/-- Values hold less than they are. -/
theorem sizeOf_lt_of_mem_children
    {value child : Value}
    (member : child ∈ value.children) :
    sizeOf child < sizeOf value := by
  cases value with
  | array items =>
      have inner := List.sizeOf_lt_of_mem (show child ∈ items from member)
      simp only [array.sizeOf_spec]
      omega
  | map entries =>
      obtain ⟨⟨name, held⟩, present, rfl⟩ := List.mem_map.mp member
      have inner := List.sizeOf_lt_of_mem present
      simp only [map.sizeOf_spec, Prod.mk.sizeOf_spec] at inner ⊢
      omega
  | _ => cases member

/-- What holds of a value when it holds of those held by it holds of all. -/
theorem induction
    {motive : Value → Prop}
    (step : ∀ value, (∀ child ∈ value.children, motive child) → motive value)
    (value : Value) :
    motive value := by
  generalize size : sizeOf value = bound
  induction bound using Nat.strongRecOn generalizing value with
  | ind bound inductionHypothesis =>
      apply step
      intro child member
      have smaller := sizeOf_lt_of_mem_children member
      exact inductionHypothesis (sizeOf child) (size ▸ smaller) child rfl

/-- A value is the root of a tree or occurs somewhere in it. -/
inductive HasNode : Value → Value → Prop
  | self (root : Value) : HasNode root root
  | within {root child node : Value}
      (member : child ∈ root.children)
      (inside : HasNode child node) :
      HasNode root node

/-- A property of every value in a tree. -/
def Everywhere (holds : Value → Prop) (root : Value) : Prop :=
  ∀ node, root.HasNode node → holds node

/-- What holds everywhere holds at the root. -/
theorem Everywhere.here
    {holds : Value → Prop}
    {root : Value}
    (all : root.Everywhere holds) :
    holds root :=
  all root (.self root)

/-- What holds everywhere holds everywhere in a child. -/
theorem Everywhere.inside
    {holds : Value → Prop}
    {root child : Value}
    (all : root.Everywhere holds)
    (member : child ∈ root.children) :
    child.Everywhere holds :=
  fun node occurs => all node (.within member occurs)

/-- A property holds everywhere if it does at the root and everywhere in each child. -/
theorem everywhere_iff {holds : Value → Prop} {root : Value} :
    root.Everywhere holds ↔
      holds root ∧ ∀ child ∈ root.children, child.Everywhere holds := by
  constructor
  · intro all
    exact ⟨all.here, fun child member => all.inside member⟩
  · rintro ⟨here, inside⟩ node occurs
    cases occurs with
    | self => exact here
    | within member occurs => exact inside _ member node occurs

/-- A property holds everywhere in a scalar if it does of it. -/
theorem everywhere_scalar
    {holds : Value → Prop}
    {root : Value}
    (plain : root.children = []) :
    root.Everywhere holds ↔ holds root := by
  rw [everywhere_iff, plain]
  simp

/-- A property holds everywhere in an array if it does of it and in its items. -/
theorem everywhere_array {holds : Value → Prop} {items : List Value} :
    (array items).Everywhere holds ↔
      holds (array items) ∧ ∀ item ∈ items, item.Everywhere holds :=
  everywhere_iff

/-- A property holds everywhere in a map if it does of it and in its values. -/
theorem everywhere_map {holds : Value → Prop} {entries : List (String × Value)} :
    (map entries).Everywhere holds ↔
      holds (map entries) ∧ ∀ entry ∈ entries, entry.2.Everywhere holds := by
  rw [everywhere_iff]
  exact and_congr_right fun _ => List.forall_mem_map

/-- A map has each of its keys once. -/
def KeysDistinct : Value → Prop
  | .map entries => (Entries.keys entries).Nodup
  | _ => True

end Value

/-- Every map in the tree of a document has each of its keys once, as insertion keeps it. -/
def Document.WellFormed (document : Document) : Prop :=
  document.toValue.Everywhere Value.KeysDistinct

end DocumentCodec
