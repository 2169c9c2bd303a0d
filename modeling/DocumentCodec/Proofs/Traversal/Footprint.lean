import DocumentCodec.Proofs.Traversal.Contents
import DocumentCodec.Proofs.Traversal.Spelling
import DocumentCodec.Value.Census

namespace DocumentCodec

/-!
# How much there is in a tree

A tree is weighed element by element: the names of its maps and its values have
weights.  With a weight of one each, values are counted; with numbers of bytes,
it is measured what the keys, texts, binaries and extensions of a tree take.

The elements that make up a container weigh no less than it does, for a map
keeps of each key only the last value.
-/

/-- The weight of a key: a name's, and nothing for a place. -/
def Key.weight (ofName : String → Nat) : Key → Nat
  | .name text => ofName text
  | .index _ => 0

/-- The weight of elements, those of their names and those of their values. -/
def KeyedValue.weigh (ofName : String → Nat) (ofValue : Value → Nat)
    (elements : List KeyedValue) : Nat :=
  (elements.map fun element => element.1.weight ofName + ofValue element.2).sum

/-- The bytes that a value itself holds: its text, its binary or its application data. -/
def Value.ownBytes : Value → Nat
  | .string text => text.utf8ByteSize
  | .binary value => value.bytes.size
  | .extension value => value.data.size
  | _ => 0

/-- The bytes of all keys, texts, binaries and extensions of a document. -/
def Document.heldBytes (document : Document) : Nat :=
  KeyedValue.weigh String.utf8ByteSize Value.ownBytes document.preorder

/-- What a value weighs with everything in it, its own key left out. -/
def Value.weight (ofName : String → Nat) (ofValue : Value → Nat) (value : Value) : Nat :=
  KeyedValue.weigh ofName ofValue (value.preorder (.index 0))

/-- What elements weigh with everything in them. -/
def Contents.weight (ofName : String → Nat) (ofValue : Value → Nat)
    (contents : Contents) : Nat :=
  (contents.map fun element =>
    ofName (element.1.getD "") + element.2.weight ofName ofValue).sum

section

variable (ofName : String → Nat) (ofValue : Value → Nat)

namespace KeyedValue

theorem weigh_cons (key : Key) (value : Value) (rest : List KeyedValue) :
    weigh ofName ofValue ((key, value) :: rest) =
      key.weight ofName + ofValue value + weigh ofName ofValue rest := by
  rw [weigh, List.map_cons, List.sum_cons, weigh]

theorem weigh_append (first second : List KeyedValue) :
    weigh ofName ofValue (first ++ second) =
      weigh ofName ofValue first + weigh ofName ofValue second := by
  rw [weigh, List.map_append, List.sum_append, weigh, weigh]

/-- The elements of an element are its own and those inside it, whatever its key is. -/
theorem weigh_preorder (key : Key) (value : Value) :
    weigh ofName ofValue (value.preorder key) =
      key.weight ofName + value.weight ofName ofValue := by
  have moved (inside : List KeyedValue) :
      weigh ofName ofValue ((key, value) :: inside) =
        key.weight ofName +
          weigh ofName ofValue ((.index 0, value) :: inside) := by
    rw [weigh_cons, weigh_cons, Key.weight]
    omega
  cases value <;> exact moved _

/-- Entries weigh what their names and their trees do. -/
theorem weigh_preorderEntries (entries : List (String × Value)) :
    weigh ofName ofValue (Value.preorderEntries entries) =
      (entries.map fun entry => ofName entry.1 + entry.2.weight ofName ofValue).sum := by
  induction entries with
  | nil => rfl
  | cons entry rest inductionHypothesis =>
      rcases entry with ⟨name, value⟩
      rw [Value.preorderEntries, weigh_append, weigh_preorder, inductionHypothesis,
        List.map_cons, List.sum_cons, Key.weight]

/-- Items weigh what their trees do. -/
theorem weigh_preorderItems (position : Nat) (items : List Value) :
    weigh ofName ofValue (Value.preorderItems position items) =
      (items.map fun item => item.weight ofName ofValue).sum := by
  induction items generalizing position with
  | nil => rfl
  | cons item rest inductionHypothesis =>
      rw [Value.preorderItems, weigh_append, weigh_preorder, inductionHypothesis,
        List.map_cons, List.sum_cons, Key.weight, Nat.zero_add]

/-- Weights of two kinds add up. -/
theorem weigh_add (otherName : String → Nat) (otherValue : Value → Nat)
    (elements : List KeyedValue) :
    weigh ofName ofValue elements + weigh otherName otherValue elements =
      weigh (fun name => ofName name + otherName name)
        (fun value => ofValue value + otherValue value) elements := by
  induction elements with
  | nil => rfl
  | cons element rest inductionHypothesis =>
      rcases element with ⟨key, value⟩
      rw [weigh_cons, weigh_cons, weigh_cons, ← inductionHypothesis]
      cases key <;> simp only [Key.weight] <;> omega

end KeyedValue

namespace Value

/-- A map weighs for itself and for its entries. -/
theorem weight_map (entries : List (String × Value)) :
    (map entries).weight ofName ofValue =
      ofValue (map entries) +
        (entries.map fun entry => ofName entry.1 + entry.2.weight ofName ofValue).sum := by
  rw [weight, preorder, KeyedValue.weigh_cons, KeyedValue.weigh_preorderEntries, Key.weight,
    Nat.zero_add]

/-- An array weighs for itself and for its items. -/
theorem weight_array (items : List Value) :
    (array items).weight ofName ofValue =
      ofValue (array items) + (items.map fun item => item.weight ofName ofValue).sum := by
  rw [weight, preorder, KeyedValue.weigh_cons, KeyedValue.weigh_preorderItems, Key.weight,
    Nat.zero_add]

/-- A scalar weighs for itself alone. -/
theorem weight_scalar {value : Value} (plain : value.container? = none) :
    value.weight ofName ofValue = ofValue value := by
  have alone : KeyedValue.weigh ofName ofValue [(.index 0, value)] = ofValue value := by
    rw [KeyedValue.weigh_cons, Key.weight, Nat.zero_add]
    rfl
  cases value with
  | map entries => cases plain
  | array items => cases plain
  | _ => exact alone

/-- Without its names, a tree weighs what its root and the trees below it do. -/
theorem weight_children (value : Value) :
    value.weight (fun _ => 0) ofValue =
      ofValue value + (value.children.map (weight (fun _ => 0) ofValue)).sum := by
  cases value with
  | map entries =>
      rw [weight_map, children, List.map_map]
      simp only [Nat.zero_add]
      rfl
  | array items => exact weight_array _ ofValue items
  | _ => exact weight_scalar _ ofValue rfl

end Value

namespace Contents

theorem weight_cons (key : Option String) (value : Value) (rest : Contents) :
    weight ofName ofValue ((key, value) :: rest) =
      ofName (key.getD "") + value.weight ofName ofValue +
        weight ofName ofValue rest := by
  rw [weight, List.map_cons, List.sum_cons, weight]

/-- Of each key's values only the last one is kept. -/
theorem settled_weight_le (contents : Contents) :
    ((Entries.settled contents.entries).map fun entry =>
        ofName entry.1 + entry.2.weight ofName ofValue).sum ≤
      contents.weight ofName ofValue := by
  have bound := Entries.sum_settled_le
    (fun entry => ofName entry.1 + entry.2.weight ofName ofValue) contents.entries
  rwa [Contents.entries, List.map_map] at bound

end Contents

/-- A container weighs no more than itself and the elements that make it up. -/
theorem ContainerKind.weight_gather_le (kind : ContainerKind) (contents : Contents) :
    (kind.gather contents).weight ofName ofValue ≤
      ofValue (kind.gather contents) + contents.weight ofName ofValue := by
  cases kind with
  | map =>
      rw [gather, Value.weight_map]
      exact Nat.add_le_add_left (Contents.settled_weight_le ofName ofValue contents) _
  | array =>
      rw [gather, Value.weight_array, Contents.items, List.map_map]
      refine Nat.add_le_add_left ?_ _
      induction contents with
      | nil => exact Nat.le_refl _
      | cons element rest inductionHypothesis =>
          rw [List.map_cons, List.sum_cons, Contents.weight_cons]
          simp only [Function.comp_apply]
          omega

end

/-- A census counts each value with those inside it. -/
theorem Census.nodes_addAll (census : Census) (pending : List (Value × Nat)) :
    (census.addAll pending).nodes =
      census.nodes +
        (pending.map fun value => value.1.weight (fun _ => 0) fun _ => 1).sum := by
  fun_induction addAll census pending with
  | case1 census => rfl
  | case2 census value depth pending inductionHypothesis =>
      have added : (census.add value depth).nodes = census.nodes + 1 := rfl
      have inside :
          ((fun value : Value × Nat => value.1.weight (fun _ => 0) fun _ => 1) ∘
              fun child => (child, depth + 1)) =
            Value.weight (fun _ => 0) fun _ => 1 :=
        rfl
      rw [inductionHypothesis, List.map_append, List.sum_append, List.map_map, inside, added,
        List.map_cons, List.sum_cons, value.weight_children]
      omega

/-- One for each value of a tree, and the bytes of everything in it. -/
def Value.footprint (value : Value) : Nat :=
  value.weight String.utf8ByteSize fun node => 1 + node.ownBytes

/-- One for each value that elements hold, and the bytes of everything in them. -/
def Contents.footprint (contents : Contents) : Nat :=
  contents.weight String.utf8ByteSize fun node => 1 + node.ownBytes

/-- A scalar takes one and its own bytes. -/
theorem Value.footprint_scalar {value : Value} (plain : value.container? = none) :
    value.footprint = 1 + value.ownBytes :=
  weight_scalar _ _ plain

theorem Contents.footprint_cons (key : Option String) (value : Value) (rest : Contents) :
    footprint ((key, value) :: rest) =
      (key.getD "").utf8ByteSize + value.footprint + rest.footprint :=
  weight_cons _ _ key value rest

/-- A container takes one more than its elements, or less if keys are replaced. -/
theorem ContainerKind.footprint_gather_le (kind : ContainerKind) (contents : Contents) :
    (kind.gather contents).footprint ≤ 1 + contents.footprint := by
  have bound :=
    kind.weight_gather_le String.utf8ByteSize (fun node => 1 + node.ownBytes) contents
  cases kind <;> exact bound

/-- A document's values below its root, and the bytes that they and their keys hold. -/
theorem Document.nodes_add_heldBytes (document : Document) :
    (Census.ofValues document.values).nodes + document.heldBytes =
      KeyedValue.weigh String.utf8ByteSize (fun node => 1 + node.ownBytes)
        document.preorder := by
  have counted :
      (Census.ofValues document.values).nodes =
        KeyedValue.weigh (fun _ => 0) (fun _ => 1) document.preorder := by
    rw [Census.ofValues, Census.nodes_addAll, preorder, KeyedValue.weigh_preorderEntries,
      values, List.map_map, List.map_map]
    simp only [Nat.zero_add]
    exact Nat.zero_add _
  rw [counted, heldBytes, KeyedValue.weigh_add]
  simp only [Nat.zero_add]

/-- The elements that make up a document hold what it holds, or more. -/
theorem Document.footprint_le (contents : Contents) :
    (Census.ofValues (values ⟨Entries.settled contents.entries⟩)).nodes +
        heldBytes ⟨Entries.settled contents.entries⟩ ≤
      contents.footprint := by
  rw [nodes_add_heldBytes, preorder, KeyedValue.weigh_preorderEntries]
  exact contents.settled_weight_le _ _

end DocumentCodec
