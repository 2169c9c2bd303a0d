import DocumentCodec.Document.Basic

namespace DocumentCodec

/-!
# Counting values

A census of a tree has the number of its values, its depth and the number of
values of each kind.  It keeps the values still to be counted on a list of its
own, so that it takes a tree of any depth.
-/

/-- The counts of the values of one or more trees. -/
structure Census where
  nodes : Nat
  /-- The number of values on the longest way from a root to a leaf. -/
  depth : Nat
  kinds : List (Kind × Nat)
  deriving Repr, DecidableEq

namespace Census

/-- The counts of no tree. -/
def empty : Census :=
  ⟨0, 0, []⟩

/-- Count one more value of a kind. -/
def tally (kind : Kind) : List (Kind × Nat) → List (Kind × Nat)
  | [] => [(kind, 1)]
  | (known, total) :: rest =>
      if known = kind then
        (known, total + 1) :: rest
      else
        (known, total) :: tally kind rest

/-- Count one more value at a depth. -/
def add (census : Census) (value : Value) (depth : Nat) : Census :=
  ⟨census.nodes + 1, max census.depth depth, tally value.kind census.kinds⟩

/-- The size of values that are still to be counted. -/
noncomputable def pendingSize : List (Value × Nat) → Nat
  | [] => 0
  | (value, _) :: pending => sizeOf value + pendingSize pending

/-- Items put before other values add at most their own size. -/
theorem pendingSize_items_le
    (items : List Value)
    (depth : Nat)
    (pending : List (Value × Nat)) :
    pendingSize (items.map (fun item => (item, depth)) ++ pending) <
      sizeOf items + pendingSize pending := by
  induction items with
  | nil => simp
  | cons item rest inductionHypothesis =>
      simp only [List.map_cons, List.cons_append, pendingSize,
        List.cons.sizeOf_spec]
      omega

/-- The values of a map put before other values add at most their own size. -/
theorem pendingSize_values_le
    (entries : Entries)
    (depth : Nat)
    (pending : List (Value × Nat)) :
    pendingSize
        ((entries.map Prod.snd).map (fun item => (item, depth)) ++ pending) <
      sizeOf entries + pendingSize pending := by
  induction entries with
  | nil => simp
  | cons entry rest inductionHypothesis =>
      rcases entry with ⟨key, value⟩
      simp only [List.map_cons, List.cons_append, pendingSize,
        List.cons.sizeOf_spec, Prod.mk.sizeOf_spec]
      omega

/-- The children of a value are smaller than the value, even together. -/
theorem pendingSize_children_lt
    (value : Value)
    (depth : Nat)
    (pending : List (Value × Nat)) :
    pendingSize (value.children.map (fun child => (child, depth)) ++ pending) <
      sizeOf value + pendingSize pending := by
  have positive := value.sizeOf_pos
  cases value with
  | array items =>
      have bound := pendingSize_items_le items depth pending
      simp only [Value.children, Value.array.sizeOf_spec]
      omega
  | map entries =>
      have bound := pendingSize_values_le entries depth pending
      simp only [Value.children, Value.map.sizeOf_spec]
      omega
  | _ =>
      simp only [Value.children, List.map_nil, List.nil_append]
      omega

/-- Count values, each at its depth, and all values inside them. -/
def addAll (census : Census) : List (Value × Nat) → Census
  | [] => census
  | (value, depth) :: pending =>
      (census.add value depth).addAll
        (value.children.map (fun child => (child, depth + 1)) ++ pending)
termination_by pending => pendingSize pending
decreasing_by
  exact pendingSize_children_lt value (depth + 1) pending

/-- The counts of trees whose roots are given. -/
def ofValues (roots : List Value) : Census :=
  empty.addAll (roots.map fun root => (root, 1))

end Census

end DocumentCodec
