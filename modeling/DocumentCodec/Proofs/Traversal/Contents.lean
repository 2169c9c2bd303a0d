import DocumentCodec.Proofs.Document.LastBinding
import DocumentCodec.Traversal.Reading

namespace DocumentCodec

/-!
# The elements of a container

A container is read as a sequence of elements, a map's with their keys.
`ContainerKind.gather` is the value they make up, and a collection under
construction comes to that value when the elements are attached in order.
-/

/-- The elements of a container as they stand, each with its key in a map. -/
abbrev Contents :=
  List (Option String × Value)

namespace Contents

/-- The elements of a map. -/
def entries (contents : Contents) : Entries :=
  contents.map fun element => (element.1.getD "", element.2)

/-- The elements of an array. -/
def items (contents : Contents) : List Value :=
  contents.map Prod.snd

/-- The elements that a map's entries are written as. -/
def ofEntries (entries : Entries) : Contents :=
  entries.map fun entry => (some entry.1, entry.2)

/-- The elements that an array's items are written as. -/
def ofItems (items : List Value) : Contents :=
  items.map fun item => (none, item)

/-- The entries of contents have the keys of the elements. -/
theorem keys_entries (contents : Contents) :
    contents.entries.keys = contents.map fun element => element.1.getD "" :=
  List.map_map

/-- Entries make contents that have them. -/
@[simp]
theorem entries_ofEntries (entries : Entries) : (ofEntries entries).entries = entries := by
  rw [ofEntries, Contents.entries, List.map_map]
  exact List.map_id entries

/-- Items make contents that have them. -/
@[simp]
theorem items_ofItems (items : List Value) : (ofItems items).items = items := by
  rw [ofItems, Contents.items, List.map_map]
  exact List.map_id items

end Contents

/--
The value that elements make up: an array holds them in order, and a map has
each key once, where it occurs first, with the value of its last occurrence.
-/
def ContainerKind.gather : ContainerKind → Contents → Value
  | .map, contents => .map (Entries.settled contents.entries)
  | .array, contents => .array contents.items

/-- Entries whose keys differ make up the map of them. -/
theorem ContainerKind.gather_ofEntries
    {entries : Entries}
    (distinct : entries.keys.Nodup) :
    ContainerKind.map.gather (.ofEntries entries) = .map entries := by
  rw [gather, Contents.entries_ofEntries, Entries.settled_of_nodup distinct]

/-- Items gathered into an array are its items. -/
theorem ContainerKind.gather_ofItems (items : List Value) :
    ContainerKind.array.gather (.ofItems items) = .array items := by
  rw [gather, Contents.items_ofItems]

/-- What a container holds is among the elements that make it up. -/
theorem ContainerKind.exists_of_mem_children
    {kind : ContainerKind}
    {contents : Contents}
    {child : Value}
    (member : child ∈ (kind.gather contents).children) :
    ∃ element ∈ contents, element.2 = child := by
  cases kind with
  | map =>
      obtain ⟨entry, settled, rfl⟩ := List.mem_map.mp member
      obtain ⟨element, present, rfl⟩ := List.mem_map.mp (Entries.mem_of_mem_settled settled)
      exact ⟨element, present, rfl⟩
  | array => exact List.mem_map.mp member

namespace Building

/-- Attach elements one after another. -/
def attachAll (building : Building) (contents : Contents) : Building :=
  contents.foldl (fun built element => built.attach element.1 element.2) building

theorem attachAll_cons
    (building : Building)
    (element : Option String × Value)
    (rest : Contents) :
    building.attachAll (element :: rest) =
      (building.attach element.1 element.2).attachAll rest :=
  rfl

@[simp]
theorem kind_empty (kind : ContainerKind) : (empty kind).kind = kind := by
  cases kind <;> rfl

@[simp]
theorem kind_attach (building : Building) (key : Option String) (value : Value) :
    (building.attach key value).kind = building.kind := by
  cases building <;> rfl

/-- To attach elements leaves the container's kind. -/
@[simp]
theorem kind_attachAll (building : Building) (contents : Contents) :
    (building.attachAll contents).kind = building.kind := by
  induction contents generalizing building with
  | nil => rfl
  | cons element rest inductionHypothesis =>
      rw [attachAll_cons, inductionHypothesis, kind_attach]

/-- Elements attached to a map are inserted one by one. -/
theorem attachAll_map (builder : Document.Builder) (contents : Contents) :
    (map builder).attachAll contents = map (builder.insertAll contents.entries) := by
  induction contents generalizing builder with
  | nil => rfl
  | cons element rest inductionHypothesis =>
      exact inductionHypothesis (builder.insert (element.1.getD "") element.2)

/-- Elements attached to an array are put behind its items. -/
theorem attachAll_array (collected : Array Value) (contents : Contents) :
    (array collected).attachAll contents = array (collected ++ contents.items) := by
  induction contents generalizing collected with
  | nil =>
      change array collected = array (collected ++ ([] : List Value))
      simp
  | cons element rest inductionHypothesis =>
      rw [attachAll_cons]
      change (array (collected.push element.2)).attachAll rest = _
      rw [inductionHypothesis]
      change _ = array (collected ++ element.2 :: Contents.items rest)
      simp

/-- A document that elements are attached to has their settled entries. -/
theorem entries_toDocument_attachAll (contents : Contents) :
    ((empty .map).attachAll contents).toDocument.entries =
      Entries.settled contents.entries := by
  change ((map .empty).attachAll contents).toDocument.entries = _
  rw [attachAll_map, ← Entries.insertAll_nil_eq_settled]
  exact Document.Builder.toList_insertAll Document.Builder.consistent_empty _

/-- What elements are attached to an empty collection come to. -/
theorem toValue_attachAll_empty (kind : ContainerKind) (contents : Contents) :
    ((empty kind).attachAll contents).toValue = kind.gather contents := by
  cases kind with
  | map =>
      have built := entries_toDocument_attachAll contents
      change ((map .empty).attachAll contents).toDocument.entries = _ at built
      change ((map .empty).attachAll contents).toValue = _
      rw [attachAll_map] at built ⊢
      exact congrArg Value.map built
  | array =>
      change ((array #[]).attachAll contents).toValue = .array contents.items
      rw [attachAll_array]
      simp [toValue]

end Building

end DocumentCodec
