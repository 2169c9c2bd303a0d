namespace DocumentCodec

/-!
# Idle items

The idle items of a pool lie on sixteen stacks, the segments.  Every thread
has a home segment: it gives items back there, and looks there first when it
takes one and then in the segments that follow, round to its own.
-/

/-- A thread that uses a pool. -/
abbrev ThreadId :=
  Nat

/-- Items that are reset before they are used again. -/
class Reusable (α : Type) where
  /-- The item as its next user finds it. -/
  reset : α → α

instance : Reusable (List α) :=
  ⟨fun _ => []⟩

instance : Reusable ByteArray :=
  ⟨fun _ => ByteArray.empty⟩

/-- Number of segments of a pool. -/
abbrev segmentCount : Nat := 16

/-- The segment that a thread gives items back to. -/
def homeSegment (thread : ThreadId) : Fin segmentCount :=
  Fin.ofNat segmentCount thread

/-- The idle items of a pool, by segment, the last one given back first. -/
structure Segments (α : Type) where
  lists : Vector (List α) segmentCount

namespace Segments

/-- No idle items. -/
def empty : Segments α :=
  ⟨Vector.replicate segmentCount []⟩

instance : Inhabited (Segments α) :=
  ⟨empty⟩

/-- The idle items of one segment. -/
def stack (segments : Segments α) (index : Fin segmentCount) : List α :=
  segments.lists[index]

/-- All idle items. -/
def items (segments : Segments α) : List α :=
  segments.lists.toList.flatten

/-- Number of idle items in all segments. -/
def size (segments : Segments α) : Nat :=
  segments.items.length

/-- Put an item on a segment. -/
def push (segments : Segments α) (index : Fin segmentCount) (item : α) :
    Segments α :=
  ⟨segments.lists.set index (item :: segments.stack index)⟩

/-- Take the last item put on a segment. -/
def pop? (segments : Segments α) (index : Fin segmentCount) :
    Option (α × Segments α) :=
  match segments.stack index with
  | [] => none
  | item :: rest => some (item, ⟨segments.lists.set index rest⟩)

/-- The segments in the order in which a thread looks through them. -/
def searchOrder (home : Fin segmentCount) : List (Fin segmentCount) :=
  (List.range segmentCount).map fun offset => home + Fin.ofNat segmentCount offset

/-- Take an item from the first of some segments that has one. -/
def popFirst? (segments : Segments α) :
    List (Fin segmentCount) → Option (α × Segments α)
  | [] => none
  | index :: rest =>
      match segments.pop? index with
      | some taken => some taken
      | none => segments.popFirst? rest

/-- Take an item as a thread with a home segment does. -/
def take? (segments : Segments α) (home : Fin segmentCount) :
    Option (α × Segments α) :=
  segments.popFirst? (searchOrder home)

/-- Put an item on a segment unless that holds a number of items already. -/
def pushWithin (segments : Segments α) (index : Fin segmentCount)
    (capacity : Nat) (item : α) : Segments α :=
  if (segments.stack index).length < capacity then
    segments.push index item
  else
    segments

/-- Spread items over the segments, beginning with a given one. -/
def seedFrom (segments : Segments α) (index : Nat) : List α → Segments α
  | [] => segments
  | item :: rest =>
      (segments.push (Fin.ofNat segmentCount index) item).seedFrom (index + 1) rest

/-- Spread items over the segments. -/
def seed (items : List α) : Segments α :=
  empty.seedFrom 0 items

end Segments

end DocumentCodec
