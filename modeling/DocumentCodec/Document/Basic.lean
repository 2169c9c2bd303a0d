import DocumentCodec.Value.Basic

namespace DocumentCodec

/-!
# Documents

A document is a map at the root of a tree.  Inserting under a key that is
already there replaces the value and leaves the key where it was; a new key
goes to the end.
-/

/-- The entries of a map, in the order of their keys. -/
abbrev Entries :=
  List (String × Value)

namespace Entries

/-- The value under a key. -/
def get? (key : String) : Entries → Option Value
  | [] => none
  | (name, value) :: rest =>
      if name = key then some value else get? key rest

/-- Put a value under a key, in the key's old place or at the end. -/
def insert (key : String) (value : Value) : Entries → Entries
  | [] => [(key, value)]
  | (name, previous) :: rest =>
      if name = key then
        (name, value) :: rest
      else
        (name, previous) :: insert key value rest

/-- Take a key out, keeping the order of the others. -/
def erase (key : String) : Entries → Entries
  | [] => []
  | (name, value) :: rest =>
      if name = key then rest else (name, value) :: erase key rest

/-- The keys, in order. -/
def keys (entries : Entries) : List String :=
  entries.map Prod.fst

/-- Insert entries one after another. -/
def insertAll (entries additions : Entries) : Entries :=
  additions.foldl (fun collected entry => collected.insert entry.1 entry.2) entries

/-- No entries have no keys. -/
@[simp]
theorem keys_nil : keys [] = [] :=
  rfl

/-- The keys of entries stand in their order. -/
@[simp]
theorem keys_cons (entry : String × Value) (rest : Entries) :
    keys (entry :: rest) = entry.1 :: keys rest :=
  rfl

/-- The first entry stands alone. -/
@[simp]
theorem insert_nil (key : String) (value : Value) :
    insert key value [] = [(key, value)] :=
  rfl

/-- The value just inserted is the one found. -/
theorem get?_insert_self (key : String) (value : Value) (entries : Entries) :
    (entries.insert key value).get? key = some value := by
  induction entries with
  | nil => simp [insert, get?]
  | cons entry rest inductionHypothesis =>
      rcases entry with ⟨name, previous⟩
      by_cases same : name = key
      · simp [insert, get?, same]
      · simp [insert, get?, same, inductionHypothesis]

/-- Inserting under one key leaves the value under another as it was. -/
theorem get?_insert_of_ne
    {key other : String}
    (different : key ≠ other)
    (value : Value)
    (entries : Entries) :
    (entries.insert key value).get? other = entries.get? other := by
  induction entries with
  | nil => simp [insert, get?, different]
  | cons entry rest inductionHypothesis =>
      rcases entry with ⟨name, previous⟩
      by_cases same : name = key
      · subst same
        simp [insert, get?, different]
      · by_cases found : name = other
        · subst found
          simp [insert, get?, same]
        · simp [insert, get?, same, found, inductionHypothesis]

/-- A key that is present keeps its place, and a new key goes to the end. -/
theorem keys_insert (key : String) (value : Value) (entries : Entries) :
    (entries.insert key value).keys =
      if key ∈ entries.keys then entries.keys else entries.keys ++ [key] := by
  induction entries with
  | nil => simp [insert]
  | cons entry rest inductionHypothesis =>
      rcases entry with ⟨name, previous⟩
      by_cases same : name = key
      · simp [insert, same]
      · have otherWay : ¬ key = name := fun equal => same equal.symm
        by_cases present : key ∈ keys rest
        · simp [insert, same, present, inductionHypothesis]
        · simp [insert, same, otherWay, present, inductionHypothesis]

end Entries

/-- A map at the root of a tree. -/
structure Document where
  entries : Entries
  deriving Inhabited

namespace Document

/-- The document without entries. -/
def empty : Document :=
  ⟨[]⟩

/-- Number of entries. -/
def size (document : Document) : Nat :=
  document.entries.length

/-- Whether there are no entries. -/
def isEmpty (document : Document) : Bool :=
  document.entries.isEmpty

/-- The keys, in order. -/
def keys (document : Document) : List String :=
  document.entries.keys

/-- The values, in the order of their keys. -/
def values (document : Document) : List Value :=
  document.entries.map Prod.snd

/-- The value under a key. -/
def get? (document : Document) (key : String) : Option Value :=
  document.entries.get? key

/-- Whether a key is present. -/
def contains (document : Document) (key : String) : Bool :=
  (document.get? key).isSome

/-- Put a value under a key; the answer includes the value it replaces. -/
def insert (document : Document) (key : String) (value : Value) :
    Option Value × Document :=
  (document.get? key, ⟨document.entries.insert key value⟩)

/-- Replace the value under a key that is present. -/
def replace? (document : Document) (key : String) (value : Value) :
    Option Document :=
  if document.contains key then
    some ⟨document.entries.insert key value⟩
  else
    none

/-- Take a key out, keeping the order of the others; the answer includes its value. -/
def remove (document : Document) (key : String) : Option Value × Document :=
  (document.get? key, ⟨document.entries.erase key⟩)

/-- Take out all entries. -/
def clear (_ : Document) : Document :=
  empty

/-- The document as a value. -/
def toValue (document : Document) : Value :=
  .map document.entries

end Document

end DocumentCodec
