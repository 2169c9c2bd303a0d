import Std.Data.HashMap
import DocumentCodec.Document.Basic

namespace DocumentCodec

/-!
# Building documents

A builder holds the entries of a map under construction together with the
place of each key, so that inserting takes constant time whatever the number
of entries.

Main statement: a builder gives the entries that `Entries.insertAll` gives.
-/

namespace Entries

/-- The place of a key among the entries. -/
def place? (key : String) : Entries → Option Nat
  | [] => none
  | (name, _) :: rest =>
      if name = key then some 0 else (place? key rest).map (· + 1)

/-- A key without a place goes to the end. -/
theorem insert_of_place?_eq_none
    {key : String}
    {entries : Entries}
    (absent : entries.place? key = none)
    (value : Value) :
    entries.insert key value = entries ++ [(key, value)] := by
  induction entries with
  | nil => rfl
  | cons entry rest inductionHypothesis =>
      rcases entry with ⟨name, previous⟩
      by_cases same : name = key
      · simp [place?, same] at absent
      · simp only [place?, same, if_false, Option.map_eq_none_iff] at absent
        simp [insert, same, inductionHypothesis absent]

/-- A key with a place keeps it. -/
theorem insert_of_place?_eq_some
    {key : String}
    {entries : Entries}
    {place : Nat}
    (present : entries.place? key = some place)
    (value : Value) :
    entries.insert key value = entries.set place (key, value) := by
  induction entries generalizing place with
  | nil => simp [place?] at present
  | cons entry rest inductionHypothesis =>
      rcases entry with ⟨name, previous⟩
      by_cases same : name = key
      · simp only [place?, same, if_true, Option.some.injEq] at present
        subst present
        simp [insert, same]
      · simp only [place?, same, if_false, Option.map_eq_some_iff] at present
        obtain ⟨inner, found, rfl⟩ := present
        simp [insert, same, inductionHypothesis found]

/-- Inserting moves no key, and a new key comes behind all others. -/
theorem place?_insert (key other : String) (value : Value) (entries : Entries) :
    (entries.insert key value).place? other =
      if key = other then
        some ((entries.place? key).getD entries.length)
      else
        entries.place? other := by
  induction entries with
  | nil =>
      by_cases same : key = other
      · simp [insert, place?, same]
      · simp [insert, place?, same]
  | cons entry rest inductionHypothesis =>
      rcases entry with ⟨name, previous⟩
      by_cases same : name = key
      · subst same
        by_cases equal : name = other
        · simp [insert, place?, equal]
        · simp [insert, place?, equal]
      · by_cases equal : key = other
        · subst equal
          simp only [if_true] at inductionHypothesis
          simp only [insert, place?, same, if_false, if_true,
            inductionHypothesis, Option.map_some, List.length_cons]
          cases place? key rest <;> rfl
        · simp only [equal, if_false] at inductionHypothesis
          simp only [insert, place?, same, equal, if_false, inductionHypothesis]

end Entries

/-- The entries inserted so far and the place of each key among them. -/
structure Document.Builder where
  entries : Array (String × Value)
  places : Std.HashMap String Nat

namespace Document.Builder

/-- A builder without entries. -/
def empty : Builder :=
  ⟨#[], ∅⟩

instance : Inhabited Builder :=
  ⟨empty⟩

/-- Put a value under a key, in the key's old place or at the end. -/
def insert (builder : Builder) (key : String) (value : Value) : Builder :=
  match builder with
  | ⟨entries, places⟩ =>
      match places[key]? with
      | some place => ⟨entries.setIfInBounds place (key, value), places⟩
      | none =>
          let place := entries.size
          ⟨entries.push (key, value), places.insert key place⟩

/-- Insert entries one after another. -/
def insertAll (builder : Builder) (additions : Entries) : Builder :=
  additions.foldl (fun built entry => built.insert entry.1 entry.2) builder

/-- The builder that holds the entries of a document. -/
def ofDocument (document : Document) : Builder :=
  empty.insertAll document.entries

/-- The document built so far. -/
def toDocument (builder : Builder) : Document :=
  ⟨builder.entries.toList⟩

/-- The builder knows the place of every key. -/
def Consistent (builder : Builder) : Prop :=
  ∀ key, builder.places[key]? = Entries.place? key builder.entries.toList

/-- A builder without entries has an index of none. -/
theorem consistent_empty : Consistent empty := by
  intro key
  simp [empty, Entries.place?]

/-- Inserting into a builder inserts into its entries. -/
theorem toList_insert
    {builder : Builder}
    (consistent : builder.Consistent)
    (key : String)
    (value : Value) :
    (builder.insert key value).entries.toList =
      Entries.insert key value builder.entries.toList := by
  rcases builder with ⟨entries, places⟩
  have known := consistent key
  simp only at known
  simp only [insert]
  split
  · rename_i place found
    rw [known] at found
    rw [Entries.insert_of_place?_eq_some found]
    simp
  · rename_i missing
    rw [known] at missing
    rw [Entries.insert_of_place?_eq_none missing]
    simp

/-- After an insertion the builder still knows the place of every key. -/
theorem Consistent.insert
    {builder : Builder}
    (consistent : builder.Consistent)
    (key : String)
    (value : Value) :
    (builder.insert key value).Consistent := by
  intro other
  rw [toList_insert consistent, Entries.place?_insert]
  rcases builder with ⟨entries, places⟩
  have known := consistent key
  have others := consistent other
  simp only at known others
  simp only [Builder.insert]
  split
  · rename_i place found
    by_cases same : key = other
    · subst same
      rw [known] at found
      simp only [if_true, known, found, Option.getD_some]
    · simp only [same, if_false, others]
  · rename_i missing
    rw [known] at missing
    rw [Std.HashMap.getElem?_insert]
    by_cases same : key = other
    · subst same
      simp [missing]
    · simp [same, others]

/-- Inserting many entries into a builder inserts them into its entries. -/
theorem toList_insertAll
    {builder : Builder}
    (consistent : builder.Consistent)
    (additions : Entries) :
    (builder.insertAll additions).entries.toList =
      Entries.insertAll builder.entries.toList additions := by
  induction additions generalizing builder with
  | nil => rfl
  | cons entry rest inductionHypothesis =>
      have rule := inductionHypothesis (consistent.insert entry.1 entry.2)
      rw [toList_insert consistent] at rule
      exact rule

end Document.Builder

namespace Document

/-- Insert entries one after another. -/
def extend (document : Document) (additions : Entries) : Document :=
  ((Builder.ofDocument document).insertAll additions).toDocument

/-- The document that results from inserting entries one after another. -/
def ofEntries (entries : Entries) : Document :=
  (Builder.empty.insertAll entries).toDocument

end Document

end DocumentCodec
