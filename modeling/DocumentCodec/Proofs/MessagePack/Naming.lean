import DocumentCodec.Proofs.MessagePack.Truth

namespace DocumentCodec.MessagePack

/-!
# Which bytes MessagePack errors name

A byte that an error names is where a map's key begins, or it is the lead byte
of an element's value, behind its key in a map.
-/

open Decode

/-- The bytes of an element that are refused by name, and the errors that name them. -/
inductive Refusal (kind : ContainerKind) (reader : ByteReader) : Error → Prop
  | key (lead : UInt8)
      (inMap : kind = .map) :
      Refusal kind reader (.format (.keyNotString reader.cursor lead))
  | marker {name key behind} (lead : UInt8)
      (named : IsKey kind name key)
      (passes : reader.Passes name behind) :
      Refusal kind reader (.format (.reservedMarker lead behind.cursor))

/-- A key is refused by name for its first byte. -/
theorem exists_keyNotString
    {reader : ByteReader}
    {error : Error}
    (inBounds : reader.InBounds)
    (failed : readKey reader = .error error)
    (names : error.named? ≠ none) :
    ∃ lead, error = .format (.keyNotString reader.cursor lead) := by
  rw [readKey, position_bind] at failed
  obtain missing | ⟨lead, behindLead, readLead, later⟩ := bind_eq_error failed
  · exact absurd (readByte_plain.nameless rfl inBounds missing) names
  · obtain ⟨_, rfl, passes⟩ :=
      (readByte_recognizes rfl inBounds lead behindLead).mp readLead
    obtain plain | ⟨malformed, _⟩ :=
      @readKeyLength_plain_or behindLead.bytes reader.cursor lead
    · have rest := plain.bind readString_plain
      exact absurd (rest.nameless rfl passes.inBounds later) names
    · rw [malformed] at later
      cases later
      exact ⟨lead, rfl⟩

/-- An error that names a byte names where a key begins, or the lead byte behind it. -/
theorem refusal_of_readElement
    {options : DecodeOptions}
    {kind : ContainerKind}
    {bounds : Bounds}
    {reader : ByteReader}
    {error : Error}
    (failed : readElement options kind bounds reader = .error error)
    (names : error.named? ≠ none) :
    Refusal kind reader error := by
  unfold readElement at failed
  split at failed
  · cases failed
  · have inBounds : reader.InBounds := by
      by_contra outside
      rw [readDeclared_of_not_inBounds outside] at failed
      cases failed
      exact names rfl
    obtain unnamed | ⟨key, behindKey, readName, later⟩ := bind_eq_error failed
    · cases kind with
      | map =>
          obtain ⟨lead, rfl⟩ := exists_keyNotString inBounds (map_eq_error unnamed) names
          exact .key lead rfl
      | array => cases unnamed
    · obtain ⟨name, named, passes⟩ :=
        (readEntryKey_recognizes kind rfl inBounds key behindKey).mp readName
      rw [position_bind] at later
      obtain missing | ⟨lead, behindLead, readLead, refused⟩ := bind_eq_error later
      · exact absurd (readByte_plain.nameless rfl passes.inBounds missing) names
      · obtain ⟨_, rfl, passesLead⟩ :=
          (readByte_recognizes rfl passes.inBounds lead behindLead).mp readLead
        obtain plain | ⟨malformed, _⟩ :=
          @readContents_plain_or behindLead.bytes options key
            ⟨bounds.stop, bounds.remaining - 1⟩ behindKey.cursor lead
        · exact absurd (plain.nameless rfl passesLead.inBounds refused) names
        · rw [malformed] at refused
          cases refused
          exact .marker lead named passes

end DocumentCodec.MessagePack
