import DocumentCodec.Proofs.Bson.Scalars
import DocumentCodec.Proofs.Bson.Truth

namespace DocumentCodec.Bson

/-!
# Which bytes BSON errors name

A byte that an error names is an element's tag, or it is the truth value behind
the tag and the key of a boolean.
-/

open Decode

/-- The bytes of an element that are refused by name, and the errors that name them. -/
inductive Refusal (kind : ContainerKind) (reader : ByteReader) : Error → Prop
  | tag (byte : UInt8) :
      Refusal kind reader (.format (.unknownElementType byte reader.cursor))
  | boolean {name key behind} (byte : UInt8)
      (named : IsKey kind name key)
      (passes : reader.Passes ([ElementType.boolean.tag] ++ name) behind) :
      Refusal kind reader (.format (.invalidBoolean byte behind.cursor))

/-- The byte that a truth value is refused for is the next one. -/
theorem exists_invalidBoolean
    {reader : ByteReader}
    {error : Error}
    (inBounds : reader.InBounds)
    (failed : readBoolean reader = .error error)
    (names : error.named? ≠ none) :
    ∃ byte, error = .format (.invalidBoolean byte reader.cursor) := by
  rw [readBoolean, position_bind] at failed
  obtain missing | ⟨byte, between, _, refused⟩ := bind_eq_error failed
  · exact absurd (readByte_plain.nameless rfl inBounds missing) names
  · split at refused
    · cases refused
    · split at refused
      · cases refused
      · cases refused
        exact ⟨byte, rfl⟩

/-- Behind a tag, the byte that is named is the tag, or the truth value that it announces. -/
theorem refusal_of_readTagged
    {options : DecodeOptions}
    {kind : ContainerKind}
    {bounds : Bounds}
    {reader behindTag : ByteReader}
    {tag : UInt8}
    {error : Error}
    (passesTag : reader.Passes [tag] behindTag)
    (failed : readTagged options kind bounds reader.cursor tag behindTag = .error error)
    (names : error.named? ≠ none) :
    Refusal kind reader error := by
  rw [readTagged] at failed
  cases announced : ElementType.ofTag? tag with
  | none =>
      rw [announced] at failed
      cases failed
      exact .tag tag
  | some type =>
      rw [announced] at failed
      obtain unnamed | ⟨key, behindKey, readName, later⟩ := bind_eq_error failed
      · exact absurd ((readKey_plain _ _).nameless rfl passesTag.inBounds unnamed) names
      · obtain ⟨name, named, passesName⟩ :=
          (readKey_recognizes kind _ rfl passesTag.inBounds key behindKey).mp readName
        by_cases boolean : type = .boolean
        · subst boolean
          have passes := passesTag.trans passesName
          rw [← ElementType.tag_of_ofTag? announced] at passes
          obtain refused | ⟨value, behind, _, never⟩ := bind_eq_error later
          · obtain ⟨byte, rfl⟩ :=
              exists_invalidBoolean passesName.inBounds (map_eq_error refused) names
            exact .boolean byte named passes
          · cases never
        · have plain : Plain behindKey.bytes (readContents options key bounds type) :=
            readContents_plain options key bounds boolean
          exact absurd (plain.nameless rfl passesName.inBounds later) names

/-- An error that names a byte names the element's tag or its truth value. -/
theorem refusal_of_readElement
    {options : DecodeOptions}
    {kind : ContainerKind}
    {bounds : Bounds}
    {reader : ByteReader}
    {error : Error}
    (failed : readElement options kind bounds reader = .error error)
    (names : error.named? ≠ none) :
    Refusal kind reader error := by
  rw [readElement, position_bind, ensure_bind] at failed
  split at failed
  · by_cases inBounds : reader.InBounds
    · obtain missing | ⟨tag, behindTag, readTag, later⟩ := bind_eq_error failed
      · exact absurd (readByte_plain.nameless rfl inBounds missing) names
      · obtain ⟨_, rfl, passesTag⟩ :=
          (readByte_recognizes rfl inBounds tag behindTag).mp readTag
        split at later
        · rw [ensure_bind] at later
          split at later
          · cases later
          · cases later
            exact absurd rfl names
        · exact refusal_of_readTagged passesTag later names
    · rw [run_bind_of_error (readByte_of_not_inBounds inBounds)] at failed
      cases failed
      exact absurd rfl names
  · cases failed
    exact absurd rfl names

end DocumentCodec.Bson
