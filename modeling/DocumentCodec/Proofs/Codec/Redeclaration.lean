import DocumentCodec.Proofs.Bson.Redeclaration
import DocumentCodec.Proofs.Codec.Decoding

namespace DocumentCodec.Codec

/-!
# Declared lengths are checked

No length that BSON bytes declare can be another one: neither that of the
document nor that of a container at any depth in it.
-/

variable {codec : Codec} {bytes : ByteArray} {document : Document} {site : Bson.Site}

/-- A length that is not the container's own is noticed, whichever container declares it. -/
theorem exists_decode_failed
    (reachable : codec.Reachable)
    (accepted : (codec.decode .bson bytes).1 = .ok document)
    (container : Bson.HasContainer bytes.data.toList site)
    (declared : Int32)
    (different : declared.toInt ≠ site.length) :
    ∃ error,
      (codec.decode .bson (Bson.redeclare bytes site.slot declared)).1 = .error error ∧
        (error.IsLengthFault ∨
          site.parentStop? = none ∧
            error = .capacity declared.toInt.toNat codec.config.maximumDocumentSize) ∧
          ∀ stop ∈ site.parentStop?, stop < site.slot + declared.toInt →
            ∃ fault, error = .corruption fault := by
  obtain ⟨within, isDocument⟩ := (decode_eq_ok_iff .bson reachable _ _).mp accepted
  have shape := Bson.toList_redeclare container declared
  have sized : (site.body ++ [Bson.terminator]).length = site.body.length + 1 :=
    List.length_append
  have same : (Bson.redeclare bytes site.slot declared).size = bytes.size :=
    (Bson.Site.size_eq shape sized).trans (Bson.Site.size_eq container.bytes_eq sized).symm
  have small :
      (Bson.redeclare bytes site.slot declared).size ≤ codec.config.maximumDocumentSize :=
    Nat.le_trans (Nat.le_of_eq same) within
  have fits : (Bson.redeclare bytes site.slot declared).size ≤ Framing.maximumLength := by
    rw [same, ← ByteArray.size_data, ← Array.length_toList]
    exact isDocument.length_le
  have copied : (DecodeOptions.mk codec.config.maximumDocumentSize none).shared? = none := rfl
  obtain ⟨error, failed, isFault, isCorruption⟩ :=
    container.exists_read_failed (Decode.owned_of_copied copied _) small fits
      (FieldType.carries_int32.holds declared) different shape .empty
  refine ⟨error, ?_, isFault, isCorruption⟩
  refine (decode_eq_wholeInput reachable .bson _).trans ?_
  exact congrArg (wholeInput .bson _) failed

/--
Every container of a decoded document declares its length in the bytes, and
with another number in that place the bytes are rejected.  They are truncated
or corrupt; they are too many only for the length of the document itself, and
they are corrupt whenever the length reaches behind the container around.
-/
theorem decode_redeclared
    (reachable : codec.Reachable)
    (accepted : (codec.decode .bson bytes).1 = .ok document) :
    (∀ node, document.toValue.HasNode node → node.container? ≠ none →
      ∃ site held,
        Bson.HasContainer bytes.data.toList site ∧
          Bson.Elements site.kind site.body held ∧ node = site.kind.gather held) ∧
      ∀ site : Bson.Site, Bson.HasContainer bytes.data.toList site →
        ∀ declared : Int32, declared.toInt ≠ site.length →
          ∃ error,
            (codec.decode .bson (Bson.redeclare bytes site.slot declared)).1 = .error error ∧
              (error.IsLengthFault ∨
                site.parentStop? = none ∧
                  error =
                    .capacity declared.toInt.toNat codec.config.maximumDocumentSize) ∧
                ∀ stop ∈ site.parentStop?, stop < site.slot + declared.toInt →
                  ∃ fault, error = .corruption fault := by
  obtain ⟨_, isDocument⟩ := (decode_eq_ok_iff .bson reachable _ _).mp accepted
  refine ⟨fun node occurs container => isDocument.exists_hasContainer occurs container, ?_⟩
  intro site container declared different
  exact exists_decode_failed reachable accepted container declared different

/-- A document in an array may be neither a byte longer nor reach behind the array. -/
theorem decode_redeclared_nested :
    let bytes : ByteArray :=
      ⟨#[21, 0, 0, 0, 0x04, 97, 0, 13, 0, 0, 0, 0x03, 48, 0, 5, 0, 0, 0, 0, 0, 0]⟩
    let codec := failFast .standard
    (codec.decode .bson bytes).1 = .ok ⟨[("a", .array [.map []])]⟩ ∧
      (∃ error,
        (codec.decode .bson (Bson.redeclare bytes 14 6)).1 = .error error ∧
          error.IsLengthFault) ∧
        ∃ fault,
          (codec.decode .bson (Bson.redeclare bytes 14 7)).1 = .error (.corruption fault) := by
  intro bytes codec
  have reachable : codec.Reachable := .new .standard .failFast
  have named : Bson.IsKey .map [97, 0] (some "a") :=
    ⟨[97], by decide, rfl, "a", by decide, rfl⟩
  have numbered : Bson.IsKey .array [48, 0] none := ⟨[48], by decide, rfl, rfl⟩
  have items : Bson.Elements .array [0x03, 48, 0, 5, 0, 0, 0, 0] [(none, .map [])] :=
    .nested numbered (@Bson.Elements.none .map) (by decide) .none
  have entries :
      Bson.Elements .map [0x04, 97, 0, 13, 0, 0, 0, 0x03, 48, 0, 5, 0, 0, 0, 0, 0]
        [(some "a", .array [.map []])] :=
    .nested named items (by decide) .none
  have accepted : (codec.decode .bson bytes).1 = .ok ⟨[("a", .array [.map []])]⟩ :=
    (decode_eq_ok_iff .bson reachable _ _).mpr
      ⟨by decide, _, _, entries, by decide, by decide, rfl⟩
  have root : Bson.HasContainer bytes.data.toList (.root _) := .root entries (by decide)
  have array := Bson.HasContainer.nested root (.intro .none named) items .none rfl
  have inner :=
    Bson.HasContainer.nested array (.intro .none numbered) (@Bson.Elements.none .map) .none rfl
  obtain ⟨_, rejected⟩ := decode_redeclared reachable accepted
  refine ⟨accepted, ?_, ?_⟩
  · obtain ⟨error, failed, isFault | ⟨isRoot, _⟩, _⟩ := rejected _ inner 6 (by decide)
    · exact ⟨error, failed, isFault⟩
    · cases isRoot
  · obtain ⟨error, failed, _, isCorruption⟩ := rejected _ inner 7 (by decide)
    obtain ⟨fault, rfl⟩ := isCorruption _ rfl (by decide)
    exact ⟨fault, failed⟩

end DocumentCodec.Codec
