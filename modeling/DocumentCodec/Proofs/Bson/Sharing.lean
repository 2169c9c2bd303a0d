import DocumentCodec.Proofs.Bson.Decoding
import DocumentCodec.Proofs.Traversal.Sharing

namespace DocumentCodec.Bson

/-!
# Shared payloads in BSON

Binary data is the only payload that can be a slice of the input.
-/

open Decode

variable {input : ByteArray} {options : DecodeOptions}

/-- Shared or copied, binary data holds the same bytes. -/
theorem readBinary_sameOn (owned : ∀ owner ∈ options.shared?, owner = input) :
    SameOn input (readBinary options) (readBinary options.copied) := by
  refine .at_position fun offset =>
    .behind (readField_recognizes .int32) fun length =>
      .ensure_then <| .behind readByte_recognizes fun subtype => ?_
  by_cases old : subtype = Binary.old
  · rw [if_pos old, if_pos old]
    refine .ensure_then <| .behind (readField_recognizes .int32) fun inner =>
      .ensure_then ?_
    exact (SameOn.readPayload owned inner.toNat).bind _
  · rw [if_neg old, if_neg old]
    exact (SameOn.readPayload owned length.toNat).bind _

/-- What an element holds does not depend on sharing. -/
theorem readContents_sameOn
    (owned : ∀ owner ∈ options.shared?, owner = input)
    (key : Option String)
    (parent : Bounds)
    (type : ElementType) :
    SameOn input (readContents options key parent type)
      (readContents options.copied key parent type) := by
  cases type with
  | binary => exact ((readBinary_sameOn owned).map Value.binary).bind _
  | _ => exact .refl _

/-- An element behind its tag does not depend on sharing. -/
theorem readTagged_sameOn
    (owned : ∀ owner ∈ options.shared?, owner = input)
    (kind : ContainerKind)
    (parent : Bounds)
    (offset : Nat)
    (tag : UInt8) :
    SameOn input (readTagged options kind parent offset tag)
      (readTagged options.copied kind parent offset tag) := by
  unfold readTagged
  cases ElementType.ofTag? tag with
  | none => exact .refl _
  | some type =>
      exact .behind (readKey_recognizes kind (offset + 1)) fun key =>
        readContents_sameOn owned key parent type

/-- An element does not depend on sharing. -/
theorem readElement_sameOn
    (owned : ∀ owner ∈ options.shared?, owner = input)
    (kind : ContainerKind)
    (bounds : Bounds) :
    SameOn input (readElement options kind bounds)
      (readElement options.copied kind bounds) := by
  refine .at_position fun offset => .ensure_then <| .behind readByte_recognizes fun tag => ?_
  by_cases last : tag = terminator
  · rw [if_pos last, if_pos last]
    exact .refl _
  · rw [if_neg last, if_neg last]
    exact readTagged_sameOn owned kind bounds offset tag

/-- Behind its limit a reader finds no element, whatever the options. -/
theorem exists_readElement_of_not_inBounds
    {reader : ByteReader}
    (outside : ¬ reader.InBounds)
    (kind : ContainerKind)
    (bounds : Bounds) :
    ∃ error, ∀ options, readElement options kind bounds reader = .error error := by
  by_cases before : reader.cursor < bounds.stop
  · refine ⟨.truncated 1 reader.remaining, fun options => ?_⟩
    rw [readElement, position_bind, ensure_bind, if_pos (decide_eq_true before)]
    exact run_bind_of_error (readByte_of_not_inBounds outside)
  · refine ⟨.corruption (.missingTerminator bounds.stop), fun options => ?_⟩
    rw [readElement, position_bind, ensure_bind, decide_eq_false before,
      if_neg Bool.false_ne_true]

/-- A document is read alike with and without sharing. -/
theorem sharesInput : Bson.reader.SharesInput where
  root options := rfl
  root_keeps {options bytes rest bounds} ran := by
    obtain ⟨_, _, _, _, passes, _⟩ := (readRoot_eq_ok_iff options bytes bounds rest).mp ran
    exact passes.bytes_eq
  next {options} reader owned kind bounds := by
    by_cases inBounds : reader.InBounds
    · exact readElement_sameOn owned kind bounds rfl inBounds
    · obtain ⟨error, failed⟩ := exists_readElement_of_not_inBounds inBounds kind bounds
      exact (failed options).trans (failed options.copied).symm
  next_keeps {options kind bounds result rest} reader owned ran := by
    by_cases inBounds : reader.InBounds
    · rcases result with ⟨element, after⟩
      obtain ⟨_, found⟩ := found_of_readElement owned rfl inBounds ran
      cases found with
      | finished passes => exact passes.bytes_eq
      | scalar _ _ passes => exact passes.bytes_eq
      | opened _ _ passes => exact passes.bytes_eq
    · obtain ⟨error, failed⟩ := exists_readElement_of_not_inBounds inBounds kind bounds
      have never := (failed options).symm.trans ran
      cases never

end DocumentCodec.Bson
