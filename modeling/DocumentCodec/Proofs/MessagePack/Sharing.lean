import DocumentCodec.Proofs.MessagePack.Decoding
import DocumentCodec.Proofs.Traversal.Sharing

namespace DocumentCodec.MessagePack

/-!
# Shared payloads in MessagePack

Binary data and the data of extensions are the payloads that can be slices of
the input.
-/

open Decode

variable {input : ByteArray} {options : DecodeOptions}

/-- Shared or copied, binary data holds the same bytes. -/
theorem readBinary_sameOn
    (owned : ∀ owner ∈ options.shared?, owner = input)
    (length : Nat) :
    SameOn input (readBinary options length) (readBinary options.copied length) :=
  (SameOn.readPayload owned length).bind _

/-- Shared or copied, an extension holds the same bytes. -/
theorem readExtension_sameOn
    (owned : ∀ owner ∈ options.shared?, owner = input)
    (length : Nat) :
    SameOn input (readExtension options length) (readExtension options.copied length) :=
  .behind (readField_recognizes .int8) fun _ => (SameOn.readPayload owned length).bind _

/-- An element behind its marker does not depend on sharing. -/
theorem readMarked_sameOn
    (owned : ∀ owner ∈ options.shared?, owner = input)
    (key : Option String)
    (parent : Bounds)
    (offset : Nat)
    (marker : Marker) :
    SameOn input (readMarked options key parent offset marker)
      (readMarked options.copied key parent offset marker) := by
  have binaries {type : FieldType} (unsigned : type.isSigned = false) :
      SameOn input (readScalar key parent (readLength type >>= readBinary options))
        (readScalar key parent (readLength type >>= readBinary options.copied)) :=
    (SameOn.behind (readLength_recognizes unsigned) (readBinary_sameOn owned)).bind _
  have extensions {type : FieldType} (unsigned : type.isSigned = false) :
      SameOn input (readScalar key parent (readLength type >>= readExtension options))
        (readScalar key parent (readLength type >>= readExtension options.copied)) :=
    (SameOn.behind (readLength_recognizes unsigned) (readExtension_sameOn owned)).bind _
  cases marker with
  | bin8 => exact binaries rfl
  | bin16 => exact binaries rfl
  | bin32 => exact binaries rfl
  | ext8 => exact extensions rfl
  | ext16 => exact extensions rfl
  | ext32 => exact extensions rfl
  | fixExt1 => exact (readExtension_sameOn owned 1).bind _
  | fixExt2 => exact (readExtension_sameOn owned 2).bind _
  | fixExt4 => exact (readExtension_sameOn owned 4).bind _
  | fixExt8 => exact (readExtension_sameOn owned 8).bind _
  | fixExt16 => exact (readExtension_sameOn owned 16).bind _
  | _ => exact .refl _

/-- An element behind its lead does not depend on sharing. -/
theorem readContents_sameOn
    (owned : ∀ owner ∈ options.shared?, owner = input)
    (key : Option String)
    (parent : Bounds)
    (offset : Nat)
    (lead : UInt8) :
    SameOn input (readContents options key parent offset lead)
      (readContents options.copied key parent offset lead) := by
  unfold readContents
  cases Lead.ofByte lead with
  | marker marker => exact readMarked_sameOn owned key parent offset marker
  | _ => exact .refl _

/-- An element does not depend on sharing. -/
theorem readDeclared_sameOn
    (owned : ∀ owner ∈ options.shared?, owner = input)
    (kind : ContainerKind)
    (bounds : Bounds) :
    SameOn input (readDeclared options kind bounds)
      (readDeclared options.copied kind bounds) :=
  .behind (readEntryKey_recognizes kind) fun key =>
    .at_position fun offset =>
      .behind readByte_recognizes fun lead =>
        readContents_sameOn owned key bounds offset lead

/-- Behind its limit a reader finds no declared element, whatever the options. -/
theorem readDeclared_of_not_inBounds
    {reader : ByteReader}
    (outside : ¬ reader.InBounds)
    (options : DecodeOptions)
    (kind : ContainerKind)
    (bounds : Bounds) :
    readDeclared options kind bounds reader = .error (.truncated 1 reader.remaining) := by
  have missing := readByte_of_not_inBounds outside
  cases kind with
  | map =>
      have noKey : readKey reader = .error (.truncated 1 reader.remaining) := by
        rw [readKey, position_bind, run_bind_of_error missing]
      rw [readDeclared, readEntryKey, map_eq_pure_bind,
        run_bind_of_error (run_bind_of_error noKey)]
  | array =>
      rw [readDeclared, readEntryKey, run_bind_of_ok (run_pure none reader), position_bind,
        run_bind_of_error missing]

/-- A document is read alike with and without sharing. -/
theorem sharesInput : MessagePack.reader.SharesInput where
  root options := rfl
  root_keeps {options bytes rest bounds} ran := by
    obtain ⟨_, _, _, _, passes, _⟩ := (readRoot_eq_ok_iff options bytes bounds rest).mp ran
    exact passes.bytes_eq
  next {options} reader owned kind bounds := by
    rcases bounds with ⟨stop, _ | count⟩
    · rfl
    · change readElement options kind ⟨stop, count + 1⟩ reader =
        readElement options.copied kind ⟨stop, count + 1⟩ reader
      rw [readElement_declared, readElement_declared]
      by_cases inBounds : reader.InBounds
      · exact readDeclared_sameOn owned kind ⟨stop, count⟩ rfl inBounds
      · rw [readDeclared_of_not_inBounds inBounds, readDeclared_of_not_inBounds inBounds]
  next_keeps {options kind bounds result rest} reader owned ran := by
    rcases bounds with ⟨stop, _ | count⟩
    · cases ran
      rfl
    · change readElement options kind ⟨stop, count + 1⟩ reader = _ at ran
      rw [readElement_declared] at ran
      by_cases inBounds : reader.InBounds
      · rcases result with ⟨element, after⟩
        obtain ⟨_, found⟩ := found_of_readDeclared owned rfl inBounds ran
        cases found with
        | scalar _ _ passes => exact passes.bytes_eq
        | opened _ _ passes _ => exact passes.bytes_eq
      · rw [readDeclared_of_not_inBounds inBounds] at ran
        cases ran

end DocumentCodec.MessagePack
