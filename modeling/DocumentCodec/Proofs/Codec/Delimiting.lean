import DocumentCodec.Proofs.Bson.Decoding
import DocumentCodec.Proofs.Codec.Decoding
import DocumentCodec.Proofs.MessagePack.Curtailment

namespace DocumentCodec

/-!
# Documents delimit themselves

The bytes of a document are not those of a document any more when some are
missing at the end or others follow, whichever these are.
-/

/-- A proper prefix is as long as was asked for. -/
theorem size_extract_of_lt
    {bytes : ByteArray}
    {count : Nat}
    (proper : count < bytes.size) :
    (bytes.extract 0 count).size = count := by
  rw [ByteArray.size_extract]
  omega

/-- A suffix leaves the bytes in front of it alone. -/
theorem take_toList_append (bytes suffix : ByteArray) :
    (bytes ++ suffix).data.toList.take bytes.size = bytes.data.toList := by
  rw [ByteArray.data_append, Array.toList_append]
  exact List.take_left' Array.length_toList

variable {options : DecodeOptions} {bytes : ByteArray} {document : Document}

namespace Bson

/-- The declared length is missed when bytes are missing, unless it is cut itself. -/
theorem read_extract
    (within : bytes.size ≤ options.maximumSize)
    (isDocument : IsDocument bytes.data.toList document)
    (target : Document)
    {count : Nat}
    (proper : count < bytes.size) :
    (Bson.reader.read options (bytes.extract 0 count) target []).result =
      .error (.truncated (if count < 4 then 4 else bytes.size) count) := by
  have size := size_extract_of_lt proper
  refine ElementReader.read_of_root_failed ?_ target
  change readRoot options _ = _
  by_cases short : count < 4
  · rw [readRoot_of_short (by rwa [size]), size, if_pos short]
  · obtain ⟨body, contents, _, fits, shape, _⟩ := isDocument
    have total : body.length + minimumSize = bytes.size := by
      rw [← length_framed, ← shape]
      exact Array.length_toList
    have starts :
        (ByteReader.ofBytes (bytes.extract 0 count)).ahead =
          FieldType.int32.bytes (body.length + minimumSize : Nat) ++
            (body ++ [terminator]).take (count - 4) := by
      rw [ByteReader.ahead_ofBytes, ByteArray.data_extract, Array.toList_extract,
        List.extract_eq_take_drop, shape, framed, List.append_assoc, List.drop_zero,
        Nat.sub_zero, List.take_append, FieldType.length_bytes]
      refine congrArg (· ++ _) (List.take_of_length_le ?_)
      rw [FieldType.length_bytes]
      exact Nat.not_lt.mp short
    obtain ⟨rest, passes, _⟩ := ByteReader.Passes.of_ahead (Nat.zero_le _) starts
    rw [readRoot_of_declared ((FieldType.int32_holds_iff _).mpr fits) passes, size,
      Int.toNat_natCast, total]
    have least : (minimumSize : Int) ≤ (bytes.size : Nat) :=
      Int.ofNat_le.mpr (total ▸ Nat.le_add_left _ _)
    rw [if_pos least, if_pos within, if_neg (Nat.not_le.mpr proper), if_neg short]

/-- What follows a document is not looked at when the document is read. -/
theorem read_append
    (copied : options.shared? = none)
    (within : bytes.size ≤ options.maximumSize)
    (isDocument : IsDocument bytes.data.toList document)
    (target : Document)
    (suffix : ByteArray) :
    (Bson.reader.read options (bytes ++ suffix) target []).result =
      .ok (bytes.size, document) := by
  rw [Bson.read_eq_ok_iff (Decode.owned_of_copied copied _),
    take_toList_append, ByteArray.size_append]
  exact ⟨Nat.le_add_right _ _, within, isDocument⟩

end Bson

namespace MessagePack

/-- Whatever is missing, the shortage is noticed before anything else. -/
theorem read_extract
    (copied : options.shared? = none)
    (target other : Document)
    (whole :
      (MessagePack.reader.read options bytes target []).result =
        .ok (bytes.size, document))
    {count : Nat}
    (proper : count < bytes.size) :
    ∃ error,
      (MessagePack.reader.read options (bytes.extract 0 count) other []).result =
          .error error ∧
        error.IsLengthFault := by
  obtain ⟨bounds, reader, final, rest, header, reads, atEnd, _⟩ :=
    (ElementReader.read_eq_ok_iff _ _ _ _ _ _).mp whole
  obtain ⟨lower, shorter, same, lowered, stays⟩ | ⟨error, failed, isFault⟩ :=
    readRoot_degrades options (ByteReader.curtails_extract bytes count) header
  · obtain ⟨after, again, staysAfter⟩ | ⟨error, failed, isFault⟩ :=
      reads.degrade (next_degrades options) rfl lowered stays
    · have accepted := ElementReader.read_of_reads same again other
      have owned := Decode.owned_of_copied copied (bytes.extract 0 count)
      obtain ⟨inside, _⟩ := (MessagePack.read_eq_ok_iff owned other _ _).mp accepted
      have cursor := staysAfter.cursor_eq
      change after.cursor ≤ _ at inside
      rw [size_extract_of_lt proper] at inside
      omega
    · exact ⟨error, ElementReader.read_of_reads same failed other, isFault⟩
  · exact ⟨error, ElementReader.read_of_root_failed failed other, isFault⟩

/-- Input above the size limit is refused before a byte of it is read. -/
theorem read_of_not_within
    (large : options.maximumSize < bytes.size)
    (target : Document) :
    (MessagePack.reader.read options bytes target []).result =
      .error (.capacity bytes.size options.maximumSize) := by
  refine ElementReader.read_of_root_failed ?_ target
  change readRoot options _ = _
  have refused :
      ¬ decide ((ByteReader.ofBytes bytes).remaining ≤ options.maximumSize) = true :=
    fun fits => Nat.not_le.mpr large (of_decide_eq_true fits)
  rw [readRoot, Decode.remaining_bind, Decode.ensure_bind, if_neg refused]
  rfl

/-- What follows a document is not looked at, except that it has to be within the limit. -/
theorem read_append
    (copied : options.shared? = none)
    (isDocument : IsDocument bytes.data.toList document)
    (target : Document)
    (suffix : ByteArray) :
    (MessagePack.reader.read options (bytes ++ suffix) target []).result =
      if options.maximumSize < bytes.size + suffix.size then
        .error (.capacity (bytes.size + suffix.size) options.maximumSize)
      else
        .ok (bytes.size, document) := by
  rw [← ByteArray.size_append]
  by_cases large : options.maximumSize < (bytes ++ suffix).size
  · rw [if_pos large, read_of_not_within large]
  · rw [if_neg large, MessagePack.read_eq_ok_iff (Decode.owned_of_copied copied _),
      take_toList_append]
    refine ⟨?_, Nat.not_lt.mp large, isDocument⟩
    rw [ByteArray.size_append]
    exact Nat.le_add_right _ _

end MessagePack

namespace Codec

variable {codec : Codec} {format : Format}

/-- Bytes behind the end of a document are noticed when it has been read. -/
theorem wholeInput_append
    {suffix : ByteArray}
    (nonempty : suffix ≠ .empty) :
    wholeInput format (bytes ++ suffix) (.ok (bytes.size, document)) =
      .error (.format (.trailingBytes suffix.size format bytes.size)) := by
  have sized : suffix.size ≠ 0 := fun none =>
    nonempty (ByteArray.ext (Array.eq_empty_of_size_eq_zero none))
  rw [wholeInput, ByteArray.size_append, if_neg (by omega), Nat.add_sub_cancel_left]

/--
The bytes of a document are rejected when some are missing at the end, and
when others follow.
-/
theorem decode_delimited
    (reachable : codec.Reachable)
    (accepted : (codec.decode format bytes).1 = .ok document) :
    (∀ count < bytes.size,
      match format with
      | .bson =>
          (codec.decode .bson (bytes.extract 0 count)).1 =
            .error (.truncated (if count < 4 then 4 else bytes.size) count)
      | .messagePack =>
          ∃ error, (codec.decode .messagePack (bytes.extract 0 count)).1 = .error error ∧
            error.IsLengthFault) ∧
      ∀ suffix : ByteArray, suffix ≠ .empty →
        (codec.decode format (bytes ++ suffix)).1 =
          .error
            (if format = .messagePack ∧
                codec.config.maximumDocumentSize < bytes.size + suffix.size then
              .capacity (bytes.size + suffix.size) codec.config.maximumDocumentSize
            else
              .format (.trailingBytes suffix.size format bytes.size)) := by
  obtain ⟨within, isDocument⟩ := (decode_eq_ok_iff format reachable _ _).mp accepted
  cases format with
  | bson =>
      refine ⟨fun count proper => ?_, fun suffix nonempty => ?_⟩
      · refine (decode_eq_wholeInput reachable .bson _).trans ?_
        exact congrArg (wholeInput .bson _)
          (Bson.read_extract within isDocument .empty proper)
      · rw [decode_eq_wholeInput reachable, if_neg (fun both => nomatch both.1),
          ← wholeInput_append nonempty]
        exact congrArg (wholeInput .bson _)
          (Bson.read_append rfl within isDocument .empty suffix)
  | messagePack =>
      rw [decode_eq_wholeInput reachable, wholeInput_eq_ok_iff] at accepted
      refine ⟨fun count proper => ?_, fun suffix nonempty => ?_⟩
      · obtain ⟨error, failed, isFault⟩ :=
          MessagePack.read_extract rfl .empty .empty accepted proper
        refine ⟨error, (decode_eq_wholeInput reachable .messagePack _).trans ?_, isFault⟩
        exact congrArg (wholeInput .messagePack _) failed
      · have read :
            (Format.messagePack.reader.read ⟨codec.config.maximumDocumentSize, none⟩
              (bytes ++ suffix) .empty []).result = _ :=
          MessagePack.read_append rfl isDocument .empty suffix
        rw [decode_eq_wholeInput reachable, read]
        by_cases large : codec.config.maximumDocumentSize < bytes.size + suffix.size
        · rw [if_pos large, if_pos ⟨rfl, large⟩]
          rfl
        · rw [if_neg large, if_neg (fun both => large both.2), wholeInput_append nonempty]

/-- A document that follows itself is not read, nor is one of which a byte is missing. -/
theorem decode_delimited_nested :
    let document : Document := ⟨[("a", .array [.null])]⟩
    let bson : ByteArray := ⟨#[16, 0, 0, 0, 0x04, 97, 0, 8, 0, 0, 0, 0x0a, 48, 0, 0, 0]⟩
    let messagePack : ByteArray := ⟨#[0x81, 0xa1, 97, 0x91, 0xc0]⟩
    let codec := failFast .standard
    ((codec.decode .bson bson).1 = .ok document ∧
        (codec.decode .bson (bson.extract 0 3)).1 = .error (.truncated 4 3) ∧
          (codec.decode .bson (bson.extract 0 15)).1 = .error (.truncated 16 15) ∧
            (codec.decode .bson (bson ++ bson)).1 =
              .error (.format (.trailingBytes 16 .bson 16))) ∧
      (codec.decode .messagePack messagePack).1 = .ok document ∧
        (∃ error, (codec.decode .messagePack (messagePack.extract 0 4)).1 = .error error ∧
            error.IsLengthFault) ∧
          (codec.decode .messagePack (messagePack ++ messagePack)).1 =
            .error (.format (.trailingBytes 5 .messagePack 5)) := by
  intro document bson messagePack codec
  have reachable : codec.Reachable := .new .standard .failFast
  have acceptedBson : (codec.decode .bson bson).1 = .ok document := by
    have named : Bson.IsKey .map [97, 0] (some "a") :=
      ⟨[97], by decide, rfl, "a", by decide, rfl⟩
    have numbered : Bson.IsKey .array [48, 0] none := ⟨[48], by decide, rfl, rfl⟩
    have elements :
        Bson.Elements .map [0x04, 97, 0, 8, 0, 0, 0, 0x0a, 48, 0, 0]
          [(some "a", .array [.null])] :=
      .nested named (.scalar numbered .null .none) (by decide) .none
    exact (decode_eq_ok_iff .bson reachable _ _).mpr
      ⟨by decide, _, _, elements, by decide, by decide, rfl⟩
  have acceptedMessagePack : (codec.decode .messagePack messagePack).1 = .ok document := by
    have named : MessagePack.IsKey .map [0xa1, 97] (some "a") :=
      ⟨"a", .shortString "a" (by decide), rfl⟩
    have null : MessagePack.IsScalar [0xc0] .null :=
      @MessagePack.IsScalar.marked .nil [] _ (.constant .null)
    have inside : MessagePack.Elements .array [0xc0] [(none, .null)] :=
      @MessagePack.Elements.scalar .array [] none [0xc0] .null [] [] ⟨rfl, rfl⟩ null .none
    have elements :
        MessagePack.Elements .map [0xa1, 97, 0x91, 0xc0] [(some "a", .array [.null])] :=
      .nested named (.short (by decide)) inside .none
    exact (decode_eq_ok_iff .messagePack reachable _ _).mpr
      ⟨by decide, _, _, _, .short (by decide), elements, by decide, rfl⟩
  obtain ⟨cutBson, extendedBson⟩ := decode_delimited reachable acceptedBson
  obtain ⟨cutMessagePack, extendedMessagePack⟩ :=
    decode_delimited reachable acceptedMessagePack
  exact ⟨⟨acceptedBson, cutBson 3 (by decide), cutBson 15 (by decide),
      extendedBson bson (by decide)⟩, acceptedMessagePack, cutMessagePack 4 (by decide),
    extendedMessagePack messagePack (by decide)⟩

end Codec

end DocumentCodec
