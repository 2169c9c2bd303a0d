import DocumentCodec.Proofs.Bson.Encoding
import DocumentCodec.Proofs.Codec.Decoding
import DocumentCodec.Proofs.Codec.Receiving
import DocumentCodec.Proofs.MessagePack.Encoding
import DocumentCodec.Proofs.Pool.Slots
import DocumentCodec.Proofs.Stream.Sinks

namespace DocumentCodec

/-!
# Documents on a stream and back

Documents of either format that are written to a sink one after another are
read back one after another, from any source that yields the bytes of the sink.
-/

namespace Format

/-- What a format can express of a tree at each of its values. -/
def IsExpressible : Format → Value → Prop
  | bson => Bson.IsExpressible
  | messagePack => MessagePack.IsExpressible

/-- Number of bytes of a document's encoding. -/
def encodedSize (format : Format) (document : Document) : Nat :=
  match format with
  | bson => Bson.encodedSize document.toValue
  | messagePack => (MessagePack.spelling.document document).length

/-- The largest encoding whose length a frame can tell. -/
def maximumPayload : Format → Nat
  | bson => Framing.maximumLength
  | messagePack => Frame.maximumLength

/-- The document that reading what was written gives. -/
def readBack (format : Format) (document : Document) : Document :=
  match format with
  | bson => document
  | messagePack => document.narrowed

/-- A document that a format and its frames can express and a reader accepts. -/
structure Carries (format : Format) (maximum : Nat) (document : Document) : Prop where
  wellFormed : document.WellFormed
  expressible : document.toValue.Everywhere format.IsExpressible
  fits : format.encodedSize document ≤ format.maximumPayload
  accepted : format.encodedSize document ≤ maximum

/-- A document that the format carries has an encoding, of the size that was told. -/
theorem Carries.exists_encoded
    {format : Format}
    {maximum : Nat}
    {document : Document}
    (carries : format.Carries maximum document) :
    ∃ payload, format.encoding document = .ok payload ∧
      payload.size = format.encodedSize document ∧
        format.IsDocument payload.data.toList (format.readBack document) := by
  unfold encoding
  cases format with
  | bson =>
      obtain ⟨encoded, encodes, sized, isDocument⟩ :=
        Bson.exists_encodeDocument carries.wellFormed carries.expressible carries.fits
      have written : Format.bson.writer.encodeDocument document = .ok encoded := encodes
      rw [written]
      exact ⟨_, rfl, sized, isDocument⟩
  | messagePack =>
      obtain ⟨encoded, encodes, isDocument⟩ :=
        MessagePack.exists_encodeDocument carries.wellFormed carries.expressible
      have spelled := MessagePack.encodeDocument_of_expressible carries.expressible
      rw [encodes, Except.ok.injEq] at spelled
      have written : Format.messagePack.writer.encodeDocument document = .ok encoded := encodes
      rw [written]
      exact ⟨_, rfl, congrArg List.length spelled, isDocument⟩

end Format

namespace Frame

/-- The frame of an encoded document. -/
def bytes (format : Format) (payload : ByteArray) : ByteArray :=
  header format payload.size ++ payload

variable {format : Format} {payload : ByteArray}

/-- Only a format whose length is not in its documents has it in front. -/
theorem size_header (format : Format) (size : Nat) :
    (header format size).size = if format.lengthIncluded then 0 else 4 := by
  cases format with
  | bson => rfl
  | messagePack => exact FieldType.length_bytes .uint32 size

/-- A frame is as long as its payload and its header. -/
theorem size_bytes (format : Format) (payload : ByteArray) :
    (bytes format payload).size = size format payload.size := by
  rw [bytes, ByteArray.size_append, size_header]
  cases format with
  | bson => exact Nat.zero_add _
  | messagePack => rfl

/-- A frame tells its payload. -/
theorem payload_bytes (format : Format) (payload : ByteArray) :
    Frame.payload format (bytes format payload).data.toList = payload.data.toList := by
  rw [bytes, ByteArray.data_append, Array.toList_append]
  cases format with
  | bson => exact List.nil_append _
  | messagePack => exact List.drop_left' (size_header .messagePack payload.size)

/-- Four little-endian bytes are the size that they were written from. -/
theorem ofLittleEndian_take
    {type : FieldType}
    {size : Nat}
    (little : type.isBigEndian = false)
    (wide : type.width = 4)
    (small : size < 0x100000000)
    (others : List UInt8) :
    Word.ofLittleEndian ((type.bytes size ++ others).take 4) = size := by
  have modulus : type.modulus = 0x100000000 := by
    rw [FieldType.modulus, wide]
    rfl
  have reduced : ((size : Int) % type.modulus).toNat = size := by
    rw [modulus]
    omega
  rw [List.take_left' ((FieldType.length_bytes type size).trans wide), FieldType.bytes, reduced,
    little, if_neg Bool.false_ne_true, Word.ofLittleEndian_littleEndian, wide]
  exact Nat.mod_eq_of_lt small

/-- The first bytes of a frame declare the size of its document, which is a legal one. -/
theorem declared_bytes
    {document : Document}
    (isDocument : format.IsDocument payload.data.toList document)
    (fits : payload.size ≤ format.maximumPayload)
    (others : List UInt8) :
    Word.ofLittleEndian (((bytes format payload).data.toList ++ others).take 4) =
        payload.size ∧
      ¬ (format = .bson ∧ ¬ (5 ≤ payload.size ∧ payload.size ≤ 0x7fffffff)) := by
  rw [bytes, ByteArray.data_append, Array.toList_append]
  cases format with
  | bson =>
      obtain ⟨body, contents, _, short, shape, _⟩ := isDocument
      have size : payload.size = body.length + Bson.minimumSize := by
        rw [← Bson.length_framed, ← shape]
        exact Array.length_toList.symm
      have inside : 5 ≤ payload.size ∧ payload.size ≤ 0x7fffffff := by
        rw [size]
        exact ⟨Nat.le_add_left _ _, short⟩
      refine ⟨?_, fun outside => outside.2 inside⟩
      change Word.ofLittleEndian ((payload.data.toList ++ others).take 4) = _
      rw [shape, Bson.framed, size, List.append_assoc, List.append_assoc]
      have small : body.length + Bson.minimumSize < 0x100000000 :=
        Nat.lt_of_le_of_lt short (by decide)
      exact ofLittleEndian_take rfl rfl small _
  | messagePack =>
      have separate : Format.messagePack ≠ .bson := by decide
      refine ⟨?_, fun other => separate other.1⟩
      have header : (header .messagePack payload.size).data.toList =
          FieldType.uint32.bytes payload.size := rfl
      rw [List.append_assoc, header]
      exact ofLittleEndian_take rfl rfl (Nat.lt_succ_of_le fits) _

/-- A whole frame comes to what its document's bytes are decoded to. -/
theorem expected_bytes
    {document : Document}
    {maximum : Nat}
    (isDocument : format.IsDocument payload.data.toList document)
    (fits : payload.size ≤ format.maximumPayload)
    (accepted : payload.size ≤ maximum)
    (decode : ByteArray → Except Error Document)
    (others : List UInt8)
    (obstacle? : Option IoFault) :
    expected decode format maximum ((bytes format payload).data.toList ++ others) obstacle? =
      (decode payload, (bytes format payload).size) := by
  obtain ⟨declares, legal⟩ := declared_bytes isDocument fits others
  have length : (bytes format payload).data.toList.length = size format payload.size := by
    rw [← size_bytes]
    exact Array.length_toList
  have whole : ¬ ((bytes format payload).data.toList ++ others).length <
      size format payload.size := by
    rw [List.length_append, length]
    omega
  have headed : ¬ ((bytes format payload).data.toList ++ others).length < 4 := fun short =>
    whole (Nat.lt_of_lt_of_le short (four_le_size legal))
  simp only [expected, declares, if_neg headed, if_neg legal, if_neg whole,
    if_neg (Nat.not_lt.mpr accepted), List.take_left' length, payload_bytes, size_bytes]

end Frame

namespace Codec

/-- Write documents one after another; the result is the number of bytes of each frame. -/
def writeAll (codec : Codec) (sink : Sink) :
    List (Format × Document) → Except Error (List Nat) × Codec × Sink
  | [] => (.ok [], codec, sink)
  | (format, document) :: rest =>
      match codec.writeTo format document sink with
      | (.error error, codec, sink) => (.error error, codec, sink)
      | (.ok size, codec, sink) =>
          let (result, codec, sink) := codec.writeAll sink rest
          (result.map fun sizes => size :: sizes, codec, sink)

/-- Read frames of given formats one after another, each with the number of bytes taken. -/
def readAll (codec : Codec) (source : Source) :
    List Format → List (Except Error Document × Nat) × Codec × Source
  | [] => ([], codec, source)
  | format :: rest =>
      let (result, codec, after) := codec.readFrom format source
      let (results, codec, last) := codec.readAll after rest
      ((result, after.taken - source.taken) :: results, codec, last)

/-- A frame whose length can be told goes to a willing sink as a whole. -/
theorem writeFrame_of_willing
    {format : Format}
    {payload : ByteArray}
    {sink : Sink}
    (willing : sink.Willing)
    (short : format = .messagePack → payload.size ≤ Frame.maximumLength) :
    ∃ after,
      writeFrame format payload sink = (.ok (Frame.bytes format payload).size, after) ∧
        after.Willing ∧ after.received = sink.received ++ Frame.bytes format payload := by
  cases format with
  | bson =>
      obtain ⟨after, wrote, willingAfter, received⟩ := Sink.writeFully_of_willing willing payload
      have included : Format.bson.lengthIncluded = true := rfl
      refine ⟨after, ?_, willingAfter, ?_⟩
      · rw [Frame.size_bytes, writeFrame, if_pos included, wrote]
        rfl
      · rw [received, Frame.bytes, Frame.header, if_pos included, ByteArray.empty_append]
  | messagePack =>
      obtain ⟨between, wroteHeader, willingBetween, receivedHeader⟩ :=
        Sink.writeFully_of_willing willing (Frame.header .messagePack payload.size)
      obtain ⟨after, wrote, willingAfter, received⟩ :=
        Sink.writeFully_of_willing willingBetween payload
      have separate : ¬ Format.messagePack.lengthIncluded = true := Bool.false_ne_true
      refine ⟨after, ?_, willingAfter, ?_⟩
      · rw [Frame.size_bytes, writeFrame, if_neg separate, if_pos (short rfl), wroteHeader]
        dsimp only
        rw [wrote]
        rfl
      · rw [received, receivedHeader, ByteArray.append_assoc]
        rfl

/-- The bytes of a document's frame; none if it has no encoding. -/
def frameOf (item : Format × Document) : ByteArray :=
  match item.1.encoding item.2 with
  | .ok payload => Frame.bytes item.1 payload
  | .error _ => ByteArray.empty

variable {codec : Codec} {format : Format} {document : Document}

/-- A willing sink gets the frame of a document that the format carries, and all of it. -/
theorem writeTo_of_carries
    {maximum : Nat}
    {sink : Sink}
    (clean : codec.Clean)
    (free : codec.buffers.gate.inUse < codec.buffers.gate.ceiling)
    (carries : format.Carries maximum document)
    (willing : sink.Willing) :
    ∃ after sent,
      codec.writeTo format document sink = (.ok (frameOf (format, document)).size, after, sent) ∧
        sent.Willing ∧ sent.received = sink.received ++ frameOf (format, document) := by
  obtain ⟨payload, encodes, sized, _⟩ := carries.exists_encoded
  have short : format = .messagePack → payload.size ≤ Frame.maximumLength := by
    rintro rfl
    exact sized ▸ carries.fits
  obtain ⟨sent, wrote, willingSent, received⟩ := writeFrame_of_willing willing short
  have written := writeTo_eq_encoding clean free format document sink
  rw [encodes] at written
  obtain ⟨result, same⟩ := Prod.mk.inj (written.trans wrote)
  have frame : frameOf (format, document) = Frame.bytes format payload := by
    rw [frameOf, encodes]
  rw [frame]
  exact ⟨(codec.writeTo format document sink).2.1, sent,
    Prod.ext result (Prod.ext rfl same), willingSent, received⟩

/-- All documents are written, and the slots in use stay as many. -/
theorem writeAll_of_carries
    {maximum : Nat}
    {items : List (Format × Document)}
    {sink : Sink}
    (reachable : codec.Reachable)
    (free : codec.buffers.gate.inUse < codec.buffers.gate.ceiling)
    (carries : ∀ item ∈ items, item.1.Carries maximum item.2)
    (willing : sink.Willing) :
    ∃ after sent,
      codec.writeAll sink items = (.ok (items.map fun item => (frameOf item).size), after, sent) ∧
        sent.received.data.toList =
          sink.received.data.toList ++ items.flatMap fun item => (frameOf item).data.toList := by
  induction items generalizing codec sink with
  | nil => exact ⟨codec, sink, rfl, (List.append_nil _).symm⟩
  | cons item rest inductionHypothesis =>
      rcases item with ⟨format, document⟩
      obtain ⟨after, sent, wrote, willingSent, received⟩ :=
        writeTo_of_carries reachable.clean free (carries _ List.mem_cons_self) willing
      have reachableAfter := reachable.writeTo format document sink
      have slots := sameSlots_writeTo codec format document sink
      rw [wrote] at reachableAfter slots
      have freeAfter : after.buffers.gate.inUse < after.buffers.gate.ceiling := by
        rw [slots.inUse_eq, slots.ceiling_eq]
        exact free
      obtain ⟨last, finished, wroteRest, receivedRest⟩ :=
        inductionHypothesis reachableAfter freeAfter
          (fun other member => carries other (List.mem_cons_of_mem _ member)) willingSent
      refine ⟨last, finished, ?_, ?_⟩
      · simp only [writeAll, wrote, wroteRest]
        rfl
      · rw [receivedRest, received, ByteArray.data_append, Array.toList_append,
          List.flatMap_cons, List.append_assoc]

/-- The next frame is read to its document and taken from the source. -/
theorem readFrom_of_carries
    {source : Source}
    {others : List UInt8}
    (reachable : codec.Reachable)
    (carries : format.Carries codec.config.maximumDocumentSize document)
    (advances : source.chunk ≠ some 0)
    (starts : source.present = (frameOf (format, document)).data.toList ++ others) :
    (codec.readFrom format source).1 = .ok (format.readBack document) ∧
      source.Gives (frameOf (format, document)).data.toList (codec.readFrom format source).2.2 := by
  obtain ⟨payload, encodes, sized, isDocument⟩ := carries.exists_encoded
  have fits : payload.size ≤ format.maximumPayload := sized ▸ carries.fits
  have accepted : payload.size ≤ codec.config.maximumDocumentSize := sized ▸ carries.accepted
  have frame : frameOf (format, document) = Frame.bytes format payload := by
    rw [frameOf, encodes]
  have decodes : (codec.decode format payload).1 = .ok (format.readBack document) :=
    (decode_eq_ok_iff format reachable _ _).mpr ⟨accepted, isDocument⟩
  obtain ⟨result, takes⟩ := readFrom_eq_expected reachable advances format
  have verdict := Frame.expected_bytes isDocument fits accepted
    (fun payload => (codec.decode format payload).1) others source.obstacle?
  rw [← frame, ← starts, decodes] at verdict
  rw [verdict] at result takes
  have front : source.present.take (frameOf (format, document)).size =
      (frameOf (format, document)).data.toList := by
    rw [starts]
    exact List.take_left' Array.length_toList
  have gives := takes.gives fun fault _ never => by cases never
  rw [← front]
  exact ⟨result, gives⟩

/-- Frames one behind the other are read back as their documents, in their order. -/
theorem readAll_of_carries
    {items : List (Format × Document)}
    {source : Source}
    (reachable : codec.Reachable)
    (carries : ∀ item ∈ items, item.1.Carries codec.config.maximumDocumentSize item.2)
    (advances : source.chunk ≠ some 0)
    (holds : source.present = items.flatMap fun item => (frameOf item).data.toList) :
    ∃ after last,
      codec.readAll source (items.map Prod.fst) =
          (items.map fun item => (.ok (item.1.readBack item.2), (frameOf item).size),
            after, last) ∧
        after.Reachable ∧ source.Gives source.present last := by
  induction items generalizing codec source with
  | nil =>
      rw [holds]
      exact ⟨codec, source, rfl, reachable, .refl source⟩
  | cons item rest inductionHypothesis =>
      rcases item with ⟨format, document⟩
      obtain ⟨result, gives⟩ :=
        readFrom_of_carries reachable (carries _ List.mem_cons_self) advances holds
      have reachableAfter := reachable.readFrom format source
      have sameConfig := config_readFrom codec format source
      rcases ran : codec.readFrom format source with ⟨answer, after, behind⟩
      rw [ran] at result gives reachableAfter sameConfig
      have carriesRest :
          ∀ other ∈ rest, other.1.Carries after.config.maximumDocumentSize other.2 := by
        intro other member
        rw [sameConfig]
        exact carries other (List.mem_cons_of_mem _ member)
      have holdsRest : behind.present = rest.flatMap fun item => (frameOf item).data.toList :=
        List.append_cancel_left (gives.present_eq.symm.trans holds)
      obtain ⟨finished, last, readRest, reachableLast, givesRest⟩ :=
        inductionHypothesis reachableAfter carriesRest (gives.chunk_eq ▸ advances) holdsRest
      have count : behind.taken - source.taken = (frameOf (format, document)).size := by
        rw [gives.taken_eq, Nat.add_sub_cancel_left]
        exact Array.length_toList
      refine ⟨finished, last, ?_, reachableLast, ?_⟩
      · simp only [List.map_cons, readAll, ran, readRest, count]
        exact congrArg (fun answer => ((answer, _) :: _, finished, last)) result
      · rw [gives.present_eq]
        exact gives.trans givesRest

/-- A source at its end has no frame. -/
theorem readFrom_of_ended
    {source : Source}
    (reachable : codec.Reachable)
    (advances : source.chunk ≠ some 0)
    (spent : source.present = [])
    (clear : source.obstacle? = none)
    (format : Format) :
    (codec.readFrom format source).1 = .error (.truncated 4 0) := by
  obtain ⟨result, _⟩ := readFrom_eq_expected reachable advances format
  rw [spent, clear] at result
  exact result

/--
Documents that are written to a sink one after another, however it splits and
interrupts the writes, are read back in order from a source that yields the
bytes of the sink, however it splits and interrupts the reads.  Every read
takes as many bytes as the write reported, and none are left at the end.
-/
theorem readAll_writeAll
    {writer reader : Codec}
    {sink : Sink}
    {items : List (Format × Document)}
    (writerReachable : writer.Reachable)
    (readerReachable : reader.Reachable)
    (free : writer.buffers.gate.inUse < writer.buffers.gate.ceiling)
    (carries : ∀ item ∈ items, item.1.Carries reader.config.maximumDocumentSize item.2)
    (willing : sink.Willing) :
    ∃ sizes written, (writer.writeAll sink items).1 = .ok sizes ∧
      (writer.writeAll sink items).2.2.received.data.toList =
        sink.received.data.toList ++ written ∧
      sizes.length = items.length ∧
      ∀ source : Source, source.chunk ≠ some 0 → source.obstacle? = none →
        source.present = written →
          let outcome := reader.readAll source (items.map Prod.fst)
          outcome.1 =
              List.zipWith (fun item size => (.ok (item.1.readBack item.2), size)) items sizes ∧
            ∀ format,
              (outcome.2.1.readFrom format outcome.2.2).1 = .error (.truncated 4 0) := by
  obtain ⟨after, sent, wrote, received⟩ :=
    writeAll_of_carries writerReachable free carries willing
  rw [wrote]
  refine ⟨_, _, rfl, received, List.length_map _, ?_⟩
  intro source advances clear holds
  obtain ⟨behind, last, read, reachableBehind, gives⟩ :=
    readAll_of_carries readerReachable carries advances holds
  have spent : last.present = [] :=
    List.append_cancel_left (gives.present_eq.symm.trans (List.append_nil _).symm)
  rw [read]
  refine ⟨?_, fun format => ?_⟩
  · rw [List.zipWith_map_right, List.zipWith_self]
  · exact readFrom_of_ended reachableBehind (gives.chunk_eq ▸ advances) spent
      (gives.obstacle_eq.trans clear) format

/--
A BSON and a MessagePack document go over one stream, a byte at a time and
with an interruption on either side; the wide integer comes back narrowed.
-/
theorem readAll_writeAll_mixed :
    let items : List (Format × Document) :=
      [(.bson, ⟨[("a", .int64 1)]⟩), (.messagePack, ⟨[("b", .array [.int64 2])]⟩)]
    let interruption : IoFault := ⟨.interrupted, ""⟩
    let sent :=
      (failFast .standard).writeAll
        ⟨ByteArray.empty, [.takes 3, .fails interruption], some 1, none⟩ items
    let source : Source :=
      .ofPieces [.failure interruption, .bytes sent.2.2.received] (some 1)
    ∃ first second, sent.1 = .ok [first, second] ∧
      ((blocking .standard).readAll source [.bson, .messagePack]).1 =
        [(.ok ⟨[("a", .int64 1)]⟩, first), (.ok ⟨[("b", .array [.int32 2])]⟩, second)] := by
  intro items interruption sent source
  have absent : 0 ∉ Utf8.encode "a" := by decide
  have short : "b".utf8ByteSize < 0x100000000 := by decide
  have carriesFirst : Format.bson.Carries
      (blocking .standard).config.maximumDocumentSize ⟨[("a", .int64 1)]⟩ := {
    wellFormed := by
      simp (disch := decide) [Document.WellFormed, Document.toValue, Value.everywhere_map,
        Value.everywhere_scalar, Value.KeysDistinct]
    expressible := by
      simp (disch := decide) [Format.IsExpressible, Document.toValue, Value.everywhere_map,
        Value.everywhere_scalar, Bson.IsExpressible, absent]
    fits := by decide
    accepted := by decide }
  have carriesSecond : Format.messagePack.Carries
      (blocking .standard).config.maximumDocumentSize ⟨[("b", .array [.int64 2])]⟩ := {
    wellFormed := by
      simp (disch := decide) [Document.WellFormed, Document.toValue, Value.everywhere_map,
        Value.everywhere_array, Value.everywhere_scalar, Value.KeysDistinct]
    expressible := by
      simp (disch := decide) [Format.IsExpressible, Document.toValue, Value.everywhere_map,
        Value.everywhere_array, Value.everywhere_scalar, MessagePack.IsExpressible,
        MessagePack.IsShort, short]
    fits := by decide
    accepted := by decide }
  have carries :
      ∀ item ∈ items, item.1.Carries (blocking .standard).config.maximumDocumentSize item.2 :=
    List.forall_mem_cons.mpr ⟨carriesFirst, List.forall_mem_singleton.mpr carriesSecond⟩
  have willing :
      Sink.Willing ⟨ByteArray.empty, [.takes 3, .fails interruption], some 1, none⟩ := by
    refine ⟨?_, by decide, fun _ _ never => by cases never⟩
    exact List.forall_mem_cons.mpr ⟨Nat.zero_lt_succ 2, List.forall_mem_singleton.mpr rfl⟩
  obtain ⟨sizes, written, wrote, received, length, reads⟩ :=
    readAll_writeAll (.new .standard .failFast) (.new .standard (.waiting _)) (by decide)
      carries willing
  obtain ⟨first, second, rfl⟩ := List.length_eq_two.mp length
  have advances : source.chunk ≠ some 0 := by decide
  have holds : source.present = written := (List.append_nil _).trans received
  exact ⟨first, second, wrote, (reads source advances rfl holds).1⟩

end Codec

end DocumentCodec
