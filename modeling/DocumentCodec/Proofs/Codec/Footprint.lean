import DocumentCodec.Proofs.Codec.Decoding
import DocumentCodec.Proofs.Codec.Results
import DocumentCodec.Proofs.Traversal.Footprint
import DocumentCodec.Proofs.Traversal.Tracing

namespace DocumentCodec

/-!
# What decoding takes

Whatever lengths and counts an input declares, decoding it calls for elements
fewer than twice as often as it has bytes, and holds no more open containers
than it has bytes.  The document has fewer values than the input has bytes,
even when the bytes of its keys and payloads are counted with them, because
these stand in the input and each value has a byte of its own there.
-/

/-- Reading a field moves on. -/
theorem Decode.readField_consuming (type : FieldType) : Consuming (readField type) := by
  refine Consuming.bind (fun reader bytes rest ran => ?_) fun _ => Shrinking.pure _
  have wide : 0 < type.width := by cases type <;> decide
  simp only [readBytes] at ran
  split at ran
  · rename_i fits
    cases ran
    have inside := reader.limit_le
    simp only [ByteReader.unread, ByteReader.advance]
    omega
  · cases ran

namespace Bson

/-- Opening a document moves on. -/
theorem readRoot_consuming (options : DecodeOptions) : Decode.Consuming (readRoot options) :=
  .after Decode.position_shrinking fun _ =>
    .after Decode.remaining_shrinking fun _ =>
      (Decode.readField_consuming .int32).bind fun _ =>
        (Decode.ensure_shrinking _ _).bind fun _ =>
          (Decode.ensure_shrinking _ _).bind fun _ =>
            (Decode.ensure_shrinking _ _).bind fun _ => .pure _

/-- A key takes its text and a zero byte. -/
theorem IsKey.size_lt
    {kind : ContainerKind}
    {taken : List UInt8}
    {key : Option String}
    (named : IsKey kind taken key) :
    (key.getD "").utf8ByteSize < taken.length := by
  obtain ⟨name, _, rfl, means⟩ := named
  rw [List.length_append, List.length_singleton, Nat.lt_succ_iff]
  cases kind with
  | map =>
      obtain ⟨text, rfl, rfl⟩ := means
      exact Nat.le_of_eq (Utf8.length_encode text).symm
  | array =>
      cases means
      exact Nat.zero_le _

/-- A payload has the bytes that its value holds at its end, or in front of a zero byte. -/
theorem IsPayload.footprint_le
    {type : ElementType}
    {taken : List UInt8}
    {value : Value}
    (payload : IsPayload type taken value) :
    value.footprint ≤ 1 + taken.length := by
  have holds (plain : value.container? = none) (own : value.ownBytes ≤ taken.length) :
      value.footprint ≤ 1 + taken.length := by
    rw [Value.footprint_scalar plain]
    exact Nat.add_le_add_left own 1
  cases payload with
  | string text fits =>
      have size := Utf8.length_encode text
      refine holds rfl ?_
      rw [List.length_append, List.length_append, size]
      exact Nat.le_add_right_of_le (Nat.le_add_left _ _)
  | binary subtype bytes plain fits =>
      refine holds rfl ?_
      rw [List.length_append]
      exact Nat.le_add_left _ _
  | oldBinary bytes fits =>
      refine holds rfl ?_
      rw [List.length_append]
      exact Nat.le_add_left _ _
  | _ => exact holds rfl (Nat.zero_le _)

/-- The elements of a container hold no more than the bytes that they are read from. -/
theorem Elements.footprint_le
    {kind : ContainerKind}
    {body : List UInt8}
    {contents : Contents}
    (elements : Elements kind body contents) :
    contents.footprint ≤ body.length := by
  induction elements with
  | none => exact Nat.zero_le _
  | @scalar kind type name key payload value body contents named held others bound =>
      have front := named.size_lt
      have middle := held.footprint_le
      rw [Contents.footprint_cons]
      simp only [List.length_append, List.length_singleton]
      omega
  | @nested kind inner name key inside held body contents named within fits others
      insideBound othersBound =>
      have front := named.size_lt
      have middle := inner.footprint_gather_le held
      rw [Contents.footprint_cons]
      simp only [List.length_append, List.length_singleton, length_framed]
      omega

end Bson

namespace MessagePack

/-- Opening a document moves on. -/
theorem readRoot_consuming (options : DecodeOptions) : Decode.Consuming (readRoot options) := by
  refine .after Decode.remaining_shrinking fun _ =>
    .after (Decode.ensure_shrinking _ _) fun _ =>
      .after Decode.position_shrinking fun _ =>
        Decode.readByte_consuming.bind fun lead => ?_
  have counts : Decode.Shrinking (readRootCount lead) := by
    unfold readRootCount
    split
    · exact .pure _
    · exact readLength_shrinking .uint16BE
    · exact readLength_shrinking .uint32BE
    · exact Decode.malformed_shrinking _
  exact counts.bind fun _ =>
    (checkCount_shrinking _ _ _).bind fun _ =>
      Decode.limit_shrinking.bind fun _ => .pure _

/-- A scalar takes a byte and those that its value holds, which are its last ones. -/
theorem IsScalar.footprint_le
    {taken : List UInt8}
    {value : Value}
    (scalar : IsScalar taken value) :
    value.footprint ≤ taken.length := by
  have data_size (data : ByteArray) : data.data.toList.length = data.size :=
    Array.length_toList
  have positive := scalar.length_pos
  cases scalar with
  | small value lower upper => exact positive
  | shortString text short =>
      rw [Value.footprint_scalar rfl, List.length_append, Utf8.length_encode]
      exact Nat.le_refl _
  | @marked marker taken value payload =>
      generalize declares : marker.layout = layout at payload
      cases payload with
      | constant value => cases marker <;> cases declares <;> exact positive
      | string text holds =>
          rw [Value.footprint_scalar rfl, List.length_append, List.length_append,
            Utf8.length_encode]
          exact Nat.add_le_add_left (Nat.le_add_left _ _) 1
      | binary bytes holds =>
          rw [Value.footprint_scalar rfl, List.length_append, List.length_append, data_size]
          exact Nat.add_le_add_left (Nat.le_add_left _ _) 1
      | extension kind data holds =>
          have own : (Value.extension ⟨kind, data⟩).ownBytes = data.size := rfl
          rw [Value.footprint_scalar rfl, own]
          simp only [List.length_append, List.length_singleton, data_size]
          omega
      | fixedExtension kind data =>
          rw [Value.footprint_scalar rfl, List.length_append, List.length_append, data_size]
          exact Nat.add_le_add_left (Nat.le_add_left _ _) 1
      | _ => exact positive

/-- A key takes the bytes of its text and those of its header. -/
theorem IsKey.size_le
    {kind : ContainerKind}
    {taken : List UInt8}
    {key : Option String}
    (named : IsKey kind taken key) :
    (key.getD "").utf8ByteSize ≤ taken.length := by
  cases kind with
  | map =>
      obtain ⟨text, scalar, rfl⟩ := named
      have whole := scalar.footprint_le
      rw [Value.footprint_scalar rfl] at whole
      exact Nat.le_trans (Nat.le_add_left _ 1) whole
  | array =>
      obtain ⟨rfl, rfl⟩ := named
      exact Nat.le_refl 0

/-- The elements of a container hold no more than the bytes that they are read from. -/
theorem Elements.footprint_le
    {kind : ContainerKind}
    {body : List UInt8}
    {contents : Contents}
    (elements : Elements kind body contents) :
    contents.footprint ≤ body.length := by
  induction elements with
  | none => exact Nat.zero_le _
  | scalar named held others bound =>
      have front := named.size_le
      have middle := held.footprint_le
      rw [Contents.footprint_cons]
      simp only [List.length_append]
      omega
  | @nested kind inner name key header inside held body contents named declared within
      others insideBound othersBound =>
      have front := named.size_le
      have opening := declared.length_pos
      have middle := inner.footprint_gather_le held
      rw [Contents.footprint_cons]
      simp only [List.length_append]
      omega

end MessagePack

namespace Format

/-- In either format, opening a document moves on. -/
theorem root_consuming (format : Format) (options : DecodeOptions) :
    Decode.Consuming (format.reader.root options) := by
  cases format with
  | bson => exact Bson.readRoot_consuming options
  | messagePack => exact MessagePack.readRoot_consuming options

/-- The bytes of a document are more than its values and what they hold. -/
theorem footprint_lt_of_isDocument
    {format : Format}
    {taken : List UInt8}
    {document : Document}
    (isDocument : format.IsDocument taken document) :
    (Census.ofValues document.values).nodes + document.heldBytes < taken.length := by
  cases format with
  | bson =>
      obtain ⟨body, contents, elements, _, rfl, rfl⟩ := isDocument
      rw [Bson.length_framed]
      have within := Nat.le_trans (Document.footprint_le contents) elements.footprint_le
      exact Nat.lt_of_le_of_lt within (Nat.lt_add_of_pos_right (by decide))
  | messagePack =>
      obtain ⟨header, body, contents, declared, elements, rfl, rfl⟩ := isDocument
      rw [List.length_append, Nat.add_comm header.length]
      have within := Nat.le_trans (Document.footprint_le contents) elements.footprint_le
      exact Nat.lt_of_le_of_lt within (Nat.lt_add_of_pos_right declared.length_pos)

end Format

namespace Codec

variable {codec : Codec}

/--
Decoding any bytes is a run that calls for an element at most twice as often
as there are bytes, and once more; never has it more open containers than
there are bytes.  A document that it comes to has fewer values than there are
bytes, together with the bytes of all keys, texts, binaries and extensions.
-/
theorem decode_is_not_amplified
    (reachable : codec.Reachable)
    (format : Format)
    (bytes : ByteArray) :
    let trace := format.reader.traceRead ⟨codec.config.maximumDocumentSize, none⟩ bytes .empty
    (codec.decode format bytes).1 = wholeInput format bytes trace.outcome.result ∧
      trace.calls.length ≤ 2 * bytes.size + 1 ∧
      (∀ state ∈ trace.calls, state.frames ≠ [] ∧ state.frames.length ≤ bytes.size) ∧
      ∀ document, (codec.decode format bytes).1 = .ok document →
        (Census.ofValues document.values).nodes + document.heldBytes < bytes.size := by
  intro trace
  obtain ⟨few, shallow⟩ :=
    ElementReader.traceRead_bounds
      (format.root_consuming ⟨codec.config.maximumDocumentSize, none⟩) bytes .empty
  refine ⟨?_, Nat.le_succ_of_le few, shallow, fun document decoded => ?_⟩
  · rw [decode_eq_decoding reachable.clean, ElementReader.outcome_traceRead]
    rfl
  · obtain ⟨_, isDocument⟩ := (decode_eq_ok_iff format reachable bytes document).mp decoded
    exact Format.footprint_lt_of_isDocument isDocument

/-- An array in a map is two values, which with the map's key take less than five bytes. -/
theorem decode_nested_in_few_calls :
    let bytes : ByteArray := ⟨#[0x81, 0xa1, 97, 0x91, 0xc0]⟩
    let document : Document := ⟨[("a", .array [.null])]⟩
    let options : DecodeOptions := ⟨Config.standard.maximumDocumentSize, none⟩
    let trace := Format.messagePack.reader.traceRead options bytes .empty
    ((failFast .standard).decode .messagePack bytes).1 = .ok document ∧
      trace.calls.length ≤ 11 ∧
      (∀ state ∈ trace.calls, state.frames.length ≤ 5) ∧
      (Census.ofValues document.values).nodes + document.heldBytes = 3 ∧
      (Census.ofValues document.values).nodes + document.heldBytes < bytes.size := by
  intro bytes document options trace
  have reachable : (failFast .standard).Reachable := .new .standard .failFast
  have named : MessagePack.IsKey .map [0xa1, 97] (some "a") :=
    ⟨"a", .shortString "a" (by decide), rfl⟩
  have null : MessagePack.IsScalar [0xc0] .null :=
    @MessagePack.IsScalar.marked .nil [] _ (.constant .null)
  have unnamed : MessagePack.IsKey .array [] none := ⟨rfl, rfl⟩
  have inside : MessagePack.Elements .array [0xc0] [(none, .null)] :=
    .scalar unnamed null .none
  have items : MessagePack.IsHeader .array [0x91] 1 :=
    @MessagePack.IsHeader.short .array 1 (by decide)
  have elements :
      MessagePack.Elements .map [0xa1, 97, 0x91, 0xc0] [(some "a", .array [.null])] :=
    .nested named items inside .none
  have header : MessagePack.IsHeader .map [0x81] 1 :=
    @MessagePack.IsHeader.short .map 1 (by decide)
  have decoded : ((failFast .standard).decode .messagePack bytes).1 = .ok document :=
    (decode_eq_ok_iff .messagePack reachable bytes document).mpr
      ⟨by decide, _, _, _, header, elements, rfl, rfl⟩
  obtain ⟨_, few, shallow, small⟩ := decode_is_not_amplified reachable .messagePack bytes
  refine
    ⟨decoded, few, fun state member => (shallow state member).2, ?_, small document decoded⟩
  rw [Document.nodes_add_heldBytes]
  decide

end Codec

end DocumentCodec
