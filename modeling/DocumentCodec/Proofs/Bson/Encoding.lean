import DocumentCodec.Bson.Writing
import DocumentCodec.Proofs.Bson.Decimal
import DocumentCodec.Proofs.Bson.Grammar
import DocumentCodec.Proofs.Bytes.Search
import DocumentCodec.Proofs.Text.Digits
import DocumentCodec.Proofs.Traversal.Encoding
import DocumentCodec.Proofs.Value.Tree

namespace DocumentCodec.Bson

/-!
# The encoding and the grammar

A tree that BSON can express has an encoding as long as `encodedSize` says, and
the grammar derives from it the elements that were encoded.
-/

/-- What BSON can express of a tree at each of its values, its lengths apart. -/
def IsExpressible : Value → Prop
  | .float32 _ => False
  | .extension _ => False
  | .decimal decimal => Decimal128.Holds decimal
  | .map entries => ∀ key ∈ Entries.keys entries, 0 ∉ Utf8.encode key
  | _ => True

mutual

/-- Number of bytes of a value behind its key. -/
def encodedSize : Value → Nat
  | .null => 0
  | .bool _ => 1
  | .int32 _ => 4
  | .int64 _ => 8
  | .float32 _ => 0
  | .float64 _ => 8
  | .string text => text.utf8ByteSize + 5
  | .binary content =>
      if content.subtype = Binary.old then content.bytes.size + 9
      else content.bytes.size + 5
  | .objectId _ => 12
  | .dateTime _ => 8
  | .decimal _ => 16
  | .extension _ => 0
  | .array items => itemsSize 0 items + 5
  | .map entries => fieldsSize entries + 5

/-- Number of bytes of a map's entries. -/
def fieldsSize : List (String × Value) → Nat
  | [] => 0
  | (name, value) :: rest =>
      name.utf8ByteSize + 2 + encodedSize value + fieldsSize rest

/-- Number of bytes of an array's items, from a position on. -/
def itemsSize (position : Nat) : List Value → Nat
  | [] => 0
  | value :: rest =>
      (Numeral.ofNat position).length + 2 + encodedSize value +
        itemsSize (position + 1) rest

end

/-- A size within the format's limit is written as a 32-bit number. -/
theorem outcome_length
    {part : Measured}
    {size : Nat}
    (fits : size ≤ Framing.maximumLength) :
    (length part size).outcome = .ok (FieldType.int32.bytes size) := by
  rw [length, if_pos fits, Emission.outcome_field]

/-- A key is written as one of the grammar's. -/
structure Spells (kind : ContainerKind) (key : Key) (word : List UInt8)
    (name : Option String) : Prop where
  written : (Bson.key key).outcome = .ok word
  isKey : IsKey kind word name

/-- A name without a zero byte is written as a key of a map. -/
theorem spells_name {text : String} (named : 0 ∉ Utf8.encode text) :
    Spells .map (.name text) (Utf8.encode text ++ [0]) (some text) := by
  refine ⟨?_, Utf8.encode text, named, rfl, text, rfl, rfl⟩
  have absent : ¬ (Scan.findByte? text.toUTF8 0 0).isSome := by
    rw [Scan.isSome_findByte?]
    exact named
  rw [key, if_neg absent]
  exact Emission.outcome_append_ok (Emission.outcome_piece _) (Emission.outcome_byte 0)

/-- A position is written as a key of an array. -/
theorem spells_index (position : Nat) :
    Spells .array (.index position) (Numeral.ofNat position ++ [0]) none := by
  refine ⟨?_, Numeral.ofNat position, Numeral.zero_not_mem_ofNat position, rfl, rfl⟩
  exact Emission.outcome_append_ok (Emission.outcome_ofList _) (Emission.outcome_byte 0)

/-- A string that fits is written as a payload of the size that was told. -/
theorem exists_string
    {text : String}
    (fits : encodedSize (.string text) ≤ Framing.maximumLength) :
    ∃ bytes, (string text).outcome = .ok bytes ∧
      IsPayload .string bytes (.string text) ∧
        bytes.length = encodedSize (.string text) := by
  rw [encodedSize] at fits
  have short : text.utf8ByteSize + 1 ≤ Framing.maximumLength := by omega
  have size := Utf8.length_encode text
  refine ⟨_, ?_, .string text short, ?_⟩
  · exact Emission.outcome_append_ok
      (Emission.outcome_append_ok (outcome_length short) (Emission.outcome_piece _))
      (Emission.outcome_byte 0)
  · rw [List.length_append, List.length_append, FieldType.length_bytes, size,
      encodedSize]
    change 4 + text.utf8ByteSize + 1 = _
    omega

/-- Binary data of any newer subtype is written as a payload behind its length and subtype. -/
theorem exists_plainBinary
    {subtype : UInt8}
    {bytes : ByteArray}
    (plain : subtype ≠ Binary.old)
    (fits : bytes.size + 5 ≤ Framing.maximumLength) :
    ∃ taken, (binary ⟨subtype, bytes⟩).outcome = .ok taken ∧
      IsPayload .binary taken (.binary ⟨subtype, bytes⟩) ∧
        taken.length = bytes.size + 5 := by
  have size : bytes.data.toList.length = bytes.size := Array.length_toList
  have short : bytes.size ≤ Framing.maximumLength := Nat.le_of_add_right_le fits
  refine ⟨_, ?_, .binary subtype bytes plain short, ?_⟩
  · rw [binary, if_neg plain]
    exact Emission.outcome_append_ok
      (Emission.outcome_append_ok (outcome_length short) (Emission.outcome_byte _))
      (Emission.outcome_piece _)
  · simp only [List.length_append, FieldType.length_bytes, size, List.length_singleton]
    change 4 + 1 + bytes.size = bytes.size + 5
    omega

/-- The old subtype's payload holds its length twice. -/
theorem exists_oldBinary
    {bytes : ByteArray}
    (fits : bytes.size + 9 ≤ Framing.maximumLength) :
    ∃ taken, (binary ⟨Binary.old, bytes⟩).outcome = .ok taken ∧
      IsPayload .binary taken (.binary ⟨Binary.old, bytes⟩) ∧
        taken.length = bytes.size + 9 := by
  have size : bytes.data.toList.length = bytes.size := Array.length_toList
  have outer : bytes.size + 4 ≤ Framing.maximumLength := by omega
  have inner : bytes.size ≤ Framing.maximumLength := Nat.le_of_add_right_le outer
  refine ⟨_, ?_, .oldBinary bytes outer, ?_⟩
  · rw [binary, if_pos rfl]
    exact Emission.outcome_append_ok
      (Emission.outcome_append_ok
        (Emission.outcome_append_ok (outcome_length outer) (Emission.outcome_byte _))
        (outcome_length inner))
      (Emission.outcome_piece _)
  · simp only [List.length_append, FieldType.length_bytes, size, List.length_singleton]
    change 4 + 1 + 4 + bytes.size = bytes.size + 9
    omega

/--
Binary data that fits is written as a payload, with the second length if its
subtype asks for it.
-/
theorem exists_binary
    {content : Binary}
    (fits : encodedSize (.binary content) ≤ Framing.maximumLength) :
    ∃ taken, (binary content).outcome = .ok taken ∧
      IsPayload .binary taken (.binary content) ∧
        taken.length = encodedSize (.binary content) := by
  rcases content with ⟨subtype, bytes⟩
  by_cases old : subtype = Binary.old
  · subst old
    rw [encodedSize, if_pos rfl] at fits ⊢
    exact exists_oldBinary fits
  · rw [encodedSize, if_neg old] at fits ⊢
    exact exists_plainBinary old fits

/-- A decimal in range is written as a payload of sixteen bytes. -/
theorem exists_decimal
    {number : Decimal}
    (holds : Decimal128.Holds number) :
    ∃ bytes, (decimal number).outcome = .ok bytes ∧
      IsPayload .decimal128 bytes (.decimal number) ∧ bytes.length = 16 := by
  obtain ⟨words, made, meaning⟩ := Decimal128.exists_words holds
  obtain ⟨isNumber, finite⟩ := Decimal128.number_of_toDecimal meaning
  refine ⟨_, ?_, .decimal words number isNumber finite meaning, ?_⟩
  · rw [decimal, made]
    exact Emission.outcome_append_ok (Emission.outcome_field _ _)
      (Emission.outcome_field _ _)
  · rw [List.length_append, FieldType.length_bytes]
    rfl

/-- Every scalar that BSON can express has a payload of the grammar. -/
theorem exists_payload
    {value : Value}
    (expressible : IsExpressible value)
    (plain : value.container? = none)
    (fits : encodedSize value ≤ Framing.maximumLength) :
    ∃ type bytes, ElementType.ofValue value = .ok type ∧
      (payload value).outcome = .ok bytes ∧ IsPayload type bytes value ∧
        bytes.length = encodedSize value := by
  cases value with
  | float32 bits => cases expressible
  | extension content => cases expressible
  | array items => cases plain
  | map entries => cases plain
  | null => exact ⟨_, _, rfl, rfl, .null, rfl⟩
  | bool value => exact ⟨_, _, rfl, Emission.outcome_byte _, .boolean value, rfl⟩
  | int32 value =>
      exact ⟨_, _, rfl, Emission.outcome_field _ _, .int32 value,
        FieldType.length_bytes _ _⟩
  | int64 value =>
      exact ⟨_, _, rfl, Emission.outcome_field _ _, .int64 value,
        FieldType.length_bytes _ _⟩
  | float64 bits =>
      exact ⟨_, _, rfl, Emission.outcome_field _ _, .double bits,
        FieldType.length_bytes _ _⟩
  | objectId identifier =>
      exact ⟨_, _, rfl, Emission.outcome_ofList _, .objectId identifier,
        Vector.length_toList⟩
  | dateTime time =>
      exact ⟨_, _, rfl, Emission.outcome_field _ _, .dateTime time,
        FieldType.length_bytes _ _⟩
  | string text =>
      obtain ⟨bytes, written, held, sized⟩ := exists_string fits
      exact ⟨_, bytes, rfl, written, held, sized⟩
  | binary content =>
      obtain ⟨bytes, written, held, sized⟩ := exists_binary fits
      exact ⟨_, bytes, rfl, written, held, sized⟩
  | decimal number =>
      obtain ⟨bytes, written, held, sized⟩ := exists_decimal expressible
      exact ⟨_, bytes, rfl, written, held, sized⟩

/-- A value's element is encoded, in the size that was told, as the grammar derives it. -/
def Encodes (value : Value) : Prop :=
  ∀ kind key word name, Spells kind key word name →
    ∃ bytes, writer.encodeElement key value = .ok bytes ∧
      bytes.length = word.length + 1 + encodedSize value ∧
        ∀ body contents, Elements kind body contents →
          Elements kind (bytes ++ body) ((name, value) :: contents)

/-- Every scalar that the format expresses is encoded as the grammar derives it. -/
theorem encodes_scalar
    {value : Value}
    (expressible : IsExpressible value)
    (plain : value.container? = none)
    (fits : encodedSize value ≤ Framing.maximumLength) :
    Encodes value := by
  intro kind key word name spells
  obtain ⟨type, bytes, typed, written, held, sized⟩ :=
    exists_payload expressible plain fits
  refine ⟨[type.tag] ++ word ++ bytes, ?_, ?_, ?_⟩
  · rw [ElementWriter.encodeElement_of_scalar plain]
    change (scalar key value).outcome = _
    rw [scalar, typed]
    exact Emission.outcome_append_ok
      (Emission.outcome_append_ok (Emission.outcome_byte _) spells.written) written
  · rw [List.length_append, List.length_append, sized, List.length_singleton]
    omega
  · intro body contents others
    exact .scalar spells.isKey held others

/-- Entries that are encoded one by one are the elements of a map. -/
theorem exists_fields
    {entries : List (String × Value)}
    (each : ∀ entry ∈ entries, Encodes entry.2)
    (named : ∀ key ∈ Entries.keys entries, 0 ∉ Utf8.encode key) :
    ∃ body, writer.encodeFields entries = .ok body ∧
      body.length = fieldsSize entries ∧ Elements .map body (.ofEntries entries) := by
  refine @ElementWriter.exists_encodeFields writer
    (fun body entries =>
      body.length = fieldsSize entries ∧ Elements .map body (.ofEntries entries))
    entries ⟨rfl, .none⟩ fun entry member => ?_
  rcases entry with ⟨name, value⟩
  have spells := spells_name (named name (List.mem_map_of_mem member))
  obtain ⟨front, encoded, sized, derives⟩ := each (name, value) member _ _ _ _ spells
  have nameSize := Utf8.length_encode name
  refine ⟨front, encoded, fun body rest others => ⟨?_, derives body _ others.2⟩⟩
  rw [List.length_append, List.length_singleton, nameSize] at sized
  change _ = _ + encodedSize value at sized
  rw [List.length_append, fieldsSize, others.1]
  omega

/-- Items that are encoded one by one are the elements of an array. -/
theorem exists_items
    {items : List Value}
    (each : ∀ item ∈ items, Encodes item)
    (position : Nat) :
    ∃ body, writer.encodeItems position items = .ok body ∧
      body.length = itemsSize position items ∧ Elements .array body (.ofItems items) := by
  refine @ElementWriter.exists_encodeItems writer
    (fun position body items =>
      body.length = itemsSize position items ∧ Elements .array body (.ofItems items))
    items (fun _ => ⟨rfl, .none⟩) ?_ position
  intro item member place
  obtain ⟨front, encoded, sized, derives⟩ :=
    each item member _ _ _ _ (spells_index place)
  refine ⟨front, encoded, fun body rest others => ⟨?_, derives body _ others.2⟩⟩
  rw [List.length_append, List.length_singleton] at sized
  rw [List.length_append, itemsSize, others.1]
  omega

/-- A body that fits is framed by its length and a zero. -/
theorem enclose_of_fits
    {body : List UInt8}
    (fits : body.length + minimumSize ≤ Framing.maximumLength) :
    writer.framing.enclose body = .ok (framed body) := by
  change Framing.measured.enclose body = _
  rw [Framing.enclose_measured]
  exact if_pos fits

/-- A container is encoded when its elements are. -/
theorem encodes_container
    {value : Value}
    {container : Container}
    {body : List UInt8}
    {contents : Contents}
    (shape : value.container? = some container)
    (encoded : writer.encodePending (.ofContainer container) = .ok body)
    (elements : Elements container.kind body contents)
    (gathered : container.kind.gather contents = value)
    (sized : body.length + minimumSize = encodedSize value)
    (fits : encodedSize value ≤ Framing.maximumLength) :
    Encodes value := by
  intro kind key word name spells
  have short : body.length + minimumSize ≤ Framing.maximumLength := sized ▸ fits
  have header : (writer.header key container).outcome =
      .ok ([(ElementType.ofContainer container.kind).tag] ++ word) := by
    cases container with
    | map entries =>
        exact Emission.outcome_append_ok (Emission.outcome_byte _) spells.written
    | array items =>
        exact Emission.outcome_append_ok (Emission.outcome_byte _) spells.written
  refine ⟨[(ElementType.ofContainer container.kind).tag] ++ word ++ framed body,
    ?_, ?_, ?_⟩
  · rw [ElementWriter.encodeElement_of_container shape, header, encoded]
    simp only [bind, Except.bind, enclose_of_fits short, pure, Except.pure]
  · rw [List.length_append, List.length_append, length_framed, sized,
      List.length_singleton]
    omega
  · intro others contents derived
    rw [← gathered]
    exact .nested spells.isKey elements short derived

/-- No entry is longer than all of them. -/
theorem encodedSize_le_fieldsSize
    {entries : List (String × Value)}
    {entry : String × Value}
    (member : entry ∈ entries) :
    encodedSize entry.2 ≤ fieldsSize entries := by
  induction member with
  | head rest =>
      rw [fieldsSize]
      omega
  | @tail other rest member inductionHypothesis =>
      rw [fieldsSize]
      omega

/-- No item is longer than all of them. -/
theorem encodedSize_le_itemsSize
    {items : List Value}
    {item : Value}
    (member : item ∈ items)
    (position : Nat) :
    encodedSize item ≤ itemsSize position items := by
  induction member generalizing position with
  | head rest =>
      rw [itemsSize]
      omega
  | tail other member inductionHypothesis =>
      have later := inductionHypothesis (position + 1)
      rw [itemsSize]
      omega

/-- Every tree that BSON can express and that is not too long is encoded. -/
theorem encodes
    {value : Value}
    (distinct : value.Everywhere Value.KeysDistinct)
    (expressible : value.Everywhere IsExpressible)
    (fits : encodedSize value ≤ Framing.maximumLength) :
    Encodes value := by
  induction value using Value.induction with
  | step value inductionHypothesis =>
      have each (child : Value) (member : child ∈ value.children)
          (smaller : encodedSize child ≤ encodedSize value) : Encodes child :=
        inductionHypothesis child member (distinct.inside member)
          (expressible.inside member) (Nat.le_trans smaller fits)
      cases value with
      | map entries =>
          obtain ⟨body, encoded, sized, elements⟩ :=
            exists_fields
              (fun entry member =>
                each entry.2 (List.mem_map_of_mem member)
                  (Nat.le_add_right_of_le (encodedSize_le_fieldsSize member)))
              expressible.here
          exact encodes_container rfl encoded elements
            (ContainerKind.gather_ofEntries distinct.here)
            (congrArg (· + minimumSize) sized) fits
      | array items =>
          obtain ⟨body, encoded, sized, elements⟩ :=
            @exists_items items
              (fun item member =>
                each item member
                  (Nat.le_add_right_of_le (encodedSize_le_itemsSize member 0)))
              0
          exact encodes_container rfl encoded elements
            (ContainerKind.gather_ofItems items) (congrArg (· + minimumSize) sized) fits
      | _ => exact encodes_scalar expressible.here rfl fits

/-- Every document that BSON can express and that is not too long is encoded. -/
theorem exists_encodeDocument
    {document : Document}
    (wellFormed : document.WellFormed)
    (expressible : document.toValue.Everywhere IsExpressible)
    (fits : encodedSize document.toValue ≤ Framing.maximumLength) :
    ∃ bytes, writer.encodeDocument document = .ok bytes ∧
      bytes.length = encodedSize document.toValue ∧ IsDocument bytes document := by
  have entriesFit : fieldsSize document.entries + minimumSize ≤ Framing.maximumLength := by
    rw [Document.toValue, encodedSize] at fits
    exact fits
  obtain ⟨body, encoded, sized, elements⟩ :=
    exists_fields
      (fun entry member =>
        encodes (wellFormed.inside (List.mem_map_of_mem member))
          (expressible.inside (List.mem_map_of_mem member))
          (Nat.le_trans (encodedSize_le_fieldsSize member)
            (Nat.le_of_add_right_le entriesFit)))
      expressible.here
  have short : body.length + minimumSize ≤ Framing.maximumLength := by
    rw [sized]
    exact entriesFit
  refine ⟨framed body, ?_, ?_, body, _, elements, short, rfl, ?_⟩
  · have root : (writer.root document).outcome = .ok [] := rfl
    rw [ElementWriter.encodeDocument, root, encoded]
    simp only [bind, Except.bind, enclose_of_fits short, pure, Except.pure]
    rfl
  · rw [length_framed, sized, Document.toValue, encodedSize]
    rfl
  · rw [Contents.entries_ofEntries, Entries.settled_of_nodup wellFormed.here]

end DocumentCodec.Bson
