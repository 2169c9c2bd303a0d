import DocumentCodec.Proofs.Bson.Containers
import DocumentCodec.Proofs.Bson.Spelling

namespace DocumentCodec.Bson

/-!
# Spelling what was read

What BSON bytes stand for can be written again: keys hold no zero byte, and a
decimal that has words is in their range.  Its spelling is as long as
`encodedSize` says, and the grammar derives from it the elements that were
spelled.
-/

/-- A map's elements have texts without a zero byte as keys, and an array's have none. -/
def IsNamed : ContainerKind → Option String → Prop
  | .map, key => ∃ text, key = some text ∧ 0 ∉ Utf8.encode text
  | .array, key => key = none

/-- A tree that bytes can stand for. -/
structure IsLegible (value : Value) : Prop where
  distinct : value.Everywhere Value.KeysDistinct
  expressible : value.Everywhere IsExpressible

/-- A key of the grammar names its element as its container's kind asks for. -/
theorem isNamed_of_isKey
    {kind : ContainerKind}
    {taken : List UInt8}
    {key : Option String}
    (isKey : IsKey kind taken key) :
    IsNamed kind key := by
  cases kind with
  | map =>
      obtain ⟨_, absent, _, text, rfl, rfl⟩ := isKey
      exact ⟨text, rfl, absent⟩
  | array =>
      obtain ⟨_, _, _, rfl⟩ := isKey
      rfl

/-- What a payload stands for can be written back. -/
theorem isLegible_of_isPayload
    {type : ElementType}
    {taken : List UInt8}
    {value : Value}
    (payload : IsPayload type taken value) :
    IsLegible value := by
  have scalar (plain : value.children = []) (distinct : value.KeysDistinct)
      (expressible : IsExpressible value) : IsLegible value :=
    ⟨(Value.everywhere_scalar plain).mpr distinct,
      (Value.everywhere_scalar plain).mpr expressible⟩
  cases payload with
  | decimal words decimal number finite meaning =>
      exact scalar rfl trivial (Decimal128.holds_of_toDecimal meaning)
  | _ => exact scalar rfl trivial trivial

section Gathering

variable {kind : ContainerKind} {contents : Contents}

/-- Elements that can be written back still can when later keys have replaced earlier ones. -/
theorem isLegible_settled
    (each : ∀ element ∈ contents, IsNamed .map element.1 ∧ IsLegible element.2) :
    ∀ element ∈ Contents.ofEntries (Entries.settled contents.entries),
      IsNamed .map element.1 ∧ IsLegible element.2 := by
  intro element member
  obtain ⟨entry, settled, rfl⟩ := List.mem_map.mp member
  obtain ⟨element, present, rfl⟩ := List.mem_map.mp (Entries.mem_of_mem_settled settled)
  obtain ⟨⟨text, named, absent⟩, legible⟩ := each element present
  rw [named]
  exact ⟨⟨text, rfl, absent⟩, legible⟩

/-- Legible elements make up a legible container. -/
theorem isLegible_gather
    (each : ∀ element ∈ contents, IsNamed kind element.1 ∧ IsLegible element.2) :
    IsLegible (kind.gather contents) := by
  have inside (child : Value) (member : child ∈ (kind.gather contents).children) :
      IsLegible child := by
    obtain ⟨element, present, rfl⟩ := ContainerKind.exists_of_mem_children member
    exact (each element present).2
  refine ⟨Value.everywhere_iff.mpr ⟨?_, fun child member => (inside child member).distinct⟩,
    Value.everywhere_iff.mpr ⟨?_, fun child member => (inside child member).expressible⟩⟩
  · cases kind with
    | map => exact Entries.nodup_keys_settled contents.entries
    | array => trivial
  · cases kind with
    | map =>
        intro key member
        obtain ⟨entry, settled, rfl⟩ := List.mem_map.mp member
        obtain ⟨⟨_, ⟨⟩, absent⟩, _⟩ := isLegible_settled each _ (List.mem_map_of_mem settled)
        exact absent
    | array => trivial

end Gathering

/-- The elements that bytes stand for can be written. -/
theorem Elements.isLegible
    {kind : ContainerKind}
    {body : List UInt8}
    {contents : Contents}
    (elements : Elements kind body contents) :
    ∀ element ∈ contents, IsNamed kind element.1 ∧ IsLegible element.2 := by
  induction elements with
  | none => exact List.forall_mem_nil _
  | scalar named held others inductionHypothesis =>
      exact List.forall_mem_cons.mpr
        ⟨⟨isNamed_of_isKey named, isLegible_of_isPayload held⟩, inductionHypothesis⟩
  | nested named within fits others insideHypothesis othersHypothesis =>
      exact List.forall_mem_cons.mpr
        ⟨⟨isNamed_of_isKey named, isLegible_gather insideHypothesis⟩, othersHypothesis⟩

/-- A document that bytes stand for can be written. -/
theorem IsDocument.isLegible
    {bytes : List UInt8}
    {document : Document}
    (isDocument : IsDocument bytes document) :
    IsLegible document.toValue := by
  obtain ⟨body, contents, elements, _, _, rfl⟩ := isDocument
  exact @isLegible_gather .map contents elements.isLegible

section Sizes

/-- What stands behind the key of an element. -/
def heldBytes : Value → List UInt8
  | .map entries => framed (spelling.fields entries)
  | .array items => framed (spelling.items 0 items)
  | value => payloadBytes value

/-- An element is its tag, its key and what it holds. -/
theorem element_eq
    {value : Value}
    {type : ElementType}
    (typed : ElementType.ofKind? value.kind = some type)
    (key : Key) :
    spelling.element key value = [type.tag] ++ keyBytes key ++ heldBytes value := by
  cases value <;> cases typed
  case array items | map entries => exact congrArg (· ++ _) (List.append_nil _)
  all_goals rfl

/-- A value that the format expresses has a type in it. -/
theorem exists_type
    {value : Value}
    (expressible : IsExpressible value) :
    ∃ type, ElementType.ofKind? value.kind = some type := by
  cases value <;> first | exact ⟨_, rfl⟩ | cases expressible

/-- An array's key is a numeral and a zero. -/
theorem length_keyBytes_index (position : Nat) :
    (keyBytes (.index position)).length = (Numeral.ofNat position).length + 1 := by
  rw [keyBytes, ← Numeral.ofNat_eq_encode_repr, List.length_append, List.length_singleton]

/-- A map's key is a text and a zero. -/
theorem length_keyBytes_name (text : String) :
    (keyBytes (.name text)).length = text.utf8ByteSize + 1 := by
  rw [keyBytes, List.length_append, List.length_singleton]
  exact congrArg (· + 1) Array.length_toList

/-- A payload has the size that is told beforehand. -/
theorem length_payloadBytes
    {value : Value}
    (expressible : IsExpressible value)
    (plain : value.container? = none) :
    (payloadBytes value).length = encodedSize value := by
  cases value with
  | float32 bits => cases expressible
  | extension content => cases expressible
  | array items => cases plain
  | map entries => cases plain
  | null => rfl
  | bool value => rfl
  | int32 value => exact FieldType.length_bytes .int32 _
  | int64 value => exact FieldType.length_bytes .int64 _
  | float64 bits => exact FieldType.length_bytes .float64 _
  | objectId identifier => exact Vector.length_toList
  | dateTime time => exact FieldType.length_bytes .int64 _
  | decimal number => exact Word.length_littleEndian 16 _
  | string text =>
      have size := Utf8.length_encode text
      rw [payloadBytes, encodedSize, List.length_append, List.length_append,
        FieldType.length_bytes, size]
      exact Nat.add_right_comm 4 text.utf8ByteSize 1 ▸ Nat.add_comm 5 _
  | binary content =>
      rcases content with ⟨subtype, bytes⟩
      have size : bytes.data.toList.length = bytes.size := Array.length_toList
      rw [payloadBytes, encodedSize, List.length_append, size, Nat.add_comm]
      by_cases old : subtype = Binary.old
      · rw [if_pos old, if_pos old]
        rfl
      · rw [if_neg old, if_neg old]
        rfl

/-- Entries have the size that is told beforehand if each of them does. -/
theorem length_fields
    {entries : List (String × Value)}
    (each : ∀ entry ∈ entries, ∀ key, (spelling.element key entry.2).length =
      (keyBytes key).length + 1 + encodedSize entry.2) :
    (spelling.fields entries).length = fieldsSize entries := by
  induction entries with
  | nil => rfl
  | cons entry rest inductionHypothesis =>
      obtain ⟨here, later⟩ := List.forall_mem_cons.mp each
      rw [Spelling.fields, fieldsSize, List.length_append, here, length_keyBytes_name,
        inductionHypothesis later]

/-- Items have the size that is told beforehand if each of them does. -/
theorem length_items
    {items : List Value}
    (each : ∀ item ∈ items, ∀ key, (spelling.element key item).length =
      (keyBytes key).length + 1 + encodedSize item)
    (position : Nat) :
    (spelling.items position items).length = itemsSize position items := by
  induction items generalizing position with
  | nil => rfl
  | cons item rest inductionHypothesis =>
      obtain ⟨here, later⟩ := List.forall_mem_cons.mp each
      rw [Spelling.items, itemsSize, List.length_append, here, length_keyBytes_index,
        inductionHypothesis later]

/-- An element that can be written is as long as its size says. -/
theorem length_element
    {value : Value}
    (expressible : value.Everywhere IsExpressible)
    (key : Key) :
    (spelling.element key value).length = (keyBytes key).length + 1 + encodedSize value := by
  induction value using Value.induction generalizing key with
  | step value inductionHypothesis =>
      have held : (heldBytes value).length = encodedSize value := by
        cases value with
        | map entries =>
            rw [heldBytes, length_framed, encodedSize, length_fields fun entry member key =>
              inductionHypothesis entry.2 (List.mem_map_of_mem member)
                (expressible.inside (List.mem_map_of_mem member)) key]
            rfl
        | array items =>
            rw [heldBytes, length_framed, encodedSize, @length_items items fun item member key =>
              inductionHypothesis item member (expressible.inside member) key]
            rfl
        | _ => exact length_payloadBytes expressible.here rfl
      obtain ⟨type, typed⟩ := exists_type expressible.here
      rw [element_eq typed, List.length_append, List.length_append, held,
        List.length_singleton, Nat.add_comm 1]

/-- A document has the size that is told beforehand. -/
theorem length_document
    {document : Document}
    (expressible : document.toValue.Everywhere IsExpressible) :
    (spelling.document document).length = encodedSize document.toValue := by
  change (framed (spelling.fields document.entries)).length = _
  rw [length_framed, Document.toValue, encodedSize, length_fields fun entry member key =>
    length_element (expressible.inside (List.mem_map_of_mem member)) key]
  rfl

end Sizes

/-- A document that can be written is encoded as it is spelled, unless it is too long. -/
theorem encodeDocument_of_isLegible
    {document : Document}
    (legible : IsLegible document.toValue)
    (fits : encodedSize document.toValue ≤ Framing.maximumLength) :
    writer.encodeDocument document = .ok (spelling.document document) ∧
      IsDocument (spelling.document document) document := by
  obtain ⟨bytes, encodes, _, isDocument⟩ :=
    exists_encodeDocument legible.distinct legible.expressible fits
  have short := Nat.le_trans (Nat.le_of_eq (length_document legible.expressible)) fits
  rw [eq_of_unlessFault ((encodeDocument_eq short).symm.trans encodes)]
  exact ⟨encodes, isDocument⟩

section Elements

variable {kind : ContainerKind}

/-- The key that an element of a container is written with. -/
def keyAt : ContainerKind → Nat → Option String → Key
  | .map, _, key => .name (key.getD "")
  | .array, position, _ => .index position

/-- The bytes of a container's elements in a row, from a position on. -/
def spelled (kind : ContainerKind) (position : Nat) : Contents → List UInt8
  | [] => []
  | (key, value) :: rest =>
      spelling.element (keyAt kind position key) value ++ spelled kind (position + 1) rest

/-- Contents are spelled one part behind the other, numbered on. -/
theorem spelled_append (position : Nat) (front back : Contents) :
    spelled kind position (front ++ back) =
      spelled kind position front ++ spelled kind (position + front.length) back := by
  induction front generalizing position with
  | nil => rfl
  | cons element rest inductionHypothesis =>
      rw [List.cons_append, spelled, spelled, inductionHypothesis, List.append_assoc,
        List.length_cons, Nat.add_right_comm, Nat.add_assoc]

/-- A map's contents are spelled like its entries, wherever they begin. -/
theorem spelled_map (position : Nat) (contents : Contents) :
    spelled .map position contents = spelling.fields contents.entries := by
  induction contents generalizing position with
  | nil => rfl
  | cons element rest inductionHypothesis =>
      rw [spelled, inductionHypothesis]
      rfl

/-- An array's contents are spelled like its items, from the same position on. -/
theorem spelled_array (position : Nat) (contents : Contents) :
    spelled .array position contents = spelling.items position contents.items := by
  induction contents generalizing position with
  | nil => rfl
  | cons element rest inductionHypothesis =>
      rw [spelled, inductionHypothesis]
      rfl

/-- The key that an element would be given is a key of the grammar. -/
theorem spells_keyAt
    {key : Option String}
    (named : IsNamed kind key)
    (position : Nat) :
    Spells kind (keyAt kind position key) (keyBytes (keyAt kind position key)) key := by
  cases kind with
  | map =>
      obtain ⟨text, rfl, absent⟩ := named
      exact spells_name absent
  | array =>
      cases named
      have spells := spells_index position
      rw [Numeral.ofNat_eq_encode_repr] at spells
      exact spells

/-- The grammar derives an element from its spelling. -/
theorem elements_element
    {key : Option String}
    {value : Value}
    {position : Nat}
    (named : IsNamed kind key)
    (legible : IsLegible value)
    (fits : (spelling.element (keyAt kind position key) value).length ≤ Framing.maximumLength) :
    Elements kind (spelling.element (keyAt kind position key) value) [(key, value)] := by
  have sized : encodedSize value ≤ Framing.maximumLength := by
    rw [length_element legible.expressible] at fits
    exact Nat.le_of_add_left_le fits
  obtain ⟨bytes, encodes, _, derives⟩ :=
    Bson.encodes legible.distinct legible.expressible sized _ _ _ _
      (spells_keyAt named position)
  have spelled := Spelling.encodesElement spelling writer value (keyAt kind position key)
    fun element member =>
      agrees (Nat.le_trans (Spelling.bounds length_le_enclose value _ element member) fits)
  rw [eq_of_unlessFault (spelled.symm.trans encodes), ← List.append_nil bytes]
  exact derives [] [] .none

/-- The grammar derives the elements of a container from their spelling. -/
theorem elements_spelled
    {contents : Contents}
    {position : Nat}
    (each : ∀ element ∈ contents, IsNamed kind element.1 ∧ IsLegible element.2)
    (fits : (spelled kind position contents).length ≤ Framing.maximumLength) :
    Elements kind (spelled kind position contents) contents := by
  induction contents generalizing position with
  | nil => exact .none
  | cons element rest inductionHypothesis =>
      obtain ⟨⟨named, legible⟩, later⟩ := List.forall_mem_cons.mp each
      rw [spelled, List.length_append] at fits
      have here := elements_element named legible (Nat.le_of_add_right_le fits)
      exact here.append (inductionHypothesis later (Nat.le_of_add_left_le fits))

end Elements

end DocumentCodec.Bson
