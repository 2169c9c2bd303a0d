import DocumentCodec.Proofs.MessagePack.Narrowing
import DocumentCodec.Proofs.MessagePack.Spelling

namespace DocumentCodec.MessagePack

/-!
# The encoding and the grammar

A tree that MessagePack can express has an encoding, and the grammar derives
from it the narrowed tree: every number, text and count is written in one of
the forms that the grammar has for it.
-/

/-- What MessagePack can express of a tree at each of its values. -/
def IsExpressible : Value → Prop
  | .objectId _ => False
  | .dateTime _ => False
  | .decimal _ => False
  | .string text => IsShort text.utf8ByteSize
  | .binary content => content.subtype = Binary.generic ∧ IsShort content.bytes.size
  | .extension content => IsShort content.data.size
  | .array items => IsShort items.length
  | .map entries =>
      IsShort entries.length ∧
        ∀ key ∈ Entries.keys entries, IsShort key.utf8ByteSize
  | _ => True

/-- A small number is a byte of its own. -/
theorem isScalar_small
    {number : Int}
    (lower : -32 ≤ number)
    (upper : number < 0x80) :
    IsScalar (FieldType.int8.bytes number) (narrow number) := by
  have same : (Int32.ofInt number).toInt = number :=
    Int32.toInt_ofInt_of_le (by omega) (by omega)
  rw [narrow_of_not_isWide (by unfold IsWide; omega)]
  have small := IsScalar.small (Int32.ofInt number)
  rw [same] at small
  exact small lower upper

/-- All forms of a list have the layout that numbers of their type are read in. -/
def HaveLayout (forms : List Form) (layout : FieldType → Layout) : Prop :=
  ∀ form ∈ forms, form.marker.layout = layout form.type

/-- All unsigned forms are read as integers. -/
theorem haveLayout_unsignedForms : HaveLayout unsignedForms .integer := by
  simp [HaveLayout, unsignedForms, Marker.layout]

/-- All signed forms are read as integers. -/
theorem haveLayout_signedForms : HaveLayout signedForms .integer := by
  simp [HaveLayout, signedForms, Marker.layout]

/-- All forms of texts are read as texts. -/
theorem haveLayout_stringForms : HaveLayout stringForms .string := by
  simp [HaveLayout, stringForms, Marker.layout]

/-- All forms of binary data are read as binary data. -/
theorem haveLayout_binaryForms : HaveLayout binaryForms .binary := by
  simp [HaveLayout, binaryForms, Marker.layout]

/-- All forms of extensions are read as extensions. -/
theorem haveLayout_extensionForms : HaveLayout extensionForms .extension := by
  simp [HaveLayout, extensionForms, Marker.layout]

/-- All forms of a kind's headers are read as that kind's. -/
theorem haveLayout_containerForms (kind : ContainerKind) :
    HaveLayout (containerForms kind) (.container kind) := by
  cases kind <;> simp [HaveLayout, containerForms, Marker.layout]

/-- Whatever form an integer is written in, its narrowing is read from it. -/
theorem isScalar_integerBytes
    {number : Int}
    (lower : -0x8000000000000000 ≤ number)
    (upper : number < 0x8000000000000000) :
    IsScalar (integerBytes number) (narrow number) := by
  have marked {forms : List Form} (laidOut : HaveLayout forms .integer)
      {form : Form} (member : form ∈ forms) (holds : form.type.Holds number) :
      IsScalar (firstFit forms number) (narrow number) := by
    obtain ⟨found, present, held, same⟩ := exists_form member holds
    rw [same]
    refine .marked ?_
    rw [laidOut found present]
    exact isPayload_narrow held lower upper
  unfold integerBytes
  split
  · rename_i small
    exact isScalar_small small.1 small.2
  · split
    · rename_i positive
      refine @marked _ haveLayout_unsignedForms ⟨.uint64, .uint64BE⟩ (by simp [unsignedForms])
        ⟨positive, ?_⟩
      change number < (0x10000000000000000 : Int)
      omega
    · refine @marked _ haveLayout_signedForms ⟨.int64, .int64BE⟩ (by simp [signedForms]) ?_
      change -(0x10000000000000000 : Int) ≤ 2 * number ∧ 2 * number < 0x10000000000000000
      omega

/-- A short length is told in a form that has the layout of its list. -/
theorem exists_form_of_isShort
    {length : Nat}
    {forms : List Form}
    {layout : FieldType → Layout}
    {widest : Marker}
    (laidOut : HaveLayout forms layout)
    (member : ⟨widest, .uint32BE⟩ ∈ forms)
    (short : IsShort length) :
    ∃ form : Form, form.marker.layout = layout form.type ∧ form.type.Holds length ∧
      firstFit forms length = form.bytes length := by
  have holds : FieldType.uint32BE.Holds length :=
    ⟨Int.natCast_nonneg length, Int.ofNat_lt.mpr short⟩
  obtain ⟨form, present, held, same⟩ := exists_form member holds
  exact ⟨form, laidOut form present, held, same⟩

/-- What is written for a text is a text of the grammar. -/
theorem isScalar_stringBytes
    {text : String}
    (short : IsShort text.utf8ByteSize) :
    IsScalar (stringBytes text) (.string text) := by
  unfold stringBytes
  dsimp only
  split
  · rename_i tiny
    exact .shortString text tiny
  · obtain ⟨form, layout, held, same⟩ :=
      @exists_form_of_isShort _ _ _ .str32 haveLayout_stringForms (by simp [stringForms]) short
    rw [same, Form.bytes, List.append_assoc]
    refine .marked ?_
    rw [layout]
    exact .string text held

/-- What is written for binary data is binary data of the grammar. -/
theorem isScalar_binaryBytes
    {content : ByteArray}
    (short : IsShort content.size) :
    IsScalar (firstFit binaryForms content.size ++ content.data.toList)
      (.binary (.ofBytes content)) := by
  obtain ⟨form, layout, held, same⟩ :=
    @exists_form_of_isShort _ _ _ .bin32 haveLayout_binaryForms (by simp [binaryForms]) short
  rw [same, Form.bytes, List.append_assoc]
  refine .marked ?_
  rw [layout]
  exact .binary content held

/-- A marker for extensions of one size is read with that size. -/
theorem layout_fixedExtension
    {length : Nat}
    {marker : Marker}
    (fixed : fixedExtension? length = some marker) :
    marker.layout = .fixedExtension length := by
  unfold fixedExtension? at fixed
  split at fixed <;> cases fixed <;> rfl

/-- What is written for an extension is an extension of the grammar. -/
theorem isScalar_extensionBytes
    {content : Extension}
    (short : IsShort content.data.size) :
    IsScalar (extensionBytes content) (.extension content) := by
  rcases content with ⟨kind, data⟩
  unfold extensionBytes
  dsimp only
  split
  · rename_i marker fixed
    rw [List.append_assoc]
    refine .marked ?_
    rw [layout_fixedExtension fixed]
    exact .fixedExtension kind data
  · obtain ⟨form, layout, held, same⟩ :=
      @exists_form_of_isShort _ _ _ .ext32 haveLayout_extensionForms (by simp [extensionForms])
        short
    rw [same, Form.bytes, List.append_assoc, List.append_assoc]
    refine .marked ?_
    rw [layout]
    exact .extension kind data held

/-- What is written for a count is a header of the grammar. -/
theorem isHeader_countBytes
    {size : Nat}
    (kind : ContainerKind)
    (short : IsShort size) :
    IsHeader kind (countBytes kind size) size := by
  unfold countBytes
  split
  · rename_i small
    exact .short small
  · obtain ⟨widest, member⟩ : ∃ widest, ⟨widest, .uint32BE⟩ ∈ containerForms kind := by
      cases kind with
      | map => exact ⟨.map32, by simp [containerForms]⟩
      | array => exact ⟨.array32, by simp [containerForms]⟩
    obtain ⟨form, layout, held, same⟩ :=
      exists_form_of_isShort (haveLayout_containerForms kind) member short
    rw [same]
    exact .marked layout held

/-- What MessagePack can express of a value is not refused, and its lengths are short. -/
theorem IsExpressible.hasShortLength
    {value : Value}
    (expressible : IsExpressible value) :
    HasShortLength value := by
  cases value with
  | string text => exact expressible
  | binary content => exact expressible.2
  | extension content => exact expressible
  | array items => exact expressible
  | map entries => exact expressible.1
  | _ => trivial

/-- Nothing that the format expresses is refused. -/
theorem IsExpressible.refusal?_eq_none
    {value : Value}
    (expressible : IsExpressible value)
    (key : Key) :
    refusal? key value = none := by
  cases value with
  | objectId identifier => cases expressible
  | dateTime time => cases expressible
  | decimal decimal => cases expressible
  | binary content => exact if_pos expressible.1
  | _ => rfl

/-- What MessagePack can express of a document is spelled, none of its elements being refused. -/
theorem encodeDocument_of_expressible
    {document : Document}
    (expressible : document.toValue.Everywhere IsExpressible) :
    writer.encodeDocument document = .ok (spelling.document document) := by
  have short : HasShortLengths document := by
    refine ⟨expressible.here.1, fun element member => ?_⟩
    rcases element with ⟨key, value⟩
    obtain ⟨occurs, named⟩ := Document.hasNode_of_mem_preorder member
    refine ⟨?_, (expressible _ occurs).hasShortLength⟩
    cases key with
    | index position => trivial
    | name text =>
        obtain ⟨entries, present, held⟩ := named
        exact (expressible _ present).2 text held
  have accepted : spelling.firstRefusal? document.preorder = none :=
    List.findSome?_eq_none_iff.mpr fun element member =>
      (expressible _ (Document.hasNode_of_mem_preorder member).1).refusal?_eq_none element.1
  rw [encodeDocument_eq short, accepted]
  rfl

/-- Every scalar that MessagePack can express is written as one of the grammar's. -/
theorem isScalar_payloadBytes
    {value : Value}
    (expressible : IsExpressible value)
    (plain : value.container? = none) :
    IsScalar (payloadBytes value) value.narrowed := by
  cases value with
  | objectId identifier => cases expressible
  | dateTime time => cases expressible
  | decimal decimal => cases expressible
  | array items => cases plain
  | map entries => cases plain
  | null => exact @IsScalar.marked .nil _ _ (.constant _)
  | bool value =>
      cases value with
      | false => exact @IsScalar.marked .false _ _ (.constant _)
      | true => exact @IsScalar.marked .true _ _ (.constant _)
  | int32 value =>
      have lower := value.le_toInt
      have upper := value.toInt_lt
      have scalar := @isScalar_integerBytes value.toInt (by omega) (by omega)
      rw [narrow_int32] at scalar
      exact scalar
  | int64 value =>
      rw [Value.narrowed_int64]
      exact isScalar_integerBytes value.le_toInt value.toInt_lt
  | float32 bits => exact @IsScalar.marked .float32 _ _ (.float32 bits)
  | float64 bits => exact @IsScalar.marked .float64 _ _ (.float64 bits)
  | string text => exact isScalar_stringBytes expressible
  | binary content =>
      rcases content with ⟨subtype, content⟩
      obtain ⟨rfl, short⟩ := expressible
      exact isScalar_binaryBytes short
  | extension content => exact isScalar_extensionBytes expressible

/-- A key is written as one of the grammar's. -/
structure Spells (kind : ContainerKind) (key : Key) (word : List UInt8)
    (name : Option String) : Prop where
  written : (MessagePack.key key).outcome = .ok word
  isKey : IsKey kind word name

/-- A name is written as a text in front of its value. -/
theorem spells_name
    {text : String}
    (short : IsShort text.utf8ByteSize) :
    Spells .map (.name text) (stringBytes text) (some text) :=
  ⟨outcome_string short, text, isScalar_stringBytes short, rfl⟩

/-- An array's elements are written without a key. -/
theorem spells_index (position : Nat) : Spells .array (.index position) [] none :=
  ⟨rfl, rfl, rfl⟩

/-- A value's element is encoded as the grammar derives its narrowing. -/
def Encodes (value : Value) : Prop :=
  ∀ kind key word name, Spells kind key word name →
    ∃ bytes, writer.encodeElement key value = .ok bytes ∧
      ∀ body contents, Elements kind body contents →
        Elements kind (bytes ++ body) ((name, value.narrowed) :: contents)

/-- Every scalar that the format expresses is encoded as the grammar derives it. -/
theorem encodes_scalar
    {value : Value}
    (expressible : IsExpressible value)
    (plain : value.container? = none) :
    Encodes value := by
  intro kind key word name spells
  have written := outcome_payload plain expressible.hasShortLength key
  rw [expressible.refusal?_eq_none key] at written
  refine ⟨word ++ payloadBytes value, ?_, ?_⟩
  · rw [ElementWriter.encodeElement_of_scalar plain]
    exact Emission.outcome_append_ok spells.written written
  · intro body contents others
    exact .scalar spells.isKey (isScalar_payloadBytes expressible plain) others

/-- Entries that are encoded one by one are the elements of a map. -/
theorem exists_fields
    {entries : List (String × Value)}
    (each : ∀ entry ∈ entries, Encodes entry.2)
    (named : ∀ key ∈ Entries.keys entries, IsShort key.utf8ByteSize) :
    ∃ body, writer.encodeFields entries = .ok body ∧
      Elements .map body (.ofEntries (Value.narrowedEntries entries)) := by
  refine @ElementWriter.exists_encodeFields writer
    (fun body entries => Elements .map body (.ofEntries (Value.narrowedEntries entries)))
    entries .none fun entry member => ?_
  have spells := spells_name (named entry.1 (List.mem_map_of_mem member))
  obtain ⟨front, encoded, derives⟩ := each entry member _ _ _ _ spells
  exact ⟨front, encoded, fun body rest others => derives body _ others⟩

/-- Items that are encoded one by one are the elements of an array. -/
theorem exists_items
    {items : List Value}
    (each : ∀ item ∈ items, Encodes item)
    (position : Nat) :
    ∃ body, writer.encodeItems position items = .ok body ∧
      Elements .array body (.ofItems (Value.narrowedItems items)) := by
  refine @ElementWriter.exists_encodeItems writer
    (fun _ body items => Elements .array body (.ofItems (Value.narrowedItems items)))
    items (fun _ => .none) ?_ position
  intro item member place
  obtain ⟨front, encoded, derives⟩ := each item member _ _ _ _ (spells_index place)
  exact ⟨front, encoded, fun body rest others => derives body _ others⟩

/-- A container is encoded when its elements are. -/
theorem encodes_container
    {value : Value}
    {container : Container}
    {body : List UInt8}
    {contents : Contents}
    (shape : value.container? = some container)
    (encoded : writer.encodePending (.ofContainer container) = .ok body)
    (elements : Elements container.kind body contents)
    (gathered : container.kind.gather contents = value.narrowed)
    (counted : contents.length = container.size)
    (short : IsShort container.size) :
    Encodes value := by
  intro kind key word name spells
  have isHeader := isHeader_countBytes container.kind short
  have header :
      (writer.header key container).outcome =
        .ok (word ++ countBytes container.kind container.size) :=
    Emission.outcome_append_ok spells.written (outcome_count _ short)
  generalize countBytes container.kind container.size = head at isHeader header
  rw [← counted] at isHeader
  refine ⟨word ++ head ++ body, ?_, ?_⟩
  · rw [ElementWriter.encodeElement_of_container shape, header, encoded]
    rfl
  · intro others rest derived
    rw [← gathered]
    exact .nested spells.isKey isHeader elements derived

/-- Narrowing leaves as many entries as there are. -/
theorem length_ofEntries_narrowedEntries (entries : Entries) :
    (Contents.ofEntries (Value.narrowedEntries entries)).length = entries.length := by
  rw [Contents.ofEntries, List.length_map, Value.length_narrowedEntries]

/-- Narrowing leaves as many items as there are. -/
theorem length_ofItems_narrowedItems (items : List Value) :
    (Contents.ofItems (Value.narrowedItems items)).length = items.length := by
  rw [Contents.ofItems, List.length_map, Value.length_narrowedItems]

/-- Narrowing leaves the keys distinct. -/
theorem nodup_keys_narrowedEntries
    {entries : Entries}
    (distinct : entries.keys.Nodup) :
    (Value.narrowedEntries entries).keys.Nodup := by
  rw [Value.keys_narrowedEntries]
  exact distinct

/-- Every tree that MessagePack can express is encoded. -/
theorem encodes
    {value : Value}
    (distinct : value.Everywhere Value.KeysDistinct)
    (expressible : value.Everywhere IsExpressible) :
    Encodes value := by
  induction value using Value.induction with
  | step value inductionHypothesis =>
      have each (child : Value) (member : child ∈ value.children) : Encodes child :=
        inductionHypothesis child member (distinct.inside member)
          (expressible.inside member)
      cases value with
      | map entries =>
          obtain ⟨short, named⟩ := expressible.here
          obtain ⟨body, encoded, elements⟩ :=
            exists_fields
              (fun entry member => each entry.2 (List.mem_map_of_mem member)) named
          have keys := nodup_keys_narrowedEntries distinct.here
          exact encodes_container rfl encoded elements
            (ContainerKind.gather_ofEntries keys)
            (length_ofEntries_narrowedEntries entries) short
      | array items =>
          obtain ⟨body, encoded, elements⟩ := @exists_items items each 0
          exact encodes_container rfl encoded elements (ContainerKind.gather_ofItems _)
            (length_ofItems_narrowedItems items) expressible.here
      | _ => exact encodes_scalar expressible.here rfl

/-- Every document that MessagePack can express is encoded, and read as its narrowing. -/
theorem exists_encodeDocument
    {document : Document}
    (wellFormed : document.WellFormed)
    (expressible : document.toValue.Everywhere IsExpressible) :
    ∃ bytes, writer.encodeDocument document = .ok bytes ∧
      IsDocument bytes document.narrowed := by
  obtain ⟨short, named⟩ := expressible.here
  have isHeader := isHeader_countBytes .map short
  obtain ⟨body, encoded, elements⟩ :=
    exists_fields
      (fun entry member =>
        encodes (wellFormed.inside (List.mem_map_of_mem member))
          (expressible.inside (List.mem_map_of_mem member)))
      named
  have keys := nodup_keys_narrowedEntries wellFormed.here
  have root :
      (writer.root document).outcome = .ok (countBytes .map document.entries.length) :=
    outcome_count .map short
  generalize countBytes .map document.entries.length = head at isHeader root
  rw [← length_ofEntries_narrowedEntries] at isHeader
  refine ⟨head ++ body, ?_, head, body, _, isHeader, elements, rfl, ?_⟩
  · rw [ElementWriter.encodeDocument, root, encoded]
    rfl
  · rw [Contents.entries_ofEntries, Entries.settled_of_nodup keys]
    rfl

end DocumentCodec.MessagePack
