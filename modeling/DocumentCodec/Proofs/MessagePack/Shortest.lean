import DocumentCodec.Proofs.MessagePack.Encoding

namespace DocumentCodec.MessagePack

/-!
# Spelled documents are shortest

The grammar has several forms for most numbers, lengths and counts, and a map
may hold a key more than once.  A document is spelled in no more bytes than any
of those that stand for it, and everything that bytes stand for can be spelled.
-/

/-- Forms are listed from the narrowest one on. -/
def Ascend (forms : List Form) : Prop :=
  forms.Pairwise fun first second => first.type.width ≤ second.type.width

instance (forms : List Form) : Decidable (Ascend forms) := by
  unfold Ascend
  infer_instance

section Forms

variable {forms : List Form} {form : Form} {number : Int} {kind : ContainerKind}

/-- A form takes its marker and its field. -/
theorem Form.length_bytes (form : Form) (number : Int) :
    (form.bytes number).length = form.type.width + 1 := by
  rw [bytes, List.length_append, FieldType.length_bytes, List.length_singleton, Nat.add_comm]

/-- No form that holds a number is narrower than the first one. -/
theorem length_firstFit_le
    (ascend : Ascend forms)
    (member : form ∈ forms)
    (holds : form.type.Holds number) :
    (firstFit forms number).length ≤ form.type.width + 1 := by
  induction forms with
  | nil => cases member
  | cons first rest inductionHypothesis =>
      obtain ⟨narrowest, ascendRest⟩ := List.pairwise_cons.mp ascend
      by_cases fits : first.type.Holds number
      · rw [firstFit_of_holds fits, Form.length_bytes]
        rcases List.mem_cons.mp member with rfl | later
        · exact Nat.le_refl _
        · exact Nat.succ_le_succ (narrowest form later)
      · rw [firstFit_of_not_holds fits]
        rcases List.mem_cons.mp member with rfl | later
        · exact absurd holds fits
        · exact inductionHypothesis ascendRest later

/-- Every marker of a layout is listed with its type. -/
def ListsLayout (forms : List Form) (layout : FieldType → Layout) : Prop :=
  ∀ {marker type}, marker.layout = layout type → ⟨marker, type⟩ ∈ forms

/-- The forms of texts are all there are. -/
theorem listsLayout_stringForms : ListsLayout stringForms .string := by
  intro marker type declares
  cases marker <;> cases declares <;> simp [stringForms]

/-- The forms of binary data are all there are. -/
theorem listsLayout_binaryForms : ListsLayout binaryForms .binary := by
  intro marker type declares
  cases marker <;> cases declares <;> simp [binaryForms]

/-- The forms of extensions with a length are all there are. -/
theorem listsLayout_extensionForms : ListsLayout extensionForms .extension := by
  intro marker type declares
  cases marker <;> cases declares <;> simp [extensionForms]

/-- The forms of a kind's headers are all there are with a marker. -/
theorem listsLayout_containerForms (kind : ContainerKind) :
    ListsLayout (containerForms kind) (.container kind) := by
  intro marker type declares
  cases marker <;> cases declares <;> simp [containerForms]

/-- The forms of integers are all there are with a marker. -/
theorem listsLayout_integer : ListsLayout (unsignedForms ++ signedForms) .integer := by
  intro marker type declares
  cases marker <;> cases declares <;> simp [unsignedForms, signedForms]

end Forms

/-- A kind's headers are listed from the narrowest on. -/
theorem ascend_containerForms (kind : ContainerKind) : Ascend (containerForms kind) := by
  cases kind <;> decide

/-- Unsigned forms have unsigned fields. -/
theorem isSigned_of_mem_unsignedForms {form : Form} (member : form ∈ unsignedForms) :
    form.type.isSigned = false := by
  simp only [unsignedForms, List.mem_cons, List.not_mem_nil, or_false] at member
  rcases member with rfl | rfl | rfl | rfl <;> rfl

/-- There is an unsigned form as wide as any form of integers. -/
theorem exists_unsignedForm
    {form : Form}
    (member : form ∈ unsignedForms ++ signedForms) :
    ∃ other ∈ unsignedForms, other.type.width = form.type.width := by
  rcases List.mem_append.mp member with unsigned | signed
  · exact ⟨form, unsigned, rfl⟩
  · simp only [signedForms, List.mem_cons, List.not_mem_nil, or_false] at signed
    rcases signed with rfl | rfl | rfl | rfl <;> simp [unsignedForms, FieldType.width]

/-- What a field of either kind holds is below its modulus. -/
theorem lt_modulus_of_holds
    {type : FieldType}
    {number : Int}
    (holds : type.Holds number) :
    number < type.modulus := by
  unfold FieldType.Holds at holds
  split at holds <;> omega

/-- Only a signed form holds a negative number. -/
theorem mem_signedForms_of_negative
    {form : Form}
    {number : Int}
    (member : form ∈ unsignedForms ++ signedForms)
    (holds : form.type.Holds number)
    (negative : number < 0) :
    form ∈ signedForms := by
  rcases List.mem_append.mp member with unsigned | signed
  · rw [FieldType.Holds, isSigned_of_mem_unsignedForms unsigned] at holds
    have positive : 0 ≤ number := holds.1
    omega
  · exact signed

/-- No form of an integer is shorter than the one it is spelled in. -/
theorem length_integerBytes_le
    {marker : Marker}
    {type : FieldType}
    {number : Int}
    (declares : marker.layout = .integer type)
    (holds : type.Holds number) :
    (integerBytes number).length ≤ type.width + 1 := by
  have member := listsLayout_integer declares
  unfold integerBytes
  split
  · rw [FieldType.length_bytes]
    exact Nat.succ_le_succ (Nat.zero_le _)
  · split
    · rename_i positive
      obtain ⟨other, present, same⟩ := exists_unsignedForm member
      have sameBound : other.type.modulus = type.modulus := congrArg Word.modulus same
      have held : other.type.Holds number :=
        (positive_lt_iff_holds (isSigned_of_mem_unsignedForms present) sameBound positive).mp
          (lt_modulus_of_holds holds)
      have bound := length_firstFit_le (by decide) present held
      rwa [same] at bound
    · rename_i negative
      have present := mem_signedForms_of_negative member holds (by omega)
      exact length_firstFit_le (by decide) present holds

section Payloads

variable {marker : Marker} {type : FieldType}

/-- No length is told in a shorter form than the first one. -/
theorem length_firstFit_le_of_layout
    {forms : List Form}
    {layout : FieldType → Layout}
    {length : Nat}
    (lists : ListsLayout forms layout)
    (ascend : Ascend forms)
    (declares : marker.layout = layout type)
    (holds : type.Holds length) :
    (firstFit forms length).length ≤ type.width + 1 :=
  length_firstFit_le ascend (lists declares) holds

/-- A text is written no longer than with any marker that has room for its length. -/
theorem length_stringBytes_le
    {text : String}
    (declares : marker.layout = .string type)
    (holds : type.Holds text.utf8ByteSize) :
    (stringBytes text).length ≤ type.width + 1 + text.utf8ByteSize := by
  have size := Utf8.length_encode text
  unfold stringBytes
  dsimp only
  rw [List.length_append, size]
  refine Nat.add_le_add_right ?_ _
  split
  · exact Nat.le_add_left 1 _
  · exact length_firstFit_le_of_layout listsLayout_stringForms (by decide) declares holds

/-- Binary data is written no longer than with any marker that has room for its length. -/
theorem length_binaryBytes_le
    {content : ByteArray}
    (declares : marker.layout = .binary type)
    (holds : type.Holds content.size) :
    (firstFit binaryForms content.size ++ content.data.toList).length ≤
      type.width + 1 + content.size := by
  have size : content.data.toList.length = content.size := Array.length_toList
  rw [List.length_append, size]
  exact Nat.add_le_add_right
    (length_firstFit_le_of_layout listsLayout_binaryForms (by decide) declares holds) _

/-- An extension is written no longer than its header, its kind and its bytes. -/
theorem length_extensionBytes_le
    {content : Extension}
    {header : Nat}
    (some : 1 ≤ header)
    (wide :
      fixedExtension? content.data.size = none →
        (firstFit extensionForms content.data.size).length ≤ header) :
    (extensionBytes content).length ≤ header + 1 + content.data.size := by
  have size : content.data.data.toList.length = content.data.size := Array.length_toList
  unfold extensionBytes
  dsimp only
  rw [List.length_append, List.length_append, FieldType.length_bytes, size]
  refine Nat.add_le_add_right (Nat.add_le_add_right ?_ 1) _
  cases fixed : fixedExtension? content.data.size with
  | some marker => exact some
  | none => exact wide fixed

/-- The length of data that a marker tells is short, and it is written with that marker. -/
theorem fixedExtension?_of_layout
    {length : Nat}
    (declares : marker.layout = .fixedExtension length) :
    fixedExtension? length = some marker ∧ length ≤ 16 := by
  cases marker <;> cases declares <;> exact ⟨rfl, by decide⟩

end Payloads

/-- The layout of the length or count behind a marker. -/
def Layout.lengthType? : Layout → Option FieldType
  | .string type => some type
  | .binary type => some type
  | .extension type => some type
  | .container _ type => some type
  | _ => none

/-- Lengths are unsigned and have four bytes at most. -/
theorem unsigned_of_lengthType?
    {marker : Marker}
    {type : FieldType}
    (told : marker.layout.lengthType? = some type) :
    type.isSigned = false ∧ type.modulus ≤ 0x100000000 := by
  cases marker <;> cases told <;> exact ⟨rfl, by decide⟩

/-- Whatever a marker's length is told in holds no more than 32 bits. -/
theorem isShort_of_lengthType?
    {marker : Marker}
    {type : FieldType}
    {length : Nat}
    (told : marker.layout.lengthType? = some type)
    (holds : type.Holds length) :
    IsShort length := by
  obtain ⟨unsigned, bound⟩ := unsigned_of_lengthType? told
  exact Nat.lt_of_lt_of_le ((lt_iff_holds unsigned rfl).mpr holds) bound

/-- What a value is that bytes stand for. -/
structure IsLegible (value : Value) : Prop where
  distinct : value.Everywhere Value.KeysDistinct
  expressible : value.Everywhere IsExpressible
  narrowed_eq : value.narrowed = value

/-- A scalar that is expressible and narrow can be written back. -/
theorem isLegible_of_scalar
    {value : Value}
    (plain : value.container? = none)
    (expressible : IsExpressible value)
    (narrowed_eq : value.narrowed = value) :
    IsLegible value := by
  have childless : value.children = [] := by
    cases value <;> first | rfl | cases plain
  refine ⟨?_, ?_, narrowed_eq⟩
  · rw [Value.everywhere_scalar childless]
    cases value <;> trivial
  · rw [Value.everywhere_scalar childless]
    exact expressible

/-- Scalars that bytes stand for are spelled in no more bytes. -/
theorem isLegible_of_isPayload
    {marker : Marker}
    {taken : List UInt8}
    {value : Value}
    (payload : IsPayload marker.layout taken value) :
    value.container? = none ∧ IsLegible value ∧
      (payloadBytes value).length ≤ taken.length + 1 := by
  generalize declares : marker.layout = layout at payload
  cases payload with
  | constant value =>
      cases marker <;> cases declares
      · exact ⟨rfl, isLegible_of_scalar rfl trivial rfl, Nat.le_refl 1⟩
      · exact ⟨rfl, isLegible_of_scalar rfl trivial rfl, Nat.le_refl 1⟩
      · exact ⟨rfl, isLegible_of_scalar rfl trivial rfl, Nat.le_refl 1⟩
  | int32 value holds =>
      rw [FieldType.length_bytes]
      exact ⟨rfl, isLegible_of_scalar rfl trivial rfl, length_integerBytes_le declares holds⟩
  | int64 value holds wide =>
      rw [FieldType.length_bytes]
      exact ⟨rfl, isLegible_of_scalar rfl trivial (if_pos wide),
        length_integerBytes_le declares holds⟩
  | float32 bits =>
      exact ⟨rfl, isLegible_of_scalar rfl trivial rfl, Nat.le_refl _⟩
  | float64 bits =>
      exact ⟨rfl, isLegible_of_scalar rfl trivial rfl, Nat.le_refl _⟩
  | string text holds =>
      have size := Utf8.length_encode text
      have short := isShort_of_lengthType? (congrArg Layout.lengthType? declares) holds
      have bound := length_stringBytes_le declares holds
      refine ⟨rfl, isLegible_of_scalar rfl short rfl, ?_⟩
      rw [List.length_append, FieldType.length_bytes, size, Nat.add_right_comm]
      exact bound
  | binary bytes holds =>
      have size : bytes.data.toList.length = bytes.size := Array.length_toList
      have short := isShort_of_lengthType? (congrArg Layout.lengthType? declares) holds
      have bound := length_binaryBytes_le declares holds
      refine ⟨rfl, isLegible_of_scalar rfl ⟨rfl, short⟩ rfl, ?_⟩
      rw [List.length_append, FieldType.length_bytes, size, Nat.add_right_comm]
      exact bound
  | @extension type kind data holds =>
      have size : data.data.toList.length = data.size := Array.length_toList
      have short := isShort_of_lengthType? (congrArg Layout.lengthType? declares) holds
      -- the writer may prefer a marker with a fixed size, which is shorter still
      have bound := @length_extensionBytes_le ⟨kind, data⟩ _ (Nat.le_add_left 1 _) fun _ =>
        length_firstFit_le_of_layout listsLayout_extensionForms (by decide) declares holds
      refine ⟨rfl, isLegible_of_scalar rfl short rfl, ?_⟩
      rw [List.length_append, List.length_append, FieldType.length_bytes,
        FieldType.length_bytes, size]
      exact Nat.le_trans bound (Nat.le_of_eq (by
        change type.width + 1 + 1 + data.size = type.width + (1 + data.size) + 1
        omega))
  | fixedExtension kind data =>
      have size : data.data.toList.length = data.size := Array.length_toList
      obtain ⟨fixed, small⟩ := fixedExtension?_of_layout declares
      have short : IsShort data.size := by
        unfold IsShort
        omega
      have bound := @length_extensionBytes_le ⟨kind, data⟩ 1 (Nat.le_refl 1) fun none => by
        rw [fixed] at none
        cases none
      refine ⟨rfl, isLegible_of_scalar rfl short rfl, ?_⟩
      rw [List.length_append, FieldType.length_bytes, size, Nat.add_right_comm]
      exact bound

/-- A scalar that was read can be written back in no more bytes. -/
theorem isLegible_of_isScalar
    {taken : List UInt8}
    {value : Value}
    (scalar : IsScalar taken value) :
    value.container? = none ∧ IsLegible value ∧
      (payloadBytes value).length ≤ taken.length := by
  cases scalar with
  | small value lower upper =>
      have alone : payloadBytes (.int32 value) = FieldType.int8.bytes value.toInt :=
        if_pos ⟨lower, upper⟩
      rw [alone]
      exact ⟨rfl, isLegible_of_scalar rfl trivial rfl, Nat.le_refl _⟩
  | shortString text tiny =>
      have header : stringBytes text =
          [fixString + UInt8.ofNat text.utf8ByteSize] ++ Utf8.encode text := by
        unfold stringBytes
        dsimp only
        rw [if_pos tiny]
      have short : IsShort text.utf8ByteSize := by
        unfold IsShort
        omega
      rw [payloadBytes, header]
      exact ⟨rfl, isLegible_of_scalar rfl short rfl, Nat.le_refl _⟩
  | marked payload =>
      rw [List.length_append, List.length_singleton, Nat.add_comm]
      exact isLegible_of_isPayload payload

/-- A key is short, and spelled in no more bytes than those it stands in. -/
theorem length_stringBytes_le_of_isScalar
    {taken : List UInt8}
    {text : String}
    (scalar : IsScalar taken (.string text)) :
    IsShort text.utf8ByteSize ∧ (stringBytes text).length ≤ taken.length := by
  obtain ⟨_, legible, bound⟩ := isLegible_of_isScalar scalar
  exact ⟨legible.expressible.here, bound⟩

/-- Fewer elements than a header declares are counted in no more bytes. -/
theorem length_countBytes_le
    {kind : ContainerKind}
    {header : List UInt8}
    {declared size : Nat}
    (isHeader : IsHeader kind header declared)
    (fewer : size ≤ declared) :
    IsShort size ∧ (countBytes kind size).length ≤ header.length := by
  cases isHeader with
  | short small =>
      have tiny : size ≤ 15 := Nat.le_trans fewer small
      rw [countBytes, if_pos tiny]
      refine ⟨?_, Nat.le_refl 1⟩
      unfold IsShort
      omega
  | @marked marker type count declares holds =>
      have told : marker.layout.lengthType? = some type :=
        congrArg Layout.lengthType? declares
      have short := isShort_of_lengthType? told holds
      have unsigned := (unsigned_of_lengthType? told).1
      have holdsFewer : type.Holds size :=
        (lt_iff_holds unsigned rfl).mp
          (Nat.lt_of_le_of_lt fewer ((lt_iff_holds unsigned rfl).mpr holds))
      rw [List.length_append, FieldType.length_bytes, List.length_singleton, Nat.add_comm]
      refine ⟨Nat.lt_of_le_of_lt fewer short, ?_⟩
      unfold countBytes
      split
      · exact Nat.le_add_left 1 _
      · exact length_firstFit_le_of_layout (listsLayout_containerForms kind)
          (ascend_containerForms kind) declares holdsFewer

/-- Number of bytes of a value behind its key. -/
def valueSize (value : Value) : Nat :=
  (payloadBytes value).length + (spelling.contents value).length

/-- Number of bytes of an element with its key, if it has one. -/
def elementSize (element : Option String × Value) : Nat :=
  (element.1.elim 0 fun text => (stringBytes text).length) + valueSize element.2

/-- A map's elements have short names, and an array's have none. -/
def IsNamed : ContainerKind → Option String → Prop
  | .map, key => ∃ text, key = some text ∧ IsShort text.utf8ByteSize
  | .array, key => key = none

/-- An element is as long as its key and its value. -/
theorem length_element (key : Key) (value : Value) :
    (spelling.element key value).length = (keyBytes key).length + valueSize value := by
  have whole : spelling.element key value =
      keyBytes key ++ (payloadBytes value ++ spelling.contents value) := by
    cases value with
    | map entries => exact List.append_assoc _ _ _
    | array items => exact List.append_assoc _ _ _
    | _ => exact congrArg (keyBytes key ++ ·) (List.append_nil _).symm
  rw [whole, List.length_append, List.length_append]
  rfl

/-- Items are as long as all of them together. -/
theorem length_items (position : Nat) (items : List Value) :
    (spelling.items position items).length = (items.map valueSize).sum := by
  induction items generalizing position with
  | nil => rfl
  | cons item rest inductionHypothesis =>
      rw [Spelling.items, List.length_append, inductionHypothesis, length_element]
      exact congrArg (· + _) (Nat.zero_add _)

/-- Entries that are narrow one by one stay as they are. -/
theorem narrowedEntries_eq_self
    {entries : Entries}
    (each : ∀ entry ∈ entries, entry.2.narrowed = entry.2) :
    Value.narrowedEntries entries = entries := by
  induction entries with
  | nil => rfl
  | cons entry rest inductionHypothesis =>
      obtain ⟨here, later⟩ := List.forall_mem_cons.mp each
      rw [Value.narrowedEntries, here, inductionHypothesis later]

/-- Items that are narrow one by one stay as they are. -/
theorem narrowedItems_eq_self
    {items : List Value}
    (each : ∀ item ∈ items, item.narrowed = item) :
    Value.narrowedItems items = items := by
  induction items with
  | nil => rfl
  | cons item rest inductionHypothesis =>
      obtain ⟨here, later⟩ := List.forall_mem_cons.mp each
      rw [Value.narrowedItems, here, inductionHypothesis later]

/-- A key that was read can be written back in no more bytes. -/
theorem isNamed_of_isKey
    {kind : ContainerKind}
    {taken : List UInt8}
    {key : Option String}
    (isKey : IsKey kind taken key) :
    IsNamed kind key ∧ (key.elim 0 fun text => (stringBytes text).length) ≤ taken.length := by
  cases kind with
  | map =>
      obtain ⟨text, scalar, rfl⟩ := isKey
      obtain ⟨short, bound⟩ := length_stringBytes_le_of_isScalar scalar
      exact ⟨⟨text, rfl, short⟩, bound⟩
  | array =>
      obtain ⟨_, rfl⟩ := isKey
      exact ⟨rfl, Nat.zero_le _⟩

section Containers

variable {contents : Contents} {header : List UInt8}

/-- Later keys replace earlier ones and add none. -/
theorem length_settled_entries_le (contents : Contents) :
    (Entries.settled contents.entries).length ≤ contents.length := by
  have bound := Entries.length_settled_le contents.entries
  rwa [Contents.entries, List.length_map] at bound

/-- An array has as many items as elements were read. -/
theorem length_contents_items (contents : Contents) :
    contents.items.length = contents.length :=
  List.length_map _

/-- A map of elements that can be written back can be so itself. -/
theorem isLegible_map
    (each : ∀ element ∈ contents, IsNamed .map element.1 ∧ IsLegible element.2)
    (declared : IsHeader .map header contents.length) :
    IsLegible (.map (Entries.settled contents.entries)) := by
  have every (entry : String × Value) (member : entry ∈ Entries.settled contents.entries) :
      IsShort entry.1.utf8ByteSize ∧ IsLegible entry.2 := by
    obtain ⟨element, present, rfl⟩ := List.mem_map.mp (Entries.mem_of_mem_settled member)
    obtain ⟨⟨text, named, short⟩, legible⟩ := each element present
    rw [named]
    exact ⟨short, legible⟩
  refine ⟨?_, ?_, congrArg Value.map (narrowedEntries_eq_self ?_)⟩
  · rw [Value.everywhere_map]
    exact ⟨Entries.nodup_keys_settled _, fun entry member => (every entry member).2.distinct⟩
  · rw [Value.everywhere_map]
    have counted := length_countBytes_le declared (length_settled_entries_le contents)
    refine ⟨⟨counted.1, fun key member => ?_⟩,
      fun entry member => (every entry member).2.expressible⟩
    obtain ⟨entry, present, rfl⟩ := List.mem_map.mp member
    exact (every entry present).1
  · exact fun entry member => (every entry member).2.narrowed_eq

/-- Entries that settling drops are not spelled, and those that are left are no longer. -/
theorem valueSize_map_le
    (each : ∀ element ∈ contents, IsNamed .map element.1 ∧ IsLegible element.2)
    (declared : IsHeader .map header contents.length) :
    valueSize (.map (Entries.settled contents.entries)) ≤
      header.length + (contents.map elementSize).sum := by
  have counted := length_countBytes_le declared (length_settled_entries_le contents)
  have settled := Entries.sum_settled_le
    (fun entry => (spelling.element (.name entry.1) entry.2).length) contents.entries
  have sizes :
      (contents.entries.map fun entry =>
        (spelling.element (.name entry.1) entry.2).length) = contents.map elementSize := by
    rw [Contents.entries, List.map_map]
    refine List.map_congr_left fun element member => ?_
    rcases element with ⟨key, value⟩
    obtain ⟨⟨text, named, _⟩, _⟩ := each (key, value) member
    change key = some text at named
    rw [named]
    exact length_element (.name text) value
  rw [sizes, ← Spelling.length_fields] at settled
  exact Nat.add_le_add counted.2 settled

/-- An array of elements that can be written back can be so itself. -/
theorem isLegible_array
    (each : ∀ element ∈ contents, IsNamed .array element.1 ∧ IsLegible element.2)
    (declared : IsHeader .array header contents.length) :
    IsLegible (.array contents.items) := by
  have every (item : Value) (member : item ∈ contents.items) : IsLegible item := by
    obtain ⟨element, present, rfl⟩ := List.mem_map.mp member
    exact (each element present).2
  have counted :=
    length_countBytes_le declared (Nat.le_of_eq (length_contents_items contents))
  refine ⟨?_, ?_, congrArg Value.array (narrowedItems_eq_self ?_)⟩
  · rw [Value.everywhere_array]
    exact ⟨trivial, fun item member => (every item member).distinct⟩
  · rw [Value.everywhere_array]
    exact ⟨counted.1, fun item member => (every item member).expressible⟩
  · exact fun item member => (every item member).narrowed_eq

/-- An array is written no longer than the header that was read and its elements. -/
theorem valueSize_array_le
    (each : ∀ element ∈ contents, IsNamed .array element.1 ∧ IsLegible element.2)
    (declared : IsHeader .array header contents.length) :
    valueSize (.array contents.items) ≤
      header.length + (contents.map elementSize).sum := by
  have counted :=
    length_countBytes_le declared (Nat.le_of_eq (length_contents_items contents))
  have sizes : contents.items.map valueSize = contents.map elementSize := by
    rw [Contents.items, List.map_map]
    refine List.map_congr_left fun element member => ?_
    rcases element with ⟨key, value⟩
    obtain ⟨named, _⟩ := each (key, value) member
    change key = none at named
    rw [named]
    exact (Nat.zero_add _).symm
  have same := length_items 0 contents.items
  rw [sizes] at same
  exact Nat.add_le_add counted.2 (Nat.le_of_eq same)

/-- A container that bytes stand for is spelled in no more bytes than they are. -/
theorem isLegible_gather
    {kind : ContainerKind}
    (each : ∀ element ∈ contents, IsNamed kind element.1 ∧ IsLegible element.2)
    (declared : IsHeader kind header contents.length) :
    IsLegible (kind.gather contents) ∧
      valueSize (kind.gather contents) ≤
        header.length + (contents.map elementSize).sum := by
  cases kind with
  | map => exact ⟨isLegible_map each declared, valueSize_map_le each declared⟩
  | array => exact ⟨isLegible_array each declared, valueSize_array_le each declared⟩

end Containers

/-- The elements that bytes stand for are spelled in no more bytes than they are. -/
theorem isLegible_of_elements
    {kind : ContainerKind}
    {body : List UInt8}
    {contents : Contents}
    (elements : Elements kind body contents) :
    (∀ element ∈ contents, IsNamed kind element.1 ∧ IsLegible element.2) ∧
      (contents.map elementSize).sum ≤ body.length := by
  induction elements with
  | none => exact ⟨List.forall_mem_nil _, Nat.zero_le _⟩
  | @scalar kind name key taken value body contents named held others inductionHypothesis =>
      obtain ⟨each, bound⟩ := inductionHypothesis
      obtain ⟨isNamed, keyBound⟩ := isNamed_of_isKey named
      obtain ⟨plain, legible, valueBound⟩ := isLegible_of_isScalar held
      have empty : spelling.contents value = [] := by
        cases value <;> first | rfl | cases plain
      refine ⟨List.forall_mem_cons.mpr ⟨⟨isNamed, legible⟩, each⟩, ?_⟩
      rw [List.map_cons, List.sum_cons, elementSize, valueSize, empty, List.length_nil,
        List.length_append, List.length_append]
      dsimp only
      omega
  | @nested kind inner name key header inside held body contents named declared within
      others insideHypothesis othersHypothesis =>
      obtain ⟨each, bound⟩ := othersHypothesis
      obtain ⟨eachInside, insideBound⟩ := insideHypothesis
      obtain ⟨isNamed, keyBound⟩ := isNamed_of_isKey named
      obtain ⟨legible, valueBound⟩ := isLegible_gather eachInside declared
      refine ⟨List.forall_mem_cons.mpr ⟨⟨isNamed, legible⟩, each⟩, ?_⟩
      rw [List.map_cons, List.sum_cons, elementSize, List.length_append,
        List.length_append, List.length_append]
      dsimp only
      omega

/--
A document that bytes stand for can be spelled, and in no more bytes than those;
it is what its own spelling stands for.
-/
theorem spelling_of_isDocument
    {bytes : List UInt8}
    {document : Document}
    (isDocument : IsDocument bytes document) :
    document.WellFormed ∧ document.toValue.Everywhere IsExpressible ∧
      document.narrowed = document ∧
        (spelling.document document).length ≤ bytes.length := by
  obtain ⟨header, body, contents, declared, elements, rfl, rfl⟩ := isDocument
  obtain ⟨each, bound⟩ := isLegible_of_elements elements
  obtain ⟨legible, valueBound⟩ := @isLegible_gather contents header .map each declared
  have narrowed :
      Value.narrowedEntries (Entries.settled contents.entries) =
        Entries.settled contents.entries :=
    Value.map.inj legible.narrowed_eq
  refine ⟨legible.distinct, legible.expressible, congrArg Document.mk narrowed, ?_⟩
  rw [List.length_append]
  change (countBytes .map (Entries.settled contents.entries).length ++
    spelling.fields (Entries.settled contents.entries)).length ≤ _
  rw [List.length_append]
  exact Nat.le_trans valueBound (Nat.add_le_add_left bound _)

end DocumentCodec.MessagePack
