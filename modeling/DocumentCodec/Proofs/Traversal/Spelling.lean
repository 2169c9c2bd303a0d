import Mathlib.Algebra.GroupWithZero.Nat
import DocumentCodec.Proofs.Traversal.Encoding
import DocumentCodec.Proofs.Value.Tree

namespace DocumentCodec

/-!
# What documents are spelled as

A format's rules for writing give each element bytes or a fault.  Here both are
told apart: a spelling has bytes for every element, and says which elements are
refused.  When a writer's parts agree with a spelling, its encoding of a
document is the spelled one, unless an element is refused, and then its fault
is that of the first refused element.

The elements of a document are taken in depth-first order, each in front of
those inside it.
-/

/-- Bytes, unless there is a fault. -/
def unlessFault (fault? : Option EncodeFault) (bytes : List UInt8) :
    Except EncodeFault (List UInt8) :=
  match fault? with
  | some fault => .error fault
  | none => .ok bytes

/-- What succeeds unless there is a fault gives the bytes that were meant. -/
theorem eq_of_unlessFault
    {fault? : Option EncodeFault}
    {bytes encoded : List UInt8}
    (succeeded : unlessFault fault? bytes = .ok encoded) :
    bytes = encoded := by
  cases fault? with
  | some fault => cases succeeded
  | none => exact Except.ok.inj succeeded

/-- Of two parts the first one's fault is reported, and else the second one's. -/
theorem unlessFault_bind
    (first? second? : Option EncodeFault)
    (front back : List UInt8) :
    (do
      let front ← unlessFault first? front
      let back ← unlessFault second? back
      pure (front ++ back)) =
      unlessFault (first?.or second?) (front ++ back) := by
  cases first? <;> cases second? <;> rfl

/-- One part after another has the bytes of both, unless one of them has a fault. -/
theorem Emission.outcome_append
    {first second : Emission}
    {first? second? : Option EncodeFault}
    {front back : List UInt8}
    (before : first.outcome = unlessFault first? front)
    (after : second.outcome = unlessFault second? back) :
    (first ++ second).outcome = unlessFault (first?.or second?) (front ++ back) := by
  cases first? with
  | some fault => exact outcome_append_error before second
  | none =>
      cases second? with
      | none => exact outcome_append_ok before after
      | some fault =>
          rcases first with ⟨pieces, none | found⟩
          · rcases second with ⟨others, none | found⟩
            · cases after
            · cases after
              rfl
          · cases before

/-- An element of a container as it stands in a tree. -/
abbrev KeyedValue :=
  Key × Value

mutual

/-- An element and the elements inside it, depth first. -/
def Value.preorder (key : Key) : Value → List KeyedValue
  | .map entries => (key, .map entries) :: preorderEntries entries
  | .array items => (key, .array items) :: preorderItems 0 items
  | value => [(key, value)]

/-- The elements of a map, each in front of those inside it. -/
def Value.preorderEntries : List (String × Value) → List KeyedValue
  | [] => []
  | (name, value) :: rest => value.preorder (.name name) ++ preorderEntries rest

/-- The elements of an array from a position on, each in front of those inside it. -/
def Value.preorderItems (position : Nat) : List Value → List KeyedValue
  | [] => []
  | value :: rest => value.preorder (.index position) ++ preorderItems (position + 1) rest

end

/-- The elements of a document, each in front of those inside it. -/
def Document.preorder (document : Document) : List KeyedValue :=
  Value.preorderEntries document.entries

/-- What is met in entries is met in one of them. -/
theorem Value.exists_of_mem_preorderEntries
    {entries : List (String × Value)}
    {element : KeyedValue}
    (member : element ∈ preorderEntries entries) :
    ∃ entry ∈ entries, element ∈ entry.2.preorder (.name entry.1) := by
  induction entries with
  | nil => cases member
  | cons entry rest inductionHypothesis =>
      rcases entry with ⟨name, value⟩
      rcases List.mem_append.mp member with here | later
      · exact ⟨_, List.mem_cons_self, here⟩
      · obtain ⟨found, present, inside⟩ := inductionHypothesis later
        exact ⟨found, List.mem_cons_of_mem _ present, inside⟩

/-- What is met in items is met in one of them. -/
theorem Value.exists_of_mem_preorderItems
    {items : List Value}
    {element : KeyedValue}
    {position : Nat}
    (member : element ∈ preorderItems position items) :
    ∃ item ∈ items, ∃ place, element ∈ item.preorder (.index place) := by
  induction items generalizing position with
  | nil => cases member
  | cons item rest inductionHypothesis =>
      rcases List.mem_append.mp member with here | later
      · exact ⟨_, List.mem_cons_self, position, here⟩
      · obtain ⟨found, present, inside⟩ := inductionHypothesis later
        exact ⟨found, List.mem_cons_of_mem _ present, inside⟩

/-- A key that a map somewhere in a tree has; items have the keys of their places. -/
def Value.HasKey (root : Value) : Key → Prop
  | .name text => ∃ entries, root.HasNode (.map entries) ∧ text ∈ Entries.keys entries
  | .index _ => True

/-- A key inside a child is inside the whole. -/
theorem Value.HasKey.within
    {root child : Value}
    {key : Key}
    (member : child ∈ root.children)
    (inside : child.HasKey key) :
    root.HasKey key := by
  cases key with
  | index position => trivial
  | name text =>
      obtain ⟨entries, occurs, named⟩ := inside
      exact ⟨entries, .within member occurs, named⟩

/-- The elements of a tree are its values, with the tree's keys but for the root's. -/
theorem Value.hasNode_of_mem_preorder
    {value : Value}
    {key : Key}
    {element : KeyedValue}
    (member : element ∈ value.preorder key) :
    value.HasNode element.2 ∧ (element.1 = key ∨ value.HasKey element.1) := by
  induction value using Value.induction generalizing key with
  | step value inductionHypothesis =>
      have lift {child : Value} {own : Key} (present : child ∈ value.children)
          (inside : element ∈ child.preorder own) (owned : value.HasKey own) :
          value.HasNode element.2 ∧ (element.1 = key ∨ value.HasKey element.1) := by
        obtain ⟨occurs, same | named⟩ := inductionHypothesis child present inside
        · exact ⟨.within present occurs, .inr (same ▸ owned)⟩
        · exact ⟨.within present occurs, .inr (named.within present)⟩
      cases value with
      | map entries =>
          rcases List.mem_cons.mp member with rfl | inside
          · exact ⟨.self _, .inl rfl⟩
          · obtain ⟨entry, present, found⟩ := exists_of_mem_preorderEntries inside
            exact lift (List.mem_map_of_mem present) found
              ⟨entries, .self _, List.mem_map_of_mem present⟩
      | array items =>
          rcases List.mem_cons.mp member with rfl | inside
          · exact ⟨.self _, .inl rfl⟩
          · obtain ⟨item, present, place, found⟩ := exists_of_mem_preorderItems inside
            exact lift present found trivial
      | _ =>
          obtain rfl := List.mem_singleton.mp member
          exact ⟨.self _, .inl rfl⟩

/-- The elements of a document are values of its tree, with keys of its tree. -/
theorem Document.hasNode_of_mem_preorder
    {document : Document}
    {element : KeyedValue}
    (member : element ∈ document.preorder) :
    document.toValue.HasNode element.2 ∧ document.toValue.HasKey element.1 := by
  obtain ⟨entry, present, found⟩ := Value.exists_of_mem_preorderEntries member
  have held : entry.2 ∈ document.toValue.children := List.mem_map_of_mem present
  obtain ⟨occurs, same | named⟩ := Value.hasNode_of_mem_preorder found
  · refine ⟨.within held occurs, ?_⟩
    rw [same]
    exact ⟨document.entries, .self _, List.mem_map_of_mem present⟩
  · exact ⟨.within held occurs, named.within held⟩

/-- The bytes that a format has for the parts of a document. -/
structure Spelling where
  /-- The header of the root map. -/
  root : Document → List UInt8
  /-- An element up to its contents: a scalar as a whole, a container's header. -/
  front : Key → Value → List UInt8
  /-- A container's contents with what marks their extent. -/
  enclose : List UInt8 → List UInt8
  /-- Why an element has no encoding, were its contents encoded. -/
  refusal? : Key → Value → Option EncodeFault

namespace Spelling

mutual

/-- The bytes of an element: its front and its enclosed contents. -/
def element (spelling : Spelling) (key : Key) : Value → List UInt8
  | .map entries =>
      spelling.front key (.map entries) ++ spelling.enclose (spelling.fields entries)
  | .array items =>
      spelling.front key (.array items) ++ spelling.enclose (spelling.items 0 items)
  | value => spelling.front key value

/-- The bytes of a map's entries in a row. -/
def fields (spelling : Spelling) : List (String × Value) → List UInt8
  | [] => []
  | (name, value) :: rest => spelling.element (.name name) value ++ spelling.fields rest

/-- The bytes of an array's items in a row, from a position on. -/
def items (spelling : Spelling) (position : Nat) : List Value → List UInt8
  | [] => []
  | value :: rest =>
      spelling.element (.index position) value ++ spelling.items (position + 1) rest

end

/-- The bytes of a document. -/
def document (spelling : Spelling) (document : Document) : List UInt8 :=
  spelling.root document ++ spelling.enclose (spelling.fields document.entries)

/-- The fault of the first element that has no encoding. -/
def firstRefusal? (spelling : Spelling) (elements : List KeyedValue) :
    Option EncodeFault :=
  elements.findSome? fun element => spelling.refusal? element.1 element.2

/-- The bytes of a container's elements in a row; a scalar has none. -/
def contents (spelling : Spelling) : Value → List UInt8
  | .map entries => spelling.fields entries
  | .array items => spelling.items 0 items
  | _ => []

/-- A writer's parts at an element have the bytes and the fault that are told. -/
structure Agrees (spelling : Spelling) (writer : ElementWriter) (key : Key)
    (value : Value) : Prop where
  scalar :
    value.container? = none →
      (writer.scalar key value).outcome =
        unlessFault (spelling.refusal? key value) (spelling.front key value)
  header :
    ∀ container ∈ value.container?,
      (writer.header key container).outcome =
        unlessFault (spelling.refusal? key value) (spelling.front key value)
  enclose :
    writer.framing.enclose (spelling.contents value) =
      .ok (spelling.enclose (spelling.contents value))

variable {spelling : Spelling} {writer : ElementWriter}

/-- The first element's refusal comes before those behind it. -/
theorem firstRefusal?_cons (key : Key) (value : Value) (rest : List KeyedValue) :
    spelling.firstRefusal? ((key, value) :: rest) =
      (spelling.refusal? key value).or (spelling.firstRefusal? rest) := by
  rw [firstRefusal?, List.findSome?_cons]
  cases spelling.refusal? key value <;> rfl

/-- A refusal in the first part comes before those in the second. -/
theorem firstRefusal?_append (first second : List KeyedValue) :
    spelling.firstRefusal? (first ++ second) =
      (spelling.firstRefusal? first).or (spelling.firstRefusal? second) :=
  List.findSome?_append

/-- A writer's encoding of an element is the spelled one or the first refusal in it. -/
def EncodesElement (spelling : Spelling) (writer : ElementWriter) (value : Value) : Prop :=
  ∀ key,
    (∀ element ∈ value.preorder key, spelling.Agrees writer element.1 element.2) →
      writer.encodeElement key value =
        unlessFault (spelling.firstRefusal? (value.preorder key))
          (spelling.element key value)

/-- Entries are written as they are spelled, unless something in them is refused. -/
theorem encodeFields_eq
    {entries : List (String × Value)}
    (each : ∀ entry ∈ entries, spelling.EncodesElement writer entry.2)
    (agrees :
      ∀ element ∈ Value.preorderEntries entries,
        spelling.Agrees writer element.1 element.2) :
    writer.encodeFields entries =
      unlessFault (spelling.firstRefusal? (Value.preorderEntries entries))
        (spelling.fields entries) := by
  induction entries with
  | nil => rfl
  | cons entry rest inductionHypothesis =>
      rcases entry with ⟨name, value⟩
      have here := each _ List.mem_cons_self (.name name) fun element member =>
        agrees element (List.mem_append_left _ member)
      have later := inductionHypothesis
        (fun other member => each other (List.mem_cons_of_mem _ member))
        (fun element member => agrees element (List.mem_append_right _ member))
      rw [ElementWriter.encodeFields, here, later, unlessFault_bind,
        ← firstRefusal?_append]
      rfl

/-- Items are written as they are spelled, unless something in them is refused. -/
theorem encodeItems_eq
    {items : List Value}
    (each : ∀ item ∈ items, spelling.EncodesElement writer item)
    (position : Nat)
    (agrees :
      ∀ element ∈ Value.preorderItems position items,
        spelling.Agrees writer element.1 element.2) :
    writer.encodeItems position items =
      unlessFault (spelling.firstRefusal? (Value.preorderItems position items))
        (spelling.items position items) := by
  induction items generalizing position with
  | nil => rfl
  | cons item rest inductionHypothesis =>
      have here := each _ List.mem_cons_self (.index position) fun element member =>
        agrees element (List.mem_append_left _ member)
      have later := inductionHypothesis
        (fun other member => each other (List.mem_cons_of_mem _ member)) (position + 1)
        (fun element member => agrees element (List.mem_append_right _ member))
      rw [ElementWriter.encodeItems, here, later, unlessFault_bind,
        ← firstRefusal?_append]
      rfl

/-- A header, and contents that are enclosed. -/
theorem unlessFault_enclose
    {header? inside? : Option EncodeFault}
    {header body enclosed : List UInt8}
    {framing : Framing}
    (encloses : framing.enclose body = .ok enclosed) :
    (do
      let header ← unlessFault header? header
      let body ← unlessFault inside? body
      let enclosed ← framing.enclose body
      pure (header ++ enclosed)) =
      unlessFault (header?.or inside?) (header ++ enclosed) := by
  cases header? with
  | some fault => rfl
  | none =>
      cases inside? with
      | some fault => rfl
      | none =>
          change (framing.enclose body >>= fun enclosed => pure (header ++ enclosed)) = _
          rw [encloses]
          rfl

/-- The children are encoded before they are enclosed, so that their faults come first. -/
theorem encodesElement
    (spelling : Spelling)
    (writer : ElementWriter)
    (value : Value) :
    spelling.EncodesElement writer value := by
  induction value using Value.induction with
  | step value inductionHypothesis =>
      intro key agrees
      have scalar (plain : value.container? = none)
          (alone : value.preorder key = [(key, value)])
          (whole : spelling.element key value = spelling.front key value) :
          writer.encodeElement key value =
            unlessFault (spelling.firstRefusal? (value.preorder key))
              (spelling.element key value) := by
        have here : spelling.Agrees writer key value :=
          agrees (key, value) (alone ▸ List.mem_singleton_self _)
        rw [ElementWriter.encodeElement_of_scalar plain, here.scalar plain, alone,
          firstRefusal?_cons, whole]
        exact congrArg (unlessFault · _) Option.or_none.symm
      cases value with
      | map entries =>
          have here : spelling.Agrees writer key (.map entries) :=
            agrees (key, .map entries) List.mem_cons_self
          have inside := encodeFields_eq
            (fun entry member => inductionHypothesis entry.2 (List.mem_map_of_mem member))
            (fun element member => agrees element (List.mem_cons_of_mem _ member))
          have enclosed :
              writer.framing.enclose (spelling.fields entries) =
                .ok (spelling.enclose (spelling.fields entries)) := here.enclose
          rw [ElementWriter.encodeElement, here.header (.map entries) rfl, inside,
            unlessFault_enclose enclosed, Value.preorder, firstRefusal?_cons]
          rfl
      | array items =>
          have here : spelling.Agrees writer key (.array items) :=
            agrees (key, .array items) List.mem_cons_self
          have inside := @encodeItems_eq _ _ items
            (fun item member => inductionHypothesis item member) 0
            (fun element member => agrees element (List.mem_cons_of_mem _ member))
          have enclosed :
              writer.framing.enclose (spelling.items 0 items) =
                .ok (spelling.enclose (spelling.items 0 items)) := here.enclose
          rw [ElementWriter.encodeElement, here.header (.array items) rfl, inside,
            unlessFault_enclose enclosed, Value.preorder, firstRefusal?_cons]
          rfl
      | _ => exact scalar rfl rfl rfl

/--
A document is encoded as it is spelled, unless an element is refused.  The
fault is then that of the first refused element.
-/
theorem encodeDocument_eq
    {document : Document}
    (root : (writer.root document).outcome = .ok (spelling.root document))
    (encloses :
      writer.framing.enclose (spelling.fields document.entries) =
        .ok (spelling.enclose (spelling.fields document.entries)))
    (agrees :
      ∀ element ∈ document.preorder, spelling.Agrees writer element.1 element.2) :
    writer.encodeDocument document =
      unlessFault (spelling.firstRefusal? document.preorder)
        (spelling.document document) := by
  have inside := encodeFields_eq
    (fun entry _ => spelling.encodesElement writer entry.2) agrees
  have rooted :
      (writer.root document).outcome = unlessFault none (spelling.root document) := root
  rw [ElementWriter.encodeDocument, rooted, inside, unlessFault_enclose encloses]
  rfl

/-- Entries are as long as all of them together. -/
theorem length_fields (spelling : Spelling) (entries : List (String × Value)) :
    (spelling.fields entries).length =
      (entries.map fun entry =>
        (spelling.element (.name entry.1) entry.2).length).sum := by
  induction entries with
  | nil => rfl
  | cons entry rest inductionHypothesis =>
      rw [fields, List.length_append, inductionHypothesis]
      rfl

/-- No element inside an element is longer than it. -/
def Bounds (spelling : Spelling) (value : Value) : Prop :=
  ∀ key, ∀ element ∈ value.preorder key,
    (spelling.element element.1 element.2).length ≤ (spelling.element key value).length

/-- Nothing inside entries is longer than they are. -/
theorem length_le_fields
    {entries : List (String × Value)}
    (each : ∀ entry ∈ entries, spelling.Bounds entry.2) :
    ∀ element ∈ Value.preorderEntries entries,
      (spelling.element element.1 element.2).length ≤
        (spelling.fields entries).length := by
  induction entries with
  | nil =>
      intro element member
      cases member
  | cons entry rest inductionHypothesis =>
      rcases entry with ⟨name, value⟩
      intro element member
      rw [fields, List.length_append]
      rcases List.mem_append.mp member with here | later
      · have bound := each _ List.mem_cons_self (.name name) element here
        exact Nat.le_add_right_of_le bound
      · have bound := inductionHypothesis
          (fun other member => each other (List.mem_cons_of_mem _ member)) element later
        exact Nat.le_add_left_of_le bound

/-- Nothing inside items is longer than they are. -/
theorem length_le_items
    {items : List Value}
    (each : ∀ item ∈ items, spelling.Bounds item)
    (position : Nat) :
    ∀ element ∈ Value.preorderItems position items,
      (spelling.element element.1 element.2).length ≤
        (spelling.items position items).length := by
  induction items generalizing position with
  | nil =>
      intro element member
      cases member
  | cons item rest inductionHypothesis =>
      intro element member
      rw [Spelling.items, List.length_append]
      rcases List.mem_append.mp member with here | later
      · have bound := each _ List.mem_cons_self (.index position) element here
        exact Nat.le_add_right_of_le bound
      · have bound := inductionHypothesis
          (fun other member => each other (List.mem_cons_of_mem _ member))
          (position + 1) element later
        exact Nat.le_add_left_of_le bound

/-- Where enclosing takes no bytes away, the elements inside one are no longer than it. -/
theorem bounds
    (grows : ∀ body, body.length ≤ (spelling.enclose body).length)
    (value : Value) :
    spelling.Bounds value := by
  induction value using Value.induction with
  | step value inductionHypothesis =>
      intro key element member
      cases value with
      | map entries =>
          rcases List.mem_cons.mp member with rfl | inside
          · exact Nat.le_refl _
          · have bound := length_le_fields
              (fun entry member => inductionHypothesis entry.2 (List.mem_map_of_mem member))
              element inside
            rw [Spelling.element, List.length_append]
            exact Nat.le_add_left_of_le (Nat.le_trans bound (grows _))
      | array items =>
          rcases List.mem_cons.mp member with rfl | inside
          · exact Nat.le_refl _
          · have bound := length_le_items
              (fun item member => inductionHypothesis item member) 0 element inside
            rw [Spelling.element, List.length_append]
            exact Nat.le_add_left_of_le (Nat.le_trans bound (grows _))
      | _ =>
          obtain rfl := List.mem_singleton.mp member
          exact Nat.le_refl _

end Spelling

end DocumentCodec
