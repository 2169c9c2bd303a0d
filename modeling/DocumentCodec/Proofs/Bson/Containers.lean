import DocumentCodec.Proofs.Bson.Grammar
import DocumentCodec.Proofs.Value.Tree

namespace DocumentCodec.Bson

/-!
# The containers of a document

The containers of a document are told from the outside in, each with the bytes
in front of its length and behind its end.  Every container in the tree that
the document stands for is one of them.
-/

/-- A container of a document: its elements, and the bytes around it. -/
structure Site where
  kind : ContainerKind
  /-- The bytes in front of its length. -/
  front : List UInt8
  /-- The bytes of its elements. -/
  body : List UInt8
  /-- The bytes behind the zero byte at its end. -/
  back : List UInt8
  /-- Where the container around it ends, unless it is the root. -/
  parentStop? : Option Nat

namespace Site

/-- Where the length stands. -/
def slot (site : Site) : Nat :=
  site.front.length

/-- The length of the container, and what it declares. -/
def length (site : Site) : Nat :=
  site.body.length + minimumSize

/-- Where the container ends. -/
def stop (site : Site) : Nat :=
  site.slot + site.length

/-- The outermost container. -/
def root (body : List UInt8) : Site :=
  ⟨.map, [], body, [], none⟩

/-- A container among the elements, with the bytes of the elements around it. -/
def nested (site : Site) (kind : ContainerKind) (front body back : List UInt8) : Site where
  kind
  front := site.front ++ FieldType.int32.bytes site.length ++ front
  body
  back := back ++ [terminator] ++ site.back
  parentStop? := some site.stop

/-- The length of a nested container stands behind the parent's length and what is in front. -/
theorem slot_nested (site : Site) (kind : ContainerKind) (front body back : List UInt8) :
    (site.nested kind front body back).slot = site.slot + 4 + front.length := by
  rw [slot, nested, List.length_append, List.length_append, FieldType.length_bytes]
  rfl

/-- A parent ends behind its nested container, what follows that and the final zero. -/
theorem stop_eq_of_nested
    {site : Site}
    {front body back : List UInt8}
    (whole : site.body = front ++ framed body ++ back) :
    site.stop = site.slot + 4 + front.length + (body.length + minimumSize) + back.length + 1 := by
  rw [stop, length, whole, List.length_append, List.length_append, length_framed]
  change site.slot + (front.length + (body.length + 5) + back.length + 5) =
    site.slot + 4 + front.length + (body.length + 5) + back.length + 1
  omega

/-- The document's bytes with a number in the place of the length. -/
def bytes (site : Site) (declared : Int) : List UInt8 :=
  site.front ++
    (FieldType.int32.bytes declared ++ ((site.body ++ [terminator]) ++ site.back))

/-- A declared length leaves the elements where they were. -/
theorem length_front_append (site : Site) (declared : Int) :
    (site.front ++ FieldType.int32.bytes declared).length = site.slot + 4 := by
  rw [List.length_append, FieldType.length_bytes]
  rfl

/-- No container is shorter than its length and its final zero. -/
theorem minimumSize_le (site : Site) : (minimumSize : Int) ≤ (site.length : Nat) :=
  Int.ofNat_le.mpr (Nat.le_add_left _ _)

variable {site : Site} {changed : ByteArray} {content : List UInt8} {declared : Int}

/-- Input with another length in one place is as long as it was. -/
theorem size_eq
    (shape :
      changed.data.toList =
        site.front ++ (FieldType.int32.bytes declared ++ (content ++ site.back)))
    (sized : content.length = site.body.length + 1) :
    changed.size = site.stop + site.back.length := by
  have total := congrArg List.length shape
  simp only [Array.length_toList, List.length_append, FieldType.length_bytes, sized] at total
  change changed.size = site.slot + (4 + (site.body.length + 1 + site.back.length)) at total
  change changed.size = site.slot + (site.body.length + 5) + site.back.length
  omega

/-- The length of a container in input of that size is a 32-bit number. -/
theorem holds_length
    (fits : changed.size ≤ Framing.maximumLength)
    (total : changed.size = site.stop + site.back.length) :
    FieldType.int32.Holds site.length := by
  rw [FieldType.int32_holds_iff]
  refine Nat.le_trans ?_ fits
  rw [total, stop]
  omega

end Site

/-- Elements, and behind them the tag and the key of a nested container. -/
inductive Announces (kind inner : ContainerKind) : List UInt8 → Prop
  | intro {front earlier name key}
      (before : Elements kind front earlier)
      (named : IsKey kind name key) :
      Announces kind inner (front ++ ([(ElementType.ofContainer inner).tag] ++ name))

/-- The containers of a document, at any depth. -/
inductive HasContainer (document : List UInt8) : Site → Prop
  | root {body contents}
      (elements : Elements .map body contents)
      (shape : document = framed body) :
      HasContainer document (.root body)
  | nested {site inner front body held back later}
      (outer : HasContainer document site)
      (announced : Announces site.kind inner front)
      (within : Elements inner body held)
      (behind : Elements site.kind back later)
      (shape : site.body = front ++ framed body ++ back) :
      HasContainer document (site.nested inner front body back)

namespace HasContainer

variable {document : List UInt8} {site : Site}

/-- The document's bytes have the container's length in its place. -/
theorem bytes_eq (container : HasContainer document site) :
    document = site.bytes site.length := by
  induction container with
  | root elements shape =>
      rw [shape, framed, Site.bytes, List.append_assoc]
      exact congrArg (FieldType.int32.bytes _ ++ ·) (List.append_nil _).symm
  | nested outer announced within behind shape inductionHypothesis =>
      rw [inductionHypothesis, Site.bytes, shape]
      simp only [Site.bytes, Site.nested, Site.length, framed, List.append_assoc]
      rfl

end HasContainer

/-- Elements behind elements of the same container are elements. -/
theorem Elements.append
    {kind : ContainerKind}
    {front back : List UInt8}
    {earlier later : Contents}
    (before : Elements kind front earlier)
    (behind : Elements kind back later) :
    Elements kind (front ++ back) (earlier ++ later) := by
  induction before with
  | none => exact behind
  | scalar named held others inductionHypothesis =>
      rw [List.append_assoc]
      exact .scalar named held (inductionHypothesis behind)
  | nested named within fits others _ inductionHypothesis =>
      rw [List.append_assoc]
      exact .nested named within fits (inductionHypothesis behind)

/-- Nothing that has a payload of its own holds a container. -/
theorem IsPayload.container_eq_none
    {type : ElementType}
    {taken : List UInt8}
    {value node : Value}
    (payload : IsPayload type taken value)
    (occurs : value.HasNode node) :
    node.container? = none := by
  cases payload <;> cases occurs with
  | self => rfl
  | within member inside => cases member

/-- The containers inside the elements of a container are containers of the document. -/
theorem HasContainer.exists_of_elements
    {document : List UInt8}
    {kind : ContainerKind}
    {body : List UInt8}
    {contents : Contents}
    (elements : Elements kind body contents)
    {site : Site}
    {front : List UInt8}
    {earlier : Contents}
    (outer : HasContainer document site)
    (sameKind : site.kind = kind)
    (before : Elements kind front earlier)
    (whole : site.body = front ++ body)
    {element : Option String × Value}
    (member : element ∈ contents)
    {node : Value}
    (occurs : element.2.HasNode node)
    (container : node.container? ≠ none) :
    ∃ inner held,
      HasContainer document inner ∧ Elements inner.kind inner.body held ∧
        node = inner.kind.gather held := by
  induction elements generalizing site front earlier element with
  | none => cases member
  | @scalar kind type name key payload value body contents named held others
      inductionHypothesis =>
      rcases List.mem_cons.mp member with rfl | later
      · exact (container (held.container_eq_none occurs)).elim
      · refine inductionHypothesis outer sameKind
          (before.append (.scalar named held .none)) ?_ later occurs
        rw [whole, List.append_nil, List.append_assoc front]
  | @nested kind inner name key inside held body contents named within fits others
      insideHypothesis othersHypothesis =>
      subst sameKind
      rcases List.mem_cons.mp member with rfl | later
      · have shape :
            site.body =
              (front ++ ([(ElementType.ofContainer inner).tag] ++ name)) ++ framed inside ++
                body := by
          rw [whole]
          simp only [List.append_assoc]
        have here := HasContainer.nested outer (.intro before named) within others shape
        cases occurs with
        | self => exact ⟨_, held, here, within, rfl⟩
        | within inChildren deeper =>
            obtain ⟨child, present, rfl⟩ := ContainerKind.exists_of_mem_children inChildren
            exact insideHypothesis here rfl .none rfl present deeper
      · refine othersHypothesis outer rfl
          (before.append (.nested named within fits .none)) ?_ later occurs
        rw [whole, List.append_nil, List.append_assoc front]

/-- Every container in the tree of a document is one of the containers in its bytes. -/
theorem IsDocument.exists_hasContainer
    {bytes : List UInt8}
    {document : Document}
    (isDocument : IsDocument bytes document)
    {node : Value}
    (occurs : document.toValue.HasNode node)
    (container : node.container? ≠ none) :
    ∃ site held,
      HasContainer bytes site ∧ Elements site.kind site.body held ∧
        node = site.kind.gather held := by
  obtain ⟨body, contents, elements, _, shape, rfl⟩ := isDocument
  have root : HasContainer bytes (.root body) := .root elements shape
  cases occurs with
  | self => exact ⟨_, contents, root, elements, rfl⟩
  | within member inside =>
      obtain ⟨element, present, rfl⟩ :=
        @ContainerKind.exists_of_mem_children .map contents _ member
      exact HasContainer.exists_of_elements elements root rfl .none rfl present inside container

end DocumentCodec.Bson
