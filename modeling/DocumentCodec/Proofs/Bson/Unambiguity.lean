import DocumentCodec.Proofs.Bson.Decoding

namespace DocumentCodec.Bson

/-!
# The grammar of BSON is unambiguous

Bytes have one reading at most: a key ends at its zero byte, a payload where
its type or its length says, and a container where its own length does.
-/

/-- At most one key begins given bytes. -/
theorem isKey_unambiguous (kind : ContainerKind) : (IsKey kind).Unambiguous :=
  Decode.unambiguous_of_recognizes fun _ => ⟨_, readKey_recognizes kind 0⟩

/-- At most one payload of a type begins given bytes. -/
theorem isPayload_unambiguous (type : ElementType) : (IsPayload type).Unambiguous := by
  intro front other rest others meaning second held otherHeld same
  refine @Decode.unambiguous_of_recognizes _ (IsPayload type) (fun input => ?_)
    _ _ _ _ _ _ held otherHeld same
  obtain ⟨payload, recognizes, _⟩ :=
    exists_payload_reader (@Decode.owned_of_copied ⟨0, none⟩ rfl input) held.plain
  exact ⟨payload, recognizes⟩

namespace ElementType

/-- A tag tells the type. -/
theorem tag_injective {type other : ElementType} (same : type.tag = other.tag) :
    type = other := by
  have found := ofTag?_tag type
  rw [same, ofTag?_tag] at found
  exact (Option.some.inj found).symm

/-- A container's type tells its kind. -/
theorem ofContainer_injective
    {kind other : ContainerKind}
    (same : ofContainer kind = ofContainer other) :
    kind = other := by
  cases kind <;> cases other <;> first | rfl | cases same

end ElementType

/-- A frame tells its body. -/
theorem framed_injective {body other : List UInt8} (same : framed body = framed other) :
    body = other := by
  have lengths := congrArg List.length same
  rw [length_framed, length_framed] at lengths
  have sameLength := Nat.add_right_cancel lengths
  rw [framed, framed, sameLength, List.append_assoc, List.append_assoc] at same
  exact List.append_cancel_right (List.append_cancel_left same)

/-- A container whose length fits its field ends in one place. -/
theorem framed_unambiguous
    {body other rest others : List UInt8}
    (fits : body.length + minimumSize ≤ Framing.maximumLength)
    (otherFits : other.length + minimumSize ≤ Framing.maximumLength)
    (same : framed body ++ rest = framed other ++ others) :
    body = other ∧ rest = others := by
  simp only [framed, List.append_assoc] at same
  obtain ⟨lengths, behind⟩ :=
    List.append_inj same (by rw [FieldType.length_bytes, FieldType.length_bytes])
  have held := FieldType.value_bytes ((FieldType.int32_holds_iff _).mpr fits)
  have otherHeld := FieldType.value_bytes ((FieldType.int32_holds_iff _).mpr otherFits)
  have values := held.symm.trans ((congrArg FieldType.int32.value lengths).trans otherHeld)
  have sameLength : body.length = other.length :=
    Nat.add_right_cancel (Int.ofNat_inj.mp values)
  obtain ⟨bodies, ends⟩ := List.append_inj behind sameLength
  exact ⟨bodies, List.append_cancel_left ends⟩

variable {kind : ContainerKind}

/-- Bytes have one tag and one key in front. -/
theorem front_unambiguous
    {type other : ElementType}
    {name otherName rest others : List UInt8}
    {key otherKey : Option String}
    (named : IsKey kind name key)
    (otherNamed : IsKey kind otherName otherKey)
    (same : [type.tag] ++ name ++ rest = [other.tag] ++ otherName ++ others) :
    type = other ∧ name = otherName ∧ key = otherKey ∧ rest = others := by
  rw [List.append_assoc, List.append_assoc] at same
  obtain ⟨tags, behind⟩ := List.cons.inj same
  obtain ⟨names, keys⟩ := isKey_unambiguous kind named otherNamed behind
  refine ⟨ElementType.tag_injective tags, names, keys, ?_⟩
  rw [names] at behind
  exact List.append_cancel_left behind

/-- What stands behind the key of an element: a payload, or a container with its length. -/
inductive IsHeld : ElementType → Language Value
  | payload {type taken value}
      (held : IsPayload type taken value) :
      IsHeld type taken value
  | container {inner inside contents}
      (within : Elements inner inside contents)
      (fits : inside.length + minimumSize ≤ Framing.maximumLength) :
      IsHeld (.ofContainer inner) (framed inside) (inner.gather contents)

/-- What is held with a scalar's type is a payload. -/
theorem IsHeld.isPayload
    {type : ElementType}
    {taken : List UInt8}
    {value : Value}
    (held : IsHeld type taken value)
    (plain : ∀ inner, type ≠ .ofContainer inner) :
    IsPayload type taken value := by
  cases held with
  | payload held => exact held
  | container within fits => exact absurd rfl (plain _)

/-- What is held with a container's type is a frame around its elements. -/
theorem IsHeld.exists_inside
    {inner : ContainerKind}
    {taken : List UInt8}
    {value : Value}
    (held : IsHeld (.ofContainer inner) taken value) :
    ∃ inside contents,
      Elements inner inside contents ∧
        inside.length + minimumSize ≤ Framing.maximumLength ∧
          taken = framed inside ∧ value = inner.gather contents := by
  generalize typed : ElementType.ofContainer inner = type at held
  cases held with
  | payload held => exact absurd typed.symm (held.plain inner)
  | container within fits =>
      cases ElementType.ofContainer_injective typed
      exact ⟨_, _, within, fits, rfl, rfl⟩

namespace Elements

/-- An element is in front of others whatever it holds. -/
theorem of_held
    {type : ElementType}
    {name taken body : List UInt8}
    {key : Option String}
    {value : Value}
    {contents : Contents}
    (named : IsKey kind name key)
    (held : IsHeld type taken value)
    (others : Elements kind body contents) :
    Elements kind ([type.tag] ++ name ++ taken ++ body) ((key, value) :: contents) := by
  cases held with
  | payload held => exact .scalar named held others
  | container within fits => exact .nested named within fits others

/-- Elements are a first one and the others. -/
theorem exists_of_cons
    {body : List UInt8}
    {key : Option String}
    {value : Value}
    {contents : Contents}
    (elements : Elements kind body ((key, value) :: contents)) :
    ∃ (type : ElementType) (name taken others : List UInt8),
      body = [type.tag] ++ name ++ taken ++ others ∧
        IsKey kind name key ∧ IsHeld type taken value ∧ Elements kind others contents := by
  cases elements with
  | scalar named held others => exact ⟨_, _, _, _, rfl, named, .payload held, others⟩
  | nested named within fits others =>
      exact ⟨_, _, _, _, rfl, named, .container within fits, others⟩

/-- Behind a tag and a key stands what they announce, and then the other elements. -/
theorem exists_held
    {type : ElementType}
    {name behind : List UInt8}
    {key : Option String}
    {contents : Contents}
    (named : IsKey kind name key)
    (elements : Elements kind ([type.tag] ++ name ++ behind) contents) :
    ∃ taken value body others,
      behind = taken ++ body ∧ contents = (key, value) :: others ∧
        IsHeld type taken value ∧ Elements kind body others := by
  generalize whole : [type.tag] ++ name ++ behind = bytes at elements
  cases contents with
  | nil =>
      cases elements
      cases whole
  | cons element others =>
      obtain ⟨_, _, taken, body, rfl, otherNamed, held, others⟩ := elements.exists_of_cons
      obtain ⟨rfl, rfl, rfl, rfl⟩ :=
        front_unambiguous named otherNamed (whole.trans (List.append_assoc _ _ _))
      exact ⟨_, _, _, _, rfl, rfl, held, others⟩

/-- Without bytes there are no elements. -/
theorem eq_nil
    {contents : Contents}
    (elements : Elements kind [] contents) :
    contents = [] := by
  generalize empty : ([] : List UInt8) = bytes at elements
  cases elements with
  | none => rfl
  | scalar named held others => cases empty
  | nested named within fits others => cases empty

/-- However the elements of a container begin, the others are behind them. -/
theorem exists_later
    {front rest : List UInt8}
    {earlier contents : Contents}
    (before : Elements kind front earlier)
    (elements : Elements kind (front ++ rest) contents) :
    ∃ later, contents = earlier ++ later ∧ Elements kind rest later := by
  induction before generalizing rest contents with
  | none => exact ⟨contents, rfl, elements⟩
  | @scalar kind type name key payload value body earlier named held others
      inductionHypothesis =>
      rw [List.append_assoc, List.append_assoc] at elements
      obtain ⟨taken, found, behind, others, same, rfl, foundHeld, otherElements⟩ :=
        elements.exists_held named
      obtain ⟨rfl, rfl⟩ :=
        isPayload_unambiguous type held (foundHeld.isPayload held.plain) same
      rw [← List.append_cancel_left same] at otherElements
      obtain ⟨later, rfl, behind⟩ := inductionHypothesis otherElements
      exact ⟨later, rfl, behind⟩
  | @nested kind inner name key inside held body earlier named within fits others
      insideHypothesis othersHypothesis =>
      rw [List.append_assoc, List.append_assoc] at elements
      obtain ⟨taken, found, behind, others, same, rfl, foundHeld, otherElements⟩ :=
        elements.exists_held named
      obtain ⟨other, contents, otherWithin, otherFits, rfl, rfl⟩ := foundHeld.exists_inside
      obtain ⟨rfl, rfl⟩ := framed_unambiguous fits otherFits same
      rw [← List.append_nil inside] at otherWithin
      obtain ⟨none, rfl, nothing⟩ := insideHypothesis otherWithin
      obtain ⟨later, rfl, behind⟩ := othersHypothesis otherElements
      rw [nothing.eq_nil, List.append_nil]
      exact ⟨later, rfl, behind⟩

/-- The bytes of a container's elements stand for one list of elements. -/
theorem unique
    {body : List UInt8}
    {contents others : Contents}
    (elements : Elements kind body contents)
    (otherElements : Elements kind body others) :
    contents = others := by
  rw [← List.append_nil body] at otherElements
  obtain ⟨none, rfl, nothing⟩ := elements.exists_later otherElements
  rw [nothing.eq_nil, List.append_nil]

/-- Without elements there are no bytes. -/
theorem body_eq_nil
    {body : List UInt8}
    (elements : Elements kind body []) :
    body = [] := by
  cases elements
  rfl

/-- As many elements as there are in all leave nothing behind them. -/
theorem eq_nil_of_length
    {front more : List UInt8}
    {earlier others : Contents}
    (before : Elements kind front earlier)
    (elements : Elements kind (front ++ more) others)
    (sameLength : earlier.length = others.length) :
    more = [] := by
  obtain ⟨later, rfl, behind⟩ := before.exists_later elements
  have none : later = [] := by
    rw [List.length_append] at sameLength
    exact List.eq_nil_of_length_eq_zero (Nat.left_eq_add.mp sameLength)
  subst none
  exact behind.body_eq_nil

/-- Bytes begin with a number of elements in one way at most. -/
theorem front_unique
    {front other rest others : List UInt8}
    {earlier otherEarlier : Contents}
    (before : Elements kind front earlier)
    (otherBefore : Elements kind other otherEarlier)
    (sameLength : earlier.length = otherEarlier.length)
    (same : front ++ rest = other ++ others) :
    front = other := by
  rcases List.append_eq_append_iff.mp same with ⟨more, rfl, _⟩ | ⟨more, rfl, _⟩
  · rw [before.eq_nil_of_length otherBefore sameLength, List.append_nil]
  · rw [otherBefore.eq_nil_of_length before sameLength.symm, List.append_nil]

end Elements

end DocumentCodec.Bson
