import DocumentCodec.Proofs.Bson.Legible
import DocumentCodec.Proofs.Bson.Unambiguity

namespace DocumentCodec.Bson

/-!
# Normal documents

Different bytes can stand for one document: keys of items are skipped, a key
that is repeated counts where it comes last, and a decimal has more words than
one.  Normal bytes use none of this freedom, and they are exactly those that a
document is written in.
-/

/-- An element of a container: how many are in front, its type, its key and what is behind that. -/
inductive Site.HasElement (site : Site) : Nat → ElementType → List UInt8 → List UInt8 → Prop
  | intro {front earlier type name key behind}
      (before : Elements site.kind front earlier)
      (named : IsKey site.kind name key)
      (shape : site.body = front ++ ([type.tag] ++ name ++ behind)) :
      HasElement site earlier.length type name behind

/-- Bytes of a document that leave nothing to be told in another way. -/
structure IsNormal (document : List UInt8) : Prop where
  /-- Every item has the decimal text of its place as its key. -/
  numbered {site position type name behind} :
    HasContainer document site → site.kind = .array →
      site.HasElement position type name behind → name = keyBytes (.index position)
  /-- No map has a key in two places. -/
  distinct {site position other type otherType name behind otherBehind} :
    HasContainer document site → site.kind = .map →
      site.HasElement position type name behind →
        site.HasElement other otherType name otherBehind → position = other
  /-- Every decimal is in canonical words. -/
  canonical {site position name rest} {words : Decimal128} :
    HasContainer document site →
      site.HasElement position .decimal128 name (words.toBytes ++ rest) → words.IsCanonical

section Words

variable {words : Decimal128} {decimal : Decimal}

/-- Decimal words are written low word first. -/
theorem toBytes_eq (words : Decimal128) :
    words.toBytes =
      FieldType.uint64.bytes words.low.toNat ++ FieldType.uint64.bytes words.high.toNat := by
  rw [bytes_uint64, bytes_uint64]
  rfl

/-- Bytes tell the words that they are written from. -/
theorem toBytes_injective {other : Decimal128} (same : words.toBytes = other.toBytes) :
    words = other := by
  have word (value : UInt64) :
      Word.ofLittleEndian (Word.littleEndian 8 value.toNat) = value.toNat := by
    rw [Word.ofLittleEndian_littleEndian]
    exact Nat.mod_eq_of_lt value.toNat_lt
  obtain ⟨low, high⟩ := List.append_inj same
    ((Word.length_littleEndian 8 _).trans (Word.length_littleEndian 8 _).symm)
  refine Decimal128.eq_of_toNat ?_ ?_
  · rw [← word words.low, low, word]
  · rw [← word words.high, high, word]

/-- The bytes that a decimal is written in are those of its words, which are canonical. -/
theorem toBytes_eq_decimalBytes_iff
    (holds : Decimal128.Holds decimal) :
    words.toBytes = decimalBytes decimal ↔ Decimal128.ofDecimal decimal = .ok words := by
  obtain ⟨written, made, bytes⟩ := exists_words_decimalBytes holds
  rw [made, ← bytes, ← toBytes_eq, Except.ok.injEq]
  exact ⟨fun same => (toBytes_injective same).symm, fun same => same ▸ rfl⟩

end Words

section Spelled

variable {kind : ContainerKind} {body : List UInt8} {contents : Contents}

/-- Without repeated keys, what elements make up is spelled like the elements. -/
theorem contents_gather
    (distinct : kind = .map → (Entries.keys contents.entries).Nodup) :
    spelling.contents (kind.gather contents) = spelled kind 0 contents := by
  cases kind with
  | map =>
      rw [ContainerKind.gather, Entries.settled_of_nodup (distinct rfl), spelled_map]
      rfl
  | array =>
      rw [ContainerKind.gather, spelled_array]
      rfl

/-- Elements whose bytes are the spelling of what they make up repeat no key. -/
theorem nodup_of_contents
    (elements : Elements .map body contents)
    (short : body.length ≤ Framing.maximumLength)
    (same : body = spelling.contents (ContainerKind.map.gather contents)) :
    (Entries.keys contents.entries).Nodup := by
  have settled : body =
      spelled .map 0 (Contents.ofEntries (Entries.settled contents.entries)) := by
    rw [spelled_map, Contents.entries_ofEntries]
    exact same
  have derived := elements_spelled (isLegible_settled elements.isLegible) (settled ▸ short)
  rw [← settled] at derived
  rw [elements.unique derived, Contents.entries_ofEntries]
  exact Entries.nodup_keys_settled _

/-- Where the elements of a spelled container are parted, both parts are spelled. -/
theorem exists_spelled_parts
    {front rest : List UInt8}
    {earlier : Contents}
    (elements : Elements kind body contents)
    (short : body.length ≤ Framing.maximumLength)
    (same : body = spelled kind 0 contents)
    (before : Elements kind front earlier)
    (parted : body = front ++ rest) :
    ∃ later,
      contents = earlier ++ later ∧ Elements kind rest later ∧
        rest = spelled kind earlier.length later := by
  have each := elements.isLegible
  rw [parted] at elements
  obtain ⟨later, rfl, behind⟩ := before.exists_later elements
  rw [spelled_append, Nat.zero_add] at same
  have shorter : (spelled kind 0 earlier).length ≤ Framing.maximumLength := by
    rw [same, List.length_append] at short
    exact Nat.le_of_add_right_le short
  have derived := elements_spelled
    (fun element member => each element (List.mem_append_left _ member)) shorter
  -- as many elements are in front of either part, so that the bytes in front are the same
  have sameFront := before.front_unique derived rfl (parted.symm.trans same)
  rw [parted, sameFront] at same
  exact ⟨later, rfl, behind, List.append_cancel_left same⟩

/-- An element of a spelled container is spelled like the one in its place. -/
theorem exists_spelled_element
    {front name behind : List UInt8}
    {earlier : Contents}
    {type : ElementType}
    {key : Option String}
    (elements : Elements kind body contents)
    (short : body.length ≤ Framing.maximumLength)
    (same : body = spelled kind 0 contents)
    (before : Elements kind front earlier)
    (named : IsKey kind name key)
    (shape : body = front ++ ([type.tag] ++ name ++ behind)) :
    ∃ value later,
      contents = earlier ++ (key, value) :: later ∧
        ElementType.ofKind? value.kind = some type ∧
          name = keyBytes (keyAt kind earlier.length key) ∧
            behind = heldBytes value ++ spelled kind (earlier.length + 1) later := by
  obtain ⟨_, whole, rest, restSpelled⟩ :=
    exists_spelled_parts elements short same before shape
  obtain ⟨_, value, _, later, _, rfl, _, _⟩ := rest.exists_held named
  obtain ⟨⟨isNamed, legible⟩, _⟩ := List.forall_mem_cons.mp rest.isLegible
  obtain ⟨valueType, typed⟩ := exists_type legible.expressible.here
  rw [spelled, element_eq typed, List.append_assoc _ (heldBytes value)] at restSpelled
  obtain ⟨rfl, names, _, held⟩ :=
    front_unambiguous named (spells_keyAt isNamed earlier.length).isKey restSpelled
  exact ⟨value, later, whole, typed, names, held⟩

end Spelled

/-- A container whose elements are spelled like what they make up. -/
structure Site.IsSpelled (site : Site) (contents : Contents) : Prop where
  elements : Elements site.kind site.body contents
  short : site.body.length ≤ Framing.maximumLength
  same : site.body = spelled site.kind 0 contents
  distinct : site.kind = .map → (Entries.keys contents.entries).Nodup

/-- A body that is its contents' spelling makes the site a spelled one. -/
theorem Site.isSpelled_of_contents
    {site : Site}
    {contents : Contents}
    (elements : Elements site.kind site.body contents)
    (short : site.body.length ≤ Framing.maximumLength)
    (same : site.body = spelling.contents (site.kind.gather contents)) :
    site.IsSpelled contents := by
  have distinct (isMap : site.kind = .map) : (Entries.keys contents.entries).Nodup := by
    rw [isMap] at elements same
    exact nodup_of_contents elements short same
  exact ⟨elements, short, same.trans (contents_gather distinct), distinct⟩

/-- A container is spelled as its contents in a frame. -/
theorem heldBytes_gather (kind : ContainerKind) (contents : Contents) :
    heldBytes (kind.gather contents) = framed (spelling.contents (kind.gather contents)) := by
  cases kind <;> rfl

/-- A container inside a spelled one is spelled. -/
theorem Site.IsSpelled.nested
    {site : Site}
    {inner : ContainerKind}
    {front inside back : List UInt8}
    {contents held later : Contents}
    (spelled : site.IsSpelled contents)
    (announced : Announces site.kind inner front)
    (within : Elements inner inside held)
    (behind : Elements site.kind back later)
    (parted : site.body = front ++ framed inside ++ back) :
    (site.nested inner front inside back).IsSpelled held := by
  obtain ⟨elements, short, same, _⟩ := spelled
  obtain @⟨front, earlier, name, key, before, named⟩ := announced
  have shape : site.body =
      front ++ ([(ElementType.ofContainer inner).tag] ++ name ++ (framed inside ++ back)) := by
    rw [parted]
    simp only [List.append_assoc]
  have total := congrArg List.length shape
  simp only [List.length_append, length_framed] at total
  have fits : inside.length + minimumSize ≤ Framing.maximumLength := by omega
  have derived :
      Elements site.kind site.body (earlier ++ (key, inner.gather held) :: later) := by
    rw [shape, ← List.append_assoc _ (framed inside)]
    exact before.append (.nested named within fits behind)
  -- the grammar has one element in this place, so the spelled one is this container
  obtain ⟨value, others, contentsSame, _, _, whole⟩ :=
    exists_spelled_element elements short same before named shape
  have found := List.append_cancel_left ((elements.unique derived).symm.trans contentsSame)
  cases (List.cons.inj found).1
  rw [heldBytes_gather] at whole
  have wholeTotal := congrArg List.length whole
  simp only [List.length_append, length_framed] at wholeTotal
  obtain ⟨bodies, _⟩ := framed_unambiguous fits (by omega) whole
  exact Site.isSpelled_of_contents within (Nat.le_of_add_right_le fits) bodies

/-- All containers in the bytes that a document is written in are spelled. -/
theorem HasContainer.exists_isSpelled
    {bytes : List UInt8}
    {document : Document}
    {site : Site}
    (isDocument : IsDocument bytes document)
    (same : bytes = spelling.document document)
    (container : HasContainer bytes site) :
    ∃ contents, site.IsSpelled contents := by
  induction container with
  | @root body others _ shape =>
      obtain ⟨_, contents, elements, fits, whole, rfl⟩ := isDocument
      cases framed_injective (shape.symm.trans whole)
      have spelled : body = spelling.contents (ContainerKind.map.gather contents) :=
        framed_injective (shape.symm.trans same)
      exact ⟨contents, Site.isSpelled_of_contents elements (Nat.le_of_add_right_le fits) spelled⟩
  | nested outer announced within behind parted inductionHypothesis =>
      obtain ⟨contents, spelled⟩ := inductionHypothesis
      exact ⟨_, spelled.nested announced within behind parted⟩

namespace Site.IsSpelled

variable
  {site : Site}
  {contents : Contents}
  {position : Nat}
  {type : ElementType}
  {name behind : List UInt8}

/-- An element of a spelled container is spelled like the one in its place. -/
theorem exists_element
    (spelled : site.IsSpelled contents)
    (element : site.HasElement position type name behind) :
    ∃ key value rest,
      contents[position]? = some (key, value) ∧ IsKey site.kind name key ∧
        ElementType.ofKind? value.kind = some type ∧
          name = keyBytes (keyAt site.kind position key) ∧ behind = heldBytes value ++ rest := by
  obtain @⟨front, earlier, _, _, key, _, before, named, shape⟩ := element
  obtain ⟨value, later, rfl, typed, names, held⟩ :=
    exists_spelled_element spelled.elements spelled.short spelled.same before named shape
  have found : (earlier ++ (key, value) :: later)[earlier.length]? = some (key, value) := by
    rw [List.getElem?_append_right (Nat.le_refl _), Nat.sub_self]
    rfl
  exact ⟨key, value, _, found, named, typed, names, held⟩

/-- A spelled array has its positions as keys. -/
theorem numbered
    (spelled : site.IsSpelled contents)
    (isArray : site.kind = .array)
    (element : site.HasElement position type name behind) :
    name = keyBytes (.index position) := by
  obtain ⟨key, value, rest, _, _, _, names, _⟩ := spelled.exists_element element
  rw [isArray] at names
  exact names

/-- In a spelled map no key occurs twice. -/
theorem position_unique
    {other : Nat}
    {otherType : ElementType}
    {otherBehind : List UInt8}
    (spelled : site.IsSpelled contents)
    (isMap : site.kind = .map)
    (element : site.HasElement position type name behind)
    (otherElement : site.HasElement other otherType name otherBehind) :
    position = other := by
  obtain ⟨key, value, _, found, named, _⟩ := spelled.exists_element element
  obtain ⟨otherKey, otherValue, _, otherFound, otherNamed, _⟩ :=
    spelled.exists_element otherElement
  obtain ⟨_, rfl⟩ := isKey_unambiguous site.kind named otherNamed (Eq.refl (name ++ []))
  have inside : position < (Entries.keys contents.entries).length := by
    rw [Contents.keys_entries, List.length_map]
    exact (List.getElem?_eq_some_iff.mp found).1
  refine (List.getElem?_inj inside (spelled.distinct isMap)).mp ?_
  rw [Contents.keys_entries, List.getElem?_map, List.getElem?_map, found, otherFound]
  rfl

/-- A spelled container holds decimals in canonical words only. -/
theorem isCanonical
    {words : Decimal128}
    {rest : List UInt8}
    (spelled : site.IsSpelled contents)
    (element : site.HasElement position .decimal128 name (words.toBytes ++ rest)) :
    words.IsCanonical := by
  obtain ⟨key, value, others, found, _, typed, _, held⟩ := spelled.exists_element element
  have legible := (spelled.elements.isLegible _ (List.mem_of_getElem? found)).2
  cases value <;> cases typed
  case decimal number =>
    have holds : Decimal128.Holds number := legible.expressible.here
    have sized : words.toBytes.length = (decimalBytes number).length := by
      rw [toBytes_eq, List.length_append, FieldType.length_bytes]
      exact (Word.length_littleEndian 16 _).symm
    have bytes : words.toBytes = decimalBytes number := (List.append_inj held sized).1
    exact Decimal128.isCanonical_of_ofDecimal holds
      ((toBytes_eq_decimalBytes_iff holds).mp bytes)

end Site.IsSpelled

/-- The bytes that a document is written in are normal. -/
theorem isNormal_of_same
    {bytes : List UInt8}
    {document : Document}
    (isDocument : IsDocument bytes document)
    (same : bytes = spelling.document document) :
    IsNormal bytes where
  numbered container isArray element := by
    obtain ⟨_, spelled⟩ := container.exists_isSpelled isDocument same
    exact spelled.numbered isArray element
  distinct container isMap element otherElement := by
    obtain ⟨_, spelled⟩ := container.exists_isSpelled isDocument same
    exact spelled.position_unique isMap element otherElement
  canonical container element := by
    obtain ⟨_, spelled⟩ := container.exists_isSpelled isDocument same
    exact spelled.isCanonical element

/-- The payload of an element is written as it is, unless it is a decimal in other words. -/
theorem IsPayload.eq_payloadBytes
    {type : ElementType}
    {taken : List UInt8}
    {value : Value}
    (payload : IsPayload type taken value)
    (canonical : ∀ words : Decimal128, type = .decimal128 → taken = words.toBytes →
      words.IsCanonical) :
    ElementType.ofKind? value.kind = some type ∧ taken = heldBytes value := by
  cases payload with
  | decimal words decimal number finite meaning =>
      rw [← toBytes_eq] at canonical ⊢
      have made := (Decimal128.ofDecimal_eq_ok_iff meaning).mpr (canonical words rfl rfl)
      exact ⟨rfl, (toBytes_eq_decimalBytes_iff (Decimal128.holds_of_toDecimal meaning)).mpr made⟩
  | binary subtype bytes plain fits =>
      refine ⟨rfl, ?_⟩
      change _ = payloadBytes (.binary ⟨subtype, bytes⟩)
      rw [payloadBytes, if_neg plain]
  | _ => exact ⟨rfl, rfl⟩

/-- Among elements each one stands behind those before it. -/
theorem Elements.exists_front
    {kind : ContainerKind}
    {body : List UInt8}
    {earlier later : Contents}
    {key : Option String}
    {value : Value}
    (elements : Elements kind body (earlier ++ (key, value) :: later)) :
    ∃ (front : List UInt8) (type : ElementType) (name behind : List UInt8),
      Elements kind front earlier ∧ IsKey kind name key ∧
        body = front ++ ([type.tag] ++ name ++ behind) := by
  induction earlier generalizing body with
  | nil =>
      obtain ⟨type, name, taken, others, rfl, named, _, _⟩ := elements.exists_of_cons
      exact ⟨[], type, name, taken ++ others, .none, named, List.append_assoc _ _ _⟩
  | cons element rest inductionHypothesis =>
      obtain ⟨_, _, _, _, rfl, firstNamed, held, others⟩ := elements.exists_of_cons
      obtain ⟨front, type, name, behind, before, named, rfl⟩ := inductionHypothesis others
      exact ⟨_, type, name, behind, .of_held firstNamed held before, named,
        (List.append_assoc _ _ _).symm⟩

/-- Every element that a container was read to hold stands somewhere in its body. -/
theorem Site.exists_hasElement
    {site : Site}
    {contents : Contents}
    {position : Nat}
    (elements : Elements site.kind site.body contents)
    (inside : position < contents.length) :
    ∃ type name behind,
      site.HasElement position type name behind ∧ IsKey site.kind name contents[position].1 := by
  have parted : contents =
      contents.take position ++ contents[position] :: contents.drop (position + 1) := by
    rw [← List.drop_eq_getElem_cons inside, List.take_append_drop]
  rw [parted] at elements
  obtain ⟨front, type, name, behind, before, named, shape⟩ := elements.exists_front
  have element := HasElement.intro before named shape
  rw [List.length_take_of_le (Nat.le_of_lt inside)] at element
  exact ⟨type, name, behind, element, named⟩

namespace IsNormal

variable {document : List UInt8} {site : Site} {contents : Contents}

/-- A map in normal bytes repeats no key. -/
theorem nodup
    (normal : IsNormal document)
    (container : HasContainer document site)
    (isMap : site.kind = .map)
    (elements : Elements site.kind site.body contents) :
    (Entries.keys contents.entries).Nodup := by
  rw [Contents.keys_entries]
  refine List.pairwise_iff_getElem.mpr fun position other inside otherInside before same => ?_
  rw [List.length_map] at inside otherInside
  rw [List.getElem_map, List.getElem_map] at same
  obtain ⟨type, name, behind, element, named⟩ := Site.exists_hasElement elements inside
  obtain ⟨otherType, otherName, otherBehind, otherElement, otherNamed⟩ :=
    Site.exists_hasElement elements otherInside
  rw [isMap] at named otherNamed
  obtain ⟨_, _, rfl, text, rfl, key⟩ := named
  obtain ⟨_, _, rfl, otherText, rfl, otherKey⟩ := otherNamed
  rw [key, otherKey] at same
  cases same
  exact Nat.ne_of_lt before (normal.distinct container isMap element otherElement)

/-- In normal bytes each element has the key that it would be written with. -/
theorem name_eq
    {position : Nat}
    {type : ElementType}
    {name behind : List UInt8}
    {key : Option String}
    (normal : IsNormal document)
    (container : HasContainer document site)
    (element : site.HasElement position type name behind)
    (named : IsKey site.kind name key) :
    name = keyBytes (keyAt site.kind position key) := by
  cases kind : site.kind with
  | map =>
      rw [kind] at named
      obtain ⟨_, _, rfl, text, rfl, rfl⟩ := named
      rfl
  | array => exact normal.numbered container kind element

/--
The elements in normal bytes are spelled as they are.  By induction on their
derivation; the elements in front of them tell the place that they start from.
-/
theorem spelled_eq
    {kind : ContainerKind}
    {front body : List UInt8}
    {earlier : Contents}
    (normal : IsNormal document)
    (elements : Elements kind body contents)
    (container : HasContainer document site)
    (sameKind : site.kind = kind)
    (before : Elements kind front earlier)
    (whole : site.body = front ++ body) :
    body = spelled kind earlier.length contents := by
  induction elements generalizing site front earlier with
  | none => rfl
  | @scalar kind type name key payload value body contents named held others
      inductionHypothesis =>
      subst sameKind
      have shape : site.body = front ++ ([type.tag] ++ name ++ (payload ++ body)) := by
        rw [whole]
        simp only [List.append_assoc]
      have element := Site.HasElement.intro before named shape
      have later : body = spelled site.kind (earlier.length + 1) contents := by
        have rest := inductionHypothesis container rfl
          (before.append (.scalar named held .none))
          (by rw [whole, List.append_nil, List.append_assoc front])
        rwa [List.length_append] at rest
      obtain ⟨typed, payloadSame⟩ := held.eq_payloadBytes fun words isDecimal bytes => by
        subst isDecimal bytes
        exact normal.canonical container element
      rw [spelled, element_eq typed, ← normal.name_eq container element named, ← payloadSame,
        ← later]
  | @nested kind inner name key inside held body contents named within fits others
      insideHypothesis othersHypothesis =>
      subst sameKind
      have shape : site.body =
          front ++ ([(ElementType.ofContainer inner).tag] ++ name ++ (framed inside ++ body)) := by
        rw [whole]
        simp only [List.append_assoc]
      have element := Site.HasElement.intro before named shape
      have parted : site.body =
          (front ++ ([(ElementType.ofContainer inner).tag] ++ name)) ++ framed inside ++ body := by
        rw [shape]
        simp only [List.append_assoc]
      have nested := HasContainer.nested container (.intro before named) within others parted
      have later : body = spelled site.kind (earlier.length + 1) contents := by
        have rest := othersHypothesis container rfl
          (before.append (.nested named within fits .none))
          (by rw [whole, List.append_nil, List.append_assoc front])
        rwa [List.length_append] at rest
      -- without repeated keys all elements are in the map, and in their order
      have distinct : inner = .map → (Entries.keys held.entries).Nodup :=
        fun isMap => normal.nodup nested isMap within
      have insideSame : inside = spelling.contents (inner.gather held) := by
        rw [contents_gather distinct]
        exact insideHypothesis nested rfl .none rfl
      have typed : ElementType.ofKind? (inner.gather held).kind =
          some (ElementType.ofContainer inner) := by
        cases inner <;> rfl
      rw [spelled, element_eq typed, ← normal.name_eq container element named,
        heldBytes_gather, ← insideSame, ← later]

end IsNormal

/-- Bytes are those that their document is written in exactly if they are normal. -/
theorem isNormal_iff
    {bytes : List UInt8}
    {document : Document}
    (isDocument : IsDocument bytes document) :
    bytes = spelling.document document ↔ IsNormal bytes := by
  refine ⟨isNormal_of_same isDocument, fun normal => ?_⟩
  obtain ⟨body, contents, elements, _, rfl, rfl⟩ := isDocument
  have root : HasContainer (framed body) (.root body) := .root elements rfl
  have same := normal.spelled_eq elements root rfl .none rfl
  have distinct := normal.nodup root rfl elements
  have gathered := @contents_gather .map contents fun _ => distinct
  exact congrArg framed (same.trans gathered.symm)

end DocumentCodec.Bson
