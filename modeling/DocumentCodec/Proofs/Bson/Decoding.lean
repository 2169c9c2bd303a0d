import DocumentCodec.Proofs.Bson.Scalars
import DocumentCodec.Proofs.Traversal.Derivation

namespace DocumentCodec.Bson

/-!
# The decoder and the grammar

The decoder of BSON accepts the documents of the grammar and no other bytes.

One step of reading is described first (`Found`).  A container's elements are
then related to the grammar by induction, in one direction on how they are
read and in the other on how the grammar derives them.  The invariant in both
is that the container's bytes reach from the reader to its declared end and
the last of them is the zero byte.
-/

open Decode ElementReader

variable {input : ByteArray} {options : DecodeOptions}

/-- What a step of reading finds, with the reader behind it. -/
inductive Found (kind : ContainerKind) (bounds : Bounds) (reader : ByteReader) :
    Element → ByteReader → Prop
  | finished {rest}
      (passes : reader.Passes [terminator] rest)
      (last : rest.cursor = bounds.stop) :
      Found kind bounds reader .finished rest
  | scalar {type name key payload value rest}
      (named : IsKey kind name key)
      (held : IsPayload type payload value)
      (passes : reader.Passes ([type.tag] ++ name ++ payload) rest) :
      Found kind bounds reader (.scalar key value) rest
  | opened {inner name key size rest}
      (named : IsKey kind name key)
      (fits : size + minimumSize ≤ Framing.maximumLength)
      (passes :
        reader.Passes
          ([(ElementType.ofContainer inner).tag] ++ name ++
            FieldType.int32.bytes (size + minimumSize)) rest)
      (inside : rest.cursor + size + 1 ≤ bounds.stop) :
      Found kind bounds reader (.opened key inner ⟨rest.cursor + size + 1, 0⟩) rest

/--
A container is opened exactly if its length is there, within the format's limit
and within the parent.
-/
theorem readNested_eq_ok_iff
    {key : Option String}
    {kind : ContainerKind}
    {parent after : Bounds}
    {reader rest : ByteReader}
    {element : Element}
    (ofInput : reader.bytes = input)
    (inBounds : reader.InBounds) :
    readNested key kind parent reader = .ok ((element, after), rest) ↔
      after = parent ∧
        ∃ size, size + minimumSize ≤ Framing.maximumLength ∧
          reader.Passes (FieldType.int32.bytes (size + minimumSize)) rest ∧
            rest.cursor + size + 1 ≤ parent.stop ∧
              element = .opened key kind ⟨rest.cursor + size + 1, 0⟩ := by
  rw [readNested, position_bind,
    (readField_recognizes .int32).bind_eq_ok_iff ofInput inBounds]
  constructor
  · rintro ⟨length, taken, between, ⟨holds, rfl⟩, passes, ran⟩
    simp only [ensure_bind_eq_ok_iff] at ran
    obtain ⟨least, inside, ran⟩ := ran
    cases ran
    have atLeast : (5 : Int) ≤ length := of_decide_eq_true least
    have fitting : reader.cursor + length.toNat ≤ parent.stop := of_decide_eq_true inside
    have moved : rest.cursor = reader.cursor + 4 := by
      rw [passes.cursor_eq, FieldType.length_bytes]
      rfl
    have whole : length = ((length.toNat - 5 + minimumSize : Nat) : Int) := by
      change length = ((length.toNat - 5 + 5 : Nat) : Int)
      omega
    rw [whole] at holds passes
    have stop : reader.cursor + length.toNat = rest.cursor + (length.toNat - 5) + 1 := by
      omega
    rw [stop] at fitting ⊢
    exact ⟨rfl, length.toNat - 5, (FieldType.int32_holds_iff _).mp holds, passes, fitting,
      rfl⟩
  · rintro ⟨rfl, size, fits, passes, inside, rfl⟩
    have holds := (FieldType.int32_holds_iff _).mpr fits
    have moved : rest.cursor = reader.cursor + 4 := by
      rw [passes.cursor_eq, FieldType.length_bytes]
      rfl
    refine ⟨_, _, rest, ⟨holds, rfl⟩, passes, ?_⟩
    have stop :
        reader.cursor + ((size + minimumSize : Nat) : Int).toNat = rest.cursor + size + 1 := by
      change reader.cursor + (size + 5) = _
      omega
    simp only [ensure_bind_eq_ok_iff, stop]
    exact ⟨decide_eq_true (by omega), decide_eq_true inside, rfl⟩

/-- What is read behind a key is a payload of the grammar, and every payload is read. -/
theorem readContents_eq_ok_iff
    {key : Option String}
    {parent after : Bounds}
    {type : ElementType}
    {reader rest : ByteReader}
    {element : Element}
    (owned : ∀ owner ∈ options.shared?, owner = input)
    (plain : ∀ kind, type ≠ .ofContainer kind)
    (ofInput : reader.bytes = input)
    (inBounds : reader.InBounds) :
    readContents options key parent type reader = .ok ((element, after), rest) ↔
      after = parent ∧
        ∃ taken value, IsPayload type taken value ∧ reader.Passes taken rest ∧
          element = .scalar key value := by
  obtain ⟨payload, recognizes, same⟩ := exists_payload_reader owned plain
  rw [same, readScalar, recognizes.bind_eq_ok_iff ofInput inBounds]
  constructor
  · rintro ⟨value, taken, between, member, passes, ran⟩
    cases ran
    exact ⟨rfl, taken, value, member, passes, rfl⟩
  · rintro ⟨rfl, taken, value, member, passes, rfl⟩
    exact ⟨value, taken, rest, member, passes, rfl⟩

/-- An element with a container's type opens that container. -/
theorem readContents_ofContainer
    (options : DecodeOptions)
    (key : Option String)
    (parent : Bounds)
    (inner : ContainerKind) :
    readContents options key parent (.ofContainer inner) = readNested key inner parent := by
  cases inner <;> rfl

/-- No type is announced by the byte that ends a container. -/
theorem ElementType.tag_ne_terminator (type : ElementType) : type.tag ≠ terminator := by
  cases type <;> decide

/-- Behind a tag there are a key of the container's kind and what the type says. -/
theorem readTagged_eq_ok_iff
    {kind : ContainerKind}
    {bounds after : Bounds}
    {offset : Nat}
    {type : ElementType}
    {reader rest : ByteReader}
    {element : Element}
    (ofInput : reader.bytes = input)
    (inBounds : reader.InBounds) :
    readTagged options kind bounds offset type.tag reader =
        .ok ((element, after), rest) ↔
      ∃ key name between, IsKey kind name key ∧ reader.Passes name between ∧
        readContents options key bounds type between = .ok ((element, after), rest) := by
  rw [readTagged, ElementType.ofTag?_tag]
  exact (readKey_recognizes kind (offset + 1)).bind_eq_ok_iff ofInput inBounds

/-- What is read as an element is one that the grammar allows there. -/
theorem found_of_readElement
    {kind : ContainerKind}
    {bounds after : Bounds}
    {reader rest : ByteReader}
    {element : Element}
    (owned : ∀ owner ∈ options.shared?, owner = input)
    (ofInput : reader.bytes = input)
    (inBounds : reader.InBounds)
    (ran : readElement options kind bounds reader = .ok ((element, after), rest)) :
    after = bounds ∧ Found kind bounds reader element rest := by
  rw [readElement, position_bind, ensure_bind_eq_ok_iff,
    readByte_recognizes.bind_eq_ok_iff ofInput inBounds] at ran
  obtain ⟨_, tag, _, behindTag, rfl, passesTag, ran⟩ := ran
  split at ran
  · rename_i ended
    rw [ensure_bind_eq_ok_iff] at ran
    obtain ⟨atStop, ran⟩ := ran
    cases ran
    subst ended
    refine ⟨rfl, .finished passesTag ?_⟩
    rw [passesTag.cursor_eq]
    exact eq_of_beq atStop
  · have sameInput := passesTag.bytes_eq.trans ofInput
    cases found : ElementType.ofTag? tag with
    | none =>
        rw [readTagged, found] at ran
        cases ran
    | some type =>
        rw [← ElementType.tag_of_ofTag? found] at ran passesTag
        rw [readTagged_eq_ok_iff sameInput passesTag.inBounds] at ran
        obtain ⟨key, name, behindKey, named, passesKey, ran⟩ := ran
        have keyInput := passesKey.bytes_eq.trans sameInput
        by_cases container : ∃ inner, type = .ofContainer inner
        · obtain ⟨inner, rfl⟩ := container
          rw [readContents_ofContainer,
            readNested_eq_ok_iff keyInput passesKey.inBounds] at ran
          obtain ⟨same, size, fits, passesLength, inside, rfl⟩ := ran
          exact ⟨same, .opened named fits
            ((passesTag.trans passesKey).trans passesLength) inside⟩
        · have plain (inner : ContainerKind) : type ≠ .ofContainer inner :=
            fun same => container ⟨inner, same⟩
          rw [readContents_eq_ok_iff owned plain keyInput passesKey.inBounds] at ran
          obtain ⟨same, payload, value, held, passesPayload, rfl⟩ := ran
          exact ⟨same, .scalar named held
            ((passesTag.trans passesKey).trans passesPayload)⟩

/-- Payloads are those of scalar types. -/
theorem IsPayload.plain
    {type : ElementType}
    {taken : List UInt8}
    {value : Value}
    (payload : IsPayload type taken value)
    (kind : ContainerKind) :
    type ≠ .ofContainer kind := by
  cases payload <;> cases kind <;> decide

/-- A byte that lies ahead lies before the end of the container. -/
theorem cursor_lt_stop
    {bounds : Bounds}
    {reader rest : ByteReader}
    {tag : UInt8}
    (limited : reader.limit = bounds.stop)
    (passes : reader.Passes [tag] rest) :
    reader.cursor < bounds.stop := by
  rw [← limited]
  exact passes.fits

/-- Behind an element's tag and key it is read as its type says. -/
theorem readElement_eq_readContents
    {kind : ContainerKind}
    {bounds : Bounds}
    {type : ElementType}
    {name : List UInt8}
    {key : Option String}
    {reader behindKey : ByteReader}
    (limited : reader.limit = bounds.stop)
    (named : IsKey kind name key)
    (passes : reader.Passes ([type.tag] ++ name) behindKey) :
    readElement options kind bounds reader =
      readContents options key bounds type behindKey := by
  obtain ⟨behindTag, passesTag, passesKey⟩ := passes.split passes.inBounds_start
  have before : reader.cursor < bounds.stop := cursor_lt_stop limited passesTag
  rw [readElement, position_bind, ensure_bind, if_pos (decide_eq_true before),
    readByte_recognizes.bind_of_passes rfl rfl passesTag, if_neg type.tag_ne_terminator,
    readTagged, ElementType.ofTag?_tag]
  exact (readKey_recognizes kind (reader.cursor + 1)).bind_of_passes rfl named passesKey _

/-- What the grammar allows at a place is read there. -/
theorem readElement_of_found
    {kind : ContainerKind}
    {bounds : Bounds}
    {reader rest : ByteReader}
    {element : Element}
    (owned : ∀ owner ∈ options.shared?, owner = input)
    (ofInput : reader.bytes = input)
    (limited : reader.limit = bounds.stop)
    (found : Found kind bounds reader element rest) :
    readElement options kind bounds reader = .ok ((element, bounds), rest) := by
  cases found with
  | finished passes last =>
      rw [readElement, position_bind, ensure_bind_eq_ok_iff]
      refine ⟨decide_eq_true (cursor_lt_stop limited passes), ?_⟩
      rw [readByte_recognizes.bind_eq_ok_iff ofInput passes.inBounds_start]
      refine ⟨terminator, _, rest, rfl, passes, ?_⟩
      rw [if_pos rfl, ensure_bind_eq_ok_iff]
      refine ⟨beq_iff_eq.mpr ?_, rfl⟩
      rw [← last, passes.cursor_eq]
      rfl
  | @scalar type name key payload value rest named held passes =>
      obtain ⟨behindKey, passesKey, passesPayload⟩ := passes.split passes.inBounds_start
      rw [readElement_eq_readContents limited named passesKey,
        readContents_eq_ok_iff owned held.plain (passesKey.bytes_eq.trans ofInput)
        passesKey.inBounds]
      exact ⟨rfl, payload, value, held, passesPayload, rfl⟩
  | @opened inner name key size rest named fits passes inside =>
      obtain ⟨behindKey, passesKey, passesLength⟩ := passes.split passes.inBounds_start
      rw [readElement_eq_readContents limited named passesKey, readContents_ofContainer,
        readNested_eq_ok_iff (passesKey.bytes_eq.trans ofInput) passesKey.inBounds]
      exact ⟨rfl, size, fits, passesLength, inside, rfl⟩

/-- A step of reading that succeeds has found what the grammar allows. -/
theorem found_of_next
    {kind : ContainerKind}
    {bounds after : Bounds}
    {reader rest : ByteReader}
    {element : Element}
    (owned : ∀ owner ∈ options.shared?, owner = input)
    (ofInput : reader.bytes = input)
    (below : reader.cursor ≤ bounds.stop)
    (limited : (reader.setLimit bounds.stop).limit = bounds.stop)
    (next :
      Bson.reader.next options kind bounds (reader.setLimit bounds.stop) =
        .ok ((element, after), rest)) :
    after = bounds ∧ Found kind bounds (reader.setLimit bounds.stop) element rest := by
  have inBounds : (reader.setLimit bounds.stop).InBounds := by
    rw [ByteReader.InBounds, limited]
    exact below
  have sameInput : (reader.setLimit bounds.stop).bytes = input := ofInput
  exact found_of_readElement owned sameInput inBounds next

/-- A container that is read has elements of the grammar and ends where it declared. -/
theorem exists_elements_of_reads
    {building final : Building}
    {bounds : Bounds}
    {reader rest : ByteReader}
    {outcome : Except Error (Building × ByteReader)}
    (owned : ∀ owner ∈ options.shared?, owner = input)
    (reads : Reads Bson.reader options building bounds reader outcome)
    (succeeded : outcome = .ok (final, rest))
    (ofInput : reader.bytes = input)
    (stops : bounds.stop ≤ input.size)
    (below : reader.cursor ≤ bounds.stop) :
    ∃ body contents,
      Elements building.kind body contents ∧ final = building.attachAll contents ∧
        (reader.setLimit bounds.stop).Passes (body ++ [terminator]) rest ∧
          rest.cursor = bounds.stop := by
  induction reads generalizing final rest with
  | failed next => cases succeeded
  | nestedFailed next inside => cases succeeded
  | @finished building bounds reader after rest next =>
      cases succeeded
      have limited : (reader.setLimit bounds.stop).limit = bounds.stop :=
        ByteReader.limit_setLimit (by rw [ofInput]; exact stops)
      obtain ⟨_, found⟩ :=
        found_of_next owned ofInput below limited next
      cases found with
      | finished passes last => exact ⟨[], [], .none, rfl, passes, last⟩
  | @scalar building bounds reader name value after between outcome next others
      inductionHypothesis =>
      have limited : (reader.setLimit bounds.stop).limit = bounds.stop :=
        ByteReader.limit_setLimit (by rw [ofInput]; exact stops)
      obtain ⟨rfl, found⟩ :=
        found_of_next owned ofInput below limited next
      cases found with
      | scalar named held passes =>
          have sameInput := passes.bytes_eq.trans ofInput
          have sameLimit := passes.limit_eq.trans limited
          obtain ⟨body, contents, elements, built, passesOthers, last⟩ :=
            inductionHypothesis succeeded sameInput stops (sameLimit ▸ passes.inBounds)
          rw [Building.kind_attach] at elements
          rw [ByteReader.setLimit_eq_self sameLimit] at passesOthers
          refine ⟨_, _, .scalar named held elements, built, ?_, last⟩
          rw [List.append_assoc _ body]
          exact passes.trans passesOthers
  | @nested building bounds reader name kind inner after between child resumed outcome
      next inside others insideHypothesis othersHypothesis =>
      have limited : (reader.setLimit bounds.stop).limit = bounds.stop :=
        ByteReader.limit_setLimit (by rw [ofInput]; exact stops)
      obtain ⟨rfl, found⟩ :=
        found_of_next owned ofInput below limited next
      cases found with
      | @opened inner raw name size between named fits passes within =>
          have sameInput := passes.bytes_eq.trans ofInput
          have sameLimit := passes.limit_eq.trans limited
          obtain ⟨innerBody, held, innerElements, rfl, passesInside, innerLast⟩ :=
            insideHypothesis rfl sameInput (Nat.le_trans within stops)
              (Nat.le_trans (Nat.le_add_right _ size) (Nat.le_succ _))
          have resumedInput := passesInside.bytes_eq.trans sameInput
          -- the elements inside end where the declared size does
          have innerSize : size = innerBody.length := by
            have moved := passesInside.cursor_eq
            change resumed.cursor = between.cursor + _ at moved
            change resumed.cursor = between.cursor + size + 1 at innerLast
            rw [List.length_append, List.length_singleton] at moved
            omega
          subst innerSize
          obtain ⟨body, contents, elements, built, passesOthers, last⟩ :=
            othersHypothesis succeeded resumedInput stops (innerLast ▸ within)
          rw [Building.kind_attach] at elements
          rw [Building.toValue_attachAll_empty] at built
          rw [Building.kind_empty] at innerElements
          -- the reader inside has the lower limit, but goes over the same bytes with the outer one
          have relaxed := passesInside.widen (innerLast ▸ sameLimit.symm ▸ within)
          rw [sameLimit] at relaxed
          refine ⟨_, _, .nested named innerElements fits elements, built, ?_, last⟩
          have whole := (passes.trans relaxed).trans passesOthers
          simp only [framed, List.append_assoc] at whole ⊢
          exact whole

/-- What lies between a reader and the end of a container, both of them in the input. -/
structure Filled (input : ByteArray) (bounds : Bounds) (reader : ByteReader)
    (bytes : List UInt8) : Prop where
  ofInput : reader.bytes = input
  stops : bounds.stop ≤ input.size
  below : reader.cursor ≤ bounds.stop
  ahead : (reader.setLimit bounds.stop).ahead = bytes

namespace Filled

variable {bounds : Bounds} {reader : ByteReader} {bytes front back : List UInt8}

/-- The limit that is set for a container is its end. -/
theorem limited (filled : Filled input bounds reader bytes) :
    (reader.setLimit bounds.stop).limit = bounds.stop :=
  ByteReader.limit_setLimit (by rw [filled.ofInput]; exact filled.stops)

/-- Within the limit of its container a reader is in bounds. -/
theorem inBounds (filled : Filled input bounds reader bytes) :
    (reader.setLimit bounds.stop).InBounds := by
  rw [ByteReader.InBounds, filled.limited]
  exact filled.below

/-- In a container whose bytes are there, what the grammar allows is what the next step reads. -/
theorem step
    {kind : ContainerKind}
    {element : Element}
    {rest : ByteReader}
    (filled : Filled input bounds reader bytes)
    (owned : ∀ owner ∈ options.shared?, owner = input)
    (found : Found kind bounds (reader.setLimit bounds.stop) element rest) :
    Bson.reader.next options kind bounds (reader.setLimit bounds.stop) =
      .ok ((element, bounds), rest) := by
  have sameInput : (reader.setLimit bounds.stop).bytes = input := filled.ofInput
  exact readElement_of_found owned sameInput filled.limited found

/-- The bytes from the reader on go to the end of the container. -/
theorem cursor_add_length (filled : Filled input bounds reader bytes) :
    reader.cursor + bytes.length = bounds.stop := by
  have length := (reader.setLimit bounds.stop).length_ahead
  have below := filled.below
  rw [filled.ahead, filled.limited] at length
  change bytes.length = bounds.stop - reader.cursor at length
  omega

/-- Behind the first bytes the others lie between the reader and the end. -/
theorem next (filled : Filled input bounds reader (front ++ back)) :
    ∃ between,
      (reader.setLimit bounds.stop).Passes front between ∧
        Filled input bounds between back := by
  obtain ⟨between, passes, behind⟩ :=
    ByteReader.Passes.of_ahead filled.inBounds filled.ahead
  have sameLimit := passes.limit_eq.trans filled.limited
  refine ⟨between, passes, ?_, filled.stops, ?_, ?_⟩
  · exact passes.bytes_eq.trans filled.ofInput
  · exact sameLimit ▸ passes.inBounds
  · rw [ByteReader.setLimit_eq_self sameLimit]
    exact behind

/-- Where another reader of the input is as far, the same bytes lie before the end. -/
theorem moved
    {other : ByteReader}
    (filled : Filled input bounds reader bytes)
    (sameInput : other.bytes = input)
    (sameCursor : other.cursor = reader.cursor) :
    Filled input bounds other bytes := by
  refine ⟨sameInput, filled.stops, sameCursor.symm ▸ filled.below, ?_⟩
  rw [ByteReader.setLimit_congr (sameInput.trans filled.ofInput.symm) sameCursor]
  exact filled.ahead

/-- A nested container that comes first fills its own bounds, with the others behind it. -/
theorem nested (filled : Filled input bounds reader (front ++ back)) :
    Filled input ⟨reader.cursor + front.length, 0⟩ reader front ∧
      ∀ resumed : ByteReader,
        resumed.bytes = input →
          resumed.cursor = reader.cursor + front.length →
            Filled input bounds resumed back := by
  obtain ⟨between, passes, others⟩ := filled.next
  have cursor : between.cursor = reader.cursor + front.length := passes.cursor_eq
  have stops := Nat.le_trans others.below filled.stops
  refine ⟨⟨filled.ofInput, cursor ▸ stops, Nat.le_add_right _ _, ?_⟩, ?_⟩
  · have starts := passes.ahead_setLimit
    rw [cursor] at starts
    exact starts
  · intro resumed sameInput sameCursor
    exact others.moved sameInput (sameCursor.trans cursor.symm)

/-- At the zero byte in front of its end a container is complete. -/
theorem reads_finished
    (filled : Filled input bounds reader [terminator])
    (owned : ∀ owner ∈ options.shared?, owner = input)
    (building : Building) :
    ∃ rest,
      Reads Bson.reader options building bounds reader (.ok (building, rest)) ∧
        rest.bytes = input ∧ rest.cursor = bounds.stop := by
  have total := filled.cursor_add_length
  have ahead : (reader.setLimit bounds.stop).ahead = [terminator] ++ [] := filled.ahead
  obtain ⟨rest, passes, _⟩ := ByteReader.Passes.of_ahead filled.inBounds ahead
  have last : rest.cursor = bounds.stop := passes.cursor_eq.trans total
  exact ⟨rest, .finished (filled.step owned (.finished passes last)),
    passes.bytes_eq.trans filled.ofInput, last⟩

end Filled

/-- Elements of the grammar that come first in a container are read first. -/
theorem exists_reads_behind_elements
    {kind : ContainerKind}
    {body others : List UInt8}
    {contents : Contents}
    {building : Building}
    {bounds : Bounds}
    {reader : ByteReader}
    (owned : ∀ owner ∈ options.shared?, owner = input)
    (elements : Elements kind body contents)
    (sameKind : building.kind = kind)
    (filled : Filled input bounds reader (body ++ others)) :
    ∃ between,
      Filled input bounds between others ∧
        ∀ outcome,
          Reads Bson.reader options (building.attachAll contents) bounds between outcome →
            Reads Bson.reader options building bounds reader outcome := by
  induction elements generalizing building bounds reader others with
  | none => exact ⟨reader, filled, fun _ reads => reads⟩
  | @scalar kind type name key payload value body contents named held later
      inductionHypothesis =>
      subst sameKind
      rw [List.append_assoc] at filled
      obtain ⟨between, passes, filledLater⟩ := filled.next
      have next := filled.step owned (.scalar named held passes)
      obtain ⟨last, filledOthers, behind⟩ :=
        inductionHypothesis (building.kind_attach key value) filledLater
      exact ⟨last, filledOthers, fun outcome reads => .scalar next (behind outcome reads)⟩
  | @nested kind inner name key inside held body contents named within fits later
      insideHypothesis laterHypothesis =>
      subst sameKind
      have parted :
          [(ElementType.ofContainer inner).tag] ++ name ++ framed inside ++ body ++ others =
            [(ElementType.ofContainer inner).tag] ++ name ++
                FieldType.int32.bytes (inside.length + minimumSize) ++
              ((inside ++ [terminator]) ++ (body ++ others)) := by
        simp only [framed, List.append_assoc]
      rw [parted] at filled
      obtain ⟨between, passes, filledNested⟩ := filled.next
      obtain ⟨filledInside, filledLater⟩ := filledNested.nested
      rw [List.length_append, List.length_singleton, ← Nat.add_assoc]
        at filledInside filledLater
      have fitting : between.cursor + inside.length + 1 ≤ bounds.stop := by
        have total := filledNested.cursor_add_length
        rw [List.length_append, List.length_append, List.length_singleton] at total
        omega
      have next := filled.step owned (.opened named fits passes fitting)
      -- the inside is read up to its zero, and the rest from behind that
      obtain ⟨atEnd, filledEnd, readsInside⟩ :=
        insideHypothesis (Building.kind_empty inner) filledInside
      obtain ⟨resumed, finished, resumedInput, resumedAt⟩ :=
        filledEnd.reads_finished owned ((Building.empty inner).attachAll held)
      obtain ⟨last, filledOthers, behind⟩ :=
        laterHypothesis (building.kind_attach key (inner.gather held))
          (filledLater resumed resumedInput resumedAt)
      refine ⟨last, filledOthers, fun outcome reads => ?_⟩
      refine .nested next (readsInside _ finished) ?_
      rw [Building.toValue_attachAll_empty]
      exact behind outcome reads

/-- Elements of the grammar that fill a container up to its end are read as such. -/
theorem exists_reads_of_elements
    {kind : ContainerKind}
    {body : List UInt8}
    {contents : Contents}
    {building : Building}
    {bounds : Bounds}
    {reader : ByteReader}
    (owned : ∀ owner ∈ options.shared?, owner = input)
    (elements : Elements kind body contents)
    (sameKind : building.kind = kind)
    (filled : Filled input bounds reader (body ++ [terminator])) :
    ∃ rest,
      Reads Bson.reader options building bounds reader
          (.ok (building.attachAll contents, rest)) ∧
        rest.bytes = input ∧ rest.cursor = bounds.stop := by
  obtain ⟨between, filledEnd, behind⟩ :=
    exists_reads_behind_elements owned elements sameKind filled
  obtain ⟨rest, finished, restInput, last⟩ :=
    filledEnd.reads_finished owned (building.attachAll contents)
  exact ⟨rest, behind _ finished, restInput, last⟩

/-- Input without room for a length is truncated, and the error tells by how much. -/
theorem readRoot_of_short
    {bytes : ByteArray}
    (short : bytes.size < 4)
    (options : DecodeOptions) :
    readRoot options (.ofBytes bytes) = .error (.truncated 4 bytes.size) := by
  have failed :
      readField .int32 (.ofBytes bytes) = .error (.truncated 4 bytes.size) := by
    refine run_bind_of_error (dif_neg ?_)
    change ¬ 0 + 4 ≤ bytes.size
    omega
  rw [readRoot, position_bind, remaining_bind, run_bind_of_error failed]

/-- The root's declared length is held against its least value, the limit and the input. -/
theorem readRoot_of_declared
    {bytes : ByteArray}
    {length : Int}
    {rest : ByteReader}
    (holds : FieldType.int32.Holds length)
    (passes : (ByteReader.ofBytes bytes).Passes (FieldType.int32.bytes length) rest)
    (options : DecodeOptions) :
    readRoot options (.ofBytes bytes) =
      if (minimumSize : Int) ≤ length then
        if length.toNat ≤ options.maximumSize then
          if length.toNat ≤ bytes.size then
            .ok (⟨length.toNat, 0⟩, rest)
          else
            .error (.truncated length.toNat bytes.size)
        else
          .error (.capacity length.toNat options.maximumSize)
      else
        .error (.corruption (.documentTooShort length minimumSize)) := by
  have read : readField .int32 (.ofBytes bytes) = .ok (length, rest) :=
    (readField_recognizes .int32 rfl passes.inBounds_start _ _).mpr
      ⟨_, ⟨holds, rfl⟩, passes⟩
  rw [readRoot, position_bind, remaining_bind, run_bind_of_ok read]
  simp only [ensure_bind, decide_eq_true_eq]
  have start : (ByteReader.ofBytes bytes).cursor + length.toNat = length.toNat :=
    Nat.zero_add _
  rw [start]
  rfl

/--
A document is opened exactly if its length is there, in both limits and not
beyond the input.
-/
theorem readRoot_eq_ok_iff
    (options : DecodeOptions)
    (bytes : ByteArray)
    (bounds : Bounds)
    (rest : ByteReader) :
    readRoot options (.ofBytes bytes) = .ok (bounds, rest) ↔
      ∃ size, size + minimumSize ≤ Framing.maximumLength ∧
        size + minimumSize ≤ options.maximumSize ∧ size + minimumSize ≤ bytes.size ∧
          (ByteReader.ofBytes bytes).Passes
            (FieldType.int32.bytes (size + minimumSize)) rest ∧
              bounds = ⟨size + minimumSize, 0⟩ := by
  have inBounds : (ByteReader.ofBytes bytes).InBounds := Nat.zero_le _
  rw [readRoot, position_bind, remaining_bind,
    (readField_recognizes .int32).bind_eq_ok_iff rfl inBounds]
  constructor
  · rintro ⟨length, taken, between, ⟨holds, rfl⟩, passes, ran⟩
    simp only [ensure_bind_eq_ok_iff] at ran
    obtain ⟨least, within, present, ran⟩ := ran
    cases ran
    have atLeast : (5 : Int) ≤ length := of_decide_eq_true least
    have small : length.toNat ≤ options.maximumSize := of_decide_eq_true within
    have available : length.toNat ≤ bytes.size - 0 := of_decide_eq_true present
    have whole : length = ((length.toNat - 5 + minimumSize : Nat) : Int) := by
      change length = ((length.toNat - 5 + 5 : Nat) : Int)
      omega
    have same : length.toNat = length.toNat - 5 + minimumSize := by
      change length.toNat = length.toNat - 5 + 5
      omega
    rw [whole] at holds passes
    have stop : (ByteReader.ofBytes bytes).cursor + length.toNat =
        length.toNat - 5 + minimumSize := (Nat.zero_add _).trans same
    rw [stop]
    refine ⟨_, (FieldType.int32_holds_iff _).mp holds, ?_, ?_, passes, rfl⟩ <;> omega
  · rintro ⟨size, fits, within, present, passes, rfl⟩
    have holds := (FieldType.int32_holds_iff _).mpr fits
    refine ⟨_, _, rest, ⟨holds, rfl⟩, passes, ?_⟩
    have same : ((size + minimumSize : Nat) : Int).toNat = size + minimumSize :=
      Int.toNat_natCast _
    simp only [ensure_bind_eq_ok_iff, same]
    refine ⟨decide_eq_true ?_, decide_eq_true within, decide_eq_true present, ?_⟩
    · change (5 : Int) ≤ ((size + 5 : Nat) : Int)
      omega
    · change Except.ok ((⟨0 + (size + minimumSize), 0⟩ : Bounds), rest) = _
      rw [Nat.zero_add]

/--
What is read as a document is the documents of the grammar that the input
begins with and that are within the size limit.
-/
theorem read_eq_ok_iff
    (owned : ∀ owner ∈ options.shared?, owner = input)
    (target document : Document)
    (consumed : Nat) :
    (Bson.reader.read options input target []).result = .ok (consumed, document) ↔
      consumed ≤ input.size ∧ consumed ≤ options.maximumSize ∧
        IsDocument (input.data.toList.take consumed) document := by
  rw [ElementReader.read_eq_ok_iff]
  constructor
  · rintro ⟨bounds, reader, final, rest, root, reads, rfl, rfl⟩
    obtain ⟨size, fits, within, present, passes, rfl⟩ :=
      (readRoot_eq_ok_iff options input bounds reader).mp root
    have moved : reader.cursor = 4 := by
      rw [passes.cursor_eq, FieldType.length_bytes]
      rfl
    have below : reader.cursor ≤ size + minimumSize := by
      rw [moved]
      exact Nat.le_trans (by decide) (Nat.le_add_left minimumSize size)
    obtain ⟨body, contents, elements, rfl, passesBody, last⟩ :=
      exists_elements_of_reads owned reads rfl passes.bytes_eq present below
    -- what was declared is what was read, as both end at one place
    have sized : size = body.length := by
      have movedOn := passesBody.cursor_eq
      change rest.cursor = reader.cursor + _ at movedOn
      change rest.cursor = size + 5 at last
      rw [List.length_append, List.length_singleton] at movedOn
      omega
    subst sized
    have whole := passes.trans (passesBody.widen (last ▸ passes.limit_eq.symm ▸ present))
    rw [← List.append_assoc] at whole
    refine ⟨last ▸ present, last ▸ within, body, contents, elements, fits,
      whole.take_ofBytes.2, ?_⟩
    exact congrArg Document.mk (Building.entries_toDocument_attachAll contents)
  · rintro ⟨present, within, body, contents, elements, fits, shape, rfl⟩
    obtain ⟨last, passes, atEnd⟩ := ByteReader.Passes.exists_of_take present shape
    have sized : consumed = body.length + minimumSize := by
      rw [← atEnd, ← length_framed]
      exact passes.cursor_eq.trans (Nat.zero_add _)
    subst sized
    rw [framed, List.append_assoc] at passes
    obtain ⟨reader, passesLength, passesBody⟩ := passes.split (Nat.zero_le _)
    have filled :
        Filled input ⟨body.length + minimumSize, 0⟩ reader (body ++ [terminator]) := by
      refine ⟨passesLength.bytes_eq, present, ?_, ?_⟩
      · rw [← atEnd, passesBody.cursor_eq]
        exact Nat.le_add_right _ _
      · have exactly := passesBody.ahead_setLimit
        rw [atEnd] at exactly
        exact exactly
    obtain ⟨rest, reads, _, stopped⟩ :=
      exists_reads_of_elements owned elements (Building.kind_empty .map) filled
    refine ⟨_, reader, _, rest,
      (readRoot_eq_ok_iff options input _ reader).mpr
        ⟨body.length, fits, within, present, passesLength, rfl⟩,
      reads, stopped.symm, ?_⟩
    exact congrArg Document.mk (Building.entries_toDocument_attachAll contents).symm

end DocumentCodec.Bson
