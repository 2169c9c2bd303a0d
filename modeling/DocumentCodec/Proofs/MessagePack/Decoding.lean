import DocumentCodec.Proofs.MessagePack.Scalars
import DocumentCodec.Proofs.Traversal.Derivation

namespace DocumentCodec.MessagePack

/-!
# The decoder and the grammar

The decoder of MessagePack accepts the documents of the grammar and no other
bytes.  Every element of the grammar takes a byte, and an entry of a map two,
so that the check of declared counts never refuses what the grammar allows.
-/

open Decode ElementReader

variable {input : ByteArray} {options : DecodeOptions}

/-- Elements that the remaining bytes have room for are let through. -/
theorem checkCount_of_le
    {kind : ContainerKind}
    {count : Nat}
    {reader : ByteReader}
    (room : minimumBytes kind count ≤ reader.remaining)
    (offset : Nat) :
    checkCount kind count offset reader = .ok ((), reader) := by
  rw [checkCount, remaining_bind, Decode.ensure, if_pos (decide_eq_true room)]
  rfl

/-- A count that the remaining bytes have no room for is refused, and the error tells both. -/
theorem checkCount_of_not_le
    {kind : ContainerKind}
    {count : Nat}
    {reader : ByteReader}
    (crowded : ¬ minimumBytes kind count ≤ reader.remaining)
    (offset : Nat) :
    checkCount kind count offset reader =
      .error (.corruption (.countTooLarge count offset reader.remaining)) := by
  rw [checkCount, remaining_bind, Decode.ensure, decide_eq_false crowded,
    if_neg Bool.false_ne_true]
  rfl

/-- A container is opened exactly if there is room for its elements. -/
theorem openContainer_eq_ok_iff
    {key : Option String}
    {parent after : Bounds}
    {offset count : Nat}
    {kind : ContainerKind}
    {reader rest : ByteReader}
    {element : Element} :
    openContainer key parent offset kind count reader = .ok ((element, after), rest) ↔
      after = parent ∧ minimumBytes kind count ≤ reader.remaining ∧ rest = reader ∧
        element = .opened key kind ⟨parent.stop, count⟩ := by
  by_cases room : minimumBytes kind count ≤ reader.remaining
  · rw [openContainer, run_bind_of_ok (checkCount_of_le room offset)]
    constructor
    · intro ran
      cases ran
      exact ⟨rfl, room, rfl, rfl⟩
    · rintro ⟨rfl, _, rfl, rfl⟩
      rfl
  · rw [openContainer, run_bind_of_error (checkCount_of_not_le room offset)]
    constructor
    · intro ran
      cases ran
    · rintro ⟨_, enough, _, _⟩
      exact absurd enough room

/-- A scalar is read exactly where a word of its payload's language stands. -/
theorem readScalar_eq_ok_iff
    {key : Option String}
    {parent after : Bounds}
    {payload : Decode Value}
    {language : Language Value}
    {reader rest : ByteReader}
    {element : Element}
    (recognizes : Recognizes input payload language)
    (ofInput : reader.bytes = input)
    (inBounds : reader.InBounds) :
    readScalar key parent payload reader = .ok ((element, after), rest) ↔
      after = parent ∧
        ∃ taken value, language taken value ∧ reader.Passes taken rest ∧
          element = .scalar key value := by
  rw [readScalar, recognizes.bind_eq_ok_iff ofInput inBounds]
  constructor
  · rintro ⟨value, taken, between, member, passes, ran⟩
    cases ran
    exact ⟨rfl, taken, value, member, passes, rfl⟩
  · rintro ⟨rfl, taken, value, member, passes, rfl⟩
    exact ⟨value, taken, rest, member, passes, rfl⟩

/-- What stands behind a lead byte, with the reader behind that. -/
inductive Behind (key : Option String) (stop : Nat) (lead : UInt8)
    (reader : ByteReader) : Element → ByteReader → Prop
  | scalar {taken value rest}
      (held : IsScalar ([lead] ++ taken) value)
      (passes : reader.Passes taken rest) :
      Behind key stop lead reader (.scalar key value) rest
  | opened {inner taken count rest}
      (declared : IsHeader inner ([lead] ++ taken) count)
      (passes : reader.Passes taken rest)
      (room : minimumBytes inner count ≤ rest.remaining) :
      Behind key stop lead reader (.opened key inner ⟨stop, count⟩) rest

/-- What is read behind a key is an element that the grammar allows there. -/
theorem behind_of_readContents
    {key : Option String}
    {parent after : Bounds}
    {offset : Nat}
    {lead : UInt8}
    {reader rest : ByteReader}
    {element : Element}
    (owned : ∀ owner ∈ options.shared?, owner = input)
    (ofInput : reader.bytes = input)
    (inBounds : reader.InBounds)
    (ran :
      readContents options key parent offset lead reader = .ok ((element, after), rest)) :
    after = parent ∧ Behind key parent.stop lead reader element rest := by
  have begins := Lead.begins_ofByte lead
  unfold readContents at ran
  cases announced : Lead.ofByte lead with
  | reserved =>
      rw [announced] at ran
      cases ran
  | integer value =>
      rw [announced] at ran begins
      obtain ⟨lower, upper, spelled⟩ := begins
      cases ran
      refine ⟨rfl, .scalar ?_ (.refl inBounds)⟩
      rw [List.append_nil, spelled]
      exact .small value lower upper
  | map count =>
      rw [announced] at ran begins
      obtain ⟨small, rfl⟩ := begins
      obtain ⟨same, room, rfl, rfl⟩ := openContainer_eq_ok_iff.mp ran
      exact ⟨same, .opened (.short small) (.refl inBounds) room⟩
  | array count =>
      rw [announced] at ran begins
      obtain ⟨small, rfl⟩ := begins
      obtain ⟨same, room, rfl, rfl⟩ := openContainer_eq_ok_iff.mp ran
      exact ⟨same, .opened (.short small) (.refl inBounds) room⟩
  | string length =>
      rw [announced] at ran begins
      obtain ⟨short, rfl⟩ := begins
      have recognizes := (@readString_recognizes input length).map Value.string
      obtain ⟨same, _, _, ⟨text, ⟨rfl, rfl⟩, rfl⟩, passes, rfl⟩ :=
        (readScalar_eq_ok_iff recognizes ofInput inBounds).mp ran
      exact ⟨same, .scalar (.shortString text short) passes⟩
  | marker marker =>
      rw [announced] at ran begins
      cases begins
      by_cases container : ∃ kind type, marker.layout = .container kind type
      · obtain ⟨kind, type, declares⟩ := container
        obtain ⟨unsigned, shape⟩ := @readMarked_container options _ _ _ declares key parent offset
        change readMarked options key parent offset marker reader = _ at ran
        rw [shape, (readLength_recognizes unsigned).bind_eq_ok_iff ofInput inBounds] at ran
        obtain ⟨count, _, between, ⟨holds, rfl⟩, passes, ran⟩ := ran
        obtain ⟨same, room, rfl, rfl⟩ := openContainer_eq_ok_iff.mp ran
        exact ⟨same, .opened (.marked declares holds) passes room⟩
      · have plain (kind : ContainerKind) (type : FieldType) :
            marker.layout ≠ .container kind type :=
          fun declares => container ⟨kind, type, declares⟩
        obtain ⟨payload, recognizes, shape⟩ := exists_payload_reader owned offset plain
        change readMarked options key parent offset marker reader = _ at ran
        rw [shape, readScalar_eq_ok_iff recognizes ofInput inBounds] at ran
        obtain ⟨same, taken, value, held, passes, rfl⟩ := ran
        exact ⟨same, .scalar (.marked held) passes⟩

/-- A scalar of the grammar is read from behind its lead byte. -/
theorem exists_lead_of_isScalar
    {word : List UInt8}
    {value : Value}
    (owned : ∀ owner ∈ options.shared?, owner = input)
    (scalar : IsScalar word value)
    (key : Option String)
    (parent : Bounds) :
    ∃ lead taken, word = [lead] ++ taken ∧
      ∀ offset reader rest, reader.bytes = input → reader.Passes taken rest →
        readContents options key parent offset lead reader =
          .ok ((.scalar key value, parent), rest) := by
  cases scalar with
  | small value lower upper =>
      obtain ⟨lead, spelled, announced⟩ := Lead.exists_ofByte_integer lower upper
      refine ⟨lead, [], spelled, fun offset reader rest ofInput passes => ?_⟩
      obtain ⟨rfl, _⟩ := passes.unique (.refl passes.inBounds_start) rfl
      rw [readContents, announced]
      rfl
  | shortString text short =>
      refine ⟨_, _, rfl, fun offset reader rest ofInput passes => ?_⟩
      have recognizes :=
        (@readString_recognizes input text.utf8ByteSize).map Value.string
      rw [readContents, Lead.ofByte_fixString short]
      exact (readScalar_eq_ok_iff recognizes ofInput passes.inBounds_start).mpr
        ⟨rfl, _, _, ⟨text, ⟨rfl, rfl⟩, rfl⟩, passes, rfl⟩
  | @marked marker taken value payload =>
      refine ⟨_, _, rfl, fun offset reader rest ofInput passes => ?_⟩
      have plain (kind : ContainerKind) (type : FieldType) :
          marker.layout ≠ .container kind type := by
        intro declares
        rw [declares] at payload
        cases payload
      obtain ⟨action, recognizes, shape⟩ := exists_payload_reader owned offset plain
      rw [readContents, Lead.ofByte_marker]
      change readMarked options key parent offset marker reader = _
      rw [shape, readScalar_eq_ok_iff recognizes ofInput passes.inBounds_start]
      exact ⟨rfl, taken, value, payload, passes, rfl⟩

/-- A container's header is read from behind its lead byte when there is room. -/
theorem exists_lead_of_isHeader
    {word : List UInt8}
    {kind : ContainerKind}
    {count : Nat}
    (header : IsHeader kind word count)
    (key : Option String)
    (parent : Bounds) :
    ∃ lead taken, word = [lead] ++ taken ∧
      ∀ offset reader rest, reader.bytes = input → reader.Passes taken rest →
        minimumBytes kind count ≤ rest.remaining →
          readContents options key parent offset lead reader =
            .ok ((.opened key kind ⟨parent.stop, count⟩, parent), rest) := by
  cases header with
  | short small =>
      refine ⟨_, [], rfl, fun offset reader rest ofInput passes room => ?_⟩
      obtain ⟨rfl, _⟩ := passes.unique (.refl passes.inBounds_start) rfl
      cases kind with
      | map =>
          rw [readContents, fixContainer, Lead.ofByte_fixMap small]
          exact openContainer_eq_ok_iff.mpr ⟨rfl, room, rfl, rfl⟩
      | array =>
          rw [readContents, fixContainer, Lead.ofByte_fixArray small]
          exact openContainer_eq_ok_iff.mpr ⟨rfl, room, rfl, rfl⟩
  | @marked marker type count declares holds =>
      refine ⟨_, _, rfl, fun offset reader rest ofInput passes room => ?_⟩
      obtain ⟨unsigned, shape⟩ := @readMarked_container options _ _ _ declares key parent offset
      rw [readContents, Lead.ofByte_marker]
      change readMarked options key parent offset marker reader = _
      rw [shape,
        (readLength_recognizes unsigned).bind_eq_ok_iff ofInput passes.inBounds_start]
      refine ⟨count, _, rest, ⟨holds, rfl⟩, passes, ?_⟩
      exact openContainer_eq_ok_iff.mpr ⟨rfl, room, rfl, rfl⟩

/-- A text behind a marker is its length and its bytes. -/
theorem exists_length_of_isPayload
    {marker : Marker}
    {taken : List UInt8}
    {text : String}
    (payload : IsPayload marker.layout taken (.string text)) :
    ∃ type, marker.layout = .string type ∧ type.Holds text.utf8ByteSize ∧
      taken = type.bytes text.utf8ByteSize ++ Utf8.encode text := by
  generalize layout : marker.layout = form at payload
  cases payload with
  | constant => cases marker <;> cases layout
  | @string type text holds => exact ⟨type, rfl, holds, rfl⟩

/-- A marker of texts has a key's length read behind it. -/
theorem readKeyLength_string
    {marker : Marker}
    {type : FieldType}
    (spells : marker.layout = .string type)
    (offset : Nat) :
    type.isSigned = false ∧ readKeyLength offset marker.byte = readLength type := by
  rw [readKeyLength, Lead.ofByte_marker]
  cases marker <;> cases spells <;> exact ⟨rfl, rfl⟩

/-- A marker of anything but texts is refused as a key. -/
theorem readKeyLength_other
    {marker : Marker}
    (other : ∀ type, marker.layout ≠ .string type)
    (offset : Nat) :
    readKeyLength offset marker.byte =
      malformed (.keyNotString offset marker.byte) := by
  rw [readKeyLength, Lead.ofByte_marker]
  cases marker with
  | str8 => exact absurd rfl (other _)
  | str16 => exact absurd rfl (other _)
  | str32 => exact absurd rfl (other _)
  | _ => rfl

/-- A key is a text of the grammar. -/
theorem readKey_recognizes :
    Recognizes input readKey fun taken text => IsScalar taken (.string text) := by
  intro reader ofInput inBounds text rest
  rw [readKey, position_bind, readByte_recognizes.bind_eq_ok_iff ofInput inBounds]
  constructor
  · rintro ⟨lead, _, behindLead, rfl, passesLead, ran⟩
    have sameInput := passesLead.bytes_eq.trans ofInput
    have begins := Lead.begins_ofByte lead
    cases announced : Lead.ofByte lead with
    | string length =>
        rw [readKeyLength, announced] at ran
        rw [announced] at begins
        obtain ⟨short, rfl⟩ := begins
        have read : readString length behindLead = .ok (text, rest) := ran
        rw [readString_recognizes length sameInput passesLead.inBounds] at read
        obtain ⟨_, ⟨rfl, rfl⟩, passesText⟩ := read
        exact ⟨_, .shortString text short, passesLead.trans passesText⟩
    | marker marker =>
        rw [announced] at begins
        cases begins
        by_cases string : ∃ type, marker.layout = .string type
        · obtain ⟨type, spells⟩ := string
          obtain ⟨unsigned, shape⟩ := readKeyLength_string spells reader.cursor
          rw [shape, (readLength_recognizes unsigned).bind_eq_ok_iff sameInput
            passesLead.inBounds] at ran
          obtain ⟨length, _, behindLength, ⟨holds, rfl⟩, passesLength, ran⟩ := ran
          rw [readString_recognizes length (passesLength.bytes_eq.trans sameInput)
            passesLength.inBounds] at ran
          obtain ⟨_, ⟨rfl, rfl⟩, passesText⟩ := ran
          refine ⟨_, .marked ?_, passesLead.trans (passesLength.trans passesText)⟩
          rw [spells]
          exact .string text holds
        · have other (type : FieldType) : marker.layout ≠ .string type :=
            fun spells => string ⟨type, spells⟩
          rw [readKeyLength_other other] at ran
          cases ran
    | integer value =>
        rw [readKeyLength, announced] at ran
        cases ran
    | map count =>
        rw [readKeyLength, announced] at ran
        cases ran
    | array count =>
        rw [readKeyLength, announced] at ran
        cases ran
    | reserved =>
        rw [readKeyLength, announced] at ran
        cases ran
  · rintro ⟨taken, scalar, passes⟩
    cases scalar with
    | shortString text short =>
        obtain ⟨behindLead, passesLead, passesText⟩ := passes.split inBounds
        have sameInput := passesLead.bytes_eq.trans ofInput
        refine ⟨_, _, behindLead, rfl, passesLead, ?_⟩
        rw [readKeyLength, Lead.ofByte_fixString short]
        change readString text.utf8ByteSize behindLead = _
        rw [readString_recognizes _ sameInput passesLead.inBounds]
        exact ⟨_, ⟨rfl, rfl⟩, passesText⟩
    | @marked marker taken _ payload =>
        obtain ⟨type, spells, holds, rfl⟩ := exists_length_of_isPayload payload
        obtain ⟨behindLead, passesLead, passesOthers⟩ := passes.split inBounds
        obtain ⟨behindLength, passesLength, passesText⟩ :=
          passesOthers.split passesLead.inBounds
        have sameInput := passesLead.bytes_eq.trans ofInput
        obtain ⟨unsigned, shape⟩ := readKeyLength_string spells reader.cursor
        refine ⟨_, _, behindLead, rfl, passesLead, ?_⟩
        rw [shape, (readLength_recognizes unsigned).bind_eq_ok_iff sameInput
          passesLead.inBounds]
        refine ⟨_, _, behindLength, ⟨holds, rfl⟩, passesLength, ?_⟩
        rw [readString_recognizes _ (passesLength.bytes_eq.trans sameInput)
          passesLength.inBounds]
        exact ⟨_, ⟨rfl, rfl⟩, passesText⟩

/-- A map's elements have keys of the grammar, and an array's have none. -/
theorem readEntryKey_recognizes (kind : ContainerKind) :
    Recognizes input (readEntryKey kind) (IsKey kind) := by
  cases kind with
  | map => exact readKey_recognizes.map some
  | array => exact .pure none

/-- What a declared element is, with the reader behind it. -/
inductive Found (kind : ContainerKind) (stop : Nat) (reader : ByteReader) :
    Element → ByteReader → Prop
  | scalar {name key taken value rest}
      (named : IsKey kind name key)
      (held : IsScalar taken value)
      (passes : reader.Passes (name ++ taken) rest) :
      Found kind stop reader (.scalar key value) rest
  | opened {inner name key header count rest}
      (named : IsKey kind name key)
      (declared : IsHeader inner header count)
      (passes : reader.Passes (name ++ header) rest)
      (room : minimumBytes inner count ≤ rest.remaining) :
      Found kind stop reader (.opened key inner ⟨stop, count⟩) rest

/-- What is read as a declared element is one that the grammar allows there. -/
theorem found_of_readDeclared
    {kind : ContainerKind}
    {bounds after : Bounds}
    {reader rest : ByteReader}
    {element : Element}
    (owned : ∀ owner ∈ options.shared?, owner = input)
    (ofInput : reader.bytes = input)
    (inBounds : reader.InBounds)
    (ran : readDeclared options kind bounds reader = .ok ((element, after), rest)) :
    after = bounds ∧ Found kind bounds.stop reader element rest := by
  rw [readDeclared, (readEntryKey_recognizes kind).bind_eq_ok_iff ofInput inBounds] at ran
  obtain ⟨key, name, behindKey, named, passesKey, ran⟩ := ran
  have keyInput := passesKey.bytes_eq.trans ofInput
  rw [position_bind,
    readByte_recognizes.bind_eq_ok_iff keyInput passesKey.inBounds] at ran
  obtain ⟨lead, _, behindLead, rfl, passesLead, ran⟩ := ran
  have leadInput := passesLead.bytes_eq.trans keyInput
  obtain ⟨same, behind⟩ :=
    behind_of_readContents owned leadInput passesLead.inBounds ran
  cases behind with
  | scalar held passes =>
      exact ⟨same, .scalar named held (passesKey.trans (passesLead.trans passes))⟩
  | opened declared passes room =>
      exact ⟨same, .opened named declared
        (passesKey.trans (passesLead.trans passes)) room⟩

/-- A declared element is read when what stands behind its lead byte is. -/
theorem readDeclared_of_readContents
    {kind : ContainerKind}
    {bounds : Bounds}
    {name taken : List UInt8}
    {key : Option String}
    {lead : UInt8}
    {reader rest : ByteReader}
    {result : Element × Bounds}
    (ofInput : reader.bytes = input)
    (named : IsKey kind name key)
    (passes : reader.Passes (name ++ ([lead] ++ taken)) rest)
    (reads : ∀ offset behindLead,
      behindLead.bytes = input → behindLead.Passes taken rest →
        readContents options key bounds offset lead behindLead = .ok (result, rest)) :
    readDeclared options kind bounds reader = .ok (result, rest) := by
  have inBounds := passes.inBounds_start
  obtain ⟨behindKey, passesKey, passesContents⟩ := passes.split inBounds
  obtain ⟨behindLead, passesLead, passesOthers⟩ :=
    passesContents.split passesKey.inBounds
  have keyInput := passesKey.bytes_eq.trans ofInput
  rw [readDeclared, (readEntryKey_recognizes kind).bind_eq_ok_iff ofInput inBounds]
  refine ⟨key, name, behindKey, named, passesKey, ?_⟩
  rw [position_bind, readByte_recognizes.bind_eq_ok_iff keyInput passesKey.inBounds]
  exact ⟨lead, _, behindLead, rfl, passesLead,
    reads _ behindLead (passesLead.bytes_eq.trans keyInput) passesOthers⟩

/-- An element that the grammar allows is read as a declared one. -/
theorem readDeclared_of_found
    {kind : ContainerKind}
    {bounds : Bounds}
    {reader rest : ByteReader}
    {element : Element}
    (owned : ∀ owner ∈ options.shared?, owner = input)
    (ofInput : reader.bytes = input)
    (found : Found kind bounds.stop reader element rest) :
    readDeclared options kind bounds reader = .ok ((element, bounds), rest) := by
  cases found with
  | scalar named held passes =>
      obtain ⟨lead, taken, rfl, reads⟩ := exists_lead_of_isScalar owned held _ bounds
      refine readDeclared_of_readContents ofInput named passes ?_
      intro offset behindLead sameInput passesOthers
      exact reads offset behindLead rest sameInput passesOthers
  | opened named declared passes room =>
      obtain ⟨lead, taken, rfl, reads⟩ := exists_lead_of_isHeader declared _ bounds
      refine readDeclared_of_readContents ofInput named passes ?_
      intro offset behindLead sameInput passesOthers
      exact reads offset behindLead rest sameInput passesOthers room

/-- A container is finished when no element of it is left to read. -/
theorem readElement_finished
    (options : DecodeOptions)
    (kind : ContainerKind)
    (stop : Nat)
    (reader : ByteReader) :
    readElement options kind ⟨stop, 0⟩ reader = .ok ((.finished, ⟨stop, 0⟩), reader) := by
  rw [readElement, if_pos rfl]
  rfl

/-- While elements are left, the next one is read and counted. -/
theorem readElement_declared
    (kind : ContainerKind)
    (stop count : Nat)
    (reader : ByteReader) :
    readElement options kind ⟨stop, count + 1⟩ reader =
      readDeclared options kind ⟨stop, count⟩ reader := by
  rw [readElement, if_neg (Nat.succ_ne_zero count), Nat.add_sub_cancel]

/-- What is left of a container when an element has been found in it. -/
theorem found_of_next
    {kind : ContainerKind}
    {bounds after : Bounds}
    {reader rest : ByteReader}
    {element : Element}
    (owned : ∀ owner ∈ options.shared?, owner = input)
    (ofInput : reader.bytes = input)
    (limited : reader.limit = bounds.stop)
    (inBounds : reader.InBounds)
    (next :
      MessagePack.reader.next options kind bounds (reader.setLimit bounds.stop) =
        .ok ((element, after), rest)) :
    (bounds.remaining = 0 ∧ element = .finished ∧ rest = reader) ∨
      bounds = ⟨after.stop, after.remaining + 1⟩ ∧
        Found kind after.stop reader element rest := by
  rw [ByteReader.setLimit_eq_self limited] at next
  change readElement options kind bounds reader = _ at next
  rcases bounds with ⟨stop, remaining⟩
  cases remaining with
  | zero =>
      rw [readElement_finished] at next
      cases next
      exact .inl ⟨rfl, rfl, rfl⟩
  | succ count =>
      rw [readElement_declared] at next
      obtain ⟨rfl, found⟩ := found_of_readDeclared owned ofInput inBounds next
      exact .inr ⟨rfl, found⟩

/-- A container that is read has as many elements of the grammar as it declared. -/
theorem exists_elements_of_reads
    {building final : Building}
    {bounds : Bounds}
    {reader rest : ByteReader}
    {outcome : Except Error (Building × ByteReader)}
    (owned : ∀ owner ∈ options.shared?, owner = input)
    (reads : Reads MessagePack.reader options building bounds reader outcome)
    (succeeded : outcome = .ok (final, rest))
    (ofInput : reader.bytes = input)
    (limited : reader.limit = bounds.stop)
    (inBounds : reader.InBounds) :
    ∃ body contents,
      Elements building.kind body contents ∧ contents.length = bounds.remaining ∧
        final = building.attachAll contents ∧ reader.Passes body rest := by
  induction reads generalizing final rest with
  | failed next => cases succeeded
  | nestedFailed next inside => cases succeeded
  | finished next =>
      cases succeeded
      rcases found_of_next owned ofInput limited inBounds next with
        ⟨complete, _, rfl⟩ | ⟨_, found⟩
      · exact ⟨[], [], .none, complete.symm, rfl, .refl inBounds⟩
      · cases found
  | @scalar building bounds reader name value after between outcome next others
      inductionHypothesis =>
      rcases found_of_next owned ofInput limited inBounds next with
        ⟨_, never, _⟩ | ⟨rfl, found⟩
      · cases never
      · cases found with
        | scalar named held passes =>
            obtain ⟨body, contents, elements, counted, built, passesOthers⟩ :=
              inductionHypothesis succeeded (passes.bytes_eq.trans ofInput)
                (passes.limit_eq.trans limited) passes.inBounds
            rw [Building.kind_attach] at elements
            exact ⟨_, _, .scalar named held elements, congrArg Nat.succ counted, built,
              passes.trans passesOthers⟩
  | @nested building bounds reader name kind inner after between child resumed outcome
      next inside others insideHypothesis othersHypothesis =>
      rcases found_of_next owned ofInput limited inBounds next with
        ⟨_, never, _⟩ | ⟨rfl, found⟩
      · cases never
      · cases found with
        | opened named declared passes room =>
            have sameLimit := passes.limit_eq.trans limited
            obtain ⟨innerBody, held, innerElements, innerCounted, rfl, passesInside⟩ :=
              insideHypothesis rfl (passes.bytes_eq.trans ofInput) sameLimit
                passes.inBounds
            have throughInside := passes.trans passesInside
            obtain ⟨body, contents, elements, counted, built, passesOthers⟩ :=
              othersHypothesis succeeded (throughInside.bytes_eq.trans ofInput)
                (throughInside.limit_eq.trans limited) throughInside.inBounds
            rw [Building.kind_attach] at elements
            rw [Building.toValue_attachAll_empty] at built
            rw [Building.kind_empty] at innerElements
            change held.length = _ at innerCounted
            subst innerCounted
            exact ⟨_, _, .nested named declared innerElements elements,
              congrArg Nat.succ counted, built, throughInside.trans passesOthers⟩

/-- A map's key takes a byte at least. -/
theorem IsKey.length_pos
    {taken : List UInt8}
    {key : Option String}
    (named : IsKey .map taken key) :
    1 ≤ taken.length := by
  obtain ⟨text, scalar, _⟩ := named
  exact scalar.length_pos

/-- Elements take the bytes that the check of a declared count asks for. -/
theorem minimumBytes_le_of_elements
    {kind : ContainerKind}
    {body : List UInt8}
    {contents : Contents}
    (elements : Elements kind body contents) :
    minimumBytes kind contents.length ≤ body.length := by
  induction elements with
  | none => cases ‹ContainerKind› <;> exact Nat.le_refl 0
  | @scalar kind name key taken value body contents named held others
      inductionHypothesis =>
      have taking := held.length_pos
      rw [List.length_append, List.length_append]
      cases kind with
      | map =>
          have naming := named.length_pos
          simp only [minimumBytes, List.length_cons] at inductionHypothesis ⊢
          omega
      | array =>
          simp only [minimumBytes, List.length_cons] at inductionHypothesis ⊢
          omega
  | @nested kind inner name key header inside held body contents named declared within
      others insideHypothesis othersHypothesis =>
      have taking := declared.length_pos
      rw [List.length_append, List.length_append, List.length_append]
      cases kind with
      | map =>
          have naming := named.length_pos
          simp only [minimumBytes, List.length_cons] at othersHypothesis ⊢
          omega
      | array =>
          simp only [minimumBytes, List.length_cons] at othersHypothesis ⊢
          omega

/-- Elements of the grammar that a reader has before it are read as such. -/
theorem reads_of_elements
    {kind : ContainerKind}
    {body : List UInt8}
    {contents : Contents}
    {building : Building}
    {reader rest : ByteReader}
    (owned : ∀ owner ∈ options.shared?, owner = input)
    (elements : Elements kind body contents)
    (sameKind : building.kind = kind)
    (ofInput : reader.bytes = input)
    (passes : reader.Passes body rest) :
    Reads MessagePack.reader options building ⟨reader.limit, contents.length⟩ reader
      (.ok (building.attachAll contents, rest)) := by
  have same : reader.setLimit reader.limit = reader := ByteReader.setLimit_eq_self rfl
  induction elements generalizing building reader rest with
  | none =>
      obtain ⟨rfl, _⟩ := passes.unique (.refl passes.inBounds_start) rfl
      refine @Reads.finished _ _ _ _ _ ⟨rest.limit, 0⟩ _ ?_
      rw [same]
      exact readElement_finished options building.kind rest.limit rest
  | @scalar kind name key taken value body contents named held others
      inductionHypothesis =>
      subst sameKind
      obtain ⟨between, passesElement, passesOthers⟩ :=
        passes.split passes.inBounds_start
      have sameLimit := passesElement.limit_eq
      have reads :=
        @inductionHypothesis (building.attach key value) between rest
          (building.kind_attach key value) (passesElement.bytes_eq.trans ofInput)
          passesOthers (ByteReader.setLimit_eq_self rfl)
      rw [sameLimit] at reads
      refine .scalar ?_ reads
      rw [same]
      exact (readElement_declared building.kind reader.limit _ reader).trans
        (readDeclared_of_found owned ofInput (.scalar named held passesElement))
  | @nested kind inner name key header inside held body contents named declared within
      others insideHypothesis othersHypothesis =>
      subst sameKind
      obtain ⟨resumed, passesNested, passesOthers⟩ :=
        passes.split passes.inBounds_start
      obtain ⟨between, passesHeader, passesInside⟩ :=
        passesNested.split passes.inBounds_start
      -- elements that are there have the bytes that the check of the count asks for
      have room : minimumBytes inner held.length ≤ between.remaining := by
        rw [ByteReader.remaining_eq_length, passesInside.ahead_eq, List.length_append]
        exact Nat.le_trans (minimumBytes_le_of_elements within) (Nat.le_add_right _ _)
      have readsInside :=
        @insideHypothesis (.empty inner) between resumed (Building.kind_empty inner)
          (passesHeader.bytes_eq.trans ofInput) passesInside
          (ByteReader.setLimit_eq_self rfl)
      have reads :=
        @othersHypothesis (building.attach key (inner.gather held)) resumed rest
          (building.kind_attach key _) (passesNested.bytes_eq.trans ofInput)
          passesOthers (ByteReader.setLimit_eq_self rfl)
      rw [passesHeader.limit_eq] at readsInside
      rw [passesNested.limit_eq] at reads
      have next :
          MessagePack.reader.next options building.kind
              ⟨reader.limit, contents.length + 1⟩ (reader.setLimit reader.limit) =
            .ok ((.opened key inner ⟨reader.limit, held.length⟩,
              ⟨reader.limit, contents.length⟩), between) := by
        rw [same]
        exact (readElement_declared building.kind reader.limit _ reader).trans
          (readDeclared_of_found owned ofInput
            (.opened named declared passesHeader room))
      refine .nested next readsInside ?_
      rw [Building.toValue_attachAll_empty]
      exact reads

/-- A map's header is one small byte, or a marker with the count behind it. -/
theorem isHeader_map_cons
    {lead : UInt8}
    {taken : List UInt8}
    {count : Nat}
    (header : IsHeader .map ([lead] ++ taken) count) :
    (count ≤ 15 ∧ lead = fixMap + UInt8.ofNat count ∧ taken = []) ∨
      ∃ (marker : Marker) (type : FieldType), lead = marker.byte ∧
        marker.layout = .container .map type ∧ type.Holds count ∧
          taken = type.bytes count := by
  generalize spelled : [lead] ++ taken = word at header
  cases header with
  | short small =>
      obtain ⟨rfl, rfl⟩ := List.cons.inj spelled
      exact .inl ⟨small, rfl, rfl⟩
  | @marked marker type count declares holds =>
      obtain ⟨rfl, rfl⟩ := List.cons.inj spelled
      exact .inr ⟨marker, type, rfl, declares, holds, rfl⟩

/-- A marker of maps has a document's count read behind it. -/
theorem readRootCount_marked
    {marker : Marker}
    {type : FieldType}
    (declares : marker.layout = .container .map type) :
    type.isSigned = false ∧ readRootCount marker.byte = readLength type := by
  rw [readRootCount, Lead.ofByte_marker]
  cases marker <;> cases declares <;> exact ⟨rfl, rfl⟩

/-- A marker of anything but maps is refused at the start of a document. -/
theorem readRootCount_other
    {marker : Marker}
    (other : ∀ type, marker.layout ≠ .container .map type) :
    readRootCount marker.byte = malformed (.rootNotMap marker.byte) := by
  rw [readRootCount, Lead.ofByte_marker]
  cases marker with
  | map16 => exact absurd rfl (other _)
  | map32 => exact absurd rfl (other _)
  | _ => rfl

/-- With its first byte read, a document's count is what a map's header says. -/
theorem readRootCount_recognizes (lead : UInt8) :
    Recognizes input (readRootCount lead) fun taken count =>
      IsHeader .map ([lead] ++ taken) count := by
  intro reader ofInput inBounds count rest
  constructor
  · intro ran
    have begins := Lead.begins_ofByte lead
    cases announced : Lead.ofByte lead with
    | map size =>
        rw [readRootCount, announced] at ran
        rw [announced] at begins
        obtain ⟨small, rfl⟩ := begins
        cases ran
        exact ⟨[], .short small, .refl inBounds⟩
    | marker marker =>
        rw [announced] at begins
        cases begins
        by_cases container : ∃ type, marker.layout = .container .map type
        · obtain ⟨type, declares⟩ := container
          obtain ⟨unsigned, shape⟩ := readRootCount_marked declares
          rw [shape, readLength_recognizes unsigned ofInput inBounds] at ran
          obtain ⟨_, ⟨holds, rfl⟩, passes⟩ := ran
          exact ⟨_, .marked declares holds, passes⟩
        · have other (type : FieldType) : marker.layout ≠ .container .map type :=
            fun declares => container ⟨type, declares⟩
          rw [readRootCount_other other] at ran
          cases ran
    | integer value =>
        rw [readRootCount, announced] at ran
        cases ran
    | array size =>
        rw [readRootCount, announced] at ran
        cases ran
    | string length =>
        rw [readRootCount, announced] at ran
        cases ran
    | reserved =>
        rw [readRootCount, announced] at ran
        cases ran
  · rintro ⟨taken, header, passes⟩
    rcases isHeader_map_cons header with
      ⟨small, rfl, rfl⟩ | ⟨marker, type, rfl, declares, holds, rfl⟩
    · obtain ⟨rfl, _⟩ := passes.unique (.refl inBounds) rfl
      rw [readRootCount, Lead.ofByte_fixMap small]
      rfl
    · obtain ⟨unsigned, shape⟩ := readRootCount_marked declares
      rw [shape, readLength_recognizes unsigned ofInput inBounds]
      exact ⟨_, ⟨holds, rfl⟩, passes⟩

/--
A document is opened exactly if it is within the limit, begins like a map and
has room for its elements.
-/
theorem readRoot_eq_ok_iff
    (options : DecodeOptions)
    (bytes : ByteArray)
    (bounds : Bounds)
    (rest : ByteReader) :
    readRoot options (.ofBytes bytes) = .ok (bounds, rest) ↔
      bytes.size ≤ options.maximumSize ∧
        ∃ header count, IsHeader .map header count ∧
          (ByteReader.ofBytes bytes).Passes header rest ∧
            minimumBytes .map count ≤ rest.remaining ∧
              bounds = ⟨bytes.size, count⟩ := by
  have inBounds : (ByteReader.ofBytes bytes).InBounds := Nat.zero_le _
  rw [readRoot, remaining_bind, ensure_bind_eq_ok_iff, position_bind,
    readByte_recognizes.bind_eq_ok_iff rfl inBounds]
  constructor
  · rintro ⟨within, lead, _, between, rfl, passesLead, ran⟩
    have small : bytes.size ≤ options.maximumSize := of_decide_eq_true within
    rw [(readRootCount_recognizes lead).bind_eq_ok_iff passesLead.bytes_eq
      passesLead.inBounds] at ran
    obtain ⟨count, taken, behind, header, passesCount, ran⟩ := ran
    have passes := passesLead.trans passesCount
    by_cases room : minimumBytes .map count ≤ behind.remaining
    · rw [run_bind_of_ok (checkCount_of_le room _), limit_bind] at ran
      cases ran
      exact ⟨small, _, count, header, passes, room, by rw [passes.limit_eq]; rfl⟩
    · rw [run_bind_of_error (checkCount_of_not_le room _)] at ran
      cases ran
  · rintro ⟨small, header, count, declared, passes, room, rfl⟩
    refine ⟨decide_eq_true small, ?_⟩
    obtain ⟨lead, taken, rfl, _⟩ :=
      @exists_lead_of_isHeader bytes options _ _ _ declared none ⟨0, 0⟩
    obtain ⟨between, passesLead, passesCount⟩ := passes.split inBounds
    refine ⟨lead, _, between, rfl, passesLead, ?_⟩
    rw [(readRootCount_recognizes lead).bind_eq_ok_iff passesLead.bytes_eq
      passesLead.inBounds]
    refine ⟨count, taken, rest, declared, passesCount, ?_⟩
    rw [run_bind_of_ok (checkCount_of_le room _), limit_bind, passes.limit_eq]
    rfl

/--
What is read as a document is the documents of the grammar that the input
begins with, when the whole input is within the size limit.
-/
theorem read_eq_ok_iff
    (owned : ∀ owner ∈ options.shared?, owner = input)
    (target document : Document)
    (consumed : Nat) :
    (MessagePack.reader.read options input target []).result = .ok (consumed, document) ↔
      consumed ≤ input.size ∧ input.size ≤ options.maximumSize ∧
        IsDocument (input.data.toList.take consumed) document := by
  rw [ElementReader.read_eq_ok_iff]
  constructor
  · rintro ⟨bounds, reader, final, rest, root, reads, rfl, rfl⟩
    obtain ⟨within, header, count, declared, passesHeader, _, rfl⟩ :=
      (readRoot_eq_ok_iff options input bounds reader).mp root
    obtain ⟨body, contents, elements, counted, rfl, passesBody⟩ :=
      exists_elements_of_reads owned reads rfl passesHeader.bytes_eq passesHeader.limit_eq
        passesHeader.inBounds
    change contents.length = count at counted
    subst counted
    obtain ⟨present, shape⟩ := (passesHeader.trans passesBody).take_ofBytes
    refine ⟨present, within, header, body, contents, declared, elements, shape, ?_⟩
    exact congrArg Document.mk (Building.entries_toDocument_attachAll contents)
  · rintro ⟨present, within, header, body, contents, declared, elements, shape, rfl⟩
    obtain ⟨rest, passes, atEnd⟩ := ByteReader.Passes.exists_of_take present shape
    obtain ⟨reader, passesHeader, passesBody⟩ := passes.split (Nat.zero_le _)
    have room : minimumBytes .map contents.length ≤ reader.remaining := by
      rw [ByteReader.remaining_eq_length, passesBody.ahead_eq, List.length_append]
      exact Nat.le_trans (minimumBytes_le_of_elements elements) (Nat.le_add_right _ _)
    have reads :=
      @reads_of_elements input options _ _ _ (.empty .map) _ _ owned elements
        (Building.kind_empty .map) passesHeader.bytes_eq passesBody
    rw [passesHeader.limit_eq] at reads
    refine ⟨_, reader, _, rest,
      (readRoot_eq_ok_iff options input _ reader).mpr
        ⟨within, header, _, declared, passesHeader, room, rfl⟩,
      reads, atEnd.symm, ?_⟩
    exact congrArg Document.mk (Building.entries_toDocument_attachAll contents).symm

end DocumentCodec.MessagePack
