import DocumentCodec.Proofs.Bson.Containers
import DocumentCodec.Proofs.Bson.Curtailment
import DocumentCodec.Proofs.Bson.Decoding
import DocumentCodec.Proofs.Bytes.Buffers

namespace DocumentCodec.Bson

/-!
# Containers with another declared length

Where another number stands in the place of the length of a container, those
around it are read up to there as before.  Then the number is refused, or the
elements inside do not end where it says, and what fails inside a container
fails in those around it.
-/

open Decode ElementReader

variable {input : ByteArray} {options : DecodeOptions}

/-- A document's bytes with another number in the place of a container's length. -/
def redeclare (bytes : ByteArray) (slot : Nat) (declared : Int32) : ByteArray :=
  ByteBuffer.patchInt32.overwrite bytes slot (FieldType.int32.bytes declared.toInt)

/-- Redeclaring a container's length changes those four bytes and no others. -/
theorem toList_redeclare
    {bytes : ByteArray}
    {site : Site}
    (container : HasContainer bytes.data.toList site)
    (declared : Int32) :
    (redeclare bytes site.slot declared).data.toList = site.bytes declared.toInt := by
  refine ByteBuffer.toList_overwrite container.bytes_eq ?_
  rw [FieldType.length_bytes, FieldType.length_bytes]

/-- A nested container's length is held against its least value and the parent's end. -/
theorem readNested_of_declared
    {kind : ContainerKind}
    {parent : Bounds}
    {declared : Int}
    {reader rest : ByteReader}
    (key : Option String)
    (holds : FieldType.int32.Holds declared)
    (passes : reader.Passes (FieldType.int32.bytes declared) rest) :
    readNested key kind parent reader =
      if (minimumSize : Int) ≤ declared then
        if reader.cursor + declared.toNat ≤ parent.stop then
          .ok ((.opened key kind ⟨reader.cursor + declared.toNat, 0⟩, parent), rest)
        else
          .error (.corruption (.nestedTooLong declared.toNat reader.cursor parent.stop))
      else
        .error (.corruption (.nestedTooShort declared reader.cursor minimumSize)) := by
  rw [readNested, position_bind,
    (readField_recognizes .int32).bind_of_passes rfl ⟨holds, rfl⟩ passes]
  simp only [ensure_bind, decide_eq_true_eq]
  rfl

/-- Why a nested container is not read: its length is refused, or something inside. -/
inductive NestedFails (options : DecodeOptions) (kind : ContainerKind)
    (parentStop slot : Nat) (declared : Int) (inside : ByteReader) : Error → Prop
  | tooShort
      (small : ¬ (minimumSize : Int) ≤ declared) :
      NestedFails options kind parentStop slot declared inside
        (.corruption (.nestedTooShort declared slot minimumSize))
  | tooLong
      (least : (minimumSize : Int) ≤ declared)
      (beyond : ¬ slot + declared.toNat ≤ parentStop) :
      NestedFails options kind parentStop slot declared inside
        (.corruption (.nestedTooLong declared.toNat slot parentStop))
  | inside {error}
      (least : (minimumSize : Int) ≤ declared)
      (fits : slot + declared.toNat ≤ parentStop)
      (reads :
        Reads Bson.reader options (.empty kind) ⟨slot + declared.toNat, 0⟩ inside
          (.error error)) :
      NestedFails options kind parentStop slot declared inside error

/-- What fails in a nested container fails in the one around it, behind the elements before. -/
theorem exists_reads_of_nestedFails
    {kind inner : ContainerKind}
    {front others : List UInt8}
    {declared : Int}
    {bounds : Bounds}
    {reader : ByteReader}
    (owned : ∀ owner ∈ options.shared?, owner = input)
    (announced : Announces kind inner front)
    (holds : FieldType.int32.Holds declared)
    (filled :
      Filled input bounds reader (front ++ (FieldType.int32.bytes declared ++ others))) :
    ∃ inside : ByteReader,
      inside.bytes = input ∧ inside.cursor = reader.cursor + front.length + 4 ∧
        ∀ error,
          NestedFails options inner bounds.stop (reader.cursor + front.length) declared
              inside error →
            Reads Bson.reader options (.empty kind) bounds reader (.error error) := by
  rcases announced with ⟨before, named⟩
  rename_i front earlier name key
  have total := filled.cursor_add_length
  rw [List.append_assoc] at filled
  obtain ⟨element, filledElement, behind⟩ :=
    exists_reads_behind_elements owned before (Building.kind_empty kind) filled
  obtain ⟨atLength, passesKey, filledLength⟩ := filledElement.next
  obtain ⟨inside, passesLength, filledInside⟩ := filledLength.next
  have limited : atLength.limit = bounds.stop :=
    passesKey.limit_eq.trans filledElement.limited
  rw [ByteReader.setLimit_eq_self limited] at passesLength
  -- the length that is changed stands right behind the key
  have slot :
      atLength.cursor = reader.cursor +
        (front ++ ([(ElementType.ofContainer inner).tag] ++ name)).length := by
    have rest := filledLength.cursor_add_length
    rw [List.length_append] at total
    omega
  have next :
      Bson.reader.next options ((Building.empty kind).attachAll earlier).kind bounds
          (element.setLimit bounds.stop) =
        readNested key inner bounds atLength := by
    rw [Building.kind_attachAll, Building.kind_empty, ← readContents_ofContainer options]
    exact readElement_eq_readContents filledElement.limited named passesKey
  rw [readNested_of_declared key holds passesLength, slot] at next
  refine ⟨inside, filledInside.ofInput, ?_, fun error fails => behind _ ?_⟩
  · rw [passesLength.cursor_eq, FieldType.length_bytes, slot]
    rfl
  · cases fails with
    | tooShort small =>
        rw [if_neg small] at next
        exact .failed next
    | tooLong least beyond =>
        rw [if_pos least, if_neg beyond] at next
        exact .failed next
    | inside least fits reads =>
        rw [if_pos least, if_pos fits] at next
        exact .nestedFailed next reads

namespace Filled

variable {bounds : Bounds} {reader : ByteReader} {bytes front back : List UInt8}

/-- A reader at the start of a part has that part to go over. -/
theorem of_parts
    (shape : input.data.toList = front ++ (bytes ++ back))
    (ofInput : reader.bytes = input)
    (cursor : reader.cursor = front.length) :
    Filled input ⟨front.length + bytes.length, 0⟩ reader bytes := by
  have size : input.size = front.length + (bytes.length + back.length) := by
    rw [← List.length_append, ← List.length_append, ← shape]
    exact Array.length_toList.symm
  have stops : front.length + bytes.length ≤ input.size := by omega
  refine ⟨ofInput, stops, ?_, ?_⟩
  · rw [cursor]
    exact Nat.le_add_right _ _
  · have limit := @ByteReader.limit_setLimit reader _ (ofInput ▸ stops)
    rw [ByteReader.ahead, limit]
    change (reader.bytes.data.toList.drop reader.cursor).take
      (front.length + bytes.length - reader.cursor) = bytes
    rw [ofInput, shape, cursor, List.drop_left, Nat.add_sub_cancel_left, List.take_left]

/-- Up to a later end the same bytes come first. -/
theorem extend
    {stop : Nat}
    (filled : Filled input bounds reader bytes)
    (later : bounds.stop ≤ stop)
    (stops : stop ≤ input.size) :
    ∃ more, Filled input ⟨stop, 0⟩ reader (bytes ++ more) := by
  have limit := @ByteReader.limit_setLimit reader stop (filled.ofInput ▸ stops)
  obtain ⟨more, both⟩ :
      (reader.setLimit bounds.stop).ahead <+: (reader.setLimit stop).ahead := by
    rw [ByteReader.ahead, ByteReader.ahead, limit, filled.limited]
    exact List.take_prefix_take_left (Nat.sub_le_sub_right later _)
  refine ⟨more, filled.ofInput, stops, Nat.le_trans filled.below later, ?_⟩
  rw [← both, filled.ahead]

/-- A zero byte in the place of a tag is refused where it is not the last byte. -/
theorem reads_misplaced
    (filled : Filled input bounds reader ([terminator] ++ back))
    (early : reader.cursor + 1 ≠ bounds.stop)
    (options : DecodeOptions)
    (building : Building) :
    Reads Bson.reader options building bounds reader
      (.error (.corruption (.misplacedTerminator reader.cursor bounds.stop))) := by
  obtain ⟨rest, passes, _⟩ := filled.next
  have inside : (reader.setLimit bounds.stop).cursor < bounds.stop :=
    cursor_lt_stop filled.limited passes
  have misplaced : ¬ ((reader.setLimit bounds.stop).cursor + 1 == bounds.stop) = true :=
    fun same => early (eq_of_beq same)
  refine .failed ?_
  change readElement options building.kind bounds (reader.setLimit bounds.stop) = _
  rw [readElement, position_bind, ensure_bind, if_pos (decide_eq_true inside),
    readByte_recognizes.bind_of_passes rfl rfl passes, if_pos rfl, ensure_bind,
    if_neg misplaced]
  rfl

/-- Elements are not read up to an end that is not theirs. -/
theorem exists_reads_failed
    {kind : ContainerKind}
    {body : List UInt8}
    {contents : Contents}
    {stop other : Nat}
    (filled : Filled input ⟨stop, 0⟩ reader (body ++ [terminator]))
    (owned : ∀ owner ∈ options.shared?, owner = input)
    (elements : Elements kind body contents)
    (stops : other ≤ input.size)
    (below : reader.cursor ≤ other)
    (different : other ≠ stop) :
    ∃ error,
      Reads Bson.reader options (.empty kind) ⟨other, 0⟩ reader (.error error) ∧
        error.IsLengthFault := by
  rcases Nat.lt_or_gt_of_ne different with earlier | later
  · -- The elements are read up to their own end, so up to an earlier one they are read
    -- or fail, and they would have to end in both places if they were.
    obtain ⟨rest, reads, _, last⟩ :=
      exists_reads_of_elements owned elements (Building.kind_empty kind) filled
    have lowered : Bounds.Curtails ⟨other, 0⟩ ⟨stop, 0⟩ := ⟨Nat.le_of_lt earlier, rfl⟩
    obtain ⟨after, again, stays⟩ | failed :=
      reads.degrade (next_degrades options) rfl lowered (.refl reader)
    · obtain ⟨_, _, _, _, _, atOther⟩ :=
        exists_elements_of_reads owned again rfl filled.ofInput stops below
      exact (different (atOther.symm.trans (stays.cursor_eq.trans last))).elim
    · exact failed
  · obtain ⟨more, filledMore⟩ := filled.extend (Nat.le_of_lt later) stops
    rw [List.append_assoc] at filledMore
    obtain ⟨atEnd, filledEnd, behind⟩ :=
      exists_reads_behind_elements owned elements (Building.kind_empty kind) filledMore
    have early : atEnd.cursor + 1 ≠ other := by
      have total : reader.cursor + (body ++ [terminator]).length = stop :=
        filled.cursor_add_length
      have whole : reader.cursor + (body ++ ([terminator] ++ more)).length = other :=
        filledMore.cursor_add_length
      have rest : atEnd.cursor + ([terminator] ++ more).length = other :=
        filledEnd.cursor_add_length
      rw [List.length_append, List.length_singleton] at total
      rw [List.length_append] at whole
      omega
    exact ⟨_, behind _ (filledEnd.reads_misplaced early options _), .corruption _⟩

end Filled

/-- A nested container is not read when it declares a length that is not its own. -/
theorem exists_nestedFails
    {kind : ContainerKind}
    {body : List UInt8}
    {contents : Contents}
    {parentStop slot : Nat}
    {declared : Int}
    {inside : ByteReader}
    (owned : ∀ owner ∈ options.shared?, owner = input)
    (elements : Elements kind body contents)
    (filled : Filled input ⟨slot + (body.length + minimumSize), 0⟩ inside (body ++ [terminator]))
    (cursor : inside.cursor = slot + 4)
    (parentStops : parentStop ≤ input.size)
    (different : declared ≠ (body.length + minimumSize : Nat)) :
    ∃ error,
      NestedFails options kind parentStop slot declared inside error ∧
        error.IsLengthFault ∧
          (parentStop < slot + declared → ∃ fault, error = .corruption fault) := by
  by_cases least : (minimumSize : Int) ≤ declared
  · have exactly : (declared.toNat : Int) = declared :=
      Int.toNat_of_nonneg (Int.le_trans (by decide) least)
    by_cases fits : slot + declared.toNat ≤ parentStop
    · have below : inside.cursor ≤ slot + declared.toNat := by
        change (5 : Int) ≤ declared at least
        omega
      have moved : slot + declared.toNat ≠ slot + (body.length + minimumSize) := by omega
      obtain ⟨error, reads, isFault⟩ :=
        filled.exists_reads_failed owned elements (Nat.le_trans fits parentStops) below moved
      exact ⟨error, .inside least fits reads, isFault, fun beyond => by omega⟩
    · exact ⟨_, .tooLong least fits, .corruption _, fun _ => ⟨_, rfl⟩⟩
  · exact ⟨_, .tooShort least, .corruption _, fun _ => ⟨_, rfl⟩⟩

section

variable {document content : List UInt8} {site : Site} {changed : ByteArray} {declared : Int}

/-- What a declared length does to a document: the size limit is asked for before the input's. -/
theorem exists_readRoot_of_declared
    (options : DecodeOptions)
    (holds : FieldType.int32.Holds declared)
    (shape : changed.data.toList = FieldType.int32.bytes declared ++ content) :
    ∃ inside : ByteReader,
      inside.bytes = changed ∧ inside.cursor = 4 ∧
        readRoot options (.ofBytes changed) =
          if (minimumSize : Int) ≤ declared then
            if declared.toNat ≤ options.maximumSize then
              if declared.toNat ≤ changed.size then
                .ok (⟨declared.toNat, 0⟩, inside)
              else
                .error (.truncated declared.toNat changed.size)
            else
              .error (.capacity declared.toNat options.maximumSize)
          else
            .error (.corruption (.documentTooShort declared minimumSize)) := by
  rw [← ByteReader.ahead_ofBytes] at shape
  obtain ⟨inside, passes, _⟩ := ByteReader.Passes.of_ahead (Nat.zero_le _) shape
  refine ⟨inside, passes.bytes_eq, ?_, readRoot_of_declared holds passes options⟩
  rw [passes.cursor_eq, FieldType.length_bytes]
  rfl

/--
In the changed bytes, whatever stands in the place of a container's elements,
what fails there fails in the document.
-/
def Site.Exposed (options : DecodeOptions) (changed : ByteArray) (site : Site) : Prop :=
  ∀ ⦃content error⦄,
    changed.data.toList =
        site.front ++ (FieldType.int32.bytes site.length ++ (content ++ site.back)) →
      content.length = site.body.length + 1 →
        (∀ inside : ByteReader, inside.bytes = changed → inside.cursor = site.slot + 4 →
          Reads Bson.reader options (.empty site.kind) ⟨site.stop, 0⟩ inside
            (.error error)) →
          ∀ target, (Bson.reader.read options changed target []).result = .error error

/-- The containers around a nested one are read up to its length. -/
theorem Site.Exposed.read_of_nestedFails
    {inner : ContainerKind}
    {front body back : List UInt8}
    {error : Error}
    (exposed : site.Exposed options changed)
    (owned : ∀ owner ∈ options.shared?, owner = changed)
    (announced : Announces site.kind inner front)
    (whole : site.body = front ++ framed body ++ back)
    (holds : FieldType.int32.Holds declared)
    (shape :
      changed.data.toList =
        (site.nested inner front body back).front ++
          (FieldType.int32.bytes declared ++
            (content ++ (site.nested inner front body back).back)))
    (sized : content.length = body.length + 1)
    (fails :
      ∀ inside : ByteReader, inside.bytes = changed →
        inside.cursor = (site.nested inner front body back).slot + 4 →
          NestedFails options inner site.stop (site.nested inner front body back).slot
            declared inside error)
    (target : Document) :
    (Bson.reader.read options changed target []).result = .error error := by
  have start := site.length_front_append site.length
  have parted :
      changed.data.toList =
        (site.front ++ FieldType.int32.bytes site.length) ++
          ((front ++ (FieldType.int32.bytes declared ++ (content ++ (back ++ [terminator])))) ++
            site.back) := by
    rw [shape]
    simp only [Site.nested, List.append_assoc]
  have outerSized :
      (front ++ (FieldType.int32.bytes declared ++
        (content ++ (back ++ [terminator])))).length = site.body.length + 1 := by
    rw [whole]
    simp only [List.length_append, FieldType.length_bytes, length_framed,
      List.length_singleton, sized]
    change _ + (4 + _) = _ + (_ + 5) + _ + 1
    omega
  refine exposed (parted.trans (List.append_assoc _ _ _)) outerSized ?_ target
  intro reader ofInput cursor
  have filled := Filled.of_parts parted ofInput (cursor.trans start.symm)
  have stop : site.slot + 4 + (site.body.length + 1) = site.stop := by
    change _ = site.slot + (site.body.length + 5)
    omega
  rw [start, outerSized, stop] at filled
  obtain ⟨inside, insideInput, insideCursor, exposes⟩ :=
    exists_reads_of_nestedFails owned announced holds filled
  rw [Site.slot_nested, ← cursor] at fails
  exact exposes error (fails inside insideInput insideCursor)

/-- With the right lengths the containers are read from the outside in. -/
theorem HasContainer.exposed
    (container : HasContainer document site)
    (owned : ∀ owner ∈ options.shared?, owner = changed)
    (small : changed.size ≤ options.maximumSize)
    (fits : changed.size ≤ Framing.maximumLength) :
    site.Exposed options changed := by
  induction container with
  | @root body contents elements whole =>
      intro content error shape sized fails target
      have total := Site.size_eq shape sized
      have stop : (Site.root body).length = (Site.root body).stop := (Nat.zero_add _).symm
      have size : (Site.root body).stop = changed.size := total.symm
      obtain ⟨inside, ofInput, cursor, header⟩ :=
        exists_readRoot_of_declared options (Site.holds_length fits total) shape
      rw [if_pos (Site.minimumSize_le _), Int.toNat_natCast, stop,
        if_pos (size ▸ small), if_pos (Nat.le_of_eq size)] at header
      exact read_of_reads header (fails inside ofInput cursor) target
  | @nested site inner front body held back later outer announced within behind whole
      exposed =>
      intro content error shape sized fails target
      have holds := Site.holds_length fits (Site.size_eq shape sized)
      refine exposed.read_of_nestedFails owned announced whole holds shape sized ?_ target
      intro inside ofInput cursor
      have reads := fails inside ofInput cursor
      have within : (site.nested inner front body back).stop ≤ site.stop := by
        rw [Site.stop_eq_of_nested whole, Site.stop, Site.slot_nested]
        change site.slot + 4 + front.length + (body.length + 5) ≤
          site.slot + 4 + front.length + (body.length + 5) + back.length + 1
        omega
      exact .inside (Site.minimumSize_le _) within reads

/-- Why a container is not read depends on the bytes and the place alone. -/
theorem NestedFails.moved
    {kind : ContainerKind}
    {parentStop slot : Nat}
    {inside other : ByteReader}
    {error : Error}
    (fails : NestedFails options kind parentStop slot declared inside error)
    (bytes : other.bytes = inside.bytes)
    (cursor : other.cursor = inside.cursor) :
    NestedFails options kind parentStop slot declared other error := by
  cases fails with
  | tooShort small => exact .tooShort small
  | tooLong least beyond => exact .tooLong least beyond
  | inside least fits reads => exact .inside least fits (reads.moved bytes cursor)

/-- Behind the number in the place of its length a container's elements stand. -/
theorem Site.exists_filled (shape : changed.data.toList = site.bytes declared) :
    ∃ inside : ByteReader,
      inside.bytes = changed ∧ inside.cursor = site.slot + 4 ∧
        Filled changed ⟨site.stop, 0⟩ inside (site.body ++ [terminator]) := by
  have parted :
      changed.data.toList =
        (site.front ++ FieldType.int32.bytes declared) ++
          ((site.body ++ [terminator]) ++ site.back) :=
    shape.trans (List.append_assoc _ _ _).symm
  have start := site.length_front_append declared
  have ahead := (ByteReader.ahead_ofBytes changed).trans parted
  obtain ⟨inside, passes, _⟩ := ByteReader.Passes.of_ahead (Nat.zero_le _) ahead
  have cursor : inside.cursor = site.slot + 4 := by
    rw [passes.cursor_eq, start]
    exact Nat.zero_add _
  have filled := Filled.of_parts parted passes.bytes_eq (cursor.trans start.symm)
  have stop : site.slot + 4 + (site.body ++ [terminator]).length = site.stop := by
    rw [List.length_append]
    change site.slot + 4 + (site.body.length + 1) = site.slot + (site.body.length + 5)
    omega
  rw [start, stop] at filled
  exact ⟨inside, passes.bytes_eq, cursor, filled⟩

/-- The root's length is refused, or its elements do not end where it says. -/
theorem exists_root_failed
    {body : List UInt8}
    {contents : Contents}
    (owned : ∀ owner ∈ options.shared?, owner = changed)
    (elements : Elements .map body contents)
    (holds : FieldType.int32.Holds declared)
    (different : declared ≠ (Site.root body).length)
    (shape : changed.data.toList = (Site.root body).bytes declared)
    (target : Document) :
    ∃ error,
      (Bson.reader.read options changed target []).result = .error error ∧
        (error.IsLengthFault ∨ error = .capacity declared.toNat options.maximumSize) := by
  obtain ⟨inside, ofInput, cursor, header⟩ :=
    exists_readRoot_of_declared options holds shape
  by_cases least : (minimumSize : Int) ≤ declared
  · rw [if_pos least] at header
    by_cases small : declared.toNat ≤ options.maximumSize
    · rw [if_pos small] at header
      by_cases present : declared.toNat ≤ changed.size
      · rw [if_pos present] at header
        have exactly : (declared.toNat : Int) = declared :=
          Int.toNat_of_nonneg (Int.le_trans (by decide) least)
        have below : inside.cursor ≤ declared.toNat := by
          change (5 : Int) ≤ declared at least
          omega
        have moved : declared.toNat ≠ (Site.root body).stop := by
          rw [Site.stop, Site.slot]
          change declared.toNat ≠ 0 + (Site.root body).length
          omega
        obtain ⟨start, startInput, startCursor, filled⟩ := Site.exists_filled shape
        have filledInside := filled.moved ofInput (cursor.trans startCursor.symm)
        obtain ⟨error, reads, isFault⟩ :=
          filledInside.exists_reads_failed owned elements present below moved
        exact ⟨error, read_of_reads header reads target, .inl isFault⟩
      · rw [if_neg present] at header
        exact ⟨_, read_of_root_failed header target, .inl (.truncated _ _)⟩
    · rw [if_neg small] at header
      exact ⟨_, read_of_root_failed header target, .inr rfl⟩
  · rw [if_neg least] at header
    exact ⟨_, read_of_root_failed header target, .inl (.corruption _)⟩

/--
A document is refused when one of its containers declares a length that is not
its own: as truncated or corrupt, or for the size limit when it is the root,
and as corrupt when the length reaches behind the container around it.
-/
theorem HasContainer.exists_read_failed
    (container : HasContainer document site)
    (owned : ∀ owner ∈ options.shared?, owner = changed)
    (small : changed.size ≤ options.maximumSize)
    (fits : changed.size ≤ Framing.maximumLength)
    (holds : FieldType.int32.Holds declared)
    (different : declared ≠ site.length)
    (shape : changed.data.toList = site.bytes declared)
    (target : Document) :
    ∃ error,
      (Bson.reader.read options changed target []).result = .error error ∧
        (error.IsLengthFault ∨
          site.parentStop? = none ∧
            error = .capacity declared.toNat options.maximumSize) ∧
          ∀ stop ∈ site.parentStop?, stop < site.slot + declared →
            ∃ fault, error = .corruption fault := by
  cases container with
  | root elements whole =>
      obtain ⟨error, failed, refused⟩ :=
        exists_root_failed owned elements holds different shape target
      refine ⟨error, failed, refused.imp_right fun capacity => ⟨rfl, capacity⟩, ?_⟩
      intro stop member
      cases member
  | @nested site inner front body held back later outer announced within behind whole =>
      have sized : (body ++ [terminator]).length = body.length + 1 := List.length_append
      have total := Site.size_eq shape sized
      have parentStops : site.stop ≤ changed.size := by
        rw [total, Site.stop_eq_of_nested whole, Site.stop, Site.slot_nested]
        simp only [Site.nested, Site.length, List.length_append, List.length_singleton]
        omega
      obtain ⟨inside, ofInput, cursor, filled⟩ := Site.exists_filled shape
      obtain ⟨error, fails, isFault, isCorruption⟩ :=
        exists_nestedFails owned within filled cursor parentStops different
      refine ⟨error, ?_, .inl isFault, ?_⟩
      · refine (outer.exposed owned small fits).read_of_nestedFails owned announced whole holds
          shape sized ?_ target
        intro other otherInput otherCursor
        exact fails.moved (otherInput.trans ofInput.symm) (otherCursor.trans cursor.symm)
      · rintro stop ⟨⟩
        exact isCorruption

end

end DocumentCodec.Bson
