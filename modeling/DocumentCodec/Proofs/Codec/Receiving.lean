import DocumentCodec.Proofs.Codec.Results
import DocumentCodec.Proofs.Stream.Sources

namespace DocumentCodec

/-!
# Receiving frames

What comes of reading a frame is told by the bytes that the source has present
and by the failure behind them, whatever the pieces it gives them in.  A frame
is taken whole and no byte behind it, also when its document is malformed.
-/

namespace Frame

/-- Number of bytes of a frame that declares a length. -/
def size (format : Format) (declared : Nat) : Nat :=
  match format with
  | .bson => declared
  | .messagePack => 4 + declared

/-- The bytes of the document in a frame. -/
def payload (format : Format) (frame : List UInt8) : List UInt8 :=
  match format with
  | .bson => frame
  | .messagePack => frame.drop 4

/--
What comes of a frame, from the bytes present and the failure behind them,
with the number of bytes taken.
-/
def expected (decode : ByteArray → Except Error Document) (format : Format)
    (maximum : Nat) (present : List UInt8) (obstacle? : Option IoFault) :
    Except Error Document × Nat :=
  let declared := Word.ofLittleEndian (present.take 4)
  if present.length < 4 then
    (.error (Source.shortage 4 present.length obstacle?), present.length)
  else if format = .bson ∧ ¬ (5 ≤ declared ∧ declared ≤ 0x7fffffff) then
    (.error (.corruption (.invalidFrameLength declared)), 4)
  else if maximum < declared then
    (.error (.capacity declared maximum), 4)
  else if present.length < size format declared then
    (.error (Source.shortage (size format declared) present.length obstacle?),
      present.length)
  else
    (decode ⟨(payload format (present.take (size format declared))).toArray⟩,
      size format declared)

/-- A declared length is refused only if no document of the format has it. -/
theorem extent_eq (format : Format) (declared : Nat) :
    extent format declared =
      if format = .bson ∧ ¬ (5 ≤ declared ∧ declared ≤ 0x7fffffff) then
        .error (.corruption (.invalidFrameLength declared))
      else
        .ok ⟨size format declared, size format declared - 4, declared⟩ := by
  cases format with
  | bson =>
      by_cases legal : 5 ≤ declared ∧ declared ≤ 0x7fffffff
      · rw [if_neg fun other => other.2 legal]
        exact if_pos legal
      · rw [if_pos ⟨rfl, legal⟩]
        exact if_neg legal
  | messagePack =>
      have body : size .messagePack declared - 4 = declared := Nat.add_sub_cancel_left _ _
      have separate : Format.messagePack ≠ .bson := by decide
      rw [if_neg (fun other => separate other.1), body]
      rfl

/-- Bytes are taken, and what comes next is what stood behind them, unless the source failed. -/
structure Takes (source : Source) (count : Nat) (result : Except Error Document)
    (after : Source) : Prop where
  taken_eq : after.taken = source.taken + count
  gives :
    (∀ fault, source.obstacle? = some fault → result ≠ .error (.io fault)) →
      source.Gives (source.present.take count) after

/-- A source that gives bytes has them taken from it. -/
theorem takes_of_gives
    {source after : Source}
    {given : List UInt8}
    (gives : source.Gives given after)
    (result : Except Error Document) :
    Takes source given.length result after := by
  refine ⟨gives.taken_eq, fun _ => ?_⟩
  rw [gives.take_present]
  exact gives

/-- A source that runs out has all of its bytes taken. -/
theorem takes_all
    {source after : Source}
    (taken_eq : after.taken = source.taken + source.present.length)
    (gives : source.obstacle? = none → source.Gives source.present after)
    (frame : Nat) :
    Takes source source.present.length
      (.error (Source.shortage frame source.present.length source.obstacle?)) after := by
  refine ⟨taken_eq, fun served => ?_⟩
  rw [List.take_length]
  cases obstacle : source.obstacle? with
  | none => exact gives obstacle
  | some fault =>
      have report := served fault obstacle
      rw [obstacle] at report
      exact absurd rfl report

/-- Behind a frame's header, the rest of the frame is read and nothing else. -/
theorem body_expected
    {source behind : Source}
    {header : List UInt8}
    {frame : Nat}
    (advances : source.chunk ≠ some 0)
    (length_eq : header.length = 4)
    (gives : source.Gives header behind)
    (longer : 4 ≤ frame)
    (finish : ByteArray → Except Error Document) :
    let outcome : Except Error Document × Source :=
      match behind.readExactly frame headerSize ByteArray.empty (frame - 4) with
      | (.error error, source) => (.error error, source)
      | (.ok body, source) => (finish body, source)
    let result : Except Error Document :=
      if source.present.length < frame then
        .error (Source.shortage frame source.present.length source.obstacle?)
      else
        finish ⟨((source.present.take frame).drop 4).toArray⟩
    outcome.1 = result ∧
      Takes source (if source.present.length < frame then source.present.length else frame)
        result outcome.2 := by
  have fills :=
    Source.fills_readExactly (gives.chunk_eq ▸ advances) frame headerSize
      ByteArray.empty (frame - 4)
  have total := congrArg List.length gives.present_eq
  rw [List.length_append, length_eq] at total
  generalize
    behind.readExactly frame headerSize ByteArray.empty (frame - 4) = outcome at fills ⊢
  cases fills with
  | short few taken_eq others =>
      have missing : source.present.length < frame := by omega
      have available :
          headerSize + ByteArray.empty.size + behind.present.length =
            source.present.length := by
        change 4 + 0 + _ = _
        omega
      rw [available, gives.obstacle_eq]
      dsimp only
      rw [if_pos missing, if_pos missing]
      refine ⟨rfl, takes_all ?_ ?_ frame⟩
      · rw [taken_eq, gives.taken_eq]
        omega
      · intro clear
        rw [gives.present_eq]
        exact gives.trans (others (gives.obstacle_eq.trans clear))
  | @full given after given_length others =>
      have both := gives.trans others
      have length : (header ++ given).length = frame := by
        rw [List.length_append]
        omega
      have enough : ¬ source.present.length < frame := by
        have inside := both.length_le
        omega
      have body : (source.present.take frame).drop 4 = given := by
        rw [← length, both.take_present, ← length_eq, List.drop_left]
      dsimp only
      rw [if_neg enough, if_neg enough, body, ByteArray.empty_append]
      exact ⟨rfl, length ▸ takes_of_gives both _⟩

/-- What is kept of a frame's header is what the payload has of it. -/
theorem kept_append
    {header body : List UInt8}
    (format : Format)
    (length_eq : header.length = 4) :
    (if format.lengthIncluded then ByteArray.mk header.toArray else ByteArray.empty) ++
        ⟨body.toArray⟩ =
      ⟨(payload format (header ++ body)).toArray⟩ := by
  cases format with
  | bson =>
      change ByteArray.mk header.toArray ++ ⟨body.toArray⟩ = ⟨(header ++ body).toArray⟩
      apply ByteArray.ext
      rw [ByteArray.data_append]
      exact List.append_toArray header body
  | messagePack =>
      rw [payload, ← length_eq, List.drop_left]
      exact ByteArray.empty_append

/-- A frame whose length is not refused has room for its header. -/
theorem four_le_size
    {format : Format}
    {declared : Nat}
    (legal : ¬ (format = .bson ∧ ¬ (5 ≤ declared ∧ declared ≤ 0x7fffffff))) :
    4 ≤ size format declared := by
  cases format with
  | bson =>
      have inside : 5 ≤ declared ∧ declared ≤ 0x7fffffff := by
        by_contra outside
        exact legal ⟨rfl, outside⟩
      exact Nat.le_of_succ_le inside.1
  | messagePack => exact Nat.le_add_right _ _

/-- A frame is read to what its bytes come to, and as many bytes are taken as it has. -/
theorem reading_eq_expected
    {source : Source}
    (advances : source.chunk ≠ some 0)
    (format : Format)
    (maximum : Nat) :
    let outcome := reading format maximum source
    let verdict :=
      expected (format.decoding maximum) format maximum source.present source.obstacle?
    outcome.1 = verdict.1 ∧ Takes source verdict.2 verdict.1 outcome.2 := by
  have fills := Source.fills_readExactly advances headerSize 0 ByteArray.empty headerSize
  unfold reading expected
  generalize source.readExactly headerSize 0 ByteArray.empty headerSize = header at fills ⊢
  cases fills with
  | short few taken_eq gives =>
      have missing : source.present.length < 4 := few
      have available :
          0 + ByteArray.empty.size + source.present.length = source.present.length := by
        change 0 + 0 + _ = _
        omega
      simp only [if_pos missing, available]
      exact ⟨rfl, takes_all taken_eq gives 4⟩
  | @full given behind length_eq gives =>
      have four : given.length = 4 := length_eq
      have first : source.present.take 4 = given := four ▸ gives.take_present
      have enough : ¬ source.present.length < 4 := Nat.not_lt.mpr (four ▸ gives.length_le)
      have taken (result : Except Error Document) : Takes source 4 result behind :=
        four ▸ takes_of_gives gives result
      have declares :
          (FieldType.uint32.value given).toNat = Word.ofLittleEndian given := rfl
      simp only [ByteArray.empty_append, first, if_neg enough, declares, extent_eq]
      generalize Word.ofLittleEndian given = declared
      -- first the length is judged, then the maximum, and only then are more bytes read
      by_cases illegal : format = .bson ∧ ¬ (5 ≤ declared ∧ declared ≤ 0x7fffffff)
      · simp only [if_pos illegal]
        exact ⟨trivial, taken _⟩
      · by_cases large : maximum < declared
        · simp only [if_neg illegal, if_pos large, if_neg (Nat.not_le_of_lt large)]
          exact ⟨trivial, taken _⟩
        · simp only [if_neg illegal, if_neg large, if_pos (Nat.le_of_not_lt large)]
          have body :=
            body_expected advances four gives (four_le_size illegal)
              (fun body =>
                format.decoding maximum
                  ((if format.lengthIncluded then ByteArray.mk given.toArray
                    else ByteArray.empty) ++ body))
          by_cases few : source.present.length < size format declared
          · simp only [if_pos few] at body ⊢
            exact body
          · have whole :
                given ++ (source.present.take (size format declared)).drop 4 =
                  source.present.take (size format declared) := by
              have parts :=
                List.take_append_drop 4 (source.present.take (size format declared))
              rwa [List.take_take, Nat.min_eq_left (four_le_size illegal), first] at parts
            simp only [if_neg few, kept_append format four, whole] at body ⊢
            exact body

end Frame

namespace Codec

variable {codec : Codec}

/--
Whatever a source holds and however it gives it, one frame is taken from it
and read as its bytes say: the document or the error is the one that decoding
the frame's payload gives.
-/
theorem readFrom_eq_expected
    {source : Source}
    (reachable : codec.Reachable)
    (advances : source.chunk ≠ some 0)
    (format : Format) :
    let outcome := codec.readFrom format source
    let verdict :=
      Frame.expected (fun payload => (codec.decode format payload).1) format
        codec.config.maximumDocumentSize source.present source.obstacle?
    outcome.1 = verdict.1 ∧ Frame.Takes source verdict.2 verdict.1 outcome.2.2 := by
  have decodes : (fun payload => (codec.decode format payload).1) =
      format.decoding codec.config.maximumDocumentSize :=
    funext (decode_eq_decoding reachable.clean format)
  have read := Frame.reading_eq_expected advances format codec.config.maximumDocumentSize
  rw [← readFrom_eq_reading reachable.clean, ← decodes] at read
  exact read

/--
A frame with a malformed body, given a byte at a time and interrupted in its
header, is taken whole; the byte behind it comes next.
-/
theorem readFrom_malformed :
    let source : Source :=
      .ofPieces [.bytes ⟨#[5, 0]⟩, .failure ⟨.interrupted, ""⟩, .bytes ⟨#[0, 0, 1, 7]⟩]
        (some 1)
    let outcome := (failFast .standard).readFrom .bson source
    outcome.1 = ((failFast .standard).decode .bson ⟨#[5, 0, 0, 0, 1]⟩).1 ∧
      outcome.2.2.taken = 5 ∧ outcome.2.2.present = [7] := by
  intro source outcome
  have reachable : (failFast .standard).Reachable := .new _ _
  have advances : source.chunk ≠ some 0 := by decide
  obtain ⟨result, takes⟩ := readFrom_eq_expected reachable advances .bson
  have verdict :
      Frame.expected (fun payload => ((failFast .standard).decode .bson payload).1) .bson
          (failFast .standard).config.maximumDocumentSize source.present source.obstacle? =
        (((failFast .standard).decode .bson ⟨#[5, 0, 0, 0, 1]⟩).1, 5) := rfl
  rw [verdict] at result takes
  have clear : source.obstacle? = none := rfl
  have gives := takes.gives fun fault failure => by
    rw [clear] at failure
    cases failure
  have others : [5, 0, 0, 0, 1] ++ [7] = [5, 0, 0, 0, 1] ++ outcome.2.2.present :=
    gives.present_eq
  exact ⟨result, takes.taken_eq, (List.append_cancel_left others).symm⟩

end Codec

end DocumentCodec
