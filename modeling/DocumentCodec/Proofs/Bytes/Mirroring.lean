import DocumentCodec.Proofs.Bytes.Recognition

namespace DocumentCodec

/-!
# Reading inputs that begin alike

Two inputs of one length have the same bytes before an offset, and readers
stand at the same place in both.  As long as the limit is not behind the offset
an action does the same on either, whether it succeeds or fails
(`Decode.Confined`): nothing behind its limit has a say.  Like what an action
accepts this follows the structure of the action.
-/

namespace ByteReader

/-- Readers at one place of inputs of one length with the same bytes before an offset. -/
structure Mirrors (front : Nat) (reader other : ByteReader) : Prop where
  size_eq : other.bytes.size = reader.bytes.size
  cursor_eq : other.cursor = reader.cursor
  limit_eq : other.limit = reader.limit
  take_eq : other.bytes.data.toList.take front = reader.bytes.data.toList.take front

namespace Mirrors

variable {front : Nat} {reader other : ByteReader}

/-- Two inputs of one size that begin alike are read alike at first. -/
theorem ofBytes
    {input twin : ByteArray}
    (size : twin.size = input.size)
    (take : twin.data.toList.take front = input.data.toList.take front) :
    (ByteReader.ofBytes input).Mirrors front (.ofBytes twin) :=
  ⟨size, rfl, size, take⟩

/-- Mirrored readers have as many bytes in front of their limits. -/
theorem remaining_eq (mirrors : reader.Mirrors front other) :
    other.remaining = reader.remaining := by
  rw [remaining, remaining, mirrors.limit_eq, mirrors.cursor_eq]

/-- Both readers may be given the same limit. -/
theorem setLimit (mirrors : reader.Mirrors front other) (limit : Nat) :
    (reader.setLimit limit).Mirrors front (other.setLimit limit) where
  size_eq := mirrors.size_eq
  cursor_eq := mirrors.cursor_eq
  limit_eq := by
    change min limit other.bytes.size = min limit reader.bytes.size
    rw [mirrors.size_eq]
  take_eq := mirrors.take_eq

/-- Both readers may go over the same number of bytes. -/
theorem advance
    (mirrors : reader.Mirrors front other)
    {count : Nat}
    (fits : reader.cursor + count ≤ reader.limit)
    (otherFits : other.cursor + count ≤ other.limit) :
    (reader.advance count fits).Mirrors front (other.advance count otherFits) where
  size_eq := mirrors.size_eq
  cursor_eq := congrArg (· + count) mirrors.cursor_eq
  limit_eq := mirrors.limit_eq
  take_eq := mirrors.take_eq

/-- What fits in front of the one limit fits in front of the other. -/
theorem fits_iff (mirrors : reader.Mirrors front other) (count : Nat) :
    other.cursor + count ≤ other.limit ↔ reader.cursor + count ≤ reader.limit := by
  rw [mirrors.cursor_eq, mirrors.limit_eq]

/-- Before the offset the bytes are the same. -/
theorem window_eq
    (mirrors : reader.Mirrors front other)
    (start : Nat)
    {stop : Nat}
    (inside : stop ≤ front) :
    (other.bytes.data.toList.drop start).take (stop - start) =
      (reader.bytes.data.toList.drop start).take (stop - start) := by
  have same := congrArg (List.take stop) mirrors.take_eq
  rw [List.take_take, List.take_take, Nat.min_eq_left inside] at same
  rw [← List.drop_take, ← List.drop_take, same]

/-- In front of the offset both have the same bytes. -/
theorem extract_eq
    (mirrors : reader.Mirrors front other)
    (start : Nat)
    {stop : Nat}
    (inside : stop ≤ front) :
    other.bytes.extract start stop = reader.bytes.extract start stop := by
  apply ByteArray.ext
  apply Array.toList_inj.mp
  rw [ByteArray.data_extract, ByteArray.data_extract, Array.toList_extract,
    Array.toList_extract, List.extract_eq_take_drop, List.extract_eq_take_drop]
  exact mirrors.window_eq start inside

/-- In front of the offset both have the same byte. -/
theorem get!_eq
    (mirrors : reader.Mirrors front other)
    {index : Nat}
    (inside : index < front)
    (present : index < reader.bytes.size) :
    other.bytes.get! index = reader.bytes.get! index := by
  have here : index < reader.bytes.data.toList.length := by
    rwa [Array.length_toList]
  have there : index < other.bytes.data.toList.length := by
    rw [Array.length_toList]
    exact Nat.lt_of_lt_of_eq present mirrors.size_eq.symm
  rw [Scan.get!_eq_getElem here, Scan.get!_eq_getElem there]
  have same := congrArg (·[index]?) mirrors.take_eq
  simp only [List.getElem?_take_of_lt inside, List.getElem?_eq_getElem here,
    List.getElem?_eq_getElem there, Option.some.injEq] at same
  exact same

/-- What is gone over before the offset is gone over in both inputs. -/
theorem exists_passes
    {taken : List UInt8}
    {rest : ByteReader}
    (mirrors : reader.Mirrors front other)
    (passes : reader.Passes taken rest)
    (inside : rest.cursor ≤ front) :
    ∃ otherRest, other.Passes taken otherRest ∧ rest.Mirrors front otherRest := by
  have fits := (mirrors.fits_iff taken.length).mpr passes.fits
  have same : other.ahead.take taken.length = taken := by
    have moved := mirrors.extract_eq reader.cursor (passes.cursor_eq ▸ inside)
    rw [← extract_eq_take_ahead other fits, mirrors.cursor_eq, moved,
      extract_eq_take_ahead reader passes.fits, passes.ahead_eq, List.take_left]
  have otherPasses := other.passes_advance fits
  rw [same] at otherPasses
  refine ⟨_, otherPasses, ?_, ?_, ?_, ?_⟩
  · rw [passes.bytes_eq]
    exact mirrors.size_eq
  · rw [otherPasses.cursor_eq, passes.cursor_eq, mirrors.cursor_eq]
  · rw [otherPasses.limit_eq, passes.limit_eq, mirrors.limit_eq]
  · rw [passes.bytes_eq]
    exact mirrors.take_eq

end Mirrors

end ByteReader

namespace Decode

open ByteReader

variable {front : Nat}

/-- Outcomes on inputs that begin alike: the same, with the readers at one place. -/
inductive Alike (front : Nat) :
    Except Error (α × ByteReader) → Except Error (α × ByteReader) → Prop
  | ok {value : α} {rest other : ByteReader}
      (limited : rest.limit ≤ front)
      (mirrors : rest.Mirrors front other) :
      Alike front (.ok (value, rest)) (.ok (value, other))
  | error (error : Error) : Alike front (.error error) (.error error)

/-- The bytes at and behind the limit have no say in what the action does. -/
def Confined (action : Decode α) : Prop :=
  ∀ ⦃front : Nat⦄ ⦃reader other : ByteReader⦄,
    reader.limit ≤ front → reader.Mirrors front other →
      Alike front (action reader) (action other)

namespace Confined

/-- A result that takes no bytes is the same. -/
theorem pure (value : α) : Confined (Pure.pure value : Decode α) := by
  intro front reader other limited mirrors
  exact .ok limited mirrors

/-- A failure is the same. -/
theorem fail (error : Error) : Confined (Decode.fail error : Decode α) := by
  intro front reader other limited mirrors
  exact .error error

/-- A complaint is about the same position. -/
theorem malformed (fault : FormatFault) : Confined (Decode.malformed fault : Decode α) :=
  fail _

/-- Two actions in a row are confined if each one is. -/
theorem bind
    {action : Decode α}
    {next : α → Decode β}
    (first : Confined action)
    (second : ∀ value, Confined (next value)) :
    Confined (action >>= next) := by
  intro front reader other limited mirrors
  have alike := first limited mirrors
  change Alike front (Except.bind (action reader) fun result => next result.1 result.2)
    (Except.bind (action other) fun result => next result.1 result.2)
  generalize action reader = outcome at alike ⊢
  generalize action other = otherOutcome at alike ⊢
  cases alike with
  | ok limited mirrors => exact second _ limited mirrors
  | error error => exact .error error

/-- What is done to a result does not look at the bytes. -/
theorem map
    {action : Decode α}
    (confined : Confined action)
    (convert : α → β) :
    Confined (convert <$> action) := by
  rw [map_eq_pure_bind]
  exact confined.bind fun value => pure (convert value)

/-- An action that takes some bytes below the limit, or says how many are missing. -/
theorem of_fits
    {action : Decode α}
    {count : Nat}
    {give : ByteReader → α}
    {error : Nat → Error}
    (runs :
      ∀ reader : ByteReader,
        action reader =
          if fits : reader.cursor + count ≤ reader.limit then
            .ok (give reader, reader.advance count fits)
          else
            .error (error reader.remaining))
    (gives :
      ∀ {front : Nat} {reader other : ByteReader},
        reader.cursor + count ≤ reader.limit → reader.limit ≤ front →
          reader.Mirrors front other → give other = give reader) :
    Confined action := by
  intro front reader other limited mirrors
  rw [runs, runs]
  by_cases fits : reader.cursor + count ≤ reader.limit
  · have otherFits := (mirrors.fits_iff count).mpr fits
    rw [dif_pos fits, dif_pos otherFits, gives fits limited mirrors]
    exact .ok limited (mirrors.advance fits otherFits)
  · rw [dif_neg fits, dif_neg (mt (mirrors.fits_iff count).mp fits), mirrors.remaining_eq]
    exact .error _

end Confined

/-- The position is the same. -/
theorem position_confined : Confined position := by
  intro front reader other limited mirrors
  change Alike front (.ok (reader.cursor, reader)) (.ok (other.cursor, other))
  rw [mirrors.cursor_eq]
  exact .ok limited mirrors

/-- A test comes to the same. -/
theorem ensure_confined (condition : Bool) (error : Error) :
    Confined (ensure condition error) := by
  cases condition with
  | false => exact Confined.fail error
  | true => exact Confined.pure ()

/-- Bytes in front of the limit are the same ones, and as many are missing. -/
theorem readBytes_confined (count : Nat) : Confined (readBytes count) := by
  refine .of_fits (fun _ => rfl) fun fits limited mirrors => ?_
  rw [mirrors.cursor_eq]
  exact mirrors.extract_eq _ (Nat.le_trans fits limited)

/-- A byte in front of the limit is the same one, or missing in both. -/
theorem readByte_confined : Confined readByte := by
  refine .of_fits (fun _ => rfl) fun {front reader other} fits limited mirrors => ?_
  rw [mirrors.cursor_eq]
  exact mirrors.get!_eq (Nat.lt_of_lt_of_le fits limited)
    (Nat.lt_of_lt_of_le fits reader.limit_le)

/-- A field in front of the limit holds the same number. -/
theorem readField_confined (type : FieldType) : Confined (readField type) :=
  (readBytes_confined type.width).bind fun _ => Confined.pure _

/-- Text depends on bytes that have been read, and on no others. -/
theorem decodeText_confined (bytes : ByteArray) (offset : Nat) :
    Confined (decodeText bytes offset) := by
  unfold decodeText
  split
  · exact Confined.pure _
  · exact Confined.malformed _

/-- The search for a zero byte ends at the limit, whatever stands behind it. -/
theorem readZeroTerminated_confined : Confined readZeroTerminated := by
  intro front reader other limited mirrors
  have stops (reader : ByteReader) : max reader.limit reader.cursor ≤ reader.bytes.size :=
    Nat.max_le.mpr ⟨reader.limit_le, reader.cursor_le⟩
  have length (reader : ByteReader) :
      max reader.limit reader.cursor - reader.cursor = reader.limit - reader.cursor := by
    omega
  have searched :
      Scan.findByteBetween? other.bytes reader.cursor (max reader.limit reader.cursor) 0 =
        Scan.findByteBetween? reader.bytes reader.cursor
          (max reader.limit reader.cursor) 0 := by
    have otherStops := stops other
    rw [mirrors.limit_eq, mirrors.cursor_eq] at otherStops
    rw [Scan.findByteBetween?_eq_findIdx? (Nat.le_max_right _ _) (stops reader),
      Scan.findByteBetween?_eq_findIdx? (Nat.le_max_right _ _) otherStops,
      length reader, mirrors.window_eq reader.cursor limited]
  simp only [readZeroTerminated, mirrors.cursor_eq, mirrors.limit_eq, searched]
  cases found :
      Scan.findByteBetween? reader.bytes reader.cursor (max reader.limit reader.cursor) 0 with
  | none => exact .error _
  | some terminator =>
      dsimp only
      by_cases fits : reader.cursor + (terminator - reader.cursor + 1) ≤ reader.limit
      · have otherFits := (mirrors.fits_iff _).mpr fits
        rw [dif_pos fits, dif_pos fits, mirrors.extract_eq reader.cursor (by omega)]
        exact .ok limited (mirrors.advance fits otherFits)
      · rw [dif_neg fits, dif_neg fits]
        exact .error _

end Decode

/-- A payload that is copied lies before the limit like other bytes. -/
theorem DecodeOptions.readPayload_confined
    {options : DecodeOptions}
    (copied : options.shared? = none)
    (count : Nat) :
    Decode.Confined (options.readPayload count) := by
  refine Decode.position_confined.bind fun offset =>
    (Decode.readBytes_confined count).bind fun bytes => ?_
  rw [copied]
  exact Decode.Confined.pure bytes

end DocumentCodec
