import DocumentCodec.Proofs.Bytes.Search
import DocumentCodec.Traversal.Element

namespace DocumentCodec

/-!
# Reading with less before the limit

An action that succeeds is run again where bytes are missing at the end, or
where the limit is lower.  Either nothing changes, or the action stops with an
error that tells that lengths and bytes do not agree.  `Decode.Degrades` says
this of an action, and like what an action accepts it follows the structure of
the action.
-/

/-- Errors that tell that declared lengths and the bytes around them do not agree. -/
inductive Error.IsLengthFault : Error → Prop
  | truncated (expected available : Nat) : IsLengthFault (.truncated expected available)
  | corruption (fault : CorruptionFault) : IsLengthFault (.corruption fault)

namespace ByteReader

/-- One reader is another with bytes missing at the end or a lower limit. -/
structure Curtails (shorter reader : ByteReader) : Prop where
  isPrefix : shorter.bytes.data.toList <+: reader.bytes.data.toList
  cursor_eq : shorter.cursor = reader.cursor
  limit_le : shorter.limit ≤ reader.limit

namespace Curtails

variable {shorter reader : ByteReader}

/-- A reader is a curtailed one of itself, with nothing cut off. -/
theorem refl (reader : ByteReader) : reader.Curtails reader :=
  ⟨List.prefix_rfl, rfl, Nat.le_refl _⟩

/-- A curtailed reader has no more bytes. -/
theorem size_le (curtails : shorter.Curtails reader) :
    shorter.bytes.size ≤ reader.bytes.size :=
  curtails.isPrefix.length_le

/-- A curtailed reader has no more bytes in front of its limit. -/
theorem remaining_le (curtails : shorter.Curtails reader) :
    shorter.remaining ≤ reader.remaining := by
  have limit_le := curtails.limit_le
  have cursor_eq := curtails.cursor_eq
  unfold ByteReader.remaining
  omega

/-- Lowering the limit of the shorter one at least as far keeps it shorter. -/
theorem setLimit
    (curtails : shorter.Curtails reader)
    {lower limit : Nat}
    (lowered : lower ≤ limit) :
    (shorter.setLimit lower).Curtails (reader.setLimit limit) where
  isPrefix := curtails.isPrefix
  cursor_eq := curtails.cursor_eq
  limit_le := by
    have size_le := curtails.size_le
    change min lower shorter.bytes.size ≤ min limit reader.bytes.size
    omega

/-- Both readers may go over the same bytes. -/
theorem advance
    (curtails : shorter.Curtails reader)
    {count other : Nat}
    (same : other = count)
    (fits : reader.cursor + count ≤ reader.limit)
    (fitsShorter : shorter.cursor + other ≤ shorter.limit) :
    (shorter.advance other fitsShorter).Curtails (reader.advance count fits) where
  isPrefix := curtails.isPrefix
  cursor_eq := by
    change shorter.cursor + other = reader.cursor + count
    rw [curtails.cursor_eq, same]
  limit_le := curtails.limit_le

/-- Up to an offset within the shorter one the bytes are the same. -/
theorem window_eq
    (curtails : shorter.Curtails reader)
    {start stop : Nat}
    (inside : stop ≤ shorter.bytes.size) :
    (shorter.bytes.data.toList.drop start).take (stop - start) =
      (reader.bytes.data.toList.drop start).take (stop - start) := by
  obtain ⟨others, whole⟩ := curtails.isPrefix
  have size : shorter.bytes.data.toList.length = shorter.bytes.size := Array.length_toList
  rw [← whole, List.drop_append]
  refine (List.take_append_of_le_length ?_).symm
  rw [List.length_drop, size]
  exact Nat.sub_le_sub_right inside start

/-- Where both have bytes they have the same ones. -/
theorem extract_eq
    (curtails : shorter.Curtails reader)
    {start stop : Nat}
    (inside : stop ≤ shorter.bytes.size) :
    shorter.bytes.extract start stop = reader.bytes.extract start stop := by
  apply ByteArray.ext
  apply Array.toList_inj.mp
  rw [ByteArray.data_extract, ByteArray.data_extract, Array.toList_extract,
    Array.toList_extract, List.extract_eq_take_drop, List.extract_eq_take_drop]
  exact curtails.window_eq inside

/-- Where both have a byte it is the same one. -/
theorem get!_eq
    (curtails : shorter.Curtails reader)
    {index : Nat}
    (inside : index < shorter.bytes.size) :
    shorter.bytes.get! index = reader.bytes.get! index := by
  have present : index < shorter.bytes.data.toList.length := by
    rwa [Array.length_toList]
  rw [Scan.get!_eq_getElem present,
    Scan.get!_eq_getElem (Nat.lt_of_lt_of_le present curtails.isPrefix.length_le)]
  exact curtails.isPrefix.getElem present

/-- The first zero byte is found where it was, or it is behind where the search ends. -/
theorem findByteBetween?_eq
    (curtails : shorter.Curtails reader)
    {needle : UInt8}
    {start lower stop found : Nat}
    (ordered : start ≤ lower)
    (inside : lower ≤ shorter.bytes.size)
    (lowered : lower ≤ stop)
    (stopInside : stop ≤ reader.bytes.size)
    (present : Scan.findByteBetween? reader.bytes start stop needle = some found) :
    Scan.findByteBetween? shorter.bytes start lower needle =
      if found < lower then some found else none := by
  rw [Scan.findByteBetween?_eq_findIdx? (Nat.le_trans ordered lowered) stopInside] at present
  rw [Scan.findByteBetween?_eq_findIdx? ordered inside, curtails.window_eq inside]
  obtain ⟨index, first, rfl⟩ := Option.map_eq_some_iff.mp present
  have window :
      (reader.bytes.data.toList.drop start).take (lower - start) =
        ((reader.bytes.data.toList.drop start).take (stop - start)).take (lower - start) := by
    rw [List.take_take, Nat.min_eq_left (Nat.sub_le_sub_right lowered start)]
  rw [window, List.findIdx?_take, first, Option.bind_some]
  have early : start + index < lower ↔ index < lower - start := by omega
  simp only [Option.guard, decide_eq_true_eq, early]
  split <;> rfl

end Curtails

/-- The first bytes of an input are the input with bytes missing at the end. -/
theorem curtails_extract (bytes : ByteArray) (count : Nat) :
    (ofBytes (bytes.extract 0 count)).Curtails (ofBytes bytes) where
  isPrefix := by
    change (bytes.extract 0 count).data.toList <+: bytes.data.toList
    rw [ByteArray.data_extract, Array.toList_extract, List.extract_eq_take_drop]
    exact List.take_prefix _ _
  cursor_eq := rfl
  limit_le := by
    change (bytes.extract 0 count).size ≤ bytes.size
    rw [ByteArray.size_extract]
    omega

end ByteReader

namespace Decode

/--
Whenever the first action succeeds, on a shorter reader the second one stops
with a length fault or succeeds with a related result, and stays shorter.
-/
def Degrades (related : α → β → Prop) (action : Decode α) (other : Decode β) : Prop :=
  ∀ ⦃reader shorter : ByteReader⦄, shorter.Curtails reader →
    ∀ ⦃value rest⦄, action reader = .ok (value, rest) →
      (∃ result after,
        other shorter = .ok (result, after) ∧ related value result ∧ after.Curtails rest) ∨
      ∃ error, other shorter = .error error ∧ error.IsLengthFault

/-- On a shorter reader the action has the same result or stops with a length fault. -/
def Curtailable (action : Decode α) : Prop :=
  Degrades Eq action action

namespace Degrades

variable {related : α → β → Prop} {action : Decode α} {other : Decode β}

/-- Results that are related stay so, as nothing is read. -/
theorem pure {value : α} {result : β} (holds : related value result) :
    Degrades related (Pure.pure value) (Pure.pure result) := by
  intro reader shorter curtails found rest ran
  rw [run_pure] at ran
  cases ran
  exact .inl ⟨result, shorter, run_pure result shorter, holds, curtails⟩

/-- An action that only fails may become any other. -/
theorem fail (error : Error) (other : Decode β) :
    Degrades related (Decode.fail error : Decode α) other := by
  intro reader shorter curtails value rest ran
  cases ran

/-- Related results may be gone on with by actions that degrade. -/
theorem bind
    {further : γ → δ → Prop}
    {next : α → Decode γ}
    {otherNext : β → Decode δ}
    (first : Degrades related action other)
    (second :
      ∀ value result, related value result →
        Degrades further (next value) (otherNext result)) :
    Degrades further (action >>= next) (other >>= otherNext) := by
  intro reader shorter curtails value rest ran
  obtain ⟨middle, between, ranFirst, ranSecond⟩ := bind_eq_ok ran
  obtain ⟨result, after, same, holds, stays⟩ | ⟨error, stopped, isFault⟩ :=
    first curtails ranFirst
  · rw [run_bind_of_ok same]
    exact second middle result holds stays ranSecond
  · exact .inr ⟨error, run_bind_of_error stopped, isFault⟩

/-- A check may turn into another one, the failure of which is a length fault. -/
theorem ensure
    {error : Error}
    (isFault : error.IsLengthFault)
    (condition lower : Bool)
    (reported : Error) :
    Degrades (fun _ _ => True) (Decode.ensure condition reported)
      (Decode.ensure lower error) := by
  intro reader shorter curtails value rest ran
  cases condition with
  | false => cases ran
  | true =>
      cases ran
      cases lower with
      | false => exact .inr ⟨error, rfl, isFault⟩
      | true => exact .inl ⟨(), shorter, rfl, trivial, curtails⟩

/-- A check that holds whenever another does may take its place. -/
theorem ensure_of_imp
    {condition lower : Bool}
    (holds : condition = true → lower = true)
    (reported error : Error) :
    Degrades (fun _ _ => True) (Decode.ensure condition reported)
      (Decode.ensure lower error) := by
  cases condition with
  | false => exact fail reported _
  | true =>
      rw [holds rfl]
      exact pure trivial

end Degrades

namespace Curtailable

variable {action : Decode α}

/-- A result that takes no bytes is there on fewer bytes too. -/
theorem pure (value : α) : Curtailable (Pure.pure value : Decode α) :=
  Degrades.pure rfl

/-- What fails on all bytes has nothing to keep on fewer of them. -/
theorem fail (error : Error) : Curtailable (Decode.fail error : Decode α) :=
  Degrades.fail error _

/-- A complaint about the input stays one. -/
theorem malformed (fault : FormatFault) : Curtailable (Decode.malformed fault : Decode α) :=
  fail _

/-- The second actions may go on from different results, if they do so to related ends. -/
theorem bind
    {further : β → γ → Prop}
    {next : α → Decode β}
    {other : α → Decode γ}
    (first : Curtailable action)
    (second : ∀ value, Degrades further (next value) (other value)) :
    Degrades further (action >>= next) (action >>= other) :=
  Degrades.bind first fun value _ same => same ▸ second value

/-- What is done to a result does not ask for bytes. -/
theorem map (curtailable : Curtailable action) (convert : α → β) :
    Curtailable (convert <$> action) := by
  rw [Curtailable, map_eq_pure_bind]
  exact curtailable.bind fun value => pure (convert value)

end Curtailable

/-- Both readers stand at the same position. -/
theorem position_curtailable : Curtailable position := by
  intro reader shorter curtails value rest ran
  cases ran
  exact .inl ⟨_, shorter, rfl, curtails.cursor_eq.symm, curtails⟩

/-- A test that holds does so on fewer bytes. -/
theorem ensure_curtailable (condition : Bool) (error : Error) :
    Curtailable (ensure condition error) := by
  cases condition with
  | false => exact Curtailable.fail error
  | true => exact Curtailable.pure ()

/-- Fewer bytes remain, and no others are missing. -/
theorem remaining_degrades : Degrades (fun value result => result ≤ value) remaining remaining := by
  intro reader shorter curtails value rest ran
  cases ran
  exact .inl ⟨_, shorter, rfl, curtails.remaining_le, curtails⟩

/-- The limit is not behind the one of all bytes. -/
theorem limit_degrades : Degrades (fun value result => result ≤ value) limit limit := by
  intro reader shorter curtails value rest ran
  cases ran
  exact .inl ⟨_, shorter, rfl, curtails.limit_le, curtails⟩

/-- Bytes that are still there are the same ones. -/
theorem readBytes_curtailable (count : Nat) : Curtailable (readBytes count) := by
  intro reader shorter curtails value rest ran
  simp only [readBytes] at ran
  split at ran
  · rename_i fits
    cases ran
    by_cases fitsShorter : shorter.cursor + count ≤ shorter.limit
    · refine .inl ⟨_, _, dif_pos fitsShorter, ?_, curtails.advance rfl fits fitsShorter⟩
      rw [curtails.extract_eq (Nat.le_trans fitsShorter shorter.limit_le),
        curtails.cursor_eq]
    · exact .inr ⟨_, dif_neg fitsShorter, .truncated _ _⟩
  · cases ran

/-- A byte that is still there is the same one. -/
theorem readByte_curtailable : Curtailable readByte := by
  intro reader shorter curtails value rest ran
  simp only [readByte] at ran
  split at ran
  · rename_i fits
    cases ran
    by_cases fitsShorter : shorter.cursor + 1 ≤ shorter.limit
    · refine .inl ⟨_, _, dif_pos fitsShorter, ?_, curtails.advance rfl fits fitsShorter⟩
      rw [curtails.get!_eq (Nat.lt_of_lt_of_le fitsShorter shorter.limit_le),
        curtails.cursor_eq]
    · exact .inr ⟨_, dif_neg fitsShorter, .truncated _ _⟩
  · cases ran

/-- A field that is still there holds the same number. -/
theorem readField_curtailable (type : FieldType) : Curtailable (readField type) :=
  (readBytes_curtailable type.width).bind fun _ => Curtailable.pure _

/-- Text is decoded from bytes that have been read, and not from those ahead. -/
theorem decodeText_curtailable (bytes : ByteArray) (offset : Nat) :
    Curtailable (decodeText bytes offset) := by
  unfold decodeText
  split
  · exact Curtailable.pure _
  · exact Curtailable.malformed _

/-- When the zero is still there, it is the first one as before. -/
theorem readZeroTerminated_curtailable : Curtailable readZeroTerminated := by
  intro reader shorter curtails value rest ran
  simp only [readZeroTerminated] at ran
  split at ran
  · rename_i terminator present
    split at ran
    · rename_i fits
      cases ran
      have stopInside : max reader.limit reader.cursor ≤ reader.bytes.size :=
        Nat.max_le.mpr ⟨reader.limit_le, reader.cursor_le⟩
      have inside : max shorter.limit shorter.cursor ≤ shorter.bytes.size :=
        Nat.max_le.mpr ⟨shorter.limit_le, shorter.cursor_le⟩
      have lowered : max shorter.limit shorter.cursor ≤ max reader.limit reader.cursor := by
        have limit_le := curtails.limit_le
        have cursor_eq := curtails.cursor_eq
        omega
      rw [← curtails.cursor_eq] at present stopInside lowered
      have searched := curtails.findByteBetween?_eq (Nat.le_max_right _ _) inside lowered
        stopInside present
      simp only [readZeroTerminated, searched]
      by_cases early : terminator < max shorter.limit shorter.cursor
      · rw [if_pos early]
        by_cases fitsShorter :
            shorter.cursor + (terminator - shorter.cursor + 1) ≤ shorter.limit
        · refine .inl ⟨_, _, dif_pos fitsShorter, ?_, ?_⟩
          · rw [curtails.extract_eq (Nat.le_of_lt (Nat.lt_of_lt_of_le early inside)),
              curtails.cursor_eq]
          · exact curtails.advance (by rw [curtails.cursor_eq]) fits fitsShorter
        · exact .inr ⟨_, dif_neg fitsShorter, .truncated _ _⟩
      · rw [if_neg early]
        exact .inr ⟨_, rfl, .truncated _ _⟩
    · cases ran
  · cases ran

end Decode

/-- A payload that is still there is the same, copied or shared. -/
theorem DecodeOptions.readPayload_curtailable (options : DecodeOptions) (count : Nat) :
    Decode.Curtailable (options.readPayload count) := by
  refine Decode.position_curtailable.bind fun offset => ?_
  refine (Decode.readBytes_curtailable count).bind fun bytes => ?_
  split <;> exact Decode.Curtailable.pure _

end DocumentCodec
