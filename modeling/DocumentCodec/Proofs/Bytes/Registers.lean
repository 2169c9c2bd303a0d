import DocumentCodec.Proofs.Bytes.Calls
import DocumentCodec.Proofs.Bytes.Finding

namespace DocumentCodec

/-!
# Readers in machine words

A cursor and a limit can be kept in two 64-bit words about which nothing is
known.  Sums then wrap round, and taking a slice is an access that can be out
of range (`Outcome.outOfRange`): each call tests first, accesses second and
moves the cursor last.

Main statement: on bytes that can be addressed and with requests below 4 GiB
no access is out of range, and every call comes to what it comes to for a
`ByteReader`, which the words go on to represent.
-/

open ByteReader (Call Answer)

/-- A reader whose cursor and limit are machine words. -/
structure WordReader where
  bytes : ByteArray
  cursor : UInt64
  limit : UInt64

namespace WordReader

/-- What a call comes to in machine words. -/
inductive Outcome
  | answered (answer : Answer)
  | truncated (expected available : UInt64)
  | outOfRange

/-- The result that an outcome stands for; an access out of range stands for none. -/
def Outcome.result? : Outcome → Option (Except Error Answer)
  | .answered answer => some (.ok answer)
  | .truncated expected available =>
      some (.error (.truncated expected.toNat available.toNat))
  | .outOfRange => none

/-- The number of bytes in a word. -/
def sizeOf (bytes : ByteArray) : UInt64 :=
  UInt64.ofNat bytes.size

/-- A byte of a slice. -/
def byte? (bytes : ByteArray) (place : UInt64) : Option UInt8 :=
  bytes.data.toList[place.toNat]?

/-- A part of a slice, which must be in order and inside. -/
def slice? (bytes : ByteArray) (start stop : UInt64) : Option ByteArray :=
  if start ≤ stop ∧ stop ≤ sizeOf bytes then
    some (bytes.extract start.toNat stop.toNat)
  else
    none

/-- A reader at the start of bytes that may go to their end. -/
def ofBytes (bytes : ByteArray) : WordReader :=
  ⟨bytes, 0, sizeOf bytes⟩

/-- Number of bytes between the cursor and the limit. -/
def remaining (reader : WordReader) : UInt64 :=
  if reader.cursor ≤ reader.limit then reader.limit - reader.cursor else 0

/-- Answer with what was accessed and move on. -/
def settle (reader : WordReader) (moved : UInt64) : Option Answer → Outcome × WordReader
  | some answer => (.answered answer, { reader with cursor := reader.cursor + moved })
  | none => (.outOfRange, reader)

/-- Test that so many bytes are there before settling for what was accessed. -/
def guarded (reader : WordReader) (count moved : UInt64) (accessed? : Option Answer) :
    Outcome × WordReader :=
  if reader.cursor + count ≤ reader.limit then
    reader.settle moved accessed?
  else
    (.truncated count reader.remaining, reader)

/-- The bytes of a field are the first ones of those behind the cursor. -/
def field? (reader : WordReader) (type : FieldType) : Option Answer := do
  let behind ← slice? reader.bytes reader.cursor (sizeOf reader.bytes)
  let raw ← slice? behind 0 (UInt64.ofNat type.width)
  some (.number (type.value raw.data.toList))

/-- Run a call. -/
def perform (reader : WordReader) : Call → Outcome × WordReader
  | .setLimit limit =>
      (.answered .done,
        { reader with limit := min (UInt64.ofNat limit) (sizeOf reader.bytes) })
  | .skip count =>
      let count := UInt64.ofNat count
      reader.guarded count count (some .done)
  | .peekByte =>
      reader.guarded 1 0 ((byte? reader.bytes reader.cursor).map .byte)
  | .readByte =>
      reader.guarded 1 1 ((byte? reader.bytes reader.cursor).map .byte)
  | .readBytes count =>
      let count := UInt64.ofNat count
      reader.guarded count count <|
        (slice? reader.bytes reader.cursor (reader.cursor + count)).map .bytes
  | .readField type =>
      let width := UInt64.ofNat type.width
      reader.guarded width width (reader.field? type)
  | .readZeroTerminated =>
      match slice? reader.bytes reader.cursor (max reader.limit reader.cursor) with
      | none => (.outOfRange, reader)
      | some window =>
          match Scan.findByte? window 0 0 with
          | some index =>
              let stop := UInt64.ofNat index
              reader.settle (stop + 1) ((slice? window 0 stop).map .bytes)
          | none => (.truncated (sizeOf window + 1) (sizeOf window), reader)

/-- Run calls one behind the other, whether they fail or not. -/
def performAll (reader : WordReader) : List Call → List Outcome × WordReader
  | [] => ([], reader)
  | call :: rest =>
      let (outcome, after) := reader.perform call
      let (outcomes, last) := after.performAll rest
      (outcome :: outcomes, last)

/-- Words and numbers say the same about the same bytes. -/
structure Represents (words : WordReader) (reader : ByteReader) : Prop where
  bytes_eq : words.bytes = reader.bytes
  cursor_eq : words.cursor.toNat = reader.cursor
  limit_eq : words.limit.toNat = reader.limit

/-- An outcome stands for a result, and the words behind it represent the reader there. -/
structure InStep (words : Outcome × WordReader) (numbers : Except Error Answer × ByteReader) :
    Prop where
  result_eq : words.1.result? = some numbers.1
  represents : words.2.Represents numbers.2

/--
What calls on given bytes come to in words is what they come to for a reader,
with no access out of range and with the cursor and the limit inside the bytes.
-/
structure Faithful (bytes : ByteArray) (calls : List Call) : Prop where
  results_eq : ((ofBytes bytes).performAll calls).1.map Outcome.result? =
    ((ByteReader.ofBytes bytes).performAll calls).1.map some
  inRange : Outcome.outOfRange ∉ ((ofBytes bytes).performAll calls).1
  represents : ((ofBytes bytes).performAll calls).2.Represents
    ((ByteReader.ofBytes bytes).performAll calls).2
  cursor_le : ((ofBytes bytes).performAll calls).2.cursor.toNat ≤ bytes.size
  limit_le : ((ofBytes bytes).performAll calls).2.limit.toNat ≤ bytes.size

end WordReader

/-- The call has a limit that is a word and requests less than 4 GiB. -/
def ByteReader.Call.IsModest : Call → Prop
  | .setLimit limit => limit < 0x10000000000000000
  | .skip count => count < 0x100000000
  | .readBytes count => count < 0x100000000
  | .peekByte | .readByte | .readZeroTerminated | .readField _ => True

instance (call : Call) : Decidable call.IsModest :=
  match call with
  | .setLimit limit => inferInstanceAs (Decidable (limit < 0x10000000000000000))
  | .skip count | .readBytes count => inferInstanceAs (Decidable (count < 0x100000000))
  | .peekByte | .readByte | .readZeroTerminated | .readField _ =>
      inferInstanceAs (Decidable True)

/-- So many bytes can be addressed. -/
def Addressable (bytes : ByteArray) : Prop :=
  bytes.size < 0x8000000000000000

instance (bytes : ByteArray) : Decidable (Addressable bytes) :=
  inferInstanceAs (Decidable (bytes.size < 0x8000000000000000))

/-- No field is wider than eight bytes. -/
theorem FieldType.width_le (type : FieldType) : type.width ≤ 8 := by
  cases type <;> decide

namespace WordReader

variable {words : WordReader} {reader : ByteReader}

/-- A number below 2^64 is a word. -/
theorem toNat_ofNat {number : Nat} (small : number < 0x10000000000000000) :
    (UInt64.ofNat number).toNat = number :=
  UInt64.toNat_ofNat_of_lt' small

/-- A sum that is a word does not wrap round. -/
theorem toNat_add_of_lt
    {left right : UInt64}
    (small : left.toNat + right.toNat < 0x10000000000000000) :
    (left + right).toNat = left.toNat + right.toNat := by
  rw [UInt64.toNat_add]
  exact Nat.mod_eq_of_lt small

/-- The number behind a size that can be addressed is a word. -/
theorem toNat_ofNat_succ {number : Nat} (small : number < 0x8000000000000000) :
    (UInt64.ofNat number + 1).toNat = number + 1 := by
  have kept : (UInt64.ofNat number).toNat = number :=
    toNat_ofNat (Nat.lt_trans small (by decide))
  rw [toNat_add_of_lt, kept, UInt64.toNat_one]
  rw [kept, UInt64.toNat_one]
  omega

/-- The size of bytes that can be addressed is a word. -/
theorem toNat_sizeOf {bytes : ByteArray} (addressable : Addressable bytes) :
    (sizeOf bytes).toNat = bytes.size :=
  toNat_ofNat (Nat.lt_trans addressable (by decide))

/-- The lesser of two words is the one of the lesser number. -/
theorem toNat_min (left right : UInt64) :
    (min left right).toNat = min left.toNat right.toNat := by
  change (if left ≤ right then left else right).toNat = _
  split
  · rename_i ordered
    exact (Nat.min_eq_left (UInt64.le_iff_toNat_le.mp ordered)).symm
  · rename_i reversed
    rw [UInt64.le_iff_toNat_le] at reversed
    exact (Nat.min_eq_right (Nat.le_of_not_le reversed)).symm

/-- The greater of two words is the one of the greater number. -/
theorem toNat_max (left right : UInt64) :
    (max left right).toNat = max left.toNat right.toNat := by
  change (if left ≤ right then right else left).toNat = _
  split
  · rename_i ordered
    exact (Nat.max_eq_right (UInt64.le_iff_toNat_le.mp ordered)).symm
  · rename_i reversed
    rw [UInt64.le_iff_toNat_le] at reversed
    exact (Nat.max_eq_left (Nat.le_of_not_le reversed)).symm

/-- A slice in order and inside the bytes is there. -/
theorem slice?_eq_some
    {bytes : ByteArray}
    {start stop : UInt64}
    (addressable : Addressable bytes)
    (ordered : start.toNat ≤ stop.toNat)
    (inside : stop.toNat ≤ bytes.size) :
    slice? bytes start stop = some (bytes.extract start.toNat stop.toNat) := by
  apply if_pos
  rw [UInt64.le_iff_toNat_le, UInt64.le_iff_toNat_le, toNat_sizeOf addressable]
  exact ⟨ordered, inside⟩

/-- A slice from the start on is the front of the bytes. -/
theorem slice?_front
    {bytes : ByteArray}
    {front back : List UInt8}
    {stop : UInt64}
    (addressable : Addressable bytes)
    (shape : bytes.data.toList = front ++ back)
    (stops : stop.toNat = front.length) :
    slice? bytes 0 stop = some ⟨front.toArray⟩ := by
  rw [slice?_eq_some addressable (Nat.zero_le _), stops]
  · congr 1
    apply ByteArray.ext
    apply Array.toList_inj.mp
    rw [ByteArray.data_extract, Array.toList_extract, List.extract_eq_take_drop, shape]
    exact List.take_left
  · change stop.toNat ≤ bytes.data.size
    rw [stops, ← Array.length_toList, shape, List.length_append]
    exact Nat.le_add_right _ _

namespace Represents

/-- Words tell how many bytes remain. -/
theorem remaining_eq (represents : words.Represents reader) :
    words.remaining.toNat = reader.remaining := by
  unfold remaining
  split
  · rename_i ordered
    rw [UInt64.toNat_sub_of_le _ _ ordered, represents.cursor_eq, represents.limit_eq]
    rfl
  · rename_i passed
    rw [UInt64.le_iff_toNat_le, represents.cursor_eq, represents.limit_eq] at passed
    exact (Nat.sub_eq_zero_of_le (Nat.le_of_not_le passed)).symm

/-- No sum with the cursor wraps round. -/
theorem toNat_cursor_add
    (represents : words.Represents reader)
    (addressable : Addressable reader.bytes)
    {distance : UInt64}
    (small : distance.toNat < 0x8000000000000000) :
    (words.cursor + distance).toNat = reader.cursor + distance.toNat := by
  have inside : reader.cursor < 0x8000000000000000 :=
    Nat.lt_of_le_of_lt reader.cursor_le addressable
  rw [toNat_add_of_lt, represents.cursor_eq]
  rw [represents.cursor_eq]
  exact Nat.add_lt_add inside small

/-- Words that are moved as the reader is represent it there. -/
theorem moved
    (represents : words.Represents reader)
    (addressable : Addressable reader.bytes)
    {distance : UInt64}
    (small : distance.toNat < 0x8000000000000000)
    {rest : ByteReader}
    (after : reader.Moved distance.toNat rest) :
    WordReader.Represents { words with cursor := words.cursor + distance } rest where
  bytes_eq := represents.bytes_eq.trans after.bytes_eq.symm
  cursor_eq := (represents.toNat_cursor_add addressable small).trans after.cursor_eq.symm
  limit_eq := represents.limit_eq.trans after.limit_eq.symm

/-- A call that tests for its bytes finds them where the reader has them. -/
theorem inStep_guarded
    (represents : words.Represents reader)
    (addressable : Addressable reader.bytes)
    {call : Call}
    {demand : ByteReader.Demand}
    (asks : call.demand? = some demand)
    {count distance : UInt64}
    (counted : count.toNat = demand.count)
    (measured : distance.toNat = demand.moved)
    (countSmall : demand.count < 0x100000000)
    (distanceSmall : demand.moved < 0x100000000)
    {accessed? : Option Answer}
    (accessed : reader.cursor + demand.count ≤ reader.limit →
      accessed? = some (demand.answer (reader.ahead.take demand.count))) :
    InStep (words.guarded count distance accessed?) (reader.perform call) := by
  have below {number : UInt64} {bound : Nat}
      (same : number.toNat = bound) (small : bound < 0x100000000) :
      number.toNat < 0x8000000000000000 :=
    same ▸ Nat.lt_trans small (by decide)
  have tested : words.cursor + count ≤ words.limit ↔
      reader.cursor + demand.count ≤ reader.limit := by
    rw [UInt64.le_iff_toNat_le, represents.limit_eq,
      represents.toNat_cursor_add addressable (below counted countSmall), counted]
  by_cases fits : reader.cursor + demand.count ≤ reader.limit
  · obtain ⟨rest, ran, _, after⟩ := (reader.reliable call).enough demand asks fits
    rw [guarded, if_pos (tested.mpr fits), accessed fits, ran]
    exact ⟨rfl, represents.moved addressable (below measured distanceSmall)
      (measured.symm ▸ after)⟩
  · have refused := (reader.reliable call).missing demand asks (Nat.lt_of_not_le fits)
    rw [guarded, if_neg (mt tested.mp fits), refused]
    refine ⟨?_, represents⟩
    rw [Outcome.result?, counted, represents.remaining_eq]
    rfl

/-- The byte at the cursor is in range if one remains. -/
theorem byte?_eq
    (represents : words.Represents reader)
    (fits : reader.cursor + 1 ≤ reader.limit) :
    byte? words.bytes words.cursor = some ((reader.ahead.take 1).headD 0) := by
  have present : reader.cursor < reader.bytes.data.toList.length := by
    rw [Array.length_toList]
    exact Nat.lt_of_lt_of_le fits reader.limit_le
  rw [byte?, represents.bytes_eq, represents.cursor_eq, List.getElem?_eq_getElem present,
    ← Scan.get!_eq_getElem present, reader.get!_eq_headD fits]

/-- A slice from the cursor on is in range. -/
theorem slice?_from_cursor
    (represents : words.Represents reader)
    (addressable : Addressable reader.bytes)
    {stop : UInt64}
    (ordered : reader.cursor ≤ stop.toNat)
    (inside : stop.toNat ≤ reader.bytes.size) :
    slice? words.bytes words.cursor stop =
      some (reader.bytes.extract reader.cursor stop.toNat) := by
  rw [represents.bytes_eq, slice?_eq_some addressable, represents.cursor_eq]
  · rw [represents.cursor_eq]
    exact ordered
  · exact inside

/-- The slice of a number of bytes comes first of what is ahead. -/
theorem slice?_ahead
    (represents : words.Represents reader)
    (addressable : Addressable reader.bytes)
    {count : UInt64}
    (small : count.toNat < 0x8000000000000000)
    (fits : reader.cursor + count.toNat ≤ reader.limit) :
    slice? words.bytes words.cursor (words.cursor + count) =
      some ⟨(reader.ahead.take count.toNat).toArray⟩ := by
  have stop := represents.toNat_cursor_add addressable small
  rw [represents.slice?_from_cursor addressable, stop, reader.extract_eq_ahead fits]
  · rw [stop]
    exact Nat.le_add_right _ _
  · rw [stop]
    exact Nat.le_trans fits reader.limit_le

/-- The bytes of a field are in range if as many remain. -/
theorem field?_eq
    (represents : words.Represents reader)
    (addressable : Addressable reader.bytes)
    {type : FieldType}
    (fits : reader.cursor + type.width ≤ reader.limit) :
    words.field? type = some (.number (type.value (reader.ahead.take type.width))) := by
  have inside : reader.cursor + type.width ≤ reader.bytes.size :=
    Nat.le_trans fits reader.limit_le
  have width : (UInt64.ofNat type.width).toNat = type.width :=
    toNat_ofNat (Nat.lt_of_le_of_lt type.width_le (by decide))
  have stop : (sizeOf words.bytes).toNat = reader.bytes.size := by
    rw [represents.bytes_eq, toNat_sizeOf addressable]
  have behind := represents.slice?_from_cursor addressable
    (stop.symm ▸ reader.cursor_le) (Nat.le_of_eq stop)
  have size : (reader.bytes.extract reader.cursor reader.bytes.size).size =
      reader.bytes.size - reader.cursor := by
    rw [ByteArray.size_extract, Nat.min_self]
  -- A slice of a slice is a slice of the bytes, which ends before the limit.
  have raw : slice? (reader.bytes.extract reader.cursor reader.bytes.size) 0
      (UInt64.ofNat type.width) = some ⟨(reader.ahead.take type.width).toArray⟩ := by
    rw [slice?_eq_some, width, UInt64.toNat_zero, ByteArray.extract_extract, Nat.add_zero,
      Nat.min_eq_left inside, reader.extract_eq_ahead fits]
    · exact Nat.lt_of_le_of_lt (size ▸ Nat.sub_le _ _) addressable
    · exact Nat.zero_le _
    · rw [width, size]
      omega
  rw [field?, behind, stop, Option.bind_eq_bind, Option.bind_some, raw]
  rfl

/-- The part that is searched for a zero byte is what is ahead. -/
theorem exists_window
    (represents : words.Represents reader)
    (addressable : Addressable reader.bytes) :
    ∃ window, slice? words.bytes words.cursor (max words.limit words.cursor) = some window ∧
      window.data.toList = reader.ahead := by
  have stop : (max words.limit words.cursor).toNat = max reader.limit reader.cursor := by
    rw [toNat_max, represents.limit_eq, represents.cursor_eq]
  refine ⟨_, represents.slice?_from_cursor addressable ?_ ?_, ?_⟩
  · rw [stop]
    exact Nat.le_max_right _ _
  · rw [stop]
    exact Nat.max_le.mpr ⟨reader.limit_le, reader.cursor_le⟩
  · rw [stop, ByteArray.data_extract, Array.toList_extract, List.extract_eq_take_drop,
      ByteReader.ahead]
    congr 1
    omega

/-- The search for a zero byte finds it where it stands ahead. -/
theorem inStep_readZeroTerminated
    (represents : words.Represents reader)
    (addressable : Addressable reader.bytes) :
    InStep (words.perform .readZeroTerminated) (reader.perform .readZeroTerminated) := by
  obtain ⟨window, sliced, shown⟩ := represents.exists_window addressable
  -- Both searches go over the same bytes, so that one index decides both outcomes.
  have searched : Scan.findByte? window 0 0 = reader.ahead.findIdx? (· == 0) := by
    rw [Scan.findByte?_eq_findIdx?, List.drop_zero, shown]
    simp only [Nat.zero_add, Option.map_id']
  have size : window.size = reader.ahead.length := by
    rw [← shown, Array.length_toList]
    rfl
  have small : window.size < 0x8000000000000000 := by
    rw [size, reader.length_ahead]
    exact Nat.lt_of_le_of_lt (Nat.le_trans (Nat.sub_le _ _) reader.limit_le) addressable
  cases found : reader.ahead.findIdx? (· == 0) with
  | some index =>
      obtain ⟨text, behind, shape, absent, rfl⟩ := Scan.findIdx?_eq_some_iff_append.mp found
      obtain ⟨rest, ran, after⟩ :=
        (reader.reliable .readZeroTerminated).terminated rfl text behind shape absent
      have inside : text.length < window.size := by
        rw [size, shape, List.length_append, List.length_cons]
        omega
      have stop : (UInt64.ofNat text.length).toNat = text.length := toNat_ofNat (by omega)
      have taken := slice?_front small (shown.trans shape) stop
      have distance := toNat_ofNat_succ (Nat.lt_trans inside small)
      simp only [perform, sliced, searched, found, taken]
      rw [ran]
      exact ⟨rfl, represents.moved addressable (by omega) (distance.symm ▸ after)⟩
  | none =>
      have absent : 0 ∉ reader.ahead := by
        intro member
        have differs := List.findIdx?_eq_none_iff.mp found 0 member
        cases differs
      have refused := (reader.reliable .readZeroTerminated).unterminated rfl absent
      simp only [perform, sliced, searched, found]
      rw [refused]
      refine ⟨?_, represents⟩
      rw [Outcome.result?, toNat_sizeOf small, sizeOf, toNat_ofNat_succ small, size]

/-- Every call comes to the same in words and in numbers. -/
theorem inStep
    (represents : words.Represents reader)
    (addressable : Addressable reader.bytes)
    {call : Call}
    (modest : call.IsModest) :
    InStep (words.perform call) (reader.perform call) := by
  cases call with
  | setLimit limit =>
      obtain ⟨rest, ran, bytes, cursor, limited⟩ :=
        (reader.reliable (.setLimit limit)).limited limit rfl
      rw [ran]
      refine ⟨rfl, represents.bytes_eq.trans bytes.symm,
        represents.cursor_eq.trans cursor.symm, ?_⟩
      change (min (UInt64.ofNat limit) (sizeOf words.bytes)).toNat = rest.limit
      rw [limited, toNat_min, toNat_ofNat modest, represents.bytes_eq,
        toNat_sizeOf addressable]
  | skip count =>
      have small : count < 0x100000000 := modest
      have kept := toNat_ofNat (Nat.lt_trans small (by decide))
      exact represents.inStep_guarded addressable rfl kept kept small small fun _ => rfl
  | peekByte =>
      apply represents.inStep_guarded addressable rfl rfl rfl (by decide) (by decide)
      intro fits
      rw [represents.byte?_eq fits]
      rfl
  | readByte =>
      apply represents.inStep_guarded addressable rfl rfl rfl (by decide) (by decide)
      intro fits
      rw [represents.byte?_eq fits]
      rfl
  | readBytes count =>
      have small : count < 0x100000000 := modest
      have kept := toNat_ofNat (Nat.lt_trans small (by decide))
      apply represents.inStep_guarded addressable rfl kept kept small small
      intro fits
      rw [represents.slice?_ahead addressable] <;> rw [kept]
      · rfl
      · exact Nat.lt_trans small (by decide)
      · exact fits
  | readZeroTerminated =>
      exact represents.inStep_readZeroTerminated addressable
  | readField type =>
      have small : type.width < 0x100000000 := Nat.lt_of_le_of_lt type.width_le (by decide)
      have kept := toNat_ofNat (Nat.lt_trans small (by decide))
      exact represents.inStep_guarded addressable rfl kept kept small small
        (represents.field?_eq addressable)

end Represents

/-- Calls one behind the other come to the same, whichever of them fail. -/
theorem Represents.inStep_performAll
    (represents : words.Represents reader)
    (addressable : Addressable reader.bytes)
    {calls : List Call}
    (modest : ∀ call ∈ calls, call.IsModest) :
    (words.performAll calls).1.map Outcome.result? =
        (reader.performAll calls).1.map some ∧
      (words.performAll calls).2.Represents (reader.performAll calls).2 := by
  induction calls generalizing words reader with
  | nil => exact ⟨rfl, represents⟩
  | cons call rest inductionHypothesis =>
      have step := represents.inStep addressable (modest call List.mem_cons_self)
      have others := inductionHypothesis step.represents
        ((reader.bytes_perform call).symm ▸ addressable)
        fun later member => modest later (List.mem_cons_of_mem _ member)
      refine ⟨?_, others.2⟩
      simp only [performAll, ByteReader.performAll, List.map_cons, step.result_eq, others.1]

/-- At the start words and numbers say the same. -/
theorem represents_ofBytes {bytes : ByteArray} (addressable : Addressable bytes) :
    (ofBytes bytes).Represents (ByteReader.ofBytes bytes) :=
  ⟨rfl, rfl, toNat_sizeOf addressable⟩

/-- Words are as good as numbers for all bytes that a machine can hold. -/
theorem faithful
    {bytes : ByteArray}
    {calls : List Call}
    (addressable : Addressable bytes)
    (modest : ∀ call ∈ calls, call.IsModest) :
    Faithful bytes calls := by
  obtain ⟨results, represents⟩ :=
    (represents_ofBytes addressable).inStep_performAll addressable modest
  have kept : ((ByteReader.ofBytes bytes).performAll calls).2.bytes.size = bytes.size :=
    congrArg ByteArray.size (ByteReader.bytes_performAll _ calls)
  refine ⟨results, ?_, represents, ?_, ?_⟩
  · intro member
    have lost := List.mem_map_of_mem (f := Outcome.result?) member
    rw [results, List.mem_map] at lost
    obtain ⟨_, _, never⟩ := lost
    cases never
  · rw [represents.cursor_eq, ← kept]
    exact ByteReader.cursor_le _
  · rw [represents.limit_eq, ← kept]
    exact ByteReader.limit_le _

end WordReader

end DocumentCodec
