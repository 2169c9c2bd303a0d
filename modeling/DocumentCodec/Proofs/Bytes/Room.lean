import DocumentCodec.Proofs.Bytes.Buffers
import DocumentCodec.Proofs.Bytes.Registers

namespace DocumentCodec.ByteBuffer

/-!
# The room of a buffer

A buffer holds no more bytes than it has capacity for, and its read cursor is
not behind the last of them (`Fits`).  Each operation keeps this, whatever the
mode and the order: appends to a flipped buffer, cursors moved while writing
and patches after the capacity has grown.

Main statement: after every run the buffer fits, an append adds its bytes and
nothing else, a patch changes its four bytes and nothing else, and capacity
only grows, to less than twice what an append that did not fit leaves.

In machine words the capacity is the same number as long as memory can be had
for it, and no sum wraps round (`grownWord?`).
-/

/-- What can be done with a buffer. -/
inductive Operation
  | write (added : ByteArray)
  | writeField (type : FieldType) (value : Int)
  | reserveInt32
  | patchInt32 (offset : Nat) (value : Int)
  | ensureCapacity (additional : Nat)
  | flip
  | seek (position : Nat)
  | clear
  | reader

/-- The bytes that an operation appends, if it is an append. -/
def Operation.appended? : Operation → Option (List UInt8)
  | .write added => some added.data.toList
  | .writeField type value => some (type.bytes value)
  | .reserveInt32 => some [0, 0, 0, 0]
  | _ => none

/-- The buffer after an operation; there is none after a patch past its bytes. -/
def perform? (buffer : ByteBuffer) : Operation → Option ByteBuffer
  | .write added => some (buffer.write added)
  | .writeField type value => some (buffer.writeField type value)
  | .reserveInt32 => some buffer.reserveInt32.2
  | .patchInt32 offset value => buffer.patchInt32? offset value
  | .ensureCapacity additional => some (buffer.ensureCapacity additional)
  | .flip => some buffer.flip
  | .seek position => some (buffer.seek position)
  | .clear => some buffer.clear
  | .reader => some buffer.ensureReadable

/-- The buffer after operations one behind the other. -/
def performAll? (buffer : ByteBuffer) : List Operation → Option ByteBuffer
  | [] => some buffer
  | operation :: rest =>
      match buffer.perform? operation with
      | some after => after.performAll? rest
      | none => none

/-- The cursor is inside the bytes, and they are inside the capacity. -/
structure Fits (buffer : ByteBuffer) : Prop where
  cursor_le : buffer.cursor ≤ buffer.size
  size_le : buffer.size ≤ buffer.capacity

/-- One buffer is another with bytes appended and with the room that they take. -/
structure Grown (buffer : ByteBuffer) (added : List UInt8) (after : ByteBuffer) : Prop
    extends buffer.Appended added after where
  capacity_eq : after.capacity = grownCapacity buffer.capacity buffer.size added.length
  cursor_eq : after.cursor = buffer.cursor

/-- One buffer is another with a number in the place of the four bytes at an offset. -/
structure Patched (buffer : ByteBuffer) (offset : Nat) (value : Int) (after : ByteBuffer) :
    Prop where
  bytes_eq : ∃ front old back,
    buffer.bytes.data.toList = front ++ (old ++ back) ∧
      front.length = offset ∧ old.length = 4 ∧
      after.bytes.data.toList = front ++ (FieldType.int32.bytes value ++ back)
  capacity_eq : after.capacity = buffer.capacity
  cursor_eq : after.cursor = buffer.cursor
  readable_eq : after.readable = buffer.readable

variable {buffer after : ByteBuffer} {added : List UInt8}

/-- Room is never taken away. -/
theorem le_grownCapacity (capacity size additional : Nat) :
    capacity ≤ grownCapacity capacity size additional := by
  unfold grownCapacity
  split <;> omega

/-- There is room for what it was made for. -/
theorem add_le_grownCapacity
    {capacity size : Nat}
    (inside : size ≤ capacity)
    (additional : Nat) :
    size + additional ≤ grownCapacity capacity size additional := by
  unfold grownCapacity
  split <;> omega

/-- Room is doubled, or raised by the append when that is more. -/
theorem grownCapacity_of_lt
    {capacity size additional : Nat}
    (inside : size ≤ capacity)
    (short : capacity < size + additional) :
    grownCapacity capacity size additional = max (2 * capacity) (capacity + additional) ∧
      grownCapacity capacity size additional < 2 * (size + additional) := by
  have grown : grownCapacity capacity size additional =
      max (2 * capacity) (capacity + additional) := by
    rw [grownCapacity, if_pos (by omega), Nat.mul_comm]
  refine ⟨grown, ?_⟩
  rw [grown]
  exact Nat.max_lt.mpr ⟨by omega, by omega⟩

/-- The largest capacity that memory can be asked for. -/
def largestCapacity : Nat := 0x7fffffffffffffff

/-- A capacity, if memory can be asked for so much. -/
def obtained? (capacity : Nat) : Option Nat :=
  if capacity ≤ largestCapacity then some capacity else none

/--
The capacity after making room in machine words, where sums wrap round.  Memory
is asked for what is to be free behind the bytes, unless that much is free; there
is no capacity when it cannot be had.
-/
def grownWord? (capacity size additional : UInt64) : Option Nat :=
  if capacity - size < additional then
    let target := max (capacity * 2) (capacity + additional)
    if capacity - size < target - size then
      obtained? (size.toNat + (target - size).toNat)
    else
      some capacity.toNat
  else
    some capacity.toNat

/--
Words come to the capacity that numbers come to, unless a request is so large
that the sum wraps round: then the capacity is doubled, whatever was requested.
-/
theorem grownWord?_eq
    {capacity size : Nat}
    (inside : size ≤ capacity)
    (held : capacity ≤ largestCapacity)
    (additional : UInt64) :
    grownWord? (.ofNat capacity) (.ofNat size) additional =
      obtained?
        (if capacity + additional.toNat < 0x10000000000000000 then
          grownCapacity capacity size additional.toNat
        else
          2 * capacity) := by
  have bound : largestCapacity = 0x7fffffffffffffff := rfl
  have request := additional.toNat_lt
  have capacityWord : (UInt64.ofNat capacity).toNat = capacity :=
    WordReader.toNat_ofNat (by omega)
  have sizeWord : (UInt64.ofNat size).toNat = size := WordReader.toNat_ofNat (by omega)
  have freeWord : (UInt64.ofNat capacity - UInt64.ofNat size).toNat = capacity - size := by
    rw [UInt64.toNat_sub_of_le _ _ (by rwa [UInt64.le_iff_toNat_le, capacityWord, sizeWord]),
      capacityWord, sizeWord]
  have kept : obtained? capacity = some capacity := if_pos held
  have targetWord :
      (max (UInt64.ofNat capacity * 2) (UInt64.ofNat capacity + additional)).toNat =
        max (2 * capacity) ((capacity + additional.toNat) % 0x10000000000000000) := by
    rw [WordReader.toNat_max, UInt64.toNat_mul, UInt64.toNat_add, capacityWord, Nat.mul_comm]
    congr 1
    exact Nat.mod_eq_of_lt (by simp; omega)
  -- what is aimed at is not less than twice the capacity, and so lies behind the bytes
  have behindWord :
      (max (UInt64.ofNat capacity * 2) (UInt64.ofNat capacity + additional) -
          UInt64.ofNat size).toNat =
        max (2 * capacity) ((capacity + additional.toNat) % 0x10000000000000000) - size := by
    rw [UInt64.toNat_sub_of_le, targetWord, sizeWord]
    rw [UInt64.le_iff_toNat_le, targetWord, sizeWord]
    exact Nat.le_trans (by omega) (Nat.le_max_left _ _)
  simp only [grownWord?, UInt64.lt_iff_toNat_lt, freeWord, behindWord, sizeWord, capacityWord]
  by_cases room : additional.toNat ≤ capacity - size
  · have small : capacity + additional.toNat < 0x10000000000000000 := by omega
    rw [if_neg (Nat.not_lt.mpr room), if_pos small, grownCapacity,
      if_neg (Nat.not_lt.mpr room), kept]
  · have short : capacity - size < additional.toNat := Nat.lt_of_not_le room
    rw [if_pos short]
    by_cases small : capacity + additional.toNat < 0x10000000000000000
    · rw [Nat.mod_eq_of_lt small, if_pos small, grownCapacity, if_pos short, Nat.mul_comm capacity]
      have more : capacity - size < max (2 * capacity) (capacity + additional.toNat) - size := by
        omega
      rw [if_pos more]
      congr 1
      omega
    · have wraps : (capacity + additional.toNat) % 0x10000000000000000 < capacity := by omega
      have doubled :
          max (2 * capacity) ((capacity + additional.toNat) % 0x10000000000000000) =
            2 * capacity :=
        Nat.max_eq_left (by omega)
      rw [doubled, if_neg small, if_pos (by omega)]
      congr 1
      omega

/-- A write puts its bytes behind the others and makes room for them. -/
theorem grown_write (buffer : ByteBuffer) (added : ByteArray) :
    buffer.Grown added.data.toList (buffer.write added) :=
  ⟨buffer.appended_write added, congrArg (grownCapacity _ _) Array.length_toList.symm, rfl⟩

/-- Every append comes to one piece of bytes. -/
theorem exists_grown_of_appended?
    {operation : Operation}
    (appends : operation.appended? = some added)
    (buffer : ByteBuffer) :
    ∃ after, buffer.perform? operation = some after ∧ buffer.Grown added after := by
  cases operation with
  | write bytes =>
      cases appends
      exact ⟨_, rfl, buffer.grown_write bytes⟩
  | writeField type value =>
      cases appends
      exact ⟨_, rfl, buffer.grown_write ⟨(type.bytes value).toArray⟩⟩
  | reserveInt32 =>
      cases appends
      exact ⟨_, rfl, buffer.grown_write ⟨#[0, 0, 0, 0]⟩⟩
  | patchInt32 offset value => cases appends
  | ensureCapacity additional => cases appends
  | flip => cases appends
  | seek position => cases appends
  | clear => cases appends
  | reader => cases appends

/-- An append keeps the buffer in its room, which does not become less. -/
theorem Grown.keepsFits (fits : buffer.Fits) (grown : buffer.Grown added after) :
    after.Fits ∧ buffer.capacity ≤ after.capacity := by
  have size := grown.size_eq
  refine ⟨⟨?_, ?_⟩, ?_⟩
  · rw [grown.cursor_eq, size]
    exact Nat.le_trans fits.cursor_le (Nat.le_add_right _ _)
  · rw [grown.capacity_eq, size]
    exact add_le_grownCapacity fits.size_le added.length
  · rw [grown.capacity_eq]
    exact le_grownCapacity _ _ _

/-- Room that an append does not fit in is doubled, or raised by the append. -/
theorem Grown.capacity_of_lt
    (fits : buffer.Fits)
    (grown : buffer.Grown added after)
    (short : buffer.capacity < buffer.size + added.length) :
    after.capacity = max (2 * buffer.capacity) (buffer.capacity + added.length) ∧
      after.size ≤ after.capacity ∧ after.capacity < 2 * after.size := by
  have raised := grownCapacity_of_lt fits.size_le short
  rw [← grown.capacity_eq, ← grown.size_eq] at raised
  exact ⟨raised.1, (grown.keepsFits fits).1.size_le, raised.2⟩

/-- A patch inside the bytes replaces four of them. -/
theorem patched_patchInt32
    {offset : Nat}
    (inside : offset + 4 ≤ buffer.size)
    (value : Int) :
    buffer.Patched offset value (buffer.patchInt32 offset value) := by
  have whole : buffer.bytes.data.toList.length = buffer.size := Array.length_toList
  have shape : buffer.bytes.data.toList =
      buffer.bytes.data.toList.take offset ++
        ((buffer.bytes.data.toList.drop offset).take 4 ++
          buffer.bytes.data.toList.drop (offset + 4)) := by
    rw [← List.drop_drop, List.take_append_drop, List.take_append_drop]
  have front : (buffer.bytes.data.toList.take offset).length = offset := by
    rw [List.length_take, whole]
    omega
  have old : ((buffer.bytes.data.toList.drop offset).take 4).length = 4 := by
    rw [List.length_take, List.length_drop, whole]
    omega
  have overwritten :=
    toList_overwrite shape (old.trans (FieldType.length_bytes .int32 value).symm)
  rw [front] at overwritten
  exact ⟨⟨_, _, _, shape, front, old, overwritten⟩, rfl, rfl, rfl⟩

/-- A patch leaves as many bytes as there were. -/
theorem Patched.size_eq
    {offset : Nat}
    {value : Int}
    (patched : buffer.Patched offset value after) :
    after.size = buffer.size := by
  obtain ⟨front, old, back, before, _, sized, behind⟩ := patched.bytes_eq
  change after.bytes.data.size = buffer.bytes.data.size
  rw [← Array.length_toList, ← Array.length_toList, before, behind]
  simp only [List.length_append, FieldType.length_bytes, sized]
  rfl

/-- A patch that is not refused replaces four bytes. -/
theorem exists_patched
    {offset : Nat}
    {value : Int}
    (performed : buffer.perform? (.patchInt32 offset value) = some after) :
    buffer.Patched offset value after := by
  change (if offset + 4 ≤ buffer.size then _ else none) = _ at performed
  split at performed
  · rename_i inside
    cases performed
    exact patched_patchInt32 inside value
  · cases performed

/-- Only a patch past the bytes is refused. -/
theorem perform?_eq_none_iff {operation : Operation} :
    buffer.perform? operation = none ↔
      ∃ offset value, operation = .patchInt32 offset value ∧ buffer.size < offset + 4 := by
  constructor
  · intro refused
    cases operation with
    | patchInt32 offset value =>
        change (if offset + 4 ≤ buffer.size then _ else none) = _ at refused
        split at refused
        · cases refused
        · rename_i outside
          exact ⟨offset, value, rfl, Nat.lt_of_not_le outside⟩
    | _ => cases refused
  · rintro ⟨offset, value, rfl, outside⟩
    exact if_neg (Nat.not_le_of_lt outside)

/-- Every operation keeps the cursor in the bytes and the bytes in the capacity. -/
theorem Fits.perform
    (fits : buffer.Fits)
    {operation : Operation}
    (performed : buffer.perform? operation = some after) :
    after.Fits ∧ buffer.capacity ≤ after.capacity := by
  cases appends : operation.appended? with
  | some added =>
      obtain ⟨same, did, grown⟩ := exists_grown_of_appended? appends buffer
      cases performed.symm.trans did
      exact grown.keepsFits fits
  | none =>
      cases operation with
      | write bytes => cases appends
      | writeField type value => cases appends
      | reserveInt32 => cases appends
      | patchInt32 offset value =>
          have patched := exists_patched performed
          refine ⟨⟨?_, ?_⟩, Nat.le_of_eq patched.capacity_eq.symm⟩
          · rw [patched.cursor_eq, patched.size_eq]
            exact fits.cursor_le
          · rw [patched.capacity_eq, patched.size_eq]
            exact fits.size_le
      | ensureCapacity additional =>
          cases performed
          have room := le_grownCapacity buffer.capacity buffer.size additional
          exact ⟨⟨fits.cursor_le, Nat.le_trans fits.size_le room⟩, room⟩
      | flip =>
          cases performed
          exact ⟨⟨Nat.zero_le _, fits.size_le⟩, Nat.le_refl _⟩
      | seek position =>
          cases performed
          exact ⟨⟨Nat.min_le_right _ _, fits.size_le⟩, Nat.le_refl _⟩
      | clear =>
          cases performed
          exact ⟨⟨Nat.le_refl _, Nat.zero_le _⟩, Nat.le_refl _⟩
      | reader =>
          cases performed
          unfold ensureReadable
          split
          · exact ⟨fits, Nat.le_refl _⟩
          · exact ⟨⟨Nat.zero_le _, fits.size_le⟩, Nat.le_refl _⟩

/-- A run keeps the cursor in the bytes and the bytes in the capacity. -/
theorem Fits.performAll
    (fits : buffer.Fits)
    {operations : List Operation}
    (performed : buffer.performAll? operations = some after) :
    after.Fits ∧ buffer.capacity ≤ after.capacity := by
  induction operations generalizing buffer with
  | nil =>
      cases performed
      exact ⟨fits, Nat.le_refl _⟩
  | cons operation rest inductionHypothesis =>
      rw [performAll?] at performed
      cases first : buffer.perform? operation with
      | none =>
          rw [first] at performed
          cases performed
      | some between =>
          rw [first] at performed
          have step := fits.perform first
          have others := inductionHypothesis step.1 performed
          exact ⟨others.1, Nat.le_trans step.2 others.2⟩

/-- An empty buffer is in its room. -/
theorem fits_withCapacity (capacity : Nat) : (withCapacity capacity).Fits :=
  ⟨Nat.le_refl 0, Nat.zero_le capacity⟩

/-- What a reader of the buffer goes over are the bytes behind the cursor. -/
theorem Fits.toList_unread (fits : buffer.Fits) :
    buffer.unread.data.toList = buffer.bytes.data.toList.drop buffer.cursor ∧
      buffer.cursor + buffer.remaining = buffer.size := by
  refine ⟨?_, Nat.add_sub_cancel' fits.cursor_le⟩
  have whole : buffer.bytes.data.toList.length = buffer.size := Array.length_toList
  rw [unread, ByteArray.data_extract, Array.toList_extract, List.extract_eq_take_drop]
  apply List.take_of_length_le
  exact Nat.le_of_eq (by rw [List.length_drop, whole])

/--
Whatever was done with a buffer that was empty at first, its cursor is inside
its bytes and they are inside its capacity, which no further run lowers.  Only
a patch past the bytes is refused.  An append puts exactly its bytes behind
the others, and when it did not fit, the capacity is doubled or raised by the
append, to less than twice the new size.  A patch replaces exactly four bytes.
Room that is requested in machine words comes to the same capacity, but a
request that no sum of words can hold only doubles it.
-/
theorem run_keeps_room
    {capacity : Nat}
    {operations : List Operation}
    (ran : (withCapacity capacity).performAll? operations = some buffer) :
    buffer.Fits ∧
      buffer.unread.data.toList = buffer.bytes.data.toList.drop buffer.cursor ∧
      buffer.cursor + buffer.remaining = buffer.size ∧
      (∀ later after, buffer.performAll? later = some after →
        buffer.capacity ≤ after.capacity) ∧
      (∀ operation, buffer.perform? operation = none ↔
        ∃ offset value, operation = .patchInt32 offset value ∧ buffer.size < offset + 4) ∧
      (∀ operation added, operation.appended? = some added →
        ∃ after, buffer.perform? operation = some after ∧ buffer.Grown added after ∧
          (buffer.capacity < buffer.size + added.length →
            after.capacity = max (2 * buffer.capacity) (buffer.capacity + added.length) ∧
              after.size ≤ after.capacity ∧ after.capacity < 2 * after.size)) ∧
      (∀ offset value after, buffer.perform? (.patchInt32 offset value) = some after →
        buffer.Patched offset value after) ∧
      (∀ additional : UInt64, buffer.capacity ≤ largestCapacity →
        grownWord? (.ofNat buffer.capacity) (.ofNat buffer.size) additional =
          obtained?
            (if buffer.capacity + additional.toNat < 0x10000000000000000 then
              (buffer.ensureCapacity additional.toNat).capacity
            else
              2 * buffer.capacity)) := by
  have fits := ((fits_withCapacity capacity).performAll ran).1
  have unread := fits.toList_unread
  refine ⟨fits, unread.1, unread.2, ?_, fun _ => perform?_eq_none_iff, ?_, ?_, ?_⟩
  · intro later after performed
    exact (fits.performAll performed).2
  · intro operation added appends
    obtain ⟨after, performed, grown⟩ := exists_grown_of_appended? appends buffer
    exact ⟨after, performed, grown, grown.capacity_of_lt fits⟩
  · intro offset value after
    exact exists_patched
  · exact fun additional held => grownWord?_eq fits.size_le held additional

/-- A buffer without any room, written to, flipped, moved in, written to again and patched. -/
theorem run_keeps_room_patched :
    let operations : List Operation :=
      [.write ⟨#[1, 2, 3]⟩, .flip, .seek 2, .reserveInt32, .patchInt32 3 (-2),
        .ensureCapacity 1]
    let buffer : ByteBuffer := ⟨⟨#[1, 2, 3, 254, 255, 255, 255]⟩, 14, 2, true⟩
    let thirty : ByteArray := ⟨Array.replicate 30 7⟩
    (withCapacity 0).performAll? operations = some buffer ∧
      buffer.cursor ≤ buffer.size ∧ buffer.size ≤ buffer.capacity ∧
      ∃ after, buffer.perform? (.write thirty) = some after ∧
        after.capacity = 44 ∧ after.capacity < 2 * after.size := by
  intro operations buffer thirty
  have ran : (withCapacity 0).performAll? operations = some buffer := rfl
  obtain ⟨fits, _, _, _, _, appends, _⟩ := run_keeps_room ran
  obtain ⟨after, performed, _, raised⟩ := appends (.write thirty) thirty.data.toList rfl
  obtain ⟨capacity, _, below⟩ := raised (by decide)
  exact ⟨ran, fits.cursor_le, fits.size_le, after, performed, capacity, below⟩

end DocumentCodec.ByteBuffer
