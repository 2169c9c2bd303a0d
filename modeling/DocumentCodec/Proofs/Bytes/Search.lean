import DocumentCodec.Bytes.Scan

namespace DocumentCodec.Scan

/-!
# Words against single bytes

The search compares eight bytes at once.  Here the marks it makes in a word
are followed byte by byte from the lowest one up: a byte that is not zero
leaves no mark and passes no borrow on, and the first zero byte is marked.
So the fast search finds what the plain one finds.
-/

/-- The marks that a word gets when other words stand for the low and high bits. -/
def marks (low high word : UInt64) : UInt64 :=
  (word - low) &&& ~~~word &&& high

/-- Both words repeat their lowest byte, which has one bit, in so many bytes. -/
def Repeats : Nat → UInt64 → UInt64 → Prop
  | 0, _, high => high = 0
  | count + 1, low, high =>
      low.toUInt8 = 0x01 ∧ high.toUInt8 = 0x80 ∧
        Repeats count (low >>> 8) (high >>> 8)

instance decidableRepeats :
    (count : Nat) → (low high : UInt64) → Decidable (Repeats count low high)
  | 0, _, high => inferInstanceAs (Decidable (high = 0))
  | count + 1, low, high =>
      have := decidableRepeats count (low >>> 8) (high >>> 8)
      inferInstanceAs (Decidable (_ ∧ _ ∧ _))

/-- The two constants have the lowest and the highest bit of each byte. -/
theorem repeats_lowBits_highBits : Repeats wordSize lowBits highBits := by
  decide

/-- To shift by eight is to divide by 256. -/
theorem toNat_shiftRight_eight (word : UInt64) :
    (word >>> 8).toNat = word.toNat / 256 := by
  rw [UInt64.toNat_shiftRight]
  exact Nat.shiftRight_eq_div_pow _ 8

/-- The lowest byte is marked exactly when it is zero. -/
theorem marks_toUInt8
    {low high : UInt64}
    (lowByte : low.toUInt8 = 0x01)
    (highByte : high.toUInt8 = 0x80)
    (word : UInt64) :
    (marks low high word).toUInt8 = if word.toUInt8 = 0 then 0x80 else 0 := by
  have everyByte : ∀ byte : Fin 256,
      (UInt8.ofFin byte - 0x01) &&& ~~~(UInt8.ofFin byte) &&& 0x80 =
        if UInt8.ofFin byte = 0 then 0x80 else 0 := by
    decide +kernel
  have atByte := everyByte word.toUInt8.toFin
  rw [marks, UInt64.toUInt8_and, UInt64.toUInt8_and, UInt64.toUInt8_sub,
    UInt64.toUInt8_not, lowByte, highByte]
  exact atByte

/-- Above a lowest byte that borrows nothing, words are subtracted on their own. -/
theorem sub_shiftRight
    {low word : UInt64}
    (lowByte : low.toUInt8 = 0x01)
    (nonzero : word.toUInt8 ≠ 0) :
    (word - low).toNat / 256 % Nat.pow 2 56 =
      (word >>> 8 - low >>> 8).toNat % Nat.pow 2 56 := by
  have lowRemainder : low.toNat % 256 = 1 := by
    rw [← UInt64.toNat_toUInt8, lowByte]
    rfl
  have wordRemainder : word.toNat % 256 ≠ 0 := by
    rw [← UInt64.toNat_toUInt8]
    exact fun zero => nonzero (UInt8.toNat_inj.mp zero)
  have lowBound := low.toNat_lt
  have wordBound := word.toNat_lt
  have width : Nat.pow 2 56 = 72057594037927936 := rfl
  rw [UInt64.toNat_sub, UInt64.toNat_sub, toNat_shiftRight_eight,
    toNat_shiftRight_eight, width]
  omega

/-- To shift by eight moves each bit down by eight. -/
theorem getLsbD_shiftRight_eight (word : UInt64) (index : Nat) :
    (word >>> 8).toBitVec.getLsbD index = word.toBitVec.getLsbD (8 + index) := by
  change (word >>> 8).toNat.testBit index = word.toNat.testBit (8 + index)
  rw [UInt64.toNat_shiftRight]
  exact Nat.testBit_shiftRight word.toNat

/-- A mark is a borrowed highest bit of a byte whose own one is clear. -/
theorem getLsbD_marks (low high word : UInt64) (index : Nat) :
    (marks low high word).toBitVec.getLsbD index =
      ((word - low).toBitVec.getLsbD index &&
        (decide (index < 64) && !word.toBitVec.getLsbD index) &&
          high.toBitVec.getLsbD index) := by
  simp only [marks, UInt64.toBitVec_and, UInt64.toBitVec_not, BitVec.getLsbD_and,
    BitVec.getLsbD_not]

/-- Behind a byte that is not zero the marks are those of the rest of the word. -/
theorem marks_shiftRight
    {low high word : UInt64}
    (lowByte : low.toUInt8 = 0x01)
    (nonzero : word.toUInt8 ≠ 0) :
    marks low high word >>> 8 = marks (low >>> 8) (high >>> 8) (word >>> 8) := by
  have same := sub_shiftRight lowByte nonzero
  apply UInt64.toBitVec_inj.mp
  apply BitVec.eq_of_getLsbD_eq
  intro index inWord
  rw [getLsbD_shiftRight_eight, getLsbD_marks, getLsbD_marks,
    getLsbD_shiftRight_eight, getLsbD_shiftRight_eight]
  by_cases inside : index < 56
  · have bit :
        (word - low).toBitVec.getLsbD (8 + index) =
          (word >>> 8 - low >>> 8).toBitVec.getLsbD index := by
      have atIndex := congrArg (fun number => number.testBit index) same
      simp only [Nat.pow_eq, Nat.testBit_mod_two_pow, inside, decide_true,
        Bool.true_and, ← toNat_shiftRight_eight] at atIndex
      rw [← getLsbD_shiftRight_eight]
      exact atIndex
    have alsoInside : 8 + index < 64 := by omega
    simp only [bit, inWord, alsoInside]
  · -- The shifted words end before the highest byte.
    have noMark : high.toBitVec.getLsbD (8 + index) = false :=
      BitVec.getLsbD_of_ge _ _ (by omega)
    simp only [noMark, Bool.and_false]

/-- The lowest byte of a word is zero if none of its bits is set. -/
theorem and_lowest_eq_zero_iff (word : UInt64) :
    word &&& 0xff = 0 ↔ word.toUInt8 = 0 := by
  have masked : (word &&& 0xff).toNat = word.toNat % 256 := by
    rw [UInt64.toNat_and]
    exact Nat.and_two_pow_sub_one_eq_mod word.toNat 8
  rw [← UInt64.toNat_inj, ← UInt8.toNat_inj, masked, UInt64.toNat_toUInt8]
  rfl

/-- A word without a mark in its lowest byte is marked where the rest of it is. -/
theorem eq_zero_iff_shiftRight
    {word : UInt64}
    (unmarked : word.toUInt8 = 0) :
    word = 0 ↔ word >>> 8 = 0 := by
  have remainder : word.toNat % 256 = 0 := by
    rw [← UInt64.toNat_toUInt8, unmarked]
    rfl
  rw [← UInt64.toNat_inj, ← UInt64.toNat_inj, toNat_shiftRight_eight]
  change word.toNat = 0 ↔ word.toNat / 256 = 0
  omega

/-- The lowest mark in a word stands at the first of its bytes that is zero. -/
theorem findIdx?_eq_lowestMarkedByte
    {bytes : List UInt8}
    {low high word : UInt64}
    (repeated : Repeats bytes.length low high)
    (spelled : word.toNat = Word.ofLittleEndian bytes) :
    bytes.findIdx? (· == 0) =
      if marks low high word = 0 then
        none
      else
        some (lowestMarkedByte bytes.length (marks low high word)) := by
  induction bytes generalizing low high word with
  | nil =>
      have noHigh : high = 0 := repeated
      simp [marks, noHigh]
  | cons byte rest inductionHypothesis =>
      obtain ⟨lowByte, highByte, restRepeated⟩ := repeated
      rw [Word.ofLittleEndian_cons] at spelled
      have byteBound : byte.toNat < 256 := byte.toNat_lt
      have lowest : word.toUInt8 = byte := by
        apply UInt8.toNat_inj.mp
        rw [UInt64.toNat_toUInt8, spelled]
        omega
      have lowestMark := marks_toUInt8 lowByte highByte word
      rw [lowest] at lowestMark
      by_cases zero : byte = 0
      · rw [if_pos zero] at lowestMark
        have marked : (marks low high word).toUInt8 ≠ 0 := by
          rw [lowestMark]
          decide
        have notZero : marks low high word ≠ 0 := by
          intro none
          rw [none] at marked
          exact marked rfl
        simp only [List.findIdx?_cons, zero, beq_self_eq_true, if_true, notZero,
          if_false, List.length_cons, lowestMarkedByte, and_lowest_eq_zero_iff,
          marked]
      · rw [if_neg zero] at lowestMark
        have shifted : (word >>> 8).toNat = Word.ofLittleEndian rest := by
          rw [toNat_shiftRight_eight, spelled]
          omega
        have onRest := inductionHypothesis restRepeated shifted
        rw [← marks_shiftRight lowByte (by rw [lowest]; exact zero)] at onRest
        have different : (byte == 0) = false := beq_eq_false_iff_ne.mpr zero
        simp only [List.findIdx?_cons, different, Bool.false_eq_true, if_false,
          onRest, List.length_cons, lowestMarkedByte, and_lowest_eq_zero_iff,
          lowestMark, if_true, eq_zero_iff_shiftRight lowestMark]
        split <;> rfl

/-- Exclusive or works on the lowest digit and on the digits above it separately. -/
theorem xor_digits
    {left right : Nat}
    (leftBound : left < 256)
    (rightBound : right < 256)
    (leftRest rightRest : Nat) :
    (left + 256 * leftRest) ^^^ (right + 256 * rightRest) =
      (left ^^^ right) + 256 * (leftRest ^^^ rightRest) := by
  have remainder :
      ((left + 256 * leftRest) ^^^ (right + 256 * rightRest)) % 2 ^ 8 =
        left ^^^ right := by
    rw [Nat.xor_mod_two_pow]
    congr 1 <;> omega
  have quotient :
      ((left + 256 * leftRest) ^^^ (right + 256 * rightRest)) / 2 ^ 8 =
        leftRest ^^^ rightRest := by
    rw [Nat.xor_div_two_pow]
    congr 1 <;> omega
  omega

/-- To change each byte by a delimiter is to change the word by the delimiter's pattern. -/
theorem ofLittleEndian_map_xor (bytes : List UInt8) (needle : UInt8) :
    Word.ofLittleEndian (bytes.map (· ^^^ needle)) =
      Word.ofLittleEndian bytes ^^^
        Word.ofLittleEndian (List.replicate bytes.length needle) := by
  induction bytes with
  | nil => simp
  | cons byte rest inductionHypothesis =>
      have byteBound : byte.toNat < 256 := byte.toNat_lt
      have needleBound : needle.toNat < 256 := needle.toNat_lt
      simp only [List.map_cons, List.length_cons, List.replicate_succ,
        Word.ofLittleEndian_cons, inductionHypothesis, UInt8.toNat_xor]
      exact (xor_digits byteBound needleBound _ _).symm

/-- The delimiter repeated in every byte of a word. -/
theorem toNat_pattern (needle : UInt8) :
    (lowBits * needle.toUInt64).toNat =
      Word.ofLittleEndian (List.replicate wordSize needle) := by
  have bound : needle.toNat < 256 := needle.toNat_lt
  have lowValue : lowBits.toNat = 72340172838076673 := rfl
  rw [UInt64.toNat_mul, lowValue, UInt8.toNat_toUInt64]
  simp only [wordSize, List.replicate_succ, List.replicate_zero,
    Word.ofLittleEndian_cons, Word.ofLittleEndian_nil]
  omega

/-- A byte that is present is the one of the list. -/
theorem get!_eq_getElem
    {bytes : ByteArray}
    {position : Nat}
    (present : position < bytes.data.toList.length) :
    bytes.get! position = bytes.data.toList[position] := by
  rw [Array.length_toList] at present
  rw [Array.getElem_toList]
  exact getElem!_pos bytes.data position present

/-- A search goes through bytes before a position first and then on behind them. -/
theorem firstMatch?_skip
    (bytes : ByteArray)
    {position count stop : Nat}
    (inside : position + count ≤ stop)
    (stopInside : stop ≤ bytes.size)
    (needle : UInt8) :
    firstMatch? bytes position stop needle =
      match ((bytes.data.toList.drop position).take count).findIdx? (· == needle) with
      | some index => some (position + index)
      | none => firstMatch? bytes (position + count) stop needle := by
  induction count generalizing position with
  | zero => simp
  | succ count inductionHypothesis =>
      have next := @inductionHypothesis (position + 1) (by omega)
      have present : position < bytes.data.toList.length := by
        rw [Array.length_toList]
        exact Nat.lt_of_lt_of_le (by omega) stopInside
      rw [List.drop_eq_getElem_cons present, List.take_succ_cons, List.findIdx?_cons]
      rw [firstMatch?, if_pos (by omega), next, get!_eq_getElem present]
      by_cases found : bytes.data.toList[position] = needle
      · simp [found]
      · have different : (bytes.data.toList[position] == needle) = false :=
          beq_eq_false_iff_ne.mpr found
        simp only [found, if_false, different, Bool.false_eq_true]
        rw [show position + (count + 1) = position + 1 + count by omega]
        cases List.findIdx? (· == needle)
            ((bytes.data.toList.drop (position + 1)).take count) with
        | none => rfl
        | some index =>
            simp only [Option.map_some]
            congr 1
            omega

/-- There is a whole word of bytes inside. -/
theorem length_slice
    {bytes : ByteArray}
    {position : Nat}
    (inside : position + wordSize ≤ bytes.size) :
    ((bytes.data.toList.drop position).take wordSize).length = wordSize := by
  rw [List.length_take, List.length_drop, Array.length_toList]
  change min wordSize (bytes.size - position) = wordSize
  omega

/-- A word that is loaded stands for its bytes. -/
theorem toNat_loadWord
    {bytes : ByteArray}
    {position : Nat}
    (inside : position + wordSize ≤ bytes.size) :
    (loadWord bytes position).toNat =
      Word.ofLittleEndian ((bytes.data.toList.drop position).take wordSize) := by
  have slice :
      (bytes.extract position (position + wordSize)).data.toList =
        (bytes.data.toList.drop position).take wordSize := by
    rw [ByteArray.data_extract, Array.toList_extract, List.extract_eq_take_drop,
      Nat.add_sub_cancel_left]
  have bound := Word.ofLittleEndian_lt ((bytes.data.toList.drop position).take wordSize)
  rw [length_slice inside] at bound
  rw [loadWord, slice, UInt64.toNat_ofNat']
  exact Nat.mod_eq_of_lt bound

/-- The marks of a word that was compared with a delimiter tell where it stands. -/
theorem findIdx?_slice
    {bytes : ByteArray}
    {position : Nat}
    (inside : position + wordSize ≤ bytes.size)
    (needle : UInt8) :
    ((bytes.data.toList.drop position).take wordSize).findIdx? (· == needle) =
      let mask :=
        zeroByteMask (loadWord bytes position ^^^ lowBits * needle.toUInt64)
      if mask = 0 then none else some (lowestMarkedByte wordSize mask) := by
  have sized := length_slice inside
  have spelled :
      (loadWord bytes position ^^^ lowBits * needle.toUInt64).toNat =
        Word.ofLittleEndian
          (((bytes.data.toList.drop position).take wordSize).map (· ^^^ needle)) := by
    rw [ofLittleEndian_map_xor, UInt64.toNat_xor, toNat_loadWord inside,
      toNat_pattern, sized]
  have found := findIdx?_eq_lowestMarkedByte
    (by rw [List.length_map, sized]; exact repeats_lowBits_highBits) spelled
  have sameTest :
      ((· == 0) ∘ fun byte : UInt8 => byte ^^^ needle) = (· == needle) := by
    funext byte
    rw [Bool.eq_iff_iff]
    simp
  rw [List.findIdx?_map, sameTest, List.length_map, sized] at found
  exact found

/-- Searching eight bytes at a time finds what searching byte by byte finds. -/
theorem findByteBetween?_eq_firstMatch?
    {bytes : ByteArray}
    (position : Nat)
    {stop : Nat}
    (stopInside : stop ≤ bytes.size)
    (needle : UInt8) :
    findByteBetween? bytes position stop needle =
      firstMatch? bytes position stop needle := by
  fun_induction findByteBetween? bytes position stop needle with
  | case1 position fits pattern mask unmarked inductionHypothesis =>
      have found := findIdx?_slice (Nat.le_trans fits stopInside) needle
      change _ = if mask = 0 then none else some (lowestMarkedByte wordSize mask) at found
      rw [if_pos unmarked] at found
      rw [firstMatch?_skip bytes fits stopInside needle, found, inductionHypothesis]
  | case2 position fits pattern mask marked =>
      have found := findIdx?_slice (Nat.le_trans fits stopInside) needle
      change _ = if mask = 0 then none else some (lowestMarkedByte wordSize mask) at found
      rw [if_neg marked] at found
      rw [firstMatch?_skip bytes fits stopInside needle, found]
  | case3 position short =>
      rfl

/-- The search finds the first place where the delimiter stands in a range. -/
theorem findByteBetween?_eq_findIdx?
    {bytes : ByteArray}
    {position stop : Nat}
    (ordered : position ≤ stop)
    (stopInside : stop ≤ bytes.size)
    (needle : UInt8) :
    findByteBetween? bytes position stop needle =
      (((bytes.data.toList.drop position).take (stop - position)).findIdx?
        (· == needle)).map (position + ·) := by
  have whole : position + (stop - position) = stop := by omega
  rw [findByteBetween?_eq_firstMatch? position stopInside,
    firstMatch?_skip bytes (Nat.le_of_eq whole) stopInside needle, whole, firstMatch?,
    if_neg (Nat.lt_irrefl stop)]
  cases List.findIdx? (· == needle)
      ((bytes.data.toList.drop position).take (stop - position)) with
  | none => rfl
  | some index => rfl

/-- The first place of a delimiter splits a list into what is before and behind it. -/
theorem findIdx?_eq_some_iff_append
    {bytes : List UInt8}
    {needle : UInt8}
    {index : Nat} :
    bytes.findIdx? (· == needle) = some index ↔
      ∃ front back,
        bytes = front ++ needle :: back ∧ needle ∉ front ∧ front.length = index := by
  induction bytes generalizing index with
  | nil => simp
  | cons byte rest inductionHypothesis =>
      rw [List.findIdx?_cons]
      by_cases found : byte = needle
      · subst found
        simp only [beq_self_eq_true, if_true, Option.some.injEq]
        constructor
        · rintro rfl
          exact ⟨[], rest, rfl, List.not_mem_nil, rfl⟩
        · rintro ⟨front, back, shape, absent, rfl⟩
          cases front with
          | nil => rfl
          | cons first others =>
              injection shape with same
              subst same
              exact (absent List.mem_cons_self).elim
      · have different : (byte == needle) = false := beq_eq_false_iff_ne.mpr found
        simp only [different, Bool.false_eq_true, if_false, Option.map_eq_some_iff]
        constructor
        · rintro ⟨inner, foundInner, rfl⟩
          obtain ⟨front, back, rfl, absent, rfl⟩ := inductionHypothesis.mp foundInner
          refine ⟨byte :: front, back, rfl, ?_, rfl⟩
          exact List.not_mem_cons_of_ne_of_not_mem (Ne.symm found) absent
        · rintro ⟨front, back, shape, absent, rfl⟩
          cases front with
          | nil =>
              injection shape with same
              exact (found same).elim
          | cons first others =>
              injection shape with _ shape
              refine ⟨others.length, inductionHypothesis.mpr ⟨others, back, shape, ?_, rfl⟩,
                rfl⟩
              exact fun member => absent (List.mem_cons_of_mem _ member)

/-- A search finds a byte if the bytes have it. -/
theorem isSome_findByte? (haystack : ByteArray) (needle : UInt8) :
    (findByte? haystack 0 needle).isSome ↔ needle ∈ haystack.data.toList := by
  have whole : haystack.data.toList.length = haystack.size := Array.length_toList
  unfold findByte?
  split
  · rw [findByteBetween?_eq_findIdx? (Nat.zero_le _) (Nat.le_refl _), List.drop_zero,
      Nat.sub_zero, ← whole, List.take_length, Option.isSome_map,
      List.findIdx?_isSome, List.any_beq', List.contains_iff_mem]
  · have empty : haystack.data.toList = [] := List.length_eq_zero_iff.mp (by omega)
    simp [empty]

end DocumentCodec.Scan
