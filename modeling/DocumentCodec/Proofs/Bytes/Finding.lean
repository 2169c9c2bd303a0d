import DocumentCodec.Proofs.Bytes.Truth

namespace DocumentCodec.Scan

/-!
# The place that a search finds

A search ends at the first place from its start on where the delimiter stands.
The start may be inside the bytes, at their end or behind it.

Main statements: `findByte?` gives the least such place and nothing when there
is none, and the byte that it picks in a word is the one with the lowest mark.
-/

/-- The lowest mark of a word stands in its lowest marked byte. -/
theorem lowestMarkedByte_eq_div
    {count mark : Nat}
    {mask : UInt64}
    (inside : mark < 8 * count)
    (marked : mask.toBitVec.getLsbD mark = true)
    (lowest : ∀ bit < mark, mask.toBitVec.getLsbD bit = false) :
    lowestMarkedByte count mask = mark / 8 := by
  induction count generalizing mark mask with
  | zero => exact absurd inside (Nat.not_lt_zero mark)
  | succ count inductionHypothesis =>
      have lowByte : mask.toUInt8 = 0 ↔ 8 ≤ mark := by
        constructor
        · intro none
          apply Nat.le_of_not_lt
          intro below
          have bit : mask.toUInt8.toBitVec.getLsbD mark = true := by
            rw [UInt64.toBitVec_toUInt8, BitVec.getLsbD_setWidth, marked]
            simpa using below
          rw [none] at bit
          simp at bit
        · intro above
          apply UInt8.toBitVec_inj.mp
          apply BitVec.eq_of_getLsbD_eq
          intro bit inByte
          rw [UInt64.toBitVec_toUInt8, BitVec.getLsbD_setWidth,
            lowest bit (Nat.lt_of_lt_of_le inByte above)]
          simp
      rw [lowestMarkedByte]
      -- a mark above the low byte is found in the word without that byte
      by_cases above : 8 ≤ mark
      · have shifted : lowestMarkedByte count (mask >>> 8) = (mark - 8) / 8 := by
          apply inductionHypothesis
          · omega
          · rw [getLsbD_shiftRight_eight, Nat.add_sub_cancel' above]
            exact marked
          · intro bit below
            rw [getLsbD_shiftRight_eight]
            exact lowest (8 + bit) (by omega)
        rw [if_pos ((and_lowest_eq_zero_iff mask).mpr (lowByte.mpr above)), shifted]
        omega
      · rw [if_neg fun none => above (lowByte.mp ((and_lowest_eq_zero_iff mask).mp none))]
        omega

/-- The lowest marked byte is told by the number of zeros below the lowest mark. -/
theorem lowestMarkedByte_eq_ctz {mask : UInt64} (marked : mask ≠ 0) :
    lowestMarkedByte wordSize mask = mask.toBitVec.ctz.toNat / 8 := by
  have nonzero : mask.toBitVec ≠ 0#64 := fun zero => marked (UInt64.toBitVec_inj.mp zero)
  apply lowestMarkedByte_eq_div
  · exact BitVec.ctz_lt_iff_ne_zero.mpr nonzero
  · exact BitVec.getLsbD_true_ctz_of_ne_zero nonzero
  · intro bit lower
    exact BitVec.getLsbD_false_of_lt_ctz lower

/-- The first zero byte of a word is the one that the lowest set bit of its marks is in. -/
theorem findIdx?_eq_ctz (word : UInt64) :
    (Word.littleEndian wordSize word.toNat).findIdx? (· == 0) =
      if zeroByteMask word = 0 then
        none
      else
        some ((zeroByteMask word).toBitVec.ctz.toNat / 8) := by
  have sized : (Word.littleEndian wordSize word.toNat).length = wordSize :=
    Word.length_littleEndian _ _
  have spelled : word.toNat =
      Word.ofLittleEndian (Word.littleEndian wordSize word.toNat) := by
    rw [Word.ofLittleEndian_littleEndian]
    exact (Nat.mod_eq_of_lt word.toNat_lt).symm
  have found := findIdx?_eq_lowestMarkedByte
    (sized.symm ▸ repeats_lowBits_highBits) spelled
  rw [sized] at found
  change _ = if zeroByteMask word = 0 then
    none else some (lowestMarkedByte wordSize (zeroByteMask word)) at found
  rw [found]
  split
  · rfl
  · rename_i marked
    rw [lowestMarkedByte_eq_ctz marked]

/-- An offset behind the start is a place of the haystack. -/
theorem beq_getElem_drop
    {haystack : ByteArray}
    {start offset : Nat}
    (present : offset < (haystack.data.toList.drop start).length)
    (needle : UInt8) :
    ((haystack.data.toList.drop start)[offset] == needle) = true ↔
      HoldsAt haystack (start + offset) needle := by
  rw [beq_iff_eq, HoldsAt, ← List.getElem?_drop, List.getElem?_eq_getElem present,
    Option.some_inj]

/-- The search is the plain one through what is not in front of the start. -/
theorem findByte?_eq_findIdx? (haystack : ByteArray) (start : Nat) (needle : UInt8) :
    findByte? haystack start needle =
      ((haystack.data.toList.drop start).findIdx? (· == needle)).map (start + ·) := by
  have whole : haystack.data.toList.length = haystack.size := Array.length_toList
  unfold findByte?
  split
  · rename_i inside
    rw [findByteBetween?_eq_findIdx? (Nat.le_of_lt inside) (Nat.le_refl _),
      List.take_of_length_le]
    exact Nat.le_of_eq (by rw [List.length_drop, whole])
  · rename_i behind
    rw [List.drop_eq_nil_of_le (whole.symm ▸ Nat.le_of_not_lt behind)]
    rfl

/-- The delimiter stands at an index that is not in front of the start. -/
def Matches (haystack : ByteArray) (start : Nat) (needle : UInt8) (index : Nat) : Prop :=
  start ≤ index ∧ HoldsAt haystack index needle

/-- What is found is the least place from the start on, and that is found. -/
theorem findByte?_eq_some_iff
    {haystack : ByteArray}
    {start index : Nat}
    {needle : UInt8} :
    findByte? haystack start needle = some index ↔
      Matches haystack start needle index ∧
        ∀ earlier < index, ¬ Matches haystack start needle earlier := by
  rw [findByte?_eq_findIdx?, Option.map_eq_some_iff]
  constructor
  · rintro ⟨offset, found, rfl⟩
    obtain ⟨present, stands, first⟩ := List.findIdx?_eq_some_iff_getElem.mp found
    refine ⟨⟨Nat.le_add_right _ _, (beq_getElem_drop present needle).mp stands⟩, ?_⟩
    rintro earlier before ⟨behind, earlierStands⟩
    have closer : earlier - start < offset := by omega
    apply first (earlier - start) closer
    apply (beq_getElem_drop (Nat.lt_trans closer present) needle).mpr
    rw [Nat.add_sub_cancel' behind]
    exact earlierStands
  · rintro ⟨⟨behind, stands⟩, first⟩
    have inside : index < haystack.data.toList.length :=
      (List.getElem?_eq_some_iff.mp stands).choose
    have present : index - start < (haystack.data.toList.drop start).length := by
      rw [List.length_drop]
      omega
    refine ⟨index - start, ?_, Nat.add_sub_cancel' behind⟩
    apply List.findIdx?_eq_some_iff_getElem.mpr
    refine ⟨present, ?_, ?_⟩
    · apply (beq_getElem_drop present needle).mpr
      rw [Nat.add_sub_cancel' behind]
      exact stands
    · intro offset closer earlierStands
      apply first (start + offset) (by omega)
      refine ⟨Nat.le_add_right _ _, ?_⟩
      exact (beq_getElem_drop (Nat.lt_trans closer present) needle).mp earlierStands

/--
Searching a word at a time finds the least index from the start on at which
the delimiter stands, and finds nothing exactly when it stands nowhere there.
Whatever a word holds, marks or not, its first zero byte is the one in which the
lowest mark stands: marks of bytes that are not zero are above that.
-/
theorem findByte?_finds_least (haystack : ByteArray) (start : Nat) (needle : UInt8) :
    (∀ index, findByte? haystack start needle = some index ↔
        Matches haystack start needle index ∧
          ∀ earlier < index, ¬ Matches haystack start needle earlier) ∧
      (findByte? haystack start needle = none ↔
        ∀ index, ¬ Matches haystack start needle index) ∧
      ∀ word : UInt64,
        (Word.littleEndian wordSize word.toNat).findIdx? (· == 0) =
          if zeroByteMask word = 0 then
            none
          else
            some ((zeroByteMask word).toBitVec.ctz.toNat / 8) := by
  refine ⟨fun index => findByte?_eq_some_iff, ⟨?_, ?_⟩, findIdx?_eq_ctz⟩
  · rintro unfound index ⟨behind, stands⟩
    rw [findByte?_eq_findIdx?, Option.map_eq_none_iff, List.findIdx?_eq_none_iff] at unfound
    have member : needle ∈ haystack.data.toList.drop start := by
      apply List.mem_of_getElem? (i := index - start)
      rw [List.getElem?_drop, Nat.add_sub_cancel' behind]
      exact stands
    have differs := unfound needle member
    rw [beq_self_eq_true] at differs
    cases differs
  · intro absent
    cases found : findByte? haystack start needle with
    | none => rfl
    | some index => exact absurd (findByte?_eq_some_iff.mp found).1 (absent index)

end DocumentCodec.Scan
