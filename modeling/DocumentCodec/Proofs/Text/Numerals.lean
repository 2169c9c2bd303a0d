import DocumentCodec.Bson.Writing
import DocumentCodec.Proofs.Text.Digits

namespace DocumentCodec.Numeral

/-!
# Numerals in twenty bytes

A number has one numeral: digits without a needless zero in front that
evaluate to it.  The keys of array elements are such numerals, and those of
64-bit numbers never need more than twenty bytes.  They can be written without
a list: digits are divided off into scratch bytes, lowest first, and copied
from there in the opposite order.

Main statements: `ofNat` gives the only numeral of a number, and writing it
in place stays inside the twenty bytes and leaves exactly its digits there.
-/

/-- The digits of a number in base ten, with a leading zero only for zero itself. -/
structure IsNumeral (number : Nat) (digits : List UInt8) : Prop where
  nonempty : digits ≠ []
  isDigit : ∀ digit ∈ digits, 0x30 ≤ digit ∧ digit ≤ 0x39
  leading : digits.head? = some 0x30 → digits = [0x30]
  value_eq : value digits = number

/-- A digit's code is the digit of its value. -/
theorem digit_toNat_sub {byte : UInt8} (bounds : 0x30 ≤ byte ∧ byte ≤ 0x39) :
    byte.toNat - 0x30 < 10 ∧ digit (byte.toNat - 0x30) = byte := by
  rw [UInt8.le_iff_toNat_le, UInt8.le_iff_toNat_le] at bounds
  change 48 ≤ byte.toNat ∧ byte.toNat ≤ 57 at bounds
  have small : byte.toNat - 0x30 < 10 := by omega
  refine ⟨small, UInt8.toNat_inj.mp ?_⟩
  rw [toNat_digit small]
  omega

/-- Only zero has the digit zero. -/
theorem digit_eq_zero_iff {number : Nat} (small : number < 10) :
    digit number = 0x30 ↔ number = 0 := by
  rw [← UInt8.toNat_inj, toNat_digit small]
  change number + 48 = 48 ↔ number = 0
  omega

/-- One more digit behind the others. -/
theorem value_append_singleton (digits : List UInt8) (last : UInt8) :
    value (digits ++ [last]) = 10 * value digits + (last.toNat - 0x30) := by
  rw [value, List.foldl_append]
  rfl

/-- The digits of a number have its value. -/
theorem value_reverse_lowestFirst (number : Nat) :
    value (lowestFirst number).reverse = number := by
  induction number using Nat.strongRecOn with
  | ind number inductionHypothesis =>
      cases Nat.eq_zero_or_pos number with
      | inl zero =>
          rw [zero, lowestFirst_zero]
          rfl
      | inr positive =>
          have small : number % 10 < 10 := Nat.mod_lt _ (by decide)
          rw [lowestFirst_of_pos positive, List.reverse_cons, value_append_singleton,
            inductionHypothesis (number / 10) (by omega), toNat_digit small]
          omega

/-- The highest digit of a positive number is not zero. -/
theorem getLast?_lowestFirst_ne (number : Nat) :
    (lowestFirst number).getLast? ≠ some 0x30 := by
  induction number using Nat.strongRecOn with
  | ind number inductionHypothesis =>
      cases Nat.eq_zero_or_pos number with
      | inl zero =>
          rw [zero, lowestFirst_zero]
          intro same
          cases same
      | inr positive =>
          rw [lowestFirst_of_pos positive]
          by_cases single : number < 10
          · rw [Nat.div_eq_of_lt single, lowestFirst_zero, Nat.mod_eq_of_lt single]
            intro zero
            have zeroDigit : digit number = 0x30 := Option.some.inj zero
            exact Nat.ne_of_gt positive ((digit_eq_zero_iff single).mp zeroDigit)
          · have more : 0 < number / 10 := by omega
            have others := inductionHypothesis (number / 10) (by omega)
            rw [lowestFirst_of_pos more] at others ⊢
            rw [List.getLast?_cons_cons]
            exact others

/-- A positive number has digits. -/
theorem lowestFirst_ne_nil {number : Nat} (positive : 0 < number) : lowestFirst number ≠ [] := by
  rw [lowestFirst_of_pos positive]
  exact List.cons_ne_nil _ _

/-- What is written for a number is its numeral. -/
theorem isNumeral_ofNat (number : Nat) : IsNumeral number (ofNat number) := by
  have isDigit : ∀ digit ∈ ofNat number, 0x30 ≤ digit ∧ digit ≤ 0x39 :=
    fun _ => isDigit_of_mem_ofNat
  by_cases zero : number = 0
  · subst zero
    exact ⟨List.cons_ne_nil _ _, isDigit, fun _ => rfl, rfl⟩
  · have numeral : ofNat number = (lowestFirst number).reverse := if_neg zero
    rw [numeral] at isDigit ⊢
    refine ⟨?_, isDigit, ?_, value_reverse_lowestFirst number⟩
    · intro none
      exact lowestFirst_ne_nil (Nat.pos_of_ne_zero zero) (List.reverse_eq_nil_iff.mp none)
    · intro first
      rw [List.head?_reverse] at first
      exact absurd first (getLast?_lowestFirst_ne number)

/-- Digits, lowest first, of which the highest is not zero are those of their number. -/
theorem lowestFirst_value
    {digits : List UInt8}
    (isDigit : ∀ digit ∈ digits, 0x30 ≤ digit ∧ digit ≤ 0x39)
    (highest : digits.getLast? ≠ some 0x30) :
    lowestFirst (value digits.reverse) = digits := by
  induction digits with
  | nil => exact lowestFirst_zero
  | cons lowest others inductionHypothesis =>
      obtain ⟨small, same⟩ := digit_toNat_sub (isDigit lowest List.mem_cons_self)
      have positive : 0 < value (lowest :: others).reverse ∧
          lowestFirst (value others.reverse) = others := by
        rw [List.reverse_cons, value_append_singleton]
        cases others with
        | nil =>
            have nonzero : lowest.toNat - 0x30 ≠ 0 := by
              intro zero
              apply highest
              rw [zero] at same
              rw [← same]
              rfl
            exact ⟨by omega, lowestFirst_zero⟩
        | cons next rest =>
            rw [List.getLast?_cons_cons] at highest
            have onRest := inductionHypothesis
              (fun digit member => isDigit digit (List.mem_cons_of_mem _ member)) highest
            have nonzero : value (next :: rest).reverse ≠ 0 := by
              intro zero
              rw [zero, lowestFirst_zero] at onRest
              cases onRest
            exact ⟨by omega, onRest⟩
      rw [lowestFirst_of_pos positive.1, List.reverse_cons, value_append_singleton,
        Nat.mul_add_mod, Nat.mod_eq_of_lt small, same, Nat.mul_add_div (by decide),
        Nat.div_eq_of_lt small, Nat.add_zero, positive.2]

/-- A number has no other numeral. -/
theorem isNumeral_iff {number : Nat} {digits : List UInt8} :
    IsNumeral number digits ↔ digits = ofNat number := by
  constructor
  · rintro ⟨nonempty, isDigit, leading, rfl⟩
    by_cases zero : digits = [0x30]
    · rw [zero]
      rfl
    · have highest : digits.reverse.getLast? ≠ some 0x30 := by
        rw [List.getLast?_reverse]
        exact fun first => zero (leading first)
      have read := lowestFirst_value
        (fun digit member => isDigit digit (List.mem_reverse.mp member)) highest
      rw [List.reverse_reverse] at read
      unfold ofNat
      split
      · rename_i none
        rw [none, lowestFirst_zero] at read
        exact absurd (List.reverse_eq_nil_iff.mp read.symm) nonempty
      · rw [read, List.reverse_reverse]
  · rintro rfl
    exact isNumeral_ofNat number

/-- A number below a power of ten has no more digits than the exponent says. -/
theorem length_lowestFirst_le {number digits : Nat} (small : number < Nat.pow 10 digits) :
    (lowestFirst number).length ≤ digits := by
  induction digits generalizing number with
  | zero =>
      have zero : number = 0 := Nat.lt_one_iff.mp small
      rw [zero, lowestFirst_zero]
      exact Nat.le_refl 0
  | succ digits inductionHypothesis =>
      cases Nat.eq_zero_or_pos number with
      | inl zero =>
          rw [zero, lowestFirst_zero]
          exact Nat.zero_le _
      | inr positive =>
          rw [lowestFirst_of_pos positive, List.length_cons]
          apply Nat.succ_le_succ
          apply inductionHypothesis
          exact Nat.div_lt_of_lt_mul (Nat.mul_comm _ _ ▸ small)

/-- Twenty bytes, as many as the longest numeral of a 64-bit number has. -/
abbrev Slots :=
  Vector UInt8 20

/-- Put a byte in one of the slots; there is none behind the last. -/
def put? (slots : Slots) (place : Nat) (byte : UInt8) : Option Slots :=
  if inside : place < 20 then
    some (slots.set place byte)
  else
    none

/--
Divide digits off a number into the slots from a place on, lowest first.  The
answer includes the place behind them.
-/
def divideInto? (number : UInt64) (place : Nat) (slots : Slots) : Option (Nat × Slots) :=
  if number = 0 then
    some (place, slots)
  else
    match put? slots place (0x30 + (number % 10).toUInt8) with
    | some filled => divideInto? (number / 10) (place + 1) filled
    | none => none
termination_by number.toNat
decreasing_by
  rename_i nonzero
  have positive : number.toNat ≠ 0 := fun zero => nonzero (UInt64.toNat_inj.mp zero)
  rw [UInt64.toNat_div]
  exact Nat.div_lt_self (Nat.pos_of_ne_zero positive) (by decide)

/-- Copy the first slots, the last of them first, to the places from one on. -/
def turnInto? (scratch : Slots) : (count place : Nat) → Slots → Option Slots
  | 0, _, out => some out
  | count + 1, place, out => do
      let byte ← scratch[count]?
      let filled ← put? out place byte
      turnInto? scratch count (place + 1) filled

/-- Write the numeral of a number to the front of the slots; the answer includes its length. -/
def write? (number : UInt64) (out : Slots) : Option (Nat × Slots) :=
  if number = 0 then do
    let filled ← put? out 0 0x30
    some (1, filled)
  else do
    let (count, scratch) ← divideInto? number 0 (Vector.replicate 20 0)
    let filled ← turnInto? scratch count 0 out
    some (count, filled)

variable {front middle back : List UInt8}

/-- A byte that is put in a place is there, and the others stay. -/
theorem exists_put?
    {slots : Slots}
    {old : UInt8}
    (shape : slots.toList = front ++ old :: back)
    (byte : UInt8) :
    ∃ filled, put? slots front.length byte = some filled ∧
      filled.toList = front ++ byte :: back := by
  have inside : front.length < 20 := by
    have length := congrArg List.length shape
    rw [Vector.length_toList, List.length_append, List.length_cons] at length
    omega
  refine ⟨slots.set front.length byte, dif_pos inside, ?_⟩
  rw [Vector.toList_set, shape, List.set_append_right _ _ (Nat.le_refl _), Nat.sub_self]
  rfl

/-- The digit that a machine word's remainder makes is the number's lowest one. -/
theorem digit_toNat_mod (number : UInt64) :
    0x30 + (number % 10).toUInt8 = digit (number.toNat % 10) := by
  apply UInt8.toNat_inj.mp
  rw [toNat_digit (Nat.mod_lt _ (by decide)), UInt8.toNat_add, UInt64.toNat_toUInt8,
    UInt64.toNat_mod]
  change (48 + number.toNat % 10 % 256) % 256 = number.toNat % 10 + 48
  omega

/-- The digits of a number take the place of as many slots. -/
theorem exists_divideInto?
    {number : UInt64}
    {slots : Slots}
    (shape : slots.toList = front ++ (middle ++ back))
    (sized : middle.length = (lowestFirst number.toNat).length) :
    ∃ filled,
      divideInto? number front.length slots = some (front.length + middle.length, filled) ∧
        filled.toList = front ++ (lowestFirst number.toNat ++ back) := by
  induction middle generalizing number front slots with
  | nil =>
      have none : lowestFirst number.toNat = [] := List.eq_nil_of_length_eq_zero sized.symm
      have zero : number = 0 := by
        apply UInt64.toNat_inj.mp
        exact Nat.eq_zero_of_not_pos fun positive => lowestFirst_ne_nil positive none
      refine ⟨slots, ?_, ?_⟩
      · rw [divideInto?, if_pos zero]
        rfl
      · rw [shape, none]
  | cons old others inductionHypothesis =>
      have nonzero : number ≠ 0 := by
        rintro rfl
        rw [UInt64.toNat_zero, lowestFirst_zero] at sized
        cases sized
      have positive : 0 < number.toNat :=
        Nat.pos_of_ne_zero fun zero => nonzero (UInt64.toNat_inj.mp zero)
      have divided : (number / 10).toNat = number.toNat / 10 := UInt64.toNat_div _ _
      rw [lowestFirst_of_pos positive, ← divided, ← digit_toNat_mod] at sized ⊢
      obtain ⟨filled, put, shaped⟩ :=
        exists_put? shape (0x30 + (number % 10).toUInt8)
      rw [List.append_cons] at shaped
      obtain ⟨last, went, lastShape⟩ := inductionHypothesis shaped (Nat.succ.inj sized)
      refine ⟨last, ?_, ?_⟩
      · rw [divideInto?, if_neg nonzero, put]
        rw [List.length_append, List.length_singleton] at went
        rw [List.length_cons, Nat.add_comm others.length 1, ← Nat.add_assoc]
        exact went
      · rw [lastShape, List.append_assoc]
        rfl

/-- What is copied is the first slots in the opposite order. -/
theorem exists_turnInto?
    (scratch : Slots)
    {out : Slots}
    (shape : out.toList = front ++ (middle ++ back)) :
    ∃ filled, turnInto? scratch middle.length front.length out = some filled ∧
      filled.toList = front ++ ((scratch.toList.take middle.length).reverse ++ back) := by
  induction middle generalizing front out with
  | nil => exact ⟨out, rfl, shape⟩
  | cons old others inductionHypothesis =>
      have inside : others.length < scratch.toList.length := by
        have length := congrArg List.length shape
        rw [Vector.length_toList, List.length_append, List.length_append,
          List.length_cons] at length
        rw [Vector.length_toList]
        omega
      have present : scratch[others.length]? = some scratch.toList[others.length] := by
        rw [← Vector.getElem?_toList]
        exact List.getElem?_eq_getElem inside
      obtain ⟨filled, put, shaped⟩ := exists_put? shape scratch.toList[others.length]
      rw [List.append_cons] at shaped
      obtain ⟨last, went, lastShape⟩ := inductionHypothesis shaped
      refine ⟨last, ?_, ?_⟩
      · rw [List.length_append, List.length_singleton] at went
        rw [List.length_cons, turnInto?, present]
        change (put? out front.length _).bind _ = _
        rw [put]
        exact went
      · rw [lastShape, List.length_cons, ← List.take_append_getElem inside,
          List.reverse_append, List.append_assoc]
        rfl

/-- The numeral takes the place of as many of the slots, whatever they hold. -/
theorem exists_write? (number : UInt64) (out : Slots) :
    ∃ filled,
      write? number out = some ((ofNat number.toNat).length, filled) ∧
        (ofNat number.toNat).length ≤ 20 ∧
        filled.toList =
          ofNat number.toNat ++ out.toList.drop (ofNat number.toNat).length := by
  have split (slots : Slots) {count : Nat} (inside : count ≤ 20) :
      slots.toList = [] ++ (slots.toList.take count ++ slots.toList.drop count) ∧
        (slots.toList.take count).length = count := by
    refine ⟨(List.take_append_drop count slots.toList).symm, ?_⟩
    rw [List.length_take, Vector.length_toList, Nat.min_eq_left inside]
  by_cases zero : number = 0
  · subst zero
    obtain ⟨shape, sized⟩ := split out (show 1 ≤ 20 by decide)
    obtain ⟨old, single⟩ := List.length_eq_one_iff.mp sized
    rw [single] at shape
    obtain ⟨filled, put, shaped⟩ := exists_put? shape 0x30
    refine ⟨filled, ?_, by decide, shaped⟩
    rw [write?, if_pos rfl]
    change (put? out 0 0x30).bind _ = _
    rw [show put? out 0 0x30 = some filled from put]
    rfl
  · have nonzero : number.toNat ≠ 0 := fun none => zero (UInt64.toNat_inj.mp none)
    have numeral : ofNat number.toNat = (lowestFirst number.toNat).reverse := if_neg nonzero
    have short : (lowestFirst number.toNat).length ≤ 20 :=
      length_lowestFirst_le (Nat.lt_of_lt_of_le number.toNat_lt (by decide))
    obtain ⟨blank, blankSized⟩ := split (Vector.replicate 20 0) short
    -- the first loop leaves the digits lowest first, and the second one turns them round
    obtain ⟨scratch, divided, digits⟩ := exists_divideInto? blank blankSized
    obtain ⟨shape, sized⟩ := split out short
    obtain ⟨filled, turned, shaped⟩ := exists_turnInto? scratch shape
    simp only [blankSized, List.length_nil, Nat.zero_add] at divided
    simp only [sized, List.length_nil] at turned
    rw [sized, digits, List.nil_append, List.nil_append, List.take_left] at shaped
    rw [numeral, List.length_reverse]
    refine ⟨filled, ?_, short, shaped⟩
    rw [write?, if_neg zero]
    change (divideInto? number 0 _).bind _ = _
    rw [divided]
    change (turnInto? scratch _ 0 out).bind _ = _
    rw [turned]
    rfl

/-- A numeral tells its number. -/
theorem ofNat_injective {left right : Nat} (same : ofNat left = ofNat right) : left = right := by
  rw [← (isNumeral_ofNat left).value_eq, same, (isNumeral_ofNat right).value_eq]

/-- A position's key is its numeral and a zero. -/
theorem toList_key_index (position : Nat) :
    (Bson.key (.index position)).bytes.data.toList = ofNat position ++ [0] := by
  change (ByteArray.empty ++ (⟨(ofNat position).toArray⟩ : ByteArray) ++ ⟨#[0]⟩).data.toList = _
  rw [ByteArray.data_append, ByteArray.data_append, Array.toList_append, Array.toList_append]
  rfl

/--
The numeral of a 64-bit number is written inside the twenty bytes, whatever
they hold, and changes none behind its digits.  They are the number's only
numeral and hold no zero byte.  The element of an array at this position is
keyed by them, and the one at any other position has another key.
-/
theorem write?_gives_numeral (number : UInt64) (out : Slots) :
    ∃ count filled,
      write? number out = some (count, filled) ∧ count ≤ 20 ∧
        filled.toList.drop count = out.toList.drop count ∧
        (∀ digits, IsNumeral number.toNat digits ↔ digits = filled.toList.take count) ∧
        0 ∉ filled.toList.take count ∧
        Bson.key (.index number.toNat) = .ofList (filled.toList.take count) ++ .byte 0 ∧
        ∀ position,
          (Bson.key (.index position)).bytes = (Bson.key (.index number.toNat)).bytes →
            position = number.toNat := by
  obtain ⟨filled, wrote, short, shaped⟩ := exists_write? number out
  have digits : filled.toList.take (ofNat number.toNat).length = ofNat number.toNat := by
    rw [shaped, List.take_left]
  refine ⟨_, filled, wrote, short, ?_, ?_, ?_, ?_, ?_⟩
  · rw [shaped, List.drop_left]
  · intro others
    rw [digits]
    exact isNumeral_iff
  · rw [digits]
    exact zero_not_mem_ofNat number.toNat
  · rw [digits]
    rfl
  · intro position sameBytes
    have sameDigits := congrArg (fun bytes => bytes.data.toList) sameBytes
    simp only [toList_key_index] at sameDigits
    exact ofNat_injective (List.append_cancel_right sameDigits)

end DocumentCodec.Numeral
