import DocumentCodec.Proofs.MessagePack.Grammar

namespace DocumentCodec.MessagePack

/-!
# What lead bytes announce

`Lead.ofByte` reads a lead byte by ranges.  Here it is tied to the bytes that
the grammar begins its forms with, one statement in each direction.
-/

/-- A lead byte begins the form of the grammar that it announces. -/
def Lead.Begins (lead : UInt8) : Lead → Prop
  | .integer value =>
      -32 ≤ value.toInt ∧ value.toInt < 128 ∧ [lead] = FieldType.int8.bytes value.toInt
  | .map count => count ≤ 15 ∧ lead = fixMap + UInt8.ofNat count
  | .array count => count ≤ 15 ∧ lead = fixArray + UInt8.ofNat count
  | .string length => length ≤ 31 ∧ lead = fixString + UInt8.ofNat length
  | .marker found => lead = found.byte
  | .reserved => lead = 0xc1

instance (lead : UInt8) (announced : Lead) : Decidable (announced.Begins lead) := by
  cases announced <;> unfold Lead.Begins <;> infer_instance

/-- A byte begins what it is classified as. -/
theorem Lead.begins_ofByte (lead : UInt8) : (Lead.ofByte lead).Begins lead := by
  have all : ∀ number < 256, (Lead.ofByte (UInt8.ofNat number)).Begins (UInt8.ofNat number) := by
    decide +kernel
  have this := all lead.toNat lead.toNat_lt
  rwa [UInt8.ofNat_toNat] at this

/-- A marker's byte is classified as the marker. -/
theorem Lead.ofByte_marker (marker : Marker) :
    Lead.ofByte marker.byte = .marker marker := by
  have apart : ¬ marker.byte < fixMap ∧ ¬ marker.byte < fixArray ∧
      ¬ marker.byte < fixString ∧ ¬ marker.byte < 0xc0 ∧ ¬ fixNegative ≤ marker.byte := by
    cases marker <;> decide
  obtain ⟨number, map, array, string, negative⟩ := apart
  rw [Lead.ofByte, if_neg number, if_neg map, if_neg array, if_neg string, if_neg negative,
    Marker.ofByte?_byte]

/-- A small map's byte tells its count. -/
theorem Lead.ofByte_fixMap {count : Nat} (small : count ≤ 15) :
    Lead.ofByte (fixMap + UInt8.ofNat count) = .map count := by
  have all : ∀ number ≤ 15, Lead.ofByte (fixMap + UInt8.ofNat number) = .map number := by
    decide +kernel
  exact all count small

/-- A small array's byte tells its count. -/
theorem Lead.ofByte_fixArray {count : Nat} (small : count ≤ 15) :
    Lead.ofByte (fixArray + UInt8.ofNat count) = .array count := by
  have all : ∀ number ≤ 15, Lead.ofByte (fixArray + UInt8.ofNat number) = .array number := by
    decide +kernel
  exact all count small

/-- A short text's byte tells its length. -/
theorem Lead.ofByte_fixString {length : Nat} (short : length ≤ 31) :
    Lead.ofByte (fixString + UInt8.ofNat length) = .string length := by
  have all :
      ∀ number ≤ 31, Lead.ofByte (fixString + UInt8.ofNat number) = .string number := by
    decide +kernel
  exact all length short

/-- A small number's byte tells the number. -/
theorem Lead.exists_ofByte_integer
    {value : Int32}
    (lower : -32 ≤ value.toInt)
    (upper : value.toInt < 128) :
    ∃ lead, FieldType.int8.bytes value.toInt = [lead] ∧
      Lead.ofByte lead = .integer value := by
  have all : ∀ number : Nat, number < 160 →
      FieldType.int8.bytes ((number : Int) - 32) =
          [(FieldType.int8.bytes ((number : Int) - 32)).headD 0] ∧
        Lead.ofByte ((FieldType.int8.bytes ((number : Int) - 32)).headD 0) =
          .integer (Int32.ofInt ((number : Int) - 32)) := by
    decide +kernel
  have back : (((value.toInt + 32).toNat : Nat) : Int) - 32 = value.toInt := by omega
  have this := all (value.toInt + 32).toNat (by omega)
  rw [back, Int32.ofInt_toInt] at this
  exact ⟨_, this⟩

end DocumentCodec.MessagePack
