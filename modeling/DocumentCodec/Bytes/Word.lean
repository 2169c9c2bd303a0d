namespace DocumentCodec.Word

/-!
# Words as bytes

A word of `count` bytes is a natural number below `modulus count`.  It is written
least significant byte first (`littleEndian`) or most significant byte first
(`bigEndian`), and read back by `ofLittleEndian` and `ofBigEndian`.

Main statements: both writings have exactly `count` bytes, reading undoes
writing modulo `modulus count`, and writing undoes reading.
-/

/-- Number of words of `count` bytes. -/
def modulus (count : Nat) : Nat :=
  Nat.pow 256 count

/-- The `count` low bytes of a number, least significant first. -/
def littleEndian : (count value : Nat) → List UInt8
  | 0, _ => []
  | count + 1, value =>
      UInt8.ofNat (value % 256) :: littleEndian count (value / 256)

/-- The `count` low bytes of a number, most significant first. -/
def bigEndian (count value : Nat) : List UInt8 :=
  (littleEndian count value).reverse

/-- The number whose bytes are given least significant first. -/
def ofLittleEndian : List UInt8 → Nat
  | [] => 0
  | byte :: rest => byte.toNat + 256 * ofLittleEndian rest

/-- The number whose bytes are given most significant first. -/
def ofBigEndian (bytes : List UInt8) : Nat :=
  ofLittleEndian bytes.reverse

/-- One byte more means 256 times as many words. -/
theorem modulus_succ (count : Nat) :
    modulus (count + 1) = 256 * modulus count :=
  Nat.mul_comm _ _

/-- There is a word of any number of bytes. -/
theorem modulus_pos (count : Nat) : 0 < modulus count :=
  Nat.pow_pos (by decide)

/-- A number takes no bytes when there is room for none. -/
@[simp]
theorem littleEndian_zero (value : Nat) : littleEndian 0 value = [] :=
  rfl

/-- The least significant byte comes first, and the others follow. -/
@[simp]
theorem littleEndian_succ (count value : Nat) :
    littleEndian (count + 1) value =
      UInt8.ofNat (value % 256) :: littleEndian count (value / 256) :=
  rfl

/-- No bytes are zero. -/
@[simp]
theorem ofLittleEndian_nil : ofLittleEndian [] = 0 :=
  rfl

/-- The first byte counts once, and the others count 256 times. -/
@[simp]
theorem ofLittleEndian_cons (byte : UInt8) (rest : List UInt8) :
    ofLittleEndian (byte :: rest) = byte.toNat + 256 * ofLittleEndian rest :=
  rfl

/-- A little-endian word has as many bytes as asked for. -/
@[simp]
theorem length_littleEndian (count value : Nat) :
    (littleEndian count value).length = count := by
  induction count generalizing value with
  | zero => rfl
  | succ count inductionHypothesis =>
      simp [inductionHypothesis]

/-- A big-endian word has as many bytes as asked for. -/
@[simp]
theorem length_bigEndian (count value : Nat) :
    (bigEndian count value).length = count := by
  simp [bigEndian]

/-- Reading a little-endian word keeps exactly its low `count` bytes. -/
theorem ofLittleEndian_littleEndian (count value : Nat) :
    ofLittleEndian (littleEndian count value) = value % modulus count := by
  induction count generalizing value with
  | zero => exact (Nat.mod_one value).symm
  | succ count inductionHypothesis =>
      have byteValue : (UInt8.ofNat (value % 256)).toNat = value % 256 := by
        simp
      rw [littleEndian_succ, ofLittleEndian_cons, inductionHypothesis,
        byteValue, modulus_succ, Nat.mod_mul]

/-- Reading a big-endian word keeps exactly its low `count` bytes. -/
theorem ofBigEndian_bigEndian (count value : Nat) :
    ofBigEndian (bigEndian count value) = value % modulus count := by
  simp [ofBigEndian, bigEndian, ofLittleEndian_littleEndian]

/-- A word of `count` bytes is below `modulus count`. -/
theorem ofLittleEndian_lt (bytes : List UInt8) :
    ofLittleEndian bytes < modulus bytes.length := by
  induction bytes with
  | nil => exact modulus_pos 0
  | cons byte rest inductionHypothesis =>
      have byteBound : byte.toNat < 256 := byte.toNat_lt
      rw [ofLittleEndian_cons, List.length_cons, modulus_succ]
      omega

/-- Writing a word undoes reading it. -/
theorem littleEndian_ofLittleEndian (bytes : List UInt8) :
    littleEndian bytes.length (ofLittleEndian bytes) = bytes := by
  induction bytes with
  | nil => rfl
  | cons byte rest inductionHypothesis =>
      have byteBound : byte.toNat < 256 := byte.toNat_lt
      have low : (byte.toNat + 256 * ofLittleEndian rest) % 256 = byte.toNat := by
        omega
      have high :
          (byte.toNat + 256 * ofLittleEndian rest) / 256 =
            ofLittleEndian rest := by
        omega
      rw [List.length_cons, ofLittleEndian_cons, littleEndian_succ, low, high,
        inductionHypothesis, UInt8.ofNat_toNat]

end DocumentCodec.Word
