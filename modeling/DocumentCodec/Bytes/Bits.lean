namespace DocumentCodec.Bits

/-!
# Fields of bits

A field of a word is a run of its bits, counted from the least significant one.
-/

/-- Number of patterns of `width` bits. -/
def modulus (width : Nat) : Nat :=
  Nat.pow 2 width

/-- The `width` bits of a word from the bit at an offset on. -/
def field (word offset width : Nat) : Nat :=
  word / modulus offset % modulus width

/-- A field is below the number of its patterns. -/
theorem field_lt (word offset width : Nat) :
    field word offset width < modulus width :=
  Nat.mod_lt _ (Nat.pow_pos (by decide))

end DocumentCodec.Bits
