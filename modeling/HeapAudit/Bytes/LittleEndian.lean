/-!
# Words as bytes, least significant byte first

Dumps and checksums see words as eight bytes each, least significant first.
Reading undoes writing (`LittleEndian.decode_encode`).
-/

namespace HeapAudit.LittleEndian

set_option autoImplicit false

/-- The eight bytes of a word. -/
def encode (word : UInt64) : List UInt8 :=
  [word.toUInt8, (word >>> 8).toUInt8, (word >>> 16).toUInt8, (word >>> 24).toUInt8,
    (word >>> 32).toUInt8, (word >>> 40).toUInt8, (word >>> 48).toUInt8, (word >>> 56).toUInt8]

/-- The word whose bytes are given. -/
def decode (bytes : List UInt8) : UInt64 :=
  bytes.foldr (fun byte rest => byte.toUInt64 + 256 * rest) 0

@[simp] theorem length_encode (word : UInt64) : (encode word).length = 8 := rfl

/-- Reading the bytes of a word gives the word back. -/
theorem decode_encode (word : UInt64) : decode (encode word) = word := by
  apply UInt64.toNat_inj.mp
  have bound := word.toNat_lt
  simp only [encode, decode, List.foldr_cons, List.foldr_nil, UInt64.toNat_add, UInt64.toNat_mul,
    UInt8.toNat_toUInt64, UInt64.toNat_toUInt8, UInt64.toNat_shiftRight, UInt64.toNat_ofNat,
    Nat.shiftRight_eq_div_pow]
  simp only [Nat.reduceMod, Nat.reducePow]
  omega

end HeapAudit.LittleEndian
