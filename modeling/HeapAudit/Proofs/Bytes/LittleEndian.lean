import HeapAudit.Bytes.LittleEndian
import HeapAudit.Proofs.Foundations

/-!
# From bytes to a word and back

Eight bytes are those of the word that they stand for (`LittleEndian.encode_decode`).  The proof reads
the bytes off the low end of the word one at a time: as long as there are at most eight of them, what
is left stands for the others.  A row of words, too, can be read back from its bytes
(`LittleEndian.words_flatMap_encode`).
-/

namespace HeapAudit.LittleEndian

set_option autoImplicit false

/-! ## One word -/

/-- The given number of bytes at the low end of a word. -/
def lowBytes : Nat → UInt64 → List UInt8
  | 0, _ => []
  | count + 1, word => word.toUInt8 :: lowBytes count (word >>> 8)

theorem encode_eq_lowBytes (word : UInt64) : encode word = lowBytes 8 word := by
  have shift (places : UInt64) (small : places < 56) :
      word >>> places >>> 8 = word >>> (places + 8) := by
    apply UInt64.toNat_inj.mp
    rw [UInt64.lt_iff_toNat_lt, show (56 : UInt64).toNat = 56 from rfl] at small
    simp only [UInt64.toNat_shiftRight, UInt64.toNat_add, UInt64.reduceToNat]
    rw [Nat.mod_eq_of_lt (show places.toNat + 8 < 2 ^ 64 by omega),
      Nat.mod_eq_of_lt (show places.toNat + 8 < 64 by omega),
      Nat.mod_eq_of_lt (show places.toNat < 64 by omega), Nat.shiftRight_add]
  simp only [lowBytes, encode]
  rw [shift 8 (by decide), shift _ (by decide), shift _ (by decide), shift _ (by decide),
    shift _ (by decide), shift _ (by decide)]
  rfl

/-- A byte in front of a word with room for it. -/
theorem toNat_decode_cons (byte : UInt8) {rest : List UInt8} (room : (decode rest).toNat < 2 ^ 56) :
    (decode (byte :: rest)).toNat = byte.toNat + 256 * (decode rest).toNat := by
  have small := byte.toNat_lt
  show (byte.toUInt64 + 256 * decode rest).toNat = _
  simp only [UInt64.toNat_add, UInt64.toNat_mul, UInt8.toNat_toUInt64, UInt64.reduceToNat]
  omega

theorem toNat_decode_lt {bytes : List UInt8} (short : bytes.length ≤ 8) :
    (decode bytes).toNat < 256 ^ bytes.length := by
  induction bytes with
  | nil => exact Nat.one_pos
  | cons byte rest onward =>
    have small := byte.toNat_lt
    have below := onward (Nat.le_of_succ_le short)
    have most : 256 ^ rest.length ≤ 256 ^ 7 :=
      Nat.pow_le_pow_right (by decide) (Nat.le_of_succ_le_succ short)
    rw [toNat_decode_cons byte (Nat.lt_of_lt_of_le below most), List.length_cons, Nat.pow_succ]
    omega

/-- Up to eight bytes are the low end of the word that they stand for. -/
theorem lowBytes_decode {bytes : List UInt8} (short : bytes.length ≤ 8) :
    lowBytes bytes.length (decode bytes) = bytes := by
  induction bytes with
  | nil => rfl
  | cons byte rest onward =>
    have small := byte.toNat_lt
    have room : (decode rest).toNat < 2 ^ 56 :=
      Nat.lt_of_lt_of_le (toNat_decode_lt (Nat.le_of_succ_le short))
        (Nat.pow_le_pow_right (by decide) (Nat.le_of_succ_le_succ short))
    have value := toNat_decode_cons byte room
    have first : (decode (byte :: rest)).toUInt8 = byte := by
      rw [← UInt8.toNat_inj, UInt64.toNat_toUInt8, value]
      omega
    have others : decode (byte :: rest) >>> 8 = decode rest := by
      simp only [← UInt64.toNat_inj, UInt64.toNat_shiftRight, UInt64.reduceToNat, value,
        Nat.reduceMod, Nat.shiftRight_eq_div_pow]
      omega
    rw [List.length_cons, lowBytes, first, others, onward (Nat.le_of_succ_le short)]

/-- Eight bytes are those of the word that they stand for. -/
theorem encode_decode {bytes : List UInt8} (length : bytes.length = 8) :
    encode (decode bytes) = bytes := by
  rw [encode_eq_lowBytes, ← length]
  exact lowBytes_decode (Nat.le_of_eq length)

/-! ## Rows of words -/

/-- The words whose bytes are given one after another. -/
def words : List UInt8 → List UInt64
  | b0 :: b1 :: b2 :: b3 :: b4 :: b5 :: b6 :: b7 :: rest =>
    decode [b0, b1, b2, b3, b4, b5, b6, b7] :: words rest
  | _ => []

/-- Words are known by their bytes. -/
theorem words_flatMap_encode (row : List UInt64) : words (row.flatMap encode) = row := by
  induction row with
  | nil => rfl
  | cons word rest onward =>
    rw [List.flatMap_cons]
    show decode (encode word) :: words (rest.flatMap encode) = word :: rest
    rw [decode_encode, onward]

end HeapAudit.LittleEndian
