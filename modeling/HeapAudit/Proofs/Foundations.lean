import Mathlib.Algebra.GroupWithZero.Nat

/-!
# Words that do not wrap around, and results of checked work

Sizes and addresses are 64-bit words.  As long as a result stays below `2 ^ 64`, the
arithmetic of words is that of natural numbers; these are the equations that move a
statement about words there.

Checked work is a chain of steps each of which may fail, and a chain that succeeds is
a chain of successes.
-/

namespace HeapAudit

set_option autoImplicit false

/-! ## Words -/

theorem toNat_add_of_lt {left right : UInt64}
    (small : left.toNat + right.toNat < 18446744073709551616) :
    (left + right).toNat = left.toNat + right.toNat := by
  rw [UInt64.toNat_add]
  exact Nat.mod_eq_of_lt small

theorem toNat_mul_of_lt {left right : UInt64}
    (small : left.toNat * right.toNat < 18446744073709551616) :
    (left * right).toNat = left.toNat * right.toNat := by
  rw [UInt64.toNat_mul]
  exact Nat.mod_eq_of_lt small

theorem toNat_toUInt64_of_lt {number : Nat} (small : number < 18446744073709551616) :
    number.toUInt64.toNat = number := by
  rw [Nat.toUInt64_eq, UInt64.toNat_ofNat']
  exact Nat.mod_eq_of_lt small

theorem add_sub_self (start offset : UInt64) : start + offset - start = offset := by
  rw [UInt64.add_comm, UInt64.add_sub_cancel]

/-! ## Results -/

/-- A chain of two steps succeeds exactly if both of them do. -/
theorem bind_eq_ok {ε α β : Type} {first : Except ε α} {next : α → Except ε β} {result : β} :
    (first >>= next) = .ok result ↔ ∃ value, first = .ok value ∧ next value = .ok result := by
  cases first with
  | error failure =>
    constructor
    · intro succeeded
      cases succeeded
    · rintro ⟨value, impossible, -⟩
      cases impossible
  | ok value =>
    constructor
    · intro succeeded
      exact ⟨value, rfl, succeeded⟩
    · rintro ⟨value, same, succeeded⟩
      cases same
      exact succeeded

end HeapAudit
