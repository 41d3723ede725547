import HeapAudit.Log.Bank
import HeapAudit.Proofs.Log.Layout

/-!
# What a log holds that was asked for

A log is asked for by a number of events, and whoever asks expects one of two things: a log whose
halves hold at least that many, or a refusal (`Log.Promise`).  The sizes in between are words.  Three
of them can wrap around: the bytes of the events, those of the half when they are rounded up to
pages, and those of the region.

Counted without bounds, a half needs `Log.halfNeed` bytes and the region `Log.regionNeed`, and the
words are the remainders of these numbers.  The promise is kept as long as the region that is needed
is no more than a word can say.  It is kept by luck beyond that, where the remainder is refused as a
mapping or leaves nothing for the halves, and in all other cases it is broken
(`Log.create_keeps_promise_iff`): the second half starts behind the region, or the log is smaller
than requested.
-/

namespace HeapAudit.Log

set_option autoImplicit false

/-! ## Sizes without bounds -/

/-- The number of bytes that a half needs for its counter and the requested events, in whole
pages. -/
def halfNeed (requested : UInt64) : Nat := ((requested.toNat + 1) * 16 + 4095) / 4096 * 4096

/-- The number of bytes that two halves need, with a guard page behind each. -/
def regionNeed (requested : UInt64) : Nat := 2 * halfNeed requested + 8192

theorem le_halfNeed (requested : UInt64) : (requested.toNat + 1) * 16 ≤ halfNeed requested := by
  rw [halfNeed]
  omega

theorem halfNeed_lt (requested : UInt64) :
    halfNeed requested < (requested.toNat + 1) * 16 + 4096 := by
  rw [halfNeed]
  omega

/-- Whole pages are whole pages modulo `2 ^ 64` as well, so rounding may come before or after the
remainder is taken. -/
theorem toNat_halfSize (requested : UInt64) :
    (halfSize requested).toNat = halfNeed requested % 2 ^ 64 := by
  simp only [halfSize, halfNeed, Memory.roundUp, Memory.pageSize, Event.byteSize, UInt64.toNat_mul,
    UInt64.toNat_div, UInt64.toNat_sub, UInt64.toNat_add, UInt64.reduceToNat]
  omega

theorem toNat_regionBytes_halfSize (requested : UInt64) :
    (regionBytes (halfSize requested)).toNat = regionNeed requested % 2 ^ 64 := by
  simp only [regionBytes, regionNeed, Memory.pageSize, UInt64.toNat_mul, UInt64.toNat_add,
    UInt64.reduceToNat, toNat_halfSize]
  omega

theorem regionBytes_halfSize (requested : UInt64) :
    regionBytes (halfSize requested) = (regionNeed requested).toUInt64 := by
  apply UInt64.toNat_inj.mp
  rw [toNat_regionBytes_halfSize, Nat.toUInt64_eq, UInt64.toNat_ofNat']

/-! ## Outcomes of creation -/

section Outcomes

variable {base room requested length : UInt64}

theorem create_of_unmapped (asked : requested ≠ 0) {cause : Cause}
    (refused : Memory.mappedLength room (regionBytes (halfSize requested)) = .error cause) :
    create base room requested = .error (.refusal cause) := by
  rw [create, if_neg asked]
  dsimp only
  rw [refused]
  rfl

/-- A mapping that ends before the second half starts is touched behind its end. -/
theorem create_of_short (asked : requested ≠ 0)
    (mapped : Memory.mappedLength room (regionBytes (halfSize requested)) = .ok length)
    (short : length ≤ halfOffset (halfSize requested) .second) :
    create base room requested
      = .error (.abort (.indexOutside (halfOffset (halfSize requested) .second) length)) := by
  rw [create, if_neg asked]
  dsimp only
  rw [mapped]
  exact congrArg (fun rest => (Except.ok length : Except Failure UInt64) >>= fun _ => rest)
    (if_pos short)

/-- Halves without bytes cannot be protected. -/
theorem create_of_empty (asked : requested ≠ 0)
    (mapped : Memory.mappedLength room (regionBytes (halfSize requested)) = .ok length)
    (empty : halfSize requested = 0) :
    create base room requested = .error (.refusal .invalidProtection) := by
  rw [create, if_neg asked]
  dsimp only
  rw [empty] at mapped ⊢
  obtain ⟨rfl, -⟩ := mappedLength_eq_ok mapped
  rw [mapped]
  rfl

end Outcomes

/-! ## The promise -/

/-- Both halves, each with its guard page, lie one behind the other in a region of a length. -/
def LieIn (halfBytes length : UInt64) : Prop :=
  (halfOffset halfBytes .first).toNat + halfBytes.toNat + 4096
      ≤ (halfOffset halfBytes .second).toNat
    ∧ (halfOffset halfBytes .second).toNat + halfBytes.toNat + 4096 ≤ length.toNat

/-- **What is promised to whoever asks for a log**: it is refused, or it has the capacity that is
told for the request, which is no less than requested, and lies in the region that is mapped for it.
Asking never aborts. -/
def Promise (base room requested : UInt64) : Prop :=
  match create base room requested with
  | .ok log => log.capacity = capacityFor requested ∧ requested ≤ log.capacity
      ∧ ∃ length, Memory.mappedLength room (regionBytes log.halfBytes) = .ok length
        ∧ LieIn log.halfBytes length
  | .error (.refusal _) => True
  | .error (.abort _) | .error .fault => False

/-- A request that no word can hold the region of, and yet the remainder is granted as a mapping
and leaves bytes for the halves. -/
def Outgrows (room requested : UInt64) : Prop :=
  2 ^ 64 ≤ regionNeed requested ∧ halfNeed requested % 2 ^ 64 ≠ 0
    ∧ ∃ length, Memory.mappedLength room (regionNeed requested).toUInt64 = .ok length

theorem Spacious.lieIn {halfBytes : UInt64} (spacious : Spacious halfBytes) :
    LieIn halfBytes (regionBytes halfBytes) := by
  rw [LieIn, spacious.toNat_halfOffset_second, spacious.toNat_regionBytes]
  simp only [halfOffset, UInt64.toNat_zero]
  omega

/-- The capacity of a log that is created is enough exactly if nothing wrapped around: otherwise more
is requested than a word can hold the region of. -/
theorem le_slotsIn_halfSize_iff {requested : UInt64} (spacious : Spacious (halfSize requested)) :
    requested ≤ slotsIn (halfSize requested) ↔ regionNeed requested < 2 ^ 64 := by
  have filled := spacious.toNat_slotsIn_succ
  have bounded := spacious.bounded
  have size := toNat_halfSize requested
  have lower := le_halfNeed requested
  have upper := halfNeed_lt requested
  rw [UInt64.le_iff_toNat_le, regionNeed]
  constructor
  · intro enough
    omega
  · intro small
    omega

/-- A mapping that ends before the second half starts is a remainder, and the halves have bytes. -/
theorem outgrows_of_short {room requested length : UInt64}
    (mapped : Memory.mappedLength room (regionBytes (halfSize requested)) = .ok length)
    (short : length ≤ halfOffset (halfSize requested) .second) : Outgrows room requested := by
  obtain ⟨rfl, positive, -⟩ := mappedLength_eq_ok mapped
  have rounded := toNat_roundUp_regionBytes (toNat_halfSize_mod requested)
  have size := toNat_halfSize requested
  simp only [halfOffset, Memory.pageSize, UInt64.le_iff_toNat_le, UInt64.toNat_add,
    UInt64.reduceToNat] at short
  refine ⟨?_, ?_, _, regionBytes_halfSize requested ▸ mapped⟩
  · rw [regionNeed]
    omega
  · omega

/-- **When a log is as large as requested.**  A request is refused, or it gives a log of at least the
requested capacity, in a region that holds both halves and both guard pages; it never aborts.  This
is so exactly if the size of the region does not wrap around to one that is granted with bytes for
the halves. -/
theorem create_keeps_promise_iff (base room requested : UInt64) :
    Promise base room requested ↔ ¬ Outgrows room requested := by
  by_cases asked : requested = 0
  · subst asked
    refine ⟨?_, fun _ => trivial⟩
    rintro - ⟨large, -⟩
    revert large
    decide
  cases mapped : Memory.mappedLength room (regionBytes (halfSize requested)) with
  | error cause =>
    rw [Promise, create_of_unmapped asked mapped]
    refine ⟨?_, fun _ => trivial⟩
    rintro - ⟨-, -, length, granted⟩
    rw [← regionBytes_halfSize, mapped] at granted
    cases granted
  | ok length =>
    by_cases short : length ≤ halfOffset (halfSize requested) .second
    · rw [Promise, create_of_short asked mapped short]
      exact ⟨False.elim, fun within => within (outgrows_of_short mapped short)⟩
    by_cases empty : halfSize requested = 0
    · rw [Promise, create_of_empty asked mapped empty]
      refine ⟨?_, fun _ => trivial⟩
      rintro - ⟨-, occupied, -⟩
      rw [← toNat_halfSize, empty] at occupied
      exact occupied rfl
    · obtain ⟨rfl, positive, small, fits⟩ := mappedLength_eq_ok mapped
      have spacious := spacious_of_mapped (toNat_halfSize_mod requested) empty positive small short
      have enough : regionBytes (halfSize requested) ≤ room := by
        rw [toNat_roundUp_regionBytes (toNat_halfSize_mod requested)] at fits
        rw [UInt64.le_iff_toNat_le, spacious.toNat_regionBytes]
        have bounded := spacious.bounded
        omega
      obtain ⟨protection, created⟩ := create_of_fits asked spacious base enough
      have granted := spacious.mappedLength enough
      have held := le_slotsIn_halfSize_iff spacious
      rw [Promise, created]
      constructor
      · rintro ⟨-, holds, -⟩ ⟨large, -⟩
        exact Nat.not_lt.mpr large (held.mp holds)
      · intro within
        refine ⟨rfl, held.mpr (Nat.lt_of_not_le fun large => within ?_), _, granted,
          spacious.lieIn⟩
        refine ⟨large, ?_, _, regionBytes_halfSize requested ▸ granted⟩
        rw [← toNat_halfSize]
        exact Nat.ne_of_gt spacious.positive

/-- **Requests that break the promise**, in a bank without logs, on a machine with four gigabytes:
one for `2 ^ 60` events and 255 more gives a log of 255, and one for `2 ^ 59 - 1` aborts where the
second half should start. -/
theorem create_breaks_promise :
    (∃ log, create 0x400000000000 (Bank.empty 0x100000000).room 0x10000000000000ff = .ok log
      ∧ log.capacity = 255)
    ∧ create 0x400000000000 (Bank.empty 0x100000000).room 0x7ffffffffffffff
      = .error (.abort (.indexOutside 0x8000000000001000 0x2000))
    ∧ ¬ Promise 0x400000000000 (Bank.empty 0x100000000).room 0x10000000000000ff
    ∧ ¬ Promise 0x400000000000 (Bank.empty 0x100000000).room 0x7ffffffffffffff := by
  have small : ¬ (0x10000000000000ff : UInt64) ≤ 255 := by decide
  exact ⟨⟨_, rfl, rfl⟩, rfl, fun ⟨_, holds, _⟩ => small holds, fun aborted => aborted⟩

end HeapAudit.Log
