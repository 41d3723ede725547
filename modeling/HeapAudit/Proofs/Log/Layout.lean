import HeapAudit.Log.Basic
import HeapAudit.Proofs.Foundations

/-!
# The layout of a log

A log that was created has halves of whole pages, at least one page each, in a region
that fits into memory (`Log.Spacious`).  Below that bound none of the sizes wraps
around, so a half holds at least 255 events behind its counter, the halves and the
guard pages tile the region, and the slot behind the last one is the first of a guard
page.

Exactly the active half can be written (`Log.Guards`).  Creation establishes this
whatever capacity is asked for, `Log.flip` moves it to the other half and no other
operation touches it.  A log that was created once can be cloned wherever there is room
for its region (`Log.clone_of_fits`).
-/

namespace HeapAudit

set_option autoImplicit false

namespace Memory.Protection

/-- The latest change decides for the bytes it covers. -/
theorem isWritable_set (protection : Protection) (offset size : UInt64) (writable : Bool)
    (sought : UInt64) :
    (protection.set offset size writable).isWritable sought
      = if offset ≤ sought ∧ sought < offset + size then writable
        else protection.isWritable sought := by
  by_cases covered : offset ≤ sought ∧ sought < offset + size
  · simp [isWritable, set, covers, covered]
  · have missed : (decide (offset ≤ sought) && decide (sought < offset + size)) = false := by
      simpa using covered
    simp only [isWritable, set, List.find?_cons, covers, missed, covered, if_false]

/-- A change that is accepted is made, and it is one of at least a byte. -/
theorem protect_eq_ok {protection changed : Protection} {length offset size : UInt64}
    {writable : Bool} (accepted : protection.protect length offset size writable = .ok changed) :
    changed = protection.set offset size writable ∧ size ≠ 0 := by
  unfold protect at accepted
  dsimp only at accepted
  split at accepted
  · cases accepted
  · split at accepted
    · cases accepted
    · split at accepted
      · cases accepted
      · split at accepted
        · cases accepted
        · rename_i positive
          cases accepted
          exact ⟨rfl, positive⟩

/-- A change of whole pages inside the region is accepted. -/
theorem protect_of_inside {length offset size : UInt64} (aligned : offset.toNat % 4096 = 0)
    (whole : size.toNat % 4096 = 0) (positive : 0 < size.toNat)
    (inside : offset.toNat + size.toNat ≤ length.toNat) (protection : Protection)
    (writable : Bool) :
    protection.protect length offset size writable = .ok (protection.set offset size writable) := by
  have stop := toNat_add_of_lt (Nat.lt_of_le_of_lt inside length.toNat_lt)
  have pages : (offset % pageSize != 0 || size % pageSize != 0) = false := by
    have start : offset % pageSize = 0 := UInt64.toNat_inj.mp (by simpa [pageSize] using aligned)
    have size : size % pageSize = 0 := UInt64.toNat_inj.mp (by simpa [pageSize] using whole)
    simp [start, size]
  have short : ¬ length < offset + size := by
    rw [UInt64.lt_iff_toNat_lt, stop]
    omega
  have ordered : ¬ offset + size < offset := by
    rw [UInt64.lt_iff_toNat_lt, stop]
    omega
  have occupied : size ≠ 0 := by
    rintro rfl
    exact Nat.lt_irrefl 0 positive
  unfold protect
  dsimp only
  rw [pages, if_neg Bool.false_ne_true, if_neg short, if_neg ordered, if_neg occupied]

end Memory.Protection

namespace Log

open Memory (pageSize)

/-! ## Sizes -/

/-- Halves of whole pages, at least one page each, in a region whose size is a signed number. -/
structure Spacious (halfBytes : UInt64) : Prop where
  whole : halfBytes.toNat % 4096 = 0
  positive : 0 < halfBytes.toNat
  bounded : 2 * halfBytes.toNat + 8192 < 9223372036854775808

namespace Spacious

variable {halfBytes : UInt64}

theorem toNat_regionBytes (spacious : Spacious halfBytes) :
    (regionBytes halfBytes).toNat = 2 * halfBytes.toNat + 8192 := by
  have bounded := spacious.bounded
  simp only [regionBytes, pageSize, UInt64.toNat_add, UInt64.toNat_mul, UInt64.reduceToNat]
  omega

theorem toNat_halfOffset_second (spacious : Spacious halfBytes) :
    (halfOffset halfBytes .second).toNat = halfBytes.toNat + 4096 := by
  have bounded := spacious.bounded
  simp only [halfOffset, pageSize, UInt64.toNat_add, UInt64.reduceToNat]
  omega

/-- Where the second half ends. -/
theorem toNat_halfOffset_second_add (spacious : Spacious halfBytes) :
    (halfOffset halfBytes .second + halfBytes).toNat = 2 * halfBytes.toNat + 4096 := by
  have bounded := spacious.bounded
  have start := spacious.toNat_halfOffset_second
  rw [toNat_add_of_lt (by omega)]
  omega

/-- Both halves end inside the region, with a page behind them. -/
theorem toNat_halfOffset_le (spacious : Spacious halfBytes) (side : Side) :
    (halfOffset halfBytes side).toNat ≤ halfBytes.toNat + 4096 := by
  cases side with
  | first => exact Nat.zero_le _
  | second => exact Nat.le_of_eq spacious.toNat_halfOffset_second

theorem toNat_slotsIn (spacious : Spacious halfBytes) :
    (slotsIn halfBytes).toNat = halfBytes.toNat / 16 - 1 := by
  have whole := spacious.whole
  have positive := spacious.positive
  have bounded := spacious.bounded
  simp only [slotsIn, Event.byteSize, UInt64.toNat_sub, UInt64.toNat_div, UInt64.reduceToNat]
  omega

/-- The slots behind the counter fill the half. -/
theorem toNat_slotsIn_succ (spacious : Spacious halfBytes) :
    ((slotsIn halfBytes).toNat + 1) * 16 = halfBytes.toNat := by
  have whole := spacious.whole
  have positive := spacious.positive
  rw [spacious.toNat_slotsIn]
  omega

theorem le_toNat_slotsIn (spacious : Spacious halfBytes) : 255 ≤ (slotsIn halfBytes).toNat := by
  have whole := spacious.whole
  have positive := spacious.positive
  rw [spacious.toNat_slotsIn]
  omega

/-- A log asked for the capacity of another one gets halves of the same size. -/
theorem halfSize_slotsIn (spacious : Spacious halfBytes) : halfSize (slotsIn halfBytes) = halfBytes := by
  have filled := spacious.toNat_slotsIn_succ
  have whole := spacious.whole
  have bounded := spacious.bounded
  apply UInt64.toNat_inj.mp
  simp only [halfSize, Memory.roundUp, pageSize, Event.byteSize, UInt64.toNat_mul,
    UInt64.toNat_div, UInt64.toNat_sub, UInt64.toNat_add, UInt64.reduceToNat]
  omega

end Spacious

/-! ## Protection -/

/-- A byte of the region lies in a half. -/
def InHalf (halfBytes : UInt64) (side : Side) (offset : UInt64) : Prop :=
  (halfOffset halfBytes side).toNat ≤ offset.toNat
    ∧ offset.toNat < (halfOffset halfBytes side).toNat + halfBytes.toNat

/-- Exactly one half of the region can be written. -/
def Guards (halfBytes : UInt64) (active : Side) (protection : Memory.Protection) : Prop :=
  ∀ offset : UInt64, offset.toNat < (regionBytes halfBytes).toNat →
    (protection.isWritable offset = true ↔ InHalf halfBytes active offset)

/-- A log without bytes in its halves cannot be protected. -/
theorem ne_zero_of_protect {length halfBytes : UInt64} {active : Side}
    {before after : Memory.Protection}
    (accepted : protect length halfBytes active before = .ok after) : halfBytes ≠ 0 := by
  unfold protect at accepted
  obtain ⟨one, first, -⟩ := bind_eq_ok.mp accepted
  exact (Memory.Protection.protect_eq_ok first).2

/-- Protecting a region opens its active half and nothing else, whatever was open before. -/
theorem guards_of_protect {length halfBytes : UInt64} {active : Side}
    {before after : Memory.Protection} (spacious : Spacious halfBytes)
    (accepted : protect length halfBytes active before = .ok after) :
    Guards halfBytes active after := by
  unfold protect at accepted
  obtain ⟨one, first, accepted⟩ := bind_eq_ok.mp accepted
  obtain ⟨two, second, accepted⟩ := bind_eq_ok.mp accepted
  obtain ⟨three, third, fourth⟩ := bind_eq_ok.mp accepted
  obtain ⟨rfl, -⟩ := Memory.Protection.protect_eq_ok first
  obtain ⟨rfl, -⟩ := Memory.Protection.protect_eq_ok second
  obtain ⟨rfl, -⟩ := Memory.Protection.protect_eq_ok third
  obtain ⟨rfl, -⟩ := Memory.Protection.protect_eq_ok fourth
  intro offset inside
  have bounded := spacious.bounded
  have start := spacious.toNat_halfOffset_second
  have stop := spacious.toNat_halfOffset_second_add
  have last : (halfOffset halfBytes .second + halfBytes + pageSize).toNat
      = 2 * halfBytes.toNat + 8192 := by
    rw [toNat_add_of_lt (by rw [stop]; simp only [pageSize, UInt64.reduceToNat]; omega), stop]
    rfl
  have guard : (halfBytes + pageSize).toNat = halfBytes.toNat + 4096 := start
  rw [spacious.toNat_regionBytes] at inside
  simp only [Memory.Protection.isWritable_set, UInt64.le_iff_toNat_le, UInt64.lt_iff_toNat_lt,
    start, stop, last, guard, UInt64.zero_add, UInt64.toNat_zero]
  cases active with
  | first =>
    simp only [InHalf, halfOffset, UInt64.toNat_zero]
    grind
  | second =>
    simp only [InHalf, start]
    grind

/-- A region of the right length can be protected. -/
theorem protect_of_spacious {halfBytes : UInt64} (spacious : Spacious halfBytes) (active : Side)
    (before : Memory.Protection) :
    ∃ after, protect (regionBytes halfBytes) halfBytes active before = .ok after := by
  have whole := spacious.whole
  have positive := spacious.positive
  have bounded := spacious.bounded
  have length := spacious.toNat_regionBytes
  have page : pageSize.toNat = 4096 := rfl
  have start := spacious.toNat_halfOffset_second
  have stop := spacious.toNat_halfOffset_second_add
  have zero : (0 : UInt64).toNat = 0 := rfl
  have accepts : ∀ offset size : UInt64, offset.toNat % 4096 = 0 → size.toNat % 4096 = 0 →
      0 < size.toNat → offset.toNat + size.toNat ≤ 2 * halfBytes.toNat + 8192 →
      ∀ (protection : Memory.Protection) (writable : Bool),
        protection.protect (regionBytes halfBytes) offset size writable
          = .ok (protection.set offset size writable) := by
    intro offset size aligned pages occupied inside
    rw [← length] at inside
    exact Memory.Protection.protect_of_inside aligned pages occupied inside
  have first := accepts 0 halfBytes (by omega) whole positive (by omega)
  have guard := accepts halfBytes pageSize whole (by omega) (by omega) (by omega)
  have second := accepts (halfOffset halfBytes .second) halfBytes (by omega) whole positive (by omega)
  have last := accepts (halfOffset halfBytes .second + halfBytes) pageSize (by omega) (by omega)
    (by omega) (by omega)
  exact ⟨_, bind_eq_ok.mpr ⟨_, first before (active == .first), bind_eq_ok.mpr ⟨_, guard _ false,
    bind_eq_ok.mpr ⟨_, second _ (active == .second), last _ false⟩⟩⟩⟩

/-! ## Creation -/

/-- The size of a region that is mapped is a signed number, and there is room for it. -/
theorem mappedLength_eq_ok {room size length : UInt64}
    (mapped : Memory.mappedLength room size = .ok length) :
    length = Memory.roundUp size ∧ 0 < length.toNat ∧ length.toNat < 9223372036854775808
      ∧ length.toNat ≤ room.toNat := by
  unfold Memory.mappedLength Memory.grant at mapped
  split at mapped
  · cases mapped
  · split at mapped
    · cases mapped
    · rename_i sized
      split at mapped
      · cases mapped
      · rename_i fits
        cases mapped
        simp only [Bool.or_eq_true, decide_eq_true_eq, not_or, Memory.signLimit,
          UInt64.lt_iff_toNat_lt, UInt64.le_iff_toNat_le, UInt64.reduceToNat, Nat.not_le,
          Nat.not_lt] at sized fits
        have positive : (Memory.roundUp size).toNat ≠ 0 := fun zero =>
          sized.1 (UInt64.toNat_inj.mp zero)
        exact ⟨rfl, Nat.pos_of_ne_zero positive, sized.2, fits⟩

/-- Rounding a requested size gives whole pages. -/
theorem toNat_halfSize_mod (requested : UInt64) : (halfSize requested).toNat % 4096 = 0 := by
  simp only [halfSize, Memory.roundUp, pageSize, UInt64.toNat_mul, UInt64.toNat_div,
    UInt64.reduceToNat]
  omega

/-- A region of whole pages is not rounded any further. -/
theorem toNat_roundUp_regionBytes {halfBytes : UInt64} (whole : halfBytes.toNat % 4096 = 0) :
    (Memory.roundUp (regionBytes halfBytes)).toNat
      = (2 * halfBytes.toNat + 8192) % 18446744073709551616 := by
  simp only [Memory.roundUp, regionBytes, pageSize, UInt64.toNat_mul, UInt64.toNat_div,
    UInt64.toNat_sub, UInt64.toNat_add, UInt64.reduceToNat]
  omega

/-- A region that is mapped and reaches the second half is as long as it should be: if its size
had wrapped around, it would end before the second half. -/
theorem spacious_of_mapped {halfBytes : UInt64} (whole : halfBytes.toNat % 4096 = 0)
    (occupied : halfBytes ≠ 0)
    (positive : 0 < (Memory.roundUp (regionBytes halfBytes)).toNat)
    (small : (Memory.roundUp (regionBytes halfBytes)).toNat < 9223372036854775808)
    (reaches : ¬ Memory.roundUp (regionBytes halfBytes) ≤ halfOffset halfBytes .second) :
    Spacious halfBytes := by
  have rounded := toNat_roundUp_regionBytes whole
  have bound := halfBytes.toNat_lt
  have nonzero : halfBytes.toNat ≠ 0 := fun zero => occupied (UInt64.toNat_inj.mp zero)
  simp only [halfOffset, pageSize, UInt64.le_iff_toNat_le, UInt64.toNat_add,
    UInt64.reduceToNat] at reaches
  constructor
  · exact whole
  · omega
  · omega

/-- A log is created empty and open, for a capacity whose sizes do not wrap around to less than
it takes: a mapping that is too short for the second half is never accepted. -/
theorem create_eq_ok {base room requested : UInt64} {log : Log}
    (created : create base room requested = .ok log) :
    ∃ protection, log = ⟨base, halfSize requested, protection, {}, {}, .first, false, false⟩
      ∧ Spacious (halfSize requested) ∧ Guards (halfSize requested) .first protection
      ∧ (regionBytes (halfSize requested)).toNat ≤ room.toNat := by
  unfold create at created
  dsimp only at created
  split at created
  · cases created
  · obtain ⟨length, mapped, created⟩ := bind_eq_ok.mp created
    have mapped : Memory.mappedLength room (regionBytes (halfSize requested)) = .ok length := by
      revert mapped
      cases Memory.mappedLength room (regionBytes (halfSize requested)) with
      | error cause => intro impossible; cases impossible
      | ok length => intro same; cases same; rfl
    obtain ⟨rfl, positive, small, fits⟩ := mappedLength_eq_ok mapped
    split at created
    · cases created
    · rename_i reaches
      obtain ⟨protection, accepted, created⟩ := bind_eq_ok.mp created
      cases created
      have whole := toNat_halfSize_mod requested
      have spacious := spacious_of_mapped whole (ne_zero_of_protect accepted) positive small reaches
      have bounded := spacious.bounded
      refine ⟨protection, rfl, spacious, guards_of_protect spacious accepted, ?_⟩
      rw [toNat_roundUp_regionBytes whole] at fits
      rw [spacious.toNat_regionBytes]
      omega

/-- A clone is open and has the memory, the active half and the sizes of its original, with a
protection of its own. -/
theorem clone_eq_ok {log copy : Log} {base room : UInt64} (spacious : Spacious log.halfBytes)
    (cloned : log.clone base room = .ok copy) :
    ∃ protection, copy = { log with base := base, protection := protection, isClosed := false }
      ∧ Guards log.halfBytes log.active protection
      ∧ (regionBytes log.halfBytes).toNat ≤ room.toNat := by
  unfold clone at cloned
  obtain ⟨fresh, created, cloned⟩ := bind_eq_ok.mp cloned
  obtain ⟨protection, rfl, -, -, fits⟩ := create_eq_ok created
  have sized : halfSize log.capacity = log.halfBytes := spacious.halfSize_slotsIn
  rw [sized] at cloned fits
  obtain ⟨opened, -, cloned⟩ := bind_eq_ok.mp cloned
  obtain ⟨guarded, accepted, cloned⟩ := bind_eq_ok.mp cloned
  cases cloned
  exact ⟨guarded, rfl, guards_of_protect spacious accepted, fits⟩

/-- The region of a log is mapped wherever there is room for it. -/
theorem Spacious.mappedLength {halfBytes : UInt64} (spacious : Spacious halfBytes) {room : UInt64}
    (fits : regionBytes halfBytes ≤ room) :
    Memory.mappedLength room (regionBytes halfBytes) = .ok (regionBytes halfBytes) := by
  have bounded := spacious.bounded
  have length := spacious.toNat_regionBytes
  have rounded : Memory.roundUp (regionBytes halfBytes) = regionBytes halfBytes := by
    apply UInt64.toNat_inj.mp
    rw [toNat_roundUp_regionBytes spacious.whole, length]
    omega
  have occupied : regionBytes halfBytes ≠ 0 := by
    intro empty
    rw [empty, UInt64.toNat_zero] at length
    omega
  have valid : (regionBytes halfBytes = 0 || Memory.signLimit ≤ regionBytes halfBytes) = false := by
    simp only [occupied, decide_false, Bool.false_or, decide_eq_false_iff_not, Memory.signLimit,
      UInt64.le_iff_toNat_le, UInt64.reduceToNat, length]
    omega
  rw [Memory.mappedLength, rounded, if_neg occupied, Memory.grant, valid,
    if_neg Bool.false_ne_true, if_neg (UInt64.not_lt.mpr fits)]

/-- A log whose sizes do not wrap around is created wherever there is room for its region. -/
theorem create_of_fits {requested : UInt64} (asked : requested ≠ 0)
    (spacious : Spacious (halfSize requested)) (base : UInt64) {room : UInt64}
    (fits : regionBytes (halfSize requested) ≤ room) :
    ∃ protection, create base room requested
      = .ok ⟨base, halfSize requested, protection, {}, {}, .first, false, false⟩ := by
  have reaches : ¬ regionBytes (halfSize requested) ≤ halfOffset (halfSize requested) .second := by
    rw [UInt64.le_iff_toNat_le, spacious.toNat_regionBytes, spacious.toNat_halfOffset_second]
    omega
  obtain ⟨protection, accepted⟩ := protect_of_spacious spacious .first .fresh
  refine ⟨protection, ?_⟩
  rw [create, if_neg asked]
  dsimp only
  rw [spacious.mappedLength fits]
  refine bind_eq_ok.mpr ⟨_, rfl, ?_⟩
  rw [if_neg reaches]
  exact bind_eq_ok.mpr ⟨_, accepted, rfl⟩

/-- **A log is cloned wherever there is room for its region.** -/
theorem clone_of_fits {log : Log} (spacious : Spacious log.halfBytes) (base : UInt64)
    {room : UInt64} (fits : regionBytes log.halfBytes ≤ room) :
    ∃ copy, log.clone base room = .ok copy := by
  have sized : halfSize log.capacity = log.halfBytes := spacious.halfSize_slotsIn
  have asked : log.capacity ≠ 0 := by
    intro none
    have filled : 255 ≤ log.capacity.toNat := spacious.le_toNat_slotsIn
    rw [none, UInt64.toNat_zero] at filled
    omega
  obtain ⟨protection, created⟩ := create_of_fits asked (sized.symm ▸ spacious) base
    (show regionBytes (halfSize log.capacity) ≤ room from sized.symm ▸ fits)
  rw [sized] at created
  have length := spacious.toNat_regionBytes
  have whole := spacious.whole
  have pages : (regionBytes log.halfBytes).toNat % 4096 = 0 := by omega
  have start : (0 : UInt64).toNat % 4096 = 0 := rfl
  have opens := Memory.Protection.protect_of_inside start pages (by omega)
    (Nat.le_of_eq (Nat.zero_add _)) protection true
  obtain ⟨guarded, guards⟩ := protect_of_spacious spacious log.active
    (protection.set 0 (regionBytes log.halfBytes) true)
  exact ⟨_, bind_eq_ok.mpr ⟨_, created, bind_eq_ok.mpr ⟨_, opens,
    bind_eq_ok.mpr ⟨_, guards, rfl⟩⟩⟩⟩

end Log

end HeapAudit
