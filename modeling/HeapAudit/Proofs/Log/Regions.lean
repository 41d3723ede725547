import HeapAudit.Log.Bank
import HeapAudit.Proofs.Log.Content

/-!
# The regions of a bank

A bank hands out addresses upwards and never twice, so the regions of its logs lie one
behind the other, each on a page boundary and all below the limit of addresses
(`Bank.Sound`).  The region that holds an address therefore tells the log
(`Bank.Sound.owner?_eq_some_iff`), and a fault in the guard page behind the active half of
a registered log is brought home to that log.

Creating, cloning and changing logs keep a bank sound; registering does not touch the
regions at all.
-/

namespace HeapAudit

set_option autoImplicit false

/-- The page that holds an address starts at the last page boundary that is not behind it. -/
theorem Memory.pageOf_eq_iff {address start : UInt64} (aligned : start.toNat % 4096 = 0) :
    pageOf address = start
      ↔ start.toNat ≤ address.toNat ∧ address.toNat < start.toNat + 4096 := by
  have below : (address % pageSize).toNat ≤ address.toNat := by
    rw [UInt64.toNat_mod]
    exact Nat.mod_le _ _
  rw [← UInt64.toNat_inj, pageOf, UInt64.toNat_sub_of_le _ _ (UInt64.le_iff_toNat_le.mpr below),
    UInt64.toNat_mod]
  simp only [pageSize, UInt64.reduceToNat]
  omega

/-- The first address behind the region of a log. -/
def Log.stop (log : Log) : Nat := log.base.toNat + 2 * log.halfBytes.toNat + 8192

namespace Bank

/-! ## Changing one log -/

@[simp] theorem size_modify (bank : Bank) (id : LogId) (change : Log → Log) :
    (bank.modify id change).logs.size = bank.logs.size := by
  simp [modify]

theorem log_modify (bank : Bank) (id : LogId) (change : Log → Log) (sought : LogId) :
    (bank.modify id change).log sought
      = if id = sought ∧ sought < bank.logs.size then change (bank.log sought)
        else bank.log sought := by
  by_cases known : sought < bank.logs.size
  · by_cases here : id = sought
    · subst here
      simp [modify, log, Array.getD, known, Array.getElem_modify]
    · simp [modify, log, Array.getD, known, here, Array.getElem_modify]
  · simp [modify, log, Array.getD, known]

theorem log_modify_self {bank : Bank} {id : LogId} (change : Log → Log)
    (known : id < bank.logs.size) : (bank.modify id change).log id = change (bank.log id) := by
  rw [log_modify, if_pos ⟨rfl, known⟩]

theorem log_modify_of_ne {bank : Bank} {id sought : LogId} (change : Log → Log)
    (elsewhere : id ≠ sought) : (bank.modify id change).log sought = bank.log sought := by
  rw [log_modify, if_neg (fun both => elsewhere both.1)]

/-- Two changes of one log are one change. -/
theorem modify_modify (bank : Bank) (id : LogId) (change later : Log → Log) :
    (bank.modify id change).modify id later = bank.modify id (later ∘ change) := by
  have same : (bank.logs.modify id change).modify id later = bank.logs.modify id (later ∘ change) := by
    refine Array.ext (by simp) fun index _ _ => ?_
    simp only [Array.getElem_modify]
    split <;> rfl
  simp only [modify, same]

theorem log_add_self (bank : Bank) (log : Log) : (bank.add log).2.log bank.logs.size = log := by
  simp [add, Bank.log, Array.getD]

theorem log_add_of_lt {bank : Bank} (log : Log) {id : LogId} (known : id < bank.logs.size) :
    (bank.add log).2.log id = bank.log id := by
  simp [add, Bank.log, Array.getD, known, Nat.lt_succ_of_lt known, Array.getElem_push_lt]

@[simp] theorem size_add (bank : Bank) (log : Log) :
    (bank.add log).2.logs.size = bank.logs.size + 1 := by
  simp [add]

/-! ## Sound banks -/

/-- The logs of a bank are sound and lie one behind the other, below the limit of addresses. -/
structure Sound (bank : Bank) : Prop where
  logs : ∀ id < bank.logs.size, (bank.log id).Sound
  aligned : ∀ id < bank.logs.size, (bank.log id).base.toNat % 4096 = 0
  apart : ∀ earlier later, earlier < later → later < bank.logs.size →
    (bank.log earlier).stop ≤ (bank.log later).base.toNat
  below : ∀ id < bank.logs.size, (bank.log id).stop ≤ bank.nextBase.toNat
  nextAligned : bank.nextBase.toNat % 4096 = 0
  limited : bank.nextBase.toNat ≤ 140737488359424

theorem nextBase_empty (memory : UInt64) : (Bank.empty memory).nextBase = 0x400000000000 := rfl

/-- The bank without logs is sound. -/
theorem Sound.empty (memory : UInt64) : (Bank.empty memory).Sound where
  logs := fun _ known => absurd known (Nat.not_lt_zero _)
  aligned := fun _ known => absurd known (Nat.not_lt_zero _)
  apart := fun _ _ _ known => absurd known (Nat.not_lt_zero _)
  below := fun _ known => absurd known (Nat.not_lt_zero _)
  nextAligned := by
    rw [nextBase_empty]
    decide
  limited := by
    rw [nextBase_empty]
    decide

namespace Sound

variable {bank : Bank}

/-- Soundness is about the logs and the next address, not about the registry. -/
theorem congr {other : Bank} (sound : bank.Sound) (logs : other.logs = bank.logs)
    (nextBase : other.nextBase = bank.nextBase) : other.Sound := by
  have same : ∀ id, other.log id = bank.log id := fun id => by rw [log, logs, log]
  constructor
  · intro id known
    rw [same]
    exact sound.logs id (logs ▸ known)
  · intro id known
    rw [same]
    exact sound.aligned id (logs ▸ known)
  · intro earlier later order known
    rw [same, same]
    exact sound.apart earlier later order (logs ▸ known)
  · intro id known
    rw [same, nextBase]
    exact sound.below id (logs ▸ known)
  · rw [nextBase]
    exact sound.nextAligned
  · rw [nextBase]
    exact sound.limited

/-- A change that keeps a log sound and in its place keeps the bank sound. -/
theorem modify (sound : bank.Sound) (id : LogId) {change : Log → Log}
    (kept : id < bank.logs.size → (change (bank.log id)).Sound)
    (base : (change (bank.log id)).base = (bank.log id).base)
    (halfBytes : (change (bank.log id)).halfBytes = (bank.log id).halfBytes) :
    (bank.modify id change).Sound := by
  have bases : ∀ sought, ((bank.modify id change).log sought).base = (bank.log sought).base := by
    intro sought
    rw [log_modify]
    split
    · rename_i here
      rw [← here.1, base]
    · rfl
  have stops : ∀ sought, ((bank.modify id change).log sought).stop = (bank.log sought).stop := by
    intro sought
    rw [Log.stop, bases, log_modify]
    split
    · rename_i here
      rw [← here.1, halfBytes]
      rfl
    · rfl
  constructor
  · intro sought known
    rw [size_modify] at known
    rw [log_modify]
    split
    · rename_i here
      rw [← here.1]
      exact kept (here.1 ▸ known)
    · exact sound.logs sought known
  · intro sought known
    rw [bases]
    exact sound.aligned sought (by simpa using known)
  · intro earlier later order known
    rw [stops, bases]
    exact sound.apart earlier later order (by simpa using known)
  · intro sought known
    rw [stops]
    exact sound.below sought (by simpa using known)
  · exact sound.nextAligned
  · exact sound.limited

/-- A region that the room suffices for ends below the limit of addresses. -/
theorem le_limit_of_le_room {bytes : Nat} (positive : 0 < bytes)
    (fits : bytes ≤ bank.room.toNat) : bytes + bank.nextBase.toNat ≤ 140737488355328 := by
  unfold room Memory.roomAt at fits
  split at fits
  · rename_i inside
    have left : min bank.memory (Memory.addressLimit - bank.nextBase)
        ≤ Memory.addressLimit - bank.nextBase := Std.min_le_right
    have fits := Nat.le_trans fits (UInt64.le_iff_toNat_le.mp left)
    rw [UInt64.toNat_sub_of_le _ _ (UInt64.le_of_lt inside)] at fits
    exact Nat.add_le_of_le_sub (UInt64.le_iff_toNat_le.mp (UInt64.le_of_lt inside)) fits
  · exact absurd (Nat.lt_of_lt_of_le positive fits) (Nat.lt_irrefl 0)

/-- A sound log at the next address that the room suffices for keeps the bank sound. -/
theorem add (sound : bank.Sound) {log : Log} (fresh : log.Sound) (base : log.base = bank.nextBase)
    (fits : (Log.regionBytes log.halfBytes).toNat ≤ bank.room.toNat) : (bank.add log).2.Sound := by
  rw [fresh.spacious.toNat_regionBytes] at fits
  have room := le_limit_of_le_room (Nat.succ_pos _) fits
  clear fits
  have whole := fresh.spacious.whole
  have aligned := sound.nextAligned
  have next : (bank.add log).2.nextBase.toNat
      = bank.nextBase.toNat + 2 * log.halfBytes.toNat + 12288 := by
    have inner : (bank.nextBase + Log.regionBytes log.halfBytes).toNat
        = bank.nextBase.toNat + 2 * log.halfBytes.toNat + 8192 := by
      rw [toNat_add_of_lt (by rw [fresh.spacious.toNat_regionBytes]; omega),
        fresh.spacious.toNat_regionBytes, Nat.add_assoc]
    show (bank.nextBase + Log.regionBytes log.halfBytes + Memory.pageSize).toNat = _
    rw [toNat_add_of_lt (by simp only [inner, Memory.pageSize, UInt64.reduceToNat]; omega), inner]
    rfl
  have place : log.stop = bank.nextBase.toNat + 2 * log.halfBytes.toNat + 8192 := by
    rw [Log.stop, base]
  constructor
  · intro id known
    rw [size_add] at known
    rcases Nat.lt_succ_iff_lt_or_eq.mp known with old | rfl
    · rw [log_add_of_lt log old]
      exact sound.logs id old
    · rw [log_add_self]
      exact fresh
  · intro id known
    rw [size_add] at known
    rcases Nat.lt_succ_iff_lt_or_eq.mp known with old | rfl
    · rw [log_add_of_lt log old]
      exact sound.aligned id old
    · rw [log_add_self, base]
      exact aligned
  · intro earlier later order known
    rw [size_add] at known
    rcases Nat.lt_succ_iff_lt_or_eq.mp known with old | rfl
    · rw [log_add_of_lt log old, log_add_of_lt log (Nat.lt_trans order old)]
      exact sound.apart earlier later order old
    · rw [log_add_self, log_add_of_lt log order, base]
      exact sound.below earlier order
  · intro id known
    rw [size_add] at known
    rcases Nat.lt_succ_iff_lt_or_eq.mp known with old | rfl
    · rw [log_add_of_lt log old, next]
      exact Nat.le_trans (sound.below id old) (by omega)
    · rw [log_add_self, next, place]
      omega
  · rw [next]
    omega
  · rw [next]
    omega

/-- A log owns the addresses from its base up to the end of its region. -/
theorem owns_iff (sound : bank.Sound) {id : LogId} (known : id < bank.logs.size)
    {address : UInt64} :
    (bank.log id).owns address = true
      ↔ (bank.log id).base.toNat ≤ address.toNat ∧ address.toNat < (bank.log id).stop := by
  have place := Nat.le_trans (sound.below id known) sound.limited
  have stop : ((bank.log id).base + Log.regionBytes (bank.log id).halfBytes).toNat
      = (bank.log id).stop := by
    rw [Log.stop] at place ⊢
    rw [toNat_add_of_lt] <;> rw [(sound.logs id known).spacious.toNat_regionBytes]
    · rw [Nat.add_assoc]
    · omega
  simp only [Log.owns, Bool.and_eq_true, decide_eq_true_eq, UInt64.le_iff_toNat_le,
    UInt64.lt_iff_toNat_lt, stop]

/-- No two logs own the same address. -/
theorem eq_of_owns (sound : bank.Sound) {id other : LogId} (known : id < bank.logs.size)
    (otherKnown : other < bank.logs.size) {address : UInt64}
    (owned : (bank.log id).owns address = true) (alsoOwned : (bank.log other).owns address = true) :
    id = other := by
  obtain ⟨lower, upper⟩ := (sound.owns_iff known).mp owned
  obtain ⟨otherLower, otherUpper⟩ := (sound.owns_iff otherKnown).mp alsoOwned
  rcases Nat.lt_trichotomy id other with before | same | behind
  · have := sound.apart id other before otherKnown
    omega
  · exact same
  · have := sound.apart other id behind known
    omega

theorem toNat_guardAddress (sound : bank.Sound) {id : LogId} (known : id < bank.logs.size) :
    (bank.log id).guardAddress.toNat
      = (bank.log id).base.toNat
        + (Log.halfOffset (bank.log id).halfBytes (bank.log id).active).toNat
        + (bank.log id).halfBytes.toNat := by
  have place := Nat.le_trans (sound.below id known) sound.limited
  have bounded := (sound.logs id known).spacious.bounded
  have start := (sound.logs id known).spacious.toNat_halfOffset_le (bank.log id).active
  simp only [Log.stop] at place
  have inner : ((bank.log id).base
        + Log.halfOffset (bank.log id).halfBytes (bank.log id).active).toNat
      = (bank.log id).base.toNat
        + (Log.halfOffset (bank.log id).halfBytes (bank.log id).active).toNat :=
    toNat_add_of_lt (by omega)
  rw [Log.guardAddress, toNat_add_of_lt (by rw [inner]; omega), inner]

theorem owns_guardAddress (sound : bank.Sound) {id : LogId} (known : id < bank.logs.size) :
    (bank.log id).owns (bank.log id).guardAddress = true := by
  have start := (sound.logs id known).spacious.toNat_halfOffset_le (bank.log id).active
  rw [sound.owns_iff known, sound.toNat_guardAddress known, Log.stop]
  omega

/-- **The log that is found for an address** is the registered one that owns it. -/
theorem owner?_eq_some_iff (sound : bank.Sound)
    (known : ∀ other ∈ bank.registered, other < bank.logs.size) {address : UInt64} {id : LogId} :
    bank.owner? address = some id
      ↔ id ∈ bank.registered ∧ (bank.log id).owns address = true := by
  constructor
  · intro found
    exact ⟨List.mem_of_find?_eq_some found, by simpa using List.find?_some found⟩
  · rintro ⟨registered, owned⟩
    cases found : bank.owner? address with
    | none => exact absurd owned (List.find?_eq_none.mp found id registered)
    | some other =>
      have member := List.mem_of_find?_eq_some found
      have alsoOwned : (bank.log other).owns address = true := by simpa using List.find?_some found
      rw [sound.eq_of_owns (known other member) (known id registered) alsoOwned owned]

/-- A fault in the guard page of a registered log is brought home to that log. -/
theorem owner?_guardAddress (sound : bank.Sound) {id : LogId} (registered : id ∈ bank.registered)
    (known : ∀ other ∈ bank.registered, other < bank.logs.size) :
    bank.owner? (bank.log id).guardAddress = some id :=
  (sound.owner?_eq_some_iff known).mpr
    ⟨registered, sound.owns_guardAddress (known id registered)⟩

/-- Halves end at page boundaries. -/
theorem toNat_guardAddress_mod (sound : bank.Sound) {id : LogId} (known : id < bank.logs.size) :
    (bank.log id).guardAddress.toNat % 4096 = 0 := by
  have aligned := sound.aligned id known
  have whole := (sound.logs id known).spacious.whole
  have start : (Log.halfOffset (bank.log id).halfBytes (bank.log id).active).toNat % 4096 = 0 := by
    cases (bank.log id).active with
    | first => rfl
    | second =>
      rw [(sound.logs id known).spacious.toNat_halfOffset_second]
      omega
  rw [sound.toNat_guardAddress known]
  omega

/-- A guard page starts at its guard address. -/
theorem pageOf_guardAddress (sound : bank.Sound) {id : LogId} (known : id < bank.logs.size) :
    Memory.pageOf (bank.log id).guardAddress = (bank.log id).guardAddress :=
  (Memory.pageOf_eq_iff (sound.toNat_guardAddress_mod known)).mpr
    ⟨Nat.le_refl _, Nat.lt_add_of_pos_right (by decide)⟩

end Sound

/-! ## Creation and cloning -/

/-- A log that is created is the next one of its bank. -/
theorem create_eq_ok {bank reached : Bank} {requested : UInt64} {id : LogId}
    (created : bank.create requested = (.ok id, reached)) :
    ∃ log, Log.create bank.nextBase bank.room requested = .ok log
      ∧ id = bank.logs.size ∧ reached = (bank.add log).2 := by
  unfold create at created
  split at created
  · cases created
  · rename_i log fresh
    cases created
    exact ⟨log, fresh, rfl, rfl⟩

/-- A log that is not created leaves the bank alone. -/
theorem create_eq_error {bank reached : Bank} {requested : UInt64} {failure : Failure}
    (refused : bank.create requested = (.error failure, reached)) : reached = bank := by
  unfold create at refused
  split at refused
  · cases refused
    rfl
  · cases refused

/-- A clone is the next log of its bank. -/
theorem clone_eq_ok {bank reached : Bank} {id copy : LogId}
    (cloned : bank.clone id = (.ok copy, reached)) :
    ∃ log, (bank.log id).clone bank.nextBase bank.room = .ok log
      ∧ copy = bank.logs.size ∧ reached = (bank.add log).2 := by
  unfold clone at cloned
  split at cloned
  · cases cloned
  · rename_i log fresh
    cases cloned
    exact ⟨log, fresh, rfl, rfl⟩

/-- A clone that is not made leaves the bank alone. -/
theorem clone_eq_error {bank reached : Bank} {id : LogId} {failure : Failure}
    (refused : bank.clone id = (.error failure, reached)) : reached = bank := by
  unfold clone at refused
  split at refused
  · cases refused
    rfl
  · cases refused

/-- A log just created may be added to its bank. -/
theorem Sound.add_create {bank : Bank} (sound : bank.Sound) {requested : UInt64} {log : Log}
    (created : Log.create bank.nextBase bank.room requested = .ok log) : (bank.add log).2.Sound := by
  have fresh := Log.Sound.of_create created
  obtain ⟨protection, rfl, -, -, fits⟩ := Log.create_eq_ok created
  exact sound.add fresh rfl fits

/-- A clone of a log may be added to its bank. -/
theorem Sound.add_clone {bank : Bank} (sound : bank.Sound) {id : LogId}
    (known : id < bank.logs.size) {log : Log}
    (cloned : (bank.log id).clone bank.nextBase bank.room = .ok log) : (bank.add log).2.Sound := by
  have original := sound.logs id known
  have fresh := original.of_clone cloned
  obtain ⟨protection, rfl, -, fits⟩ := Log.clone_eq_ok original.spacious cloned
  exact sound.add fresh rfl fits

theorem Sound.create {bank : Bank} (sound : bank.Sound) (requested : UInt64) :
    (bank.create requested).2.Sound := by
  cases created : bank.create requested with
  | mk outcome reached =>
    cases outcome with
    | error failure =>
      rw [create_eq_error created]
      exact sound
    | ok id =>
      obtain ⟨log, fresh, -, rfl⟩ := create_eq_ok created
      exact sound.add_create fresh

end Bank

end HeapAudit
