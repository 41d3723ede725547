import HeapAudit.Proofs.Recording.Operations
import HeapAudit.Recording.Journal

/-!
# Which faults are overflows

A controller is asked about every fault, wherever it happened.  It looks for a registered log that
owns the address, and compares the page of the address with the guard page that the active half of
this log ends at.  Since regions lie apart and halves end at page boundaries, this finds the right
log if there is one (`Bank.OverflowsAt`) and no log otherwise: the guard page behind the other half,
addresses inside a half, and logs that are closed or forgotten are all turned down.

`Controller.handle_fires_exactly` says what the controller does in both cases.  The drainer is left
open: all that is said of it is when it is called, for which log and from which state.
-/

namespace HeapAudit

set_option autoImplicit false

/-! ## Overflows -/

/-- An address lies in the page right behind the active half of a log. -/
def Log.Behind (log : Log) (address : UInt64) : Prop :=
  log.base.toNat + (halfOffset log.halfBytes log.active).toNat + log.halfBytes.toNat ≤ address.toNat
    ∧ address.toNat
      < log.base.toNat + (halfOffset log.halfBytes log.active).toNat + log.halfBytes.toNat + 4096

instance (log : Log) (address : UInt64) : Decidable (log.Behind address) :=
  inferInstanceAs (Decidable (_ ∧ _))

namespace Bank

variable {bank : Bank} {id : LogId} {address : UInt64}

/-- A fault at an address is an overflow of a log: the log is registered and open, the address
belongs to its region, and there to the page right behind the active half. -/
structure OverflowsAt (bank : Bank) (address : UInt64) (id : LogId) : Prop where
  registered : id ∈ bank.registered
  opened : (bank.log id).isClosed = false
  owned : (bank.log id).owns address = true
  behind : (bank.log id).Behind address

/-- The page that an address is compared by is the one right behind the active half. -/
theorem Sound.pageOf_eq_guardAddress_iff (sound : bank.Sound) (known : id < bank.logs.size)
    (address : UInt64) :
    Memory.pageOf address = (bank.log id).guardAddress ↔ (bank.log id).Behind address := by
  rw [Memory.pageOf_eq_iff (sound.toNat_guardAddress_mod known), sound.toNat_guardAddress known,
    Log.Behind]

/-- **The controller's test.**  The log that is found for an address passes it exactly if the fault
is an overflow of that log. -/
theorem Tended.overflowsAt_iff (tended : bank.Tended) (found : bank.owner? address = some id) :
    bank.OverflowsAt address id
      ↔ ((bank.log id).isClosed || Memory.pageOf address != (bank.log id).guardAddress) = false := by
  obtain ⟨registered, owned⟩ := (tended.sound.owner?_eq_some_iff tended.known).mp found
  have page := tended.sound.pageOf_eq_guardAddress_iff (tended.known id registered) address
  rw [Bool.or_eq_false_iff, bne_eq_false_iff_eq, page]
  exact ⟨fun overflows => ⟨overflows.opened, overflows.behind⟩,
    fun ⟨opened, behind⟩ => ⟨registered, opened, owned, behind⟩⟩

theorem Tended.owner?_of_overflowsAt (tended : bank.Tended)
    (overflows : bank.OverflowsAt address id) : bank.owner? address = some id :=
  (tended.sound.owner?_eq_some_iff tended.known).mpr ⟨overflows.registered, overflows.owned⟩

/-! ## Flipping one log -/

/-- One log of a bank is flipped, which its memory permits; the other logs and the registry stay as
they were. -/
structure Flips (bank : Bank) (id : LogId) (after : Bank) : Prop where
  permitted : (bank.log id).protectFlipped = .ok (bank.log id).flip.protection
  flipped : after.log id = (bank.log id).flip
  others : ∀ other, other ≠ id → after.log other = bank.log other
  size : after.logs.size = bank.logs.size
  registered : after.registered = bank.registered
  snapshots : after.snapshots = bank.snapshots

theorem Sound.flips (sound : bank.Sound) (known : id < bank.logs.size) :
    bank.Flips id (bank.modify id Log.flip) where
  permitted := (sound.logs id known).spacious.protectFlipped
  flipped := log_modify_self Log.flip known
  others := fun _ elsewhere => log_modify_of_ne Log.flip (Ne.symm elsewhere)
  size := size_modify bank id Log.flip
  registered := rfl
  snapshots := rfl

end Bank

/-- The station with a log flipped. -/
def Station.flipLog {δ : Type} (station : Station δ) (id : LogId) : Station δ :=
  { station with bank := station.bank.modify id Log.flip }

/-! ## The two answers of a controller -/

namespace Controller

variable {δ : Type} (controller : Controller δ) {address : UInt64} {station : Station δ} {id : LogId}

/-- **A controller fires for a log.**  It is the only log that overflows there; it alone is flipped;
then it is drained, from the station with the log flipped and nothing else changed.  If the drainer
succeeds, the controller counts one overflow more and the store may be tried again; if it fails, the
controller aborts and counts nothing. -/
structure Fires (controller : Controller δ) (address : UInt64) (station : Station δ) (id : LogId) :
    Prop where
  alone : ∀ other, station.bank.OverflowsAt address other → other = id
  flips : station.bank.Flips id (station.flipLog id).bank
  succeeds : ∀ drained, (controller.drainer id).start (station.flipLog id) = (.ok (), drained) →
    ∃ counted, (controller.handle address).start station = (.ok true, counted)
      ∧ counted.bank = drained.bank ∧ counted.consumer = drained.consumer
      ∧ ∀ other, counted.handledBy other
        = drained.handledBy other + if controller.id = other then 1 else 0
  fails : ∀ failure drained,
    (controller.drainer id).start (station.flipLog id) = (.error failure, drained) →
      (controller.handle address).start station = (.error failure.escalate, drained)
        ∧ ∀ cause, failure.escalate ≠ .refusal cause

/-- Handling an overflow is flipping, draining and counting. -/
theorem start_handle_eq (found : station.bank.owner? address = some id)
    (hit : ((station.bank.log id).isClosed
      || Memory.pageOf address != (station.bank.log id).guardAddress) = false) :
    (controller.handle address).start station
      = match (controller.drainer id).start (station.flipLog id) with
        | (.ok (), drained) => (.ok true, drained.countHandled controller.id)
        | (.error failure, drained) => (.error failure.escalate, drained) := by
  rw [controller.start_handle found hit, Work.start_bind, Station.start_modifyLog]
  dsimp only
  rw [Work.start_bind, Station.start_escalating, ← Station.flipLog]
  cases (controller.drainer id).start (station.flipLog id) with
  | mk outcome drained => cases outcome <;> rfl

theorem fires (tended : station.bank.Tended) (overflows : station.bank.OverflowsAt address id) :
    controller.Fires address station id := by
  have found := tended.owner?_of_overflowsAt overflows
  have handled := controller.start_handle_eq found ((tended.overflowsAt_iff found).mp overflows)
  constructor
  · intro other alsoOverflows
    have alsoFound := tended.owner?_of_overflowsAt alsoOverflows
    exact Option.some.inj (alsoFound.symm.trans found)
  · exact tended.sound.flips (tended.known id overflows.registered)
  · intro drained succeeded
    rw [handled, succeeded]
    exact ⟨_, rfl, rfl, rfl, fun other => Station.handledBy_countHandled controller.id other drained⟩
  · intro failure drained failed
    rw [handled, failed]
    exact ⟨rfl, failure.escalate_ne_refusal⟩

/-- A fault that is no overflow is left alone. -/
theorem start_handle_of_miss (tended : station.bank.Tended)
    (missed : ¬ ∃ id, station.bank.OverflowsAt address id) :
    (controller.handle address).start station = (.ok false, station) := by
  rw [handle, Work.start_bind, Work.start_get]
  dsimp only
  cases found : station.bank.owner? address with
  | none => rfl
  | some id =>
    have turnedDown : ((station.bank.log id).isClosed
        || Memory.pageOf address != (station.bank.log id).guardAddress) = true := by
      rw [← Bool.not_eq_false, ← tended.overflowsAt_iff found]
      exact fun overflows => missed ⟨id, overflows⟩
    dsimp only
    rw [if_pos turnedDown]
    rfl

/-- **Faults are handled exactly on live guard pages.**  Whatever was done with logs and their
registry before, and whatever the drainer does: if a fault is an overflow of a log, the controller
fires for that log, and any other fault it turns down without touching anything. -/
theorem handle_fires_exactly (memory : UInt64) (operations : List Bank.Operation)
    (handled : WordMap Nat) (consumer : δ) (address : UInt64) :
    let station : Station δ := ⟨(Bank.empty memory).operateAll operations, handled, consumer⟩
    (∀ id, station.bank.OverflowsAt address id → controller.Fires address station id)
      ∧ ((¬ ∃ id, station.bank.OverflowsAt address id) →
        (controller.handle address).start station = (.ok false, station)) := by
  have tended := Bank.Tended.operateAll operations (Bank.tended_empty memory)
  exact ⟨fun id overflows => controller.fires tended overflows,
    controller.start_handle_of_miss tended⟩

/-- The last byte of the guard page behind the active half belongs to an overflow.  The guard page
behind the other half does not, and neither does that of a log that is closed but still listed. -/
theorem handle_fires_exactly_on_live_page :
    let station : Station Journal := ⟨(Bank.empty 0x100000000).operateAll
      [.onLogs (.task (.create 1)), .register 0, .snapshot 0, .onLogs (.task (.act 0 .flip)),
        .register 1, .release 1], ∅, []⟩
    let controller : Controller Journal := ⟨7, Journal.drainer .reset⟩
    station.bank.registered = [0, 1] ∧ station.bank.OverflowsAt 0x400000003fff 0
      ∧ controller.Fires 0x400000003fff station 0
      ∧ ((controller.handle 0x400000003fff).start station).1.toOption = some true
      ∧ (controller.handle 0x400000001fff).start station = (.ok false, station)
      ∧ (controller.handle 0x400000006000).start station = (.ok false, station) := by
  intro station controller
  have overflows : station.bank.OverflowsAt 0x400000003fff 0 :=
    ⟨by decide +kernel, by decide +kernel, by decide +kernel, by decide +kernel⟩
  have missed : ∀ address, (∀ id ∈ station.bank.registered,
      (station.bank.log id).isClosed = true ∨ ¬ (station.bank.log id).Behind address) →
      ¬ ∃ id, station.bank.OverflowsAt address id := by
    rintro address elsewhere ⟨id, overflows⟩
    rcases elsewhere id overflows.registered with closed | outside
    · rw [overflows.opened] at closed
      cases closed
    · exact outside overflows.behind
  have answers := controller.handle_fires_exactly 0x100000000 [.onLogs (.task (.create 1)),
    .register 0, .snapshot 0, .onLogs (.task (.act 0 .flip)), .register 1, .release 1] ∅ []
  refine ⟨by decide +kernel, overflows, (answers _).1 0 overflows, by decide +kernel, ?_, ?_⟩
  · exact (answers _).2 (missed _ (by decide +kernel))
  · exact (answers _).2 (missed _ (by decide +kernel))

end Controller

end HeapAudit
