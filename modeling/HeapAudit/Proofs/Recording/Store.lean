import HeapAudit.Proofs.Log.Regions
import HeapAudit.Recording.Recorder

/-!
# Storing a record

A recorder stores a record by one append and at most two drains around it: one if the
record does not fit, and, under the policy of checking after each append, one if the
append leaves no room for a pair.  The three policies differ in how they notice a full
log, and only the guard page acts on the log before the drain: it seals the half whose
guard page was hit.

`Recorder.ends_store` turns this into a rule.  Whatever is kept by the append, by the
sealing and by the drains is kept by storing, and storing fails only if a drain does.
The rule asks of a drain that it leaves the log without events, which is more than the
room for a pair that the recorder itself insists on.
-/

namespace HeapAudit

set_option autoImplicit false

/-! ## Records and logs -/

/-- `other` is the log with slots added behind the events of its active half. -/
def Log.Gains (log : Log) (slots : List Event) (other : Log) : Prop :=
  ∃ half, other = log.setHalf log.active half ∧ half.events = log.activeEvents ++ slots
    ∧ half.count.toNat = log.count.toNat + slots.length

namespace Log.Gains

variable {log other : Log} {slots : List Event}

theorem base (gains : log.Gains slots other) : other.base = log.base := by
  obtain ⟨half, rfl, -⟩ := gains
  exact base_setHalf ..

theorem halfBytes (gains : log.Gains slots other) : other.halfBytes = log.halfBytes := by
  obtain ⟨half, rfl, -⟩ := gains
  exact halfBytes_setHalf ..

theorem capacity (gains : log.Gains slots other) : other.capacity = log.capacity := by
  obtain ⟨half, rfl, -⟩ := gains
  exact capacity_setHalf ..

theorem guardAddress (gains : log.Gains slots other) : other.guardAddress = log.guardAddress := by
  obtain ⟨half, rfl, -⟩ := gains
  exact guardAddress_setHalf ..

theorem isClosed (gains : log.Gains slots other) : other.isClosed = log.isClosed := by
  obtain ⟨half, rfl, -⟩ := gains
  exact isClosed_setHalf ..

theorem isSealed (gains : log.Gains slots other) : other.isSealed = log.isSealed := by
  obtain ⟨half, rfl, -⟩ := gains
  exact isSealed_setHalf ..

theorem activeEvents (gains : log.Gains slots other) :
    other.activeEvents = log.activeEvents ++ slots := by
  obtain ⟨half, rfl, events, -⟩ := gains
  rw [Log.activeEvents, active_setHalf, half_setHalf_self, events]

theorem sound (gains : log.Gains slots other) (sound : log.Sound)
    (fits : log.count.toNat + slots.length ≤ log.capacity.toNat) : other.Sound := by
  obtain ⟨half, rfl, -, counted⟩ := gains
  exact sound.setHalf log.active half (by rw [counted]; exact fits)

end Log.Gains

namespace Record

theorem toNat_size (record : Record) : record.size.toNat = record.slots.length := by
  cases record <;> rfl

theorem length_slots_le (record : Record) : record.slots.length ≤ 2 := by
  cases record with
  | single event => exact Nat.le_succ 1
  | pair event operand => exact Nat.le_refl 2

/-- A record fits into the active half of a log. -/
def Fits (record : Record) (log : Log) : Prop :=
  log.count.toNat + record.slots.length ≤ log.capacity.toNat

/-- A record that fits is appended. -/
theorem appendTo_of_fits {log : Log} (sound : log.Sound) (record : Record)
    (fits : record.Fits log) :
    ∃ other, record.appendTo log = (.ok (), other) ∧ log.Gains record.slots other := by
  have small := sound.toNat_capacity_lt
  cases record with
  | single event =>
    have fits : log.count.toNat + 1 ≤ log.capacity.toNat := fits
    have bounded : log.count.toNat + 1 < 18446744073709551616 := by omega
    exact ⟨_, Log.append_of_fits sound event fits, _, rfl, Half.events_push _ _ bounded,
      Half.toNat_count_push _ _ bounded⟩
  | pair event operand =>
    have fits : log.count.toNat + 2 ≤ log.capacity.toNat := fits
    have bounded : log.count.toNat + 1 < 18446744073709551616 := by omega
    have counted := (log.half log.active).toNat_count_push event bounded
    have second : ((log.half log.active).push event).count.toNat + 1 < 18446744073709551616 := by
      rw [counted]
      exact Nat.lt_of_le_of_lt fits (by omega)
    refine ⟨_, Log.appendPair_of_fits sound event operand fits, _, rfl, ?_, ?_⟩
    · rw [Half.events_push _ _ second, Half.events_push _ _ bounded]
      simp [slots, Log.activeEvents]
    · rw [Half.toNat_count_push _ _ second, counted]
      rfl

/-- A record that does not fit faults at the guard page; the events stay as they were. -/
theorem appendTo_of_not_fits {log : Log} (sound : log.Sound) (record : Record)
    (full : ¬ record.Fits log) :
    ∃ other, record.appendTo log = (.error ⟨log.guardAddress⟩, other) ∧ log.Gains [] other := by
  have counted : log.count.toNat ≤ log.capacity.toNat := sound.counted log.active
  cases record with
  | single event =>
    have full : ¬ log.count.toNat + 1 ≤ log.capacity.toNat := full
    refine ⟨log, Log.append_of_full sound event (by omega), log.half log.active, ?_, ?_, rfl⟩
    · rw [Log.setHalf_half]
    · rw [List.append_nil]
      rfl
  | pair event operand =>
    have full : ¬ log.count.toNat + 2 ≤ log.capacity.toNat := full
    obtain ⟨half, faulted, events, same⟩ :=
      Log.appendPair_of_full sound event operand (by omega)
    exact ⟨_, faulted, half, rfl, by rw [events, List.append_nil], by rw [same]; rfl⟩

end Record

/-- There is less room than needed exactly if the slots do not fit. -/
theorem Log.Sound.room_lt_iff {log : Log} (sound : log.Sound) (needed : UInt64) :
    log.room < needed ↔ ¬ log.count.toNat + needed.toNat ≤ log.capacity.toNat := by
  have counted : log.count.toNat ≤ log.capacity.toNat := sound.counted log.active
  rw [UInt64.lt_iff_toNat_lt, Log.room,
    UInt64.toNat_sub_of_le _ _ (UInt64.le_iff_toNat_le.mpr counted)]
  omega

/-- A log with enough free slots for a record takes the record. -/
theorem Record.fits_of_room {log : Log} (sound : log.Sound) (record : Record)
    (free : ¬ log.room < record.size) : record.Fits log := by
  rwa [sound.room_lt_iff, record.toNat_size, Decidable.not_not] at free

/-! ## Logs at work -/

namespace Bank

/-- A log that a recorder can work on: one of a sound bank, and open. -/
structure Ready (bank : Bank) (id : LogId) : Prop where
  sound : bank.Sound
  known : id < bank.logs.size
  opened : (bank.log id).isClosed = false

/-- A log whose faults are brought home: it is registered, among logs of the bank. -/
structure Listed (bank : Bank) (id : LogId) : Prop where
  registered : id ∈ bank.registered
  known : ∀ other ∈ bank.registered, other < bank.logs.size

namespace Ready

variable {bank : Bank} {id : LogId}

theorem soundLog (ready : bank.Ready id) : (bank.log id).Sound :=
  ready.sound.logs id ready.known

theorem log_modify (ready : bank.Ready id) (change : Log → Log) :
    (bank.modify id change).log id = change (bank.log id) :=
  log_modify_self change ready.known

/-- A change to a sound open log in the same place keeps a log ready. -/
theorem modify (ready : bank.Ready id) {change : Log → Log}
    (sound : (change (bank.log id)).Sound) (base : (change (bank.log id)).base = (bank.log id).base)
    (halfBytes : (change (bank.log id)).halfBytes = (bank.log id).halfBytes)
    (opened : (change (bank.log id)).isClosed = false) : (bank.modify id change).Ready id where
  sound := ready.sound.modify id (fun _ => sound) base halfBytes
  known := by
    rw [size_modify]
    exact ready.known
  opened := by rw [ready.log_modify, opened]

theorem reset (ready : bank.Ready id) : (bank.modify id Log.reset).Ready id :=
  ready.modify ready.soundLog.reset (Log.base_reset _) (Log.halfBytes_reset _)
    (by rw [Log.isClosed_reset, ready.opened])

end Ready

theorem Listed.modify {bank : Bank} {id : LogId} (listed : bank.Listed id) (changed : LogId)
    (change : Log → Log) : (bank.modify changed change).Listed id where
  registered := listed.registered
  known := by
    intro other member
    rw [size_modify]
    exact listed.known other member

end Bank

/-- The station with a log in place of another one. -/
def Station.setLog {δ : Type} (station : Station δ) (id : LogId) (log : Log) : Station δ :=
  { station with bank := station.bank.modify id fun _ => log }

/-! ## Work that may fail -/

namespace Work

variable {σ α β : Type} {excused : Prop} {state : σ}

/-- Work from a state succeeds as wanted, unless it fails and failing is excused. -/
def Ends (work : Work σ α) (excused : Prop) (state : σ) (wanted : α → σ → Prop) : Prop :=
  match work.start state with
  | (.ok value, reached) => wanted value reached
  | (.error _, _) => excused

namespace Ends

theorem of_start {work : Work σ α} {wanted : α → σ → Prop} {value : α} {reached : σ}
    (started : work.start state = (.ok value, reached)) (fine : wanted value reached) :
    work.Ends excused state wanted := by
  rw [Ends, started]
  exact fine

/-- Work succeeds as wanted or fails with an excuse. -/
theorem cases {work : Work σ α} {wanted : α → σ → Prop} (ends : work.Ends excused state wanted) :
    (∃ value reached, work.start state = (.ok value, reached) ∧ wanted value reached)
      ∨ (∃ failure reached, work.start state = (.error failure, reached)) ∧ excused := by
  unfold Ends at ends
  cases started : work.start state with
  | mk outcome reached =>
    rw [started] at ends
    cases outcome with
    | ok value => exact .inl ⟨value, reached, rfl, ends⟩
    | error failure => exact .inr ⟨⟨failure, reached, rfl⟩, ends⟩

theorem of_error {work : Work σ α} {wanted : α → σ → Prop} {failure : Failure} {reached : σ}
    (started : work.start state = (.error failure, reached)) (excuse : excused) :
    work.Ends excused state wanted := by
  rw [Ends, started]
  exact excuse

theorem mono {work : Work σ α} {wanted weaker : α → σ → Prop} (ends : work.Ends excused state wanted)
    (implies : ∀ value reached, wanted value reached → weaker value reached) :
    work.Ends excused state weaker := by
  obtain ⟨value, reached, started, fine⟩ | ⟨⟨failure, reached, started⟩, excuse⟩ := ends.cases
  · exact of_start started (implies value reached fine)
  · exact of_error started excuse

theorem bind {work : Work σ α} {next : α → Work σ β} {between : α → σ → Prop}
    {wanted : β → σ → Prop} (ends : work.Ends excused state between)
    (onward : ∀ value reached, between value reached → (next value).Ends excused reached wanted) :
    (work >>= next).Ends excused state wanted := by
  obtain ⟨value, reached, started, fine⟩ | ⟨⟨failure, reached, started⟩, excuse⟩ := ends.cases
  · have onward := onward value reached fine
    unfold Ends at onward ⊢
    rw [start_bind, started]
    exact onward
  · have failed : (work >>= next).start state = (.error failure, reached) := by
      rw [start_bind, started]
    exact of_error failed excuse

/-- Work that is known to succeed can be passed over. -/
theorem pass {work : Work σ α} {next : α → Work σ β} {wanted : β → σ → Prop} {value : α}
    {reached : σ} (started : work.start state = (.ok value, reached))
    (onward : (next value).Ends excused reached wanted) :
    (work >>= next).Ends excused state wanted := by
  rw [Ends, start_bind, started]
  exact onward

/-- Work that is not excused succeeds. -/
theorem succeeds {work : Work σ α} {wanted : α → σ → Prop} (ends : work.Ends False state wanted) :
    ∃ value reached, work.start state = (.ok value, reached) ∧ wanted value reached := by
  obtain success | ⟨-, excuse⟩ := ends.cases
  · exact success
  · exact excuse.elim

/-- If every failure is excused, only success matters. -/
theorem of_forall {work : Work σ α} {wanted : α → σ → Prop}
    (fine : ∀ value reached, work.start state = (.ok value, reached) → wanted value reached) :
    work.Ends True state wanted := by
  cases started : work.start state with
  | mk outcome reached =>
    cases outcome with
    | ok value => exact of_start started (fine value reached started)
    | error failure => exact of_error started trivial

/-- Work that succeeds does so as wanted. -/
theorem of_ok {work : Work σ α} {wanted : α → σ → Prop} (ends : work.Ends excused state wanted)
    {value : α} {reached : σ} (started : work.start state = (.ok value, reached)) :
    wanted value reached := by
  rwa [Ends, started] at ends

end Ends

end Work

/-- An escalated failure is no refusal any more. -/
theorem Failure.escalate_ne_refusal (failure : Failure) (cause : Cause) :
    failure.escalate ≠ .refusal cause := by
  cases failure <;> exact fun same => by cases same

theorem Station.ends_escalating {δ α : Type} {work : Work (Station δ) α} {excused : Prop}
    {station : Station δ} {wanted : α → Station δ → Prop} (ends : work.Ends excused station wanted) :
    (Station.escalating work).Ends excused station wanted := by
  obtain ⟨value, reached, started, fine⟩ | ⟨⟨failure, reached, started⟩, excuse⟩ := ends.cases
  · have succeeded : (Station.escalating work).start station = (.ok value, reached) := by
      rw [start_escalating, started]
    exact .of_start succeeded fine
  · have failed : (Station.escalating work).start station = (.error failure.escalate, reached) := by
      rw [start_escalating, started]
    exact .of_error failed excuse

/-! ## The parts of storing -/

/-- A fault in the guard page behind the active half of an open log seals and drains the log. -/
theorem Controller.start_handle {δ : Type} (controller : Controller δ) {station : Station δ}
    {address : UInt64} {id : LogId} (found : station.bank.owner? address = some id)
    (hit : ((station.bank.log id).isClosed
      || Memory.pageOf address != (station.bank.log id).guardAddress) = false) :
    (controller.handle address).start station = (do
      Station.modifyLog id Log.flip
      Station.escalating (controller.drainer id)
      modify (Station.countHandled controller.id)
      return true : Work (Station δ) Bool).start station := by
  rw [Controller.handle, Work.start_bind, Work.start_get]
  simp only [found, hit]
  rfl

namespace Recorder

variable {δ : Type} (recorder : Recorder δ) (record : Record) (station : Station δ)

theorem start_tryAppend :
    (recorder.tryAppend record).start station
      = (.ok (record.appendTo (station.bank.log recorder.log)).1,
        station.setLog recorder.log (record.appendTo (station.bank.log recorder.log)).2) := by
  rw [tryAppend, Work.start_bind, Station.start_log]
  rfl

theorem start_append_of_ok {log : Log}
    (appended : record.appendTo (station.bank.log recorder.log) = (.ok (), log)) :
    (recorder.append record).start station = (.ok (), station.setLog recorder.log log) := by
  rw [append, Work.start_bind, start_tryAppend, appended]
  rfl

end Recorder

/-! ## The rule of storing -/

/-- **What storing a record keeps.**  `before` holds until the record is appended and `after` from
then on; `spilled` is what sealing makes of `before` when the record hits the guard page. -/
structure Recorder.Keeps {δ : Type} (recorder : Recorder δ) (record : Record) (excused : Prop)
    (before spilled after : Station δ → Prop) : Prop where
  readyBefore : ∀ station, before station → station.bank.Ready recorder.log
  readyAfter : ∀ station, after station → station.bank.Ready recorder.log
  listed : recorder.policy = .guardPage → ∀ station, before station →
    station.bank.Listed recorder.log
  spill : ∀ station other, before station → ¬ record.Fits (station.bank.log recorder.log) →
    (station.bank.log recorder.log).Gains [] other →
    spilled (station.setLog recorder.log other.flip)
  append : ∀ station other, before station → record.Fits (station.bank.log recorder.log) →
    (station.bank.log recorder.log).Gains record.slots other →
    after (station.setLog recorder.log other)
  handled : ∀ station controller, before station → before (station.countHandled controller)
  drain : ∀ station, before station ∨ spilled station →
    (recorder.drainer recorder.log).Ends excused station fun _ reached =>
      before reached ∧ (reached.bank.log recorder.log).count = 0
  drainAfter : ∀ station, after station →
    (recorder.drainer recorder.log).Ends excused station fun _ reached =>
      after reached ∧ (reached.bank.log recorder.log).count = 0

namespace Recorder

variable {δ : Type} {recorder : Recorder δ} {record : Record} {excused : Prop}
variable {before spilled after : Station δ → Prop} {station : Station δ}

/-- Any record fits into a log without events. -/
theorem fits_of_count_eq_zero {log : Log} (sound : log.Sound) (empty : log.count = 0) :
    record.Fits log := by
  have room := sound.le_toNat_capacity
  have short := record.length_slots_le
  rw [Record.Fits, empty, UInt64.toNat_zero]
  omega

/-- A drain that leaves the log without events leaves room for a pair. -/
theorem ends_drain {kept : Station δ → Prop}
    (ready : ∀ reached, kept reached → reached.bank.Ready recorder.log)
    (ends : (recorder.drainer recorder.log).Ends excused station fun _ reached =>
      kept reached ∧ (reached.bank.log recorder.log).count = 0) :
    recorder.drain.Ends excused station fun _ reached =>
      kept reached ∧ (reached.bank.log recorder.log).count = 0 := by
  refine Work.Ends.bind (Station.ends_escalating ends) ?_
  rintro value reached ⟨held, empty⟩
  have sound := (ready reached held).soundLog
  have roomy : ¬ (reached.bank.log recorder.log).room < reserve := by
    have room := sound.le_toNat_capacity
    rw [sound.room_lt_iff, empty, UInt64.toNat_zero, reserve]
    exact fun full => full (Nat.le_trans (by decide) room)
  refine .pass (Station.start_log ..) ?_
  rw [if_neg roomy]
  exact .of_start (Work.start_pure ..) ⟨held, empty⟩

theorem ends_append (keeps : recorder.Keeps record excused before spilled after)
    (held : before station) (fits : record.Fits (station.bank.log recorder.log)) :
    (recorder.append record).Ends excused station fun _ reached => after reached := by
  obtain ⟨other, appended, gains⟩ :=
    record.appendTo_of_fits (keeps.readyBefore station held).soundLog fits
  exact .of_start (recorder.start_append_of_ok record station appended)
    (keeps.append station other held fits gains)

/-- The fault of a record that does not fit is handled: the log is sealed and drained. -/
theorem ends_handle (guards : recorder.policy = .guardPage) {controller : Controller δ}
    (drainer : controller.drainer = recorder.drainer)
    (keeps : recorder.Keeps record excused before spilled after) (held : before station)
    (full : ¬ record.Fits (station.bank.log recorder.log)) {other : Log}
    (gains : (station.bank.log recorder.log).Gains [] other) :
    (controller.handle (station.bank.log recorder.log).guardAddress).Ends excused
      (station.setLog recorder.log other) fun handled reached =>
        handled = true ∧ before reached ∧ (reached.bank.log recorder.log).count = 0 := by
  have readyHeld := keeps.readyBefore station held
  have sound : other.Sound := gains.sound readyHeld.soundLog (readyHeld.soundLog.counted _)
  have ready : (station.setLog recorder.log other).bank.Ready recorder.log :=
    readyHeld.modify sound gains.base gains.halfBytes (by rw [gains.isClosed, readyHeld.opened])
  have listed : (station.setLog recorder.log other).bank.Listed recorder.log :=
    (keeps.listed guards station held).modify recorder.log _
  have same : (station.bank.log recorder.log).guardAddress
      = ((station.setLog recorder.log other).bank.log recorder.log).guardAddress := by
    rw [Station.setLog, readyHeld.log_modify, gains.guardAddress]
  have found : (station.setLog recorder.log other).bank.owner?
      (station.bank.log recorder.log).guardAddress = some recorder.log := by
    rw [same]
    exact ready.sound.owner?_guardAddress listed.registered listed.known
  have page := ready.sound.pageOf_guardAddress ready.known
  have hit : (((station.setLog recorder.log other).bank.log recorder.log).isClosed
      || Memory.pageOf (station.bank.log recorder.log).guardAddress
        != ((station.setLog recorder.log other).bank.log recorder.log).guardAddress) = false := by
    rw [same, page, ready.opened]
    simp
  have flipped : { station.setLog recorder.log other with
      bank := (station.setLog recorder.log other).bank.modify recorder.log Log.flip }
      = station.setLog recorder.log other.flip := by
    rw [Station.setLog, Bank.modify_modify]
    rfl
  have spilt := keeps.spill station other held full gains
  rw [Work.Ends, controller.start_handle found hit]
  refine Work.Ends.pass (Station.start_modifyLog ..) ?_
  rw [flipped, drainer]
  refine Work.Ends.bind (Station.ends_escalating (keeps.drain _ (.inr spilt))) ?_
  rintro - reached ⟨kept, empty⟩
  refine Work.Ends.pass (Work.start_modify ..) ?_
  exact .of_start (Work.start_pure ..) ⟨rfl, keeps.handled reached _ kept, empty⟩

theorem ends_storeGuarded (guards : recorder.policy = .guardPage) {controller : Controller δ}
    (handler : recorder.handler = some controller.handle)
    (drainer : controller.drainer = recorder.drainer)
    (keeps : recorder.Keeps record excused before spilled after) (held : before station) :
    (recorder.storeGuarded record).Ends excused station fun _ reached => after reached := by
  have ready := keeps.readyBefore station held
  refine .pass (recorder.start_tryAppend record station) ?_
  by_cases fits : record.Fits (station.bank.log recorder.log)
  · obtain ⟨other, appended, gains⟩ := record.appendTo_of_fits ready.soundLog fits
    rw [appended]
    exact .of_start (Work.start_pure ..) (keeps.append station other held fits gains)
  · obtain ⟨other, faulted, gains⟩ := record.appendTo_of_not_fits ready.soundLog fits
    rw [faulted, handler]
    refine .bind (ends_handle guards drainer keeps held fits gains) ?_
    rintro handled reached ⟨rfl, kept, empty⟩
    exact ends_append keeps kept (fits_of_count_eq_zero (keeps.readyBefore _ kept).soundLog empty)

/-- The append of a record, with the check after it. -/
def appendChecked (recorder : Recorder δ) (record : Record) : Work (Station δ) Unit := do
  recorder.append record
  if recorder.policy = .checkAfter then
    if (← Station.log recorder.log).room < reserve then recorder.drain

theorem ends_appendChecked (keeps : recorder.Keeps record excused before spilled after)
    (held : before station) (fits : record.Fits (station.bank.log recorder.log)) :
    (recorder.appendChecked record).Ends excused station fun _ reached => after reached := by
  refine .bind (ends_append keeps held fits) ?_
  rintro - reached appended
  split
  · refine .pass (Station.start_log ..) ?_
    split
    · exact (ends_drain keeps.readyAfter (keeps.drainAfter reached appended)).mono
        fun _ _ drained => drained.1
    · exact .of_start (Work.start_pure ..) appended
  · exact .of_start (Work.start_pure ..) appended

theorem ends_storeChecked (keeps : recorder.Keeps record excused before spilled after)
    (held : before station) :
    (recorder.storeChecked record).Ends excused station fun _ reached => after reached := by
  have sound := (keeps.readyBefore station held).soundLog
  refine .pass (Station.start_log ..) ?_
  dsimp only
  split
  · refine .bind (ends_drain keeps.readyBefore (keeps.drain station (.inl held))) ?_
    rintro - reached ⟨kept, empty⟩
    exact ends_appendChecked keeps kept
      (fits_of_count_eq_zero (keeps.readyBefore _ kept).soundLog empty)
  · rename_i free
    exact ends_appendChecked keeps held (record.fits_of_room sound free)

/-- **The rule of storing.**  Whatever policy notices a full log, an instrumented recorder leads
from `before` to `after`, and it fails only if a drain does.  Under the policy of guard pages, the
faults must go to a controller that drains the same way. -/
theorem ends_store (instrumented : recorder.isInstrumented = true) {controller : Controller δ}
    (handler : recorder.policy = .guardPage → recorder.handler = some controller.handle)
    (drainer : controller.drainer = recorder.drainer)
    (keeps : recorder.Keeps record excused before spilled after) (held : before station) :
    (recorder.store record).Ends excused station fun _ reached => after reached := by
  rw [store, if_pos instrumented]
  cases policy : recorder.policy with
  | guardPage => exact ends_storeGuarded policy (handler policy) drainer keeps held
  | checkBefore => exact ends_storeChecked keeps held
  | checkAfter => exact ends_storeChecked keeps held

end Recorder

/-! ## Calls -/

/-- What a mutator asks of its recorder. -/
inductive Call where
  | record (kind : Kind) (event : Event)
  | recordPair (kind : Kind) (event : Event) (operandKind : Kind) (operand : Event)
  deriving DecidableEq

/-- The record that a call stores. -/
def Call.encoded : Call → Record
  | record kind event => .single (event.encode kind)
  | recordPair kind event operandKind operand =>
    .pair (event.encode kind) (operand.encode operandKind)

namespace Recorder

variable {δ : Type}

/-- Answers a call. -/
def answer (recorder : Recorder δ) : Call → Work (Station δ) Unit
  | .record kind event => recorder.record kind event
  | .recordPair kind event operandKind operand =>
    recorder.recordPair kind event operandKind operand

theorem answer_eq_store (recorder : Recorder δ) (call : Call) :
    recorder.answer call = recorder.store call.encoded := by
  cases call <;> rfl

/-- Answers calls in order. -/
def answerAll (recorder : Recorder δ) : List Call → Work (Station δ) Unit
  | [] => pure ()
  | call :: rest => do
    recorder.answer call
    recorder.answerAll rest

end Recorder

/-- The slots of records, in order. -/
def slotsOf (records : List Record) : List Event := records.flatMap Record.slots

theorem slotsOf_append (records later : List Record) :
    slotsOf (records ++ later) = slotsOf records ++ slotsOf later :=
  List.flatMap_append ..

theorem slotsOf_flatten (runs : List (List Record)) :
    slotsOf runs.flatten = (runs.map slotsOf).flatten := by
  induction runs with
  | nil => rfl
  | cons run rest onward =>
    rw [List.flatten_cons, slotsOf_append, onward, List.map_cons, List.flatten_cons]

end HeapAudit
