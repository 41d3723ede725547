import HeapAudit.Proofs.Recording.Operations
import HeapAudit.Recording.Journal

/-!
# Recorders that check for room

A recorder that checks for room drains its log as long as a record does not fit, appends the record,
and under the policy of checking after each append drains a log without room for a pair once more.
The drainer is a stranger: it may drain half of the log, do nothing, or fail.

The loop is written down here as a loop, rule by rule, with everything that is done on the way
(`Recorder.Stores`, a list of `Recorder.Deed`s).  Since the recorder gives up on a drain that leaves
no room for a pair, and no record is longer than a pair, the loop never runs a second time, and
storing is what the loop does (`Recorder.Stores.start_eq`).  For a drainer that only flips and
resets (`Drainer.Turns`), `Recorder.checks_keep_clear` says more: no append faults, the free slots
are never computed for a log that counts more events than it has room for, and the record is
appended once or not at all.
-/

namespace HeapAudit

set_option autoImplicit false

/-! ## Drainers that flip and reset -/

/-- What a drainer may do to a log. -/
inductive Log.Turn where
  | flip
  | reset
  deriving DecidableEq

namespace Log

def turn (log : Log) : Turn → Log
  | .flip => log.flip
  | .reset => log.reset

/-- A log after turns, one after the other. -/
def turnAll (log : Log) (turns : List Turn) : Log := turns.foldl turn log

theorem Sound.turn_stays {log : Log} (sound : log.Sound) (turn : Turn) :
    log.Stays (log.turn turn) := by
  cases turn with
  | flip => exact act_stays sound .flip
  | reset => exact act_stays sound .reset

theorem Sound.turnAll_stays (turns : List Turn) : ∀ {log : Log}, log.Sound →
    log.Stays (log.turnAll turns) := by
  induction turns with
  | nil => exact fun sound => ⟨sound, rfl, rfl, rfl⟩
  | cons turn rest onward =>
    intro log sound
    have first := sound.turn_stays turn
    have further := onward first.sound
    exact ⟨further.sound, further.opened.trans first.opened, further.base.trans first.base,
      further.halfBytes.trans first.halfBytes⟩

end Log

/-- A log that exists, in a sound bank; it may be closed. -/
structure Bank.Holds (bank : Bank) (id : LogId) : Prop where
  sound : bank.Sound
  known : id < bank.logs.size

namespace Bank.Holds

variable {bank : Bank} {id : LogId}

theorem soundLog (holds : bank.Holds id) : (bank.log id).Sound := holds.sound.logs id holds.known

theorem counted (holds : bank.Holds id) : (bank.log id).count ≤ (bank.log id).capacity :=
  UInt64.le_iff_toNat_le.mpr (holds.soundLog.counted _)

theorem modify (holds : bank.Holds id) {change : Log → Log}
    (stays : (bank.log id).Stays (change (bank.log id))) : (bank.modify id change).Holds id where
  sound := holds.sound.modify id (fun _ => stays.sound) stays.base stays.halfBytes
  known := by
    rw [size_modify]
    exact holds.known

end Bank.Holds

/-- Whatever else a drainer does, and whether it succeeds or not, it changes the logs only by turns
of the log that it drains. -/
def Drainer.Turns {δ : Type} (drainer : Drainer δ) (id : LogId) : Prop :=
  ∀ station, ∃ turns, ((drainer id).start station).2.bank
    = station.bank.modify id fun log => log.turnAll turns

theorem Drainer.Turns.holds {δ : Type} {drainer : Drainer δ} {id : LogId}
    (turns : drainer.Turns id) {station : Station δ} (holds : station.bank.Holds id) :
    ((drainer id).start station).2.bank.Holds id := by
  obtain ⟨taken, left⟩ := turns station
  rw [left]
  exact holds.modify (Log.Sound.turnAll_stays taken holds.soundLog)

theorem Bank.modify_turnAll_nil (bank : Bank) (id : LogId) :
    bank.modify id (fun log => log.turnAll []) = bank := by
  have same : bank.logs.modify id (fun log => log.turnAll []) = bank.logs := by
    refine Array.ext (by simp) fun index _ _ => ?_
    rw [Array.getElem_modify]
    split <;> rfl
  simp only [modify, same]

/-- The drainers that keep a journal only flip and reset. -/
theorem Journal.drainer_turns (action : DrainAction) (id : LogId) : (drainer action).Turns id := by
  intro station
  cases action with
  | reset => exact ⟨[.reset], rfl⟩
  | flip => exact ⟨[.flip], rfl⟩
  | leave => exact ⟨[], (station.bank.modify_turnAll_nil id).symm⟩
  | fail => exact ⟨[], (station.bank.modify_turnAll_nil id).symm⟩

namespace Recorder

variable {δ : Type}

/-! ## Storing as a loop -/

/-- What a recorder does with its log, step by step. -/
inductive Deed where
  /-- The free slots of the log were computed, with the log as it was. -/
  | measure (log : Log)
  /-- The drainer was called. -/
  | drain
  /-- A record was appended, with this outcome. -/
  | append (outcome : Except Log.Fault Unit)

@[simp] def Deed.isDrain : Deed → Bool
  | drain => true
  | _ => false

@[simp] def Deed.isAppend : Deed → Bool
  | append _ => true
  | _ => false

/-- How work ends: its outcome and the station that it leaves. -/
abbrev Ending (δ : Type) := Except Failure Unit × Station δ

/-- A drain calls the drainer and then measures what it left. -/
inductive Drains (recorder : Recorder δ) (station : Station δ) :
    List Deed → Ending δ → Prop where
  | failed {failure : Failure} {left : Station δ}
      (drained : (recorder.drainer recorder.log).start station = (.error failure, left)) :
      Drains recorder station [.drain] (.error failure.escalate, left)
  | full {left : Station δ}
      (drained : (recorder.drainer recorder.log).start station = (.ok (), left))
      (short : (left.bank.log recorder.log).room < reserve) :
      Drains recorder station [.drain, .measure (left.bank.log recorder.log)]
        (.error (.abort .stillFull), left)
  | freed {left : Station δ}
      (drained : (recorder.drainer recorder.log).start station = (.ok (), left))
      (free : ¬ (left.bank.log recorder.log).room < reserve) :
      Drains recorder station [.drain, .measure (left.bank.log recorder.log)] (.ok (), left)

/-- The loop in front of an append: as long as the free slots do not suffice, the log is drained. -/
inductive Loops (recorder : Recorder δ) (needed : UInt64) :
    Station δ → List Deed → Ending δ → Prop where
  | enough {station : Station δ} (free : ¬ (station.bank.log recorder.log).room < needed) :
      Loops recorder needed station [.measure (station.bank.log recorder.log)] (.ok (), station)
  | stopped {station left : Station δ} {deeds : List Deed} {failure : Failure}
      (short : (station.bank.log recorder.log).room < needed)
      (drains : recorder.Drains station deeds (.error failure, left)) :
      Loops recorder needed station (.measure (station.bank.log recorder.log) :: deeds)
        (.error failure, left)
  | again {station left : Station δ} {deeds more : List Deed} {ending : Ending δ}
      (short : (station.bank.log recorder.log).room < needed)
      (drains : recorder.Drains station deeds (.ok (), left))
      (onward : Loops recorder needed left more ending) :
      Loops recorder needed station (.measure (station.bank.log recorder.log) :: deeds ++ more)
        ending

/-- An append, with the check after it if the policy asks for one. -/
inductive Appends (recorder : Recorder δ) (record : Record) (station : Station δ) :
    List Deed → Ending δ → Prop where
  | faulted {fault : Log.Fault} {log : Log}
      (appended : record.appendTo (station.bank.log recorder.log) = (.error fault, log)) :
      Appends recorder record station [.append (.error fault)]
        (.error .fault, station.setLog recorder.log log)
  | unchecked {log : Log} (policy : recorder.policy ≠ .checkAfter)
      (appended : record.appendTo (station.bank.log recorder.log) = (.ok (), log)) :
      Appends recorder record station [.append (.ok ())] (.ok (), station.setLog recorder.log log)
  | roomy {log : Log} (policy : recorder.policy = .checkAfter)
      (appended : record.appendTo (station.bank.log recorder.log) = (.ok (), log))
      (free : ¬ ((station.setLog recorder.log log).bank.log recorder.log).room < reserve) :
      Appends recorder record station
        [.append (.ok ()), .measure ((station.setLog recorder.log log).bank.log recorder.log)]
        (.ok (), station.setLog recorder.log log)
  | filled {log : Log} {deeds : List Deed} {ending : Ending δ}
      (policy : recorder.policy = .checkAfter)
      (appended : record.appendTo (station.bank.log recorder.log) = (.ok (), log))
      (short : ((station.setLog recorder.log log).bank.log recorder.log).room < reserve)
      (drains : recorder.Drains (station.setLog recorder.log log) deeds ending) :
      Appends recorder record station
        (.append (.ok ())
          :: .measure ((station.setLog recorder.log log).bank.log recorder.log) :: deeds)
        ending

/-- Storing a record: the loop, and then the append unless the loop failed. -/
inductive Stores (recorder : Recorder δ) (record : Record) (station : Station δ) :
    List Deed → Ending δ → Prop where
  | stopped {deeds : List Deed} {failure : Failure} {left : Station δ}
      (loops : recorder.Loops record.size station deeds (.error failure, left)) :
      Stores recorder record station deeds (.error failure, left)
  | through {deeds more : List Deed} {between : Station δ} {ending : Ending δ}
      (loops : recorder.Loops record.size station deeds (.ok (), between))
      (appends : recorder.Appends record between more ending) :
      Stores recorder record station (deeds ++ more) ending

/-! ## The loop runs at most once -/

variable {recorder : Recorder δ} {record : Record} {station : Station δ} {deeds : List Deed}
variable {ending : Ending δ}

theorem size_le_reserve (record : Record) : record.size ≤ reserve := by
  rw [UInt64.le_iff_toNat_le, record.toNat_size]
  exact record.length_slots_le

/-- A drainer that succeeds must have left room for a pair. -/
theorem start_drain_of_ok {left : Station δ}
    (drained : (recorder.drainer recorder.log).start station = (.ok (), left)) :
    recorder.drain.start station
      = if (left.bank.log recorder.log).room < reserve then (.error (.abort .stillFull), left)
        else (.ok (), left) := by
  rw [drain, Work.start_bind, Station.start_escalating, drained]
  dsimp only
  rw [Work.start_bind, Station.start_log]
  dsimp only
  split <;> rfl

theorem Drains.start_eq (drains : recorder.Drains station deeds ending) :
    recorder.drain.start station = ending := by
  cases drains with
  | failed drained => rw [drain, Work.start_bind, Station.start_escalating, drained]
  | full drained short => rw [start_drain_of_ok drained, if_pos short]
  | freed drained free => rw [start_drain_of_ok drained, if_neg free]

theorem exists_drains (recorder : Recorder δ) (station : Station δ) :
    ∃ deeds, recorder.Drains station deeds (recorder.drain.start station) := by
  have found : ∃ deeds ending, recorder.Drains station deeds ending := by
    cases drained : (recorder.drainer recorder.log).start station with
    | mk outcome left =>
      cases outcome with
      | error failure => exact ⟨_, _, .failed drained⟩
      | ok value =>
        by_cases short : (left.bank.log recorder.log).room < reserve
        · exact ⟨_, _, .full drained short⟩
        · exact ⟨_, _, .freed drained short⟩
  obtain ⟨deeds, ending, drains⟩ := found
  exact ⟨deeds, drains.start_eq ▸ drains⟩

/-- A drain that succeeds leaves room for a pair, and so for any record. -/
theorem Drains.free_of_ok {left : Station δ} {needed : UInt64} (small : needed ≤ reserve)
    (drains : recorder.Drains station deeds (.ok (), left)) :
    ¬ (left.bank.log recorder.log).room < needed := by
  cases drains with
  | freed drained free => exact fun short => free (UInt64.lt_of_lt_of_le short small)

/-- The loop with its body run once or not at all: the record fits at once, or the one drain fails,
or the one drain leaves room for the record. -/
inductive LoopsOnce (recorder : Recorder δ) (needed : UInt64) (station : Station δ) :
    List Deed → Ending δ → Prop where
  | enough (free : ¬ (station.bank.log recorder.log).room < needed) :
      LoopsOnce recorder needed station [.measure (station.bank.log recorder.log)] (.ok (), station)
  | stopped {left : Station δ} {deeds : List Deed} {failure : Failure}
      (short : (station.bank.log recorder.log).room < needed)
      (drains : recorder.Drains station deeds (.error failure, left)) :
      LoopsOnce recorder needed station (.measure (station.bank.log recorder.log) :: deeds)
        (.error failure, left)
  | freed {left : Station δ} {deeds : List Deed}
      (short : (station.bank.log recorder.log).room < needed)
      (drains : recorder.Drains station deeds (.ok (), left))
      (free : ¬ (left.bank.log recorder.log).room < needed) :
      LoopsOnce recorder needed station
        (.measure (station.bank.log recorder.log) :: deeds
          ++ [.measure (left.bank.log recorder.log)])
        (.ok (), left)

/-- **The loop runs at most once.** -/
theorem Loops.once {needed : UInt64} (small : needed ≤ reserve)
    (loops : recorder.Loops needed station deeds ending) :
    recorder.LoopsOnce needed station deeds ending := by
  cases loops with
  | enough free => exact .enough free
  | stopped short drains => exact .stopped short drains
  | again short drains onward =>
    -- the recorder insisted on room for a pair, so the test fails the second time
    have free := drains.free_of_ok small
    cases onward with
    | enough _ => exact .freed short drains free
    | stopped stillShort _ => exact absurd stillShort free
    | again stillShort _ _ => exact absurd stillShort free

theorem start_storeChecked (recorder : Recorder δ) (record : Record) (station : Station δ) :
    (recorder.storeChecked record).start station
      = if (station.bank.log recorder.log).room < record.size then
          match recorder.drain.start station with
          | (.ok _, left) => (recorder.appendChecked record).start left
          | (.error failure, left) => (.error failure, left)
        else (recorder.appendChecked record).start station := by
  rw [storeChecked, Work.start_bind, Station.start_log]
  dsimp only
  split
  · rw [Work.start_bind]
    cases recorder.drain.start station with
    | mk outcome left => cases outcome <;> rfl
  · rfl

theorem start_appendChecked_of_ok {log : Log}
    (appended : record.appendTo (station.bank.log recorder.log) = (.ok (), log)) :
    (recorder.appendChecked record).start station
      = if recorder.policy = .checkAfter
          ∧ ((station.setLog recorder.log log).bank.log recorder.log).room < reserve then
          recorder.drain.start (station.setLog recorder.log log)
        else (.ok (), station.setLog recorder.log log) := by
  rw [appendChecked, Work.start_bind, recorder.start_append_of_ok record station appended]
  dsimp only
  by_cases policy : recorder.policy = .checkAfter
  · rw [if_pos policy, Work.start_bind, Station.start_log]
    dsimp only
    split
    · rename_i short
      rw [if_pos ⟨policy, short⟩]
    · rename_i free
      rw [if_neg (fun both => free both.2)]
      rfl
  · rw [if_neg policy, if_neg (fun both => policy both.1)]
    rfl

theorem Appends.start_eq (appends : recorder.Appends record station deeds ending) :
    (recorder.appendChecked record).start station = ending := by
  cases appends with
  | faulted appended =>
    rw [appendChecked, Work.start_bind, append, Work.start_bind, start_tryAppend, appended]
    rfl
  | unchecked policy appended =>
    rw [start_appendChecked_of_ok appended, if_neg (fun both => policy both.1)]
  | roomy policy appended free =>
    rw [start_appendChecked_of_ok appended, if_neg (fun both => free both.2)]
  | filled policy appended short drains =>
    rw [start_appendChecked_of_ok appended, if_pos ⟨policy, short⟩, drains.start_eq]

/-- **Storing is what the loop does.** -/
theorem Stores.start_eq (stores : recorder.Stores record station deeds ending) :
    (recorder.storeChecked record).start station = ending := by
  rw [start_storeChecked]
  cases stores with
  | stopped loops =>
    cases loops.once (size_le_reserve record) with
    | stopped short drains => rw [if_pos short, drains.start_eq]
  | through loops appends =>
    cases loops.once (size_le_reserve record) with
    | enough free => rw [if_neg free, appends.start_eq]
    | freed short drains free =>
      rw [if_pos short, drains.start_eq]
      exact appends.start_eq

theorem exists_appends (recorder : Recorder δ) (record : Record) (station : Station δ) :
    ∃ deeds ending, recorder.Appends record station deeds ending := by
  cases appended : record.appendTo (station.bank.log recorder.log) with
  | mk outcome log =>
    cases outcome with
    | error fault => exact ⟨_, _, .faulted appended⟩
    | ok value =>
      by_cases policy : recorder.policy = .checkAfter
      · by_cases short : ((station.setLog recorder.log log).bank.log recorder.log).room < reserve
        · obtain ⟨deeds, drains⟩ := recorder.exists_drains (station.setLog recorder.log log)
          exact ⟨_, _, .filled policy appended short drains⟩
        · exact ⟨_, _, .roomy policy appended short⟩
      · exact ⟨_, _, .unchecked policy appended⟩

/-- The loop comes to an end. -/
theorem exists_stores (recorder : Recorder δ) (record : Record) (station : Station δ) :
    ∃ deeds, recorder.Stores record station deeds ((recorder.storeChecked record).start station) := by
  have found : ∃ deeds ending, recorder.Stores record station deeds ending := by
    by_cases short : (station.bank.log recorder.log).room < record.size
    · obtain ⟨deeds, drains⟩ := recorder.exists_drains station
      cases drained : recorder.drain.start station with
      | mk outcome left =>
        rw [drained] at drains
        cases outcome with
        | error failure => exact ⟨_, _, .stopped (.stopped short drains)⟩
        | ok value =>
          have free := drains.free_of_ok (size_le_reserve record)
          obtain ⟨more, ending, appends⟩ := recorder.exists_appends record left
          exact ⟨_, _, .through (.again short drains (.enough free)) appends⟩
    · obtain ⟨more, ending, appends⟩ := recorder.exists_appends record station
      exact ⟨_, _, .through (.enough short) appends⟩
  obtain ⟨deeds, ending, stores⟩ := found
  exact ⟨deeds, stores.start_eq ▸ stores⟩

/-! ## What happens on the way -/

/-- The free slots are computed only for logs that do not count more events than they can hold. -/
def Measured (deeds : List Deed) : Prop :=
  ∀ log, Deed.measure log ∈ deeds → log.count ≤ log.capacity

theorem Measured.append {more : List Deed} (first : Measured deeds) (second : Measured more) :
    Measured (deeds ++ more) := by
  intro log member
  rcases List.mem_append.mp member with before | behind
  · exact first log before
  · exact second log behind

theorem measured_of_holds {bank : Bank} {id : LogId} (holds : bank.Holds id) :
    Measured [.measure (bank.log id)] := by
  intro log member
  cases List.mem_singleton.mp member
  exact holds.counted

theorem measured_append (outcome : Except Log.Fault Unit) : Measured [.append outcome] := by
  intro log member
  cases List.mem_singleton.mp member

/-- **The recorder gives up before the append**: after one drain, and leaving the station as the
drainer left it. -/
structure GivesUp (recorder : Recorder δ) (station : Station δ) (deeds : List Deed)
    (ending : Ending δ) : Prop where
  unappended : deeds.countP Deed.isAppend = 0
  drains : deeds.countP Deed.isDrain = 1
  aborts : ∃ failure, ending.1 = .error failure ∧ ∀ cause, failure ≠ .refusal cause
  left : ending.2 = ((recorder.drainer recorder.log).start station).2

/-- **The recorder appends once**: to the log as it was or as the one drain left it, with the slots
of the record behind the events of the active half.  What may follow is the drain after the
append. -/
def AppendsOnce (recorder : Recorder δ) (record : Record) (station : Station δ) (deeds : List Deed)
    (ending : Ending δ) : Prop :=
  ∃ before after between log, deeds = before ++ .append (.ok ()) :: after
    ∧ before.countP Deed.isAppend = 0 ∧ after.countP Deed.isAppend = 0
    ∧ (before.countP Deed.isDrain = 0 ∧ between = station
      ∨ before.countP Deed.isDrain = 1
        ∧ (recorder.drainer recorder.log).start station = (.ok (), between))
    ∧ (between.bank.log recorder.log).Gains record.slots log
    ∧ (after.countP Deed.isDrain = 0 ∧ ending = (.ok (), between.setLog recorder.log log)
      ∨ recorder.policy = .checkAfter ∧ after.countP Deed.isDrain = 1
        ∧ ending = recorder.drain.start (between.setLog recorder.log log))

theorem Drains.countP (drains : recorder.Drains station deeds ending) :
    deeds.countP Deed.isAppend = 0 ∧ deeds.countP Deed.isDrain = 1 := by
  cases drains <;> exact ⟨rfl, rfl⟩

/-- A drain leaves the station as the drainer left it. -/
theorem Drains.left (drains : recorder.Drains station deeds ending) :
    ending.2 = ((recorder.drainer recorder.log).start station).2 := by
  cases drains with
  | failed drained => rw [drained]
  | full drained short => rw [drained]
  | freed drained free => rw [drained]

theorem Drains.start_drainer {left : Station δ}
    (drains : recorder.Drains station deeds (.ok (), left)) :
    (recorder.drainer recorder.log).start station = (.ok (), left) := by
  cases drains with
  | freed drained free => exact drained

theorem Drains.ne_refusal {failure : Failure} {left : Station δ}
    (drains : recorder.Drains station deeds (.error failure, left)) (cause : Cause) :
    failure ≠ .refusal cause := by
  cases drains with
  | failed drained => exact Failure.escalate_ne_refusal _ cause
  | full drained short => exact fun same => by cases same

section Turns

variable (turns : recorder.drainer.Turns recorder.log)

include turns

theorem Drains.holds (holds : station.bank.Holds recorder.log)
    (drains : recorder.Drains station deeds ending) : ending.2.bank.Holds recorder.log := by
  rw [drains.left]
  exact turns.holds holds

theorem Drains.measured (holds : station.bank.Holds recorder.log)
    (drains : recorder.Drains station deeds ending) : Measured deeds := by
  have called : Measured [.drain] := by
    intro log member
    cases List.mem_singleton.mp member
  have checked := called.append (measured_of_holds (drains.holds turns holds))
  cases drains with
  | failed drained => exact called
  | full drained short => exact checked
  | freed drained free => exact checked

theorem Loops.measured {needed : UInt64} (small : needed ≤ reserve)
    (holds : station.bank.Holds recorder.log) (loops : recorder.Loops needed station deeds ending) :
    Measured deeds := by
  have first := measured_of_holds holds
  cases loops.once small with
  | enough free => exact first
  | stopped short drains => exact first.append (drains.measured turns holds)
  | freed short drains free =>
    exact (first.append (drains.measured turns holds)).append
      (measured_of_holds (drains.holds turns holds))

end Turns

/-- If the loop fails, the one drain did. -/
theorem Loops.givesUp {needed : UInt64} (small : needed ≤ reserve) {failure : Failure}
    {left : Station δ} (loops : recorder.Loops needed station deeds (.error failure, left)) :
    recorder.GivesUp station deeds (.error failure, left) := by
  cases loops.once small with
  | stopped short drains =>
    obtain ⟨unappended, drained⟩ := drains.countP
    constructor
    · simp [unappended]
    · simp [drained]
    · exact ⟨failure, rfl, drains.ne_refusal⟩
    · exact drains.left

/-- If the loop succeeds, the log is as it was or as the one drain left it. -/
theorem Loops.passes {needed : UInt64} (small : needed ≤ reserve) {between : Station δ}
    (loops : recorder.Loops needed station deeds (.ok (), between)) :
    deeds.countP Deed.isAppend = 0 ∧ ¬ (between.bank.log recorder.log).room < needed
      ∧ (deeds.countP Deed.isDrain = 0 ∧ between = station
        ∨ deeds.countP Deed.isDrain = 1
          ∧ (recorder.drainer recorder.log).start station = (.ok (), between)) := by
  cases loops.once small with
  | enough free => exact ⟨rfl, free, .inl ⟨rfl, rfl⟩⟩
  | freed short drains free =>
    obtain ⟨unappended, drained⟩ := drains.countP
    exact ⟨by simp [unappended], free, .inr ⟨by simp [drained], drains.start_drainer⟩⟩

/-- A record that fits is appended without a fault. -/
theorem gains_of_fits {log stored : Log} {outcome : Except Log.Fault Unit} (sound : log.Sound)
    (fits : record.Fits log) (appended : record.appendTo log = (outcome, stored)) :
    outcome = .ok () ∧ log.Gains record.slots stored := by
  obtain ⟨other, succeeds, gains⟩ := record.appendTo_of_fits sound fits
  rw [appended] at succeeds
  cases succeeds
  exact ⟨rfl, gains⟩

theorem Appends.of_fits (sound : (station.bank.log recorder.log).Sound)
    (fits : record.Fits (station.bank.log recorder.log))
    (appends : recorder.Appends record station deeds ending) :
    ∃ after log, deeds = .append (.ok ()) :: after ∧ after.countP Deed.isAppend = 0
      ∧ (station.bank.log recorder.log).Gains record.slots log
      ∧ (after.countP Deed.isDrain = 0 ∧ ending = (.ok (), station.setLog recorder.log log)
        ∨ recorder.policy = .checkAfter ∧ after.countP Deed.isDrain = 1
          ∧ ending = recorder.drain.start (station.setLog recorder.log log)) := by
  cases appends with
  | faulted appended => cases (gains_of_fits sound fits appended).1
  | unchecked policy appended =>
    exact ⟨_, _, rfl, rfl, (gains_of_fits sound fits appended).2, .inl ⟨rfl, rfl⟩⟩
  | roomy policy appended free =>
    exact ⟨_, _, rfl, rfl, (gains_of_fits sound fits appended).2, .inl ⟨rfl, rfl⟩⟩
  | filled policy appended short drains =>
    obtain ⟨unappended, drained⟩ := drains.countP
    exact ⟨_, _, rfl, by simp [unappended], (gains_of_fits sound fits appended).2,
      .inr ⟨policy, by simp [drained], drains.start_eq.symm⟩⟩

theorem Appends.measured (turns : recorder.drainer.Turns recorder.log)
    (holds : station.bank.Holds recorder.log) (fits : record.Fits (station.bank.log recorder.log))
    (appends : recorder.Appends record station deeds ending) : Measured deeds := by
  have grown : ∀ {log}, record.appendTo (station.bank.log recorder.log) = (.ok (), log) →
      (station.setLog recorder.log log).bank.Holds recorder.log := by
    intro log appended
    exact holds.modify ((gains_of_fits holds.soundLog fits appended).2.stays holds.soundLog fits)
  cases appends with
  | faulted appended => exact measured_append _
  | unchecked policy appended => exact measured_append _
  | roomy policy appended free =>
    exact (measured_append _).append (measured_of_holds (grown appended))
  | filled policy appended short drains =>
    exact (measured_append _).append ((measured_of_holds (grown appended)).append
      (drains.measured turns (grown appended)))

/-- **A careful store.**  The free slots are never computed by a subtraction that wraps around, no
store faults, and the record is either appended once or given up. -/
structure Careful (recorder : Recorder δ) (record : Record) (station : Station δ)
    (deeds : List Deed) (ending : Ending δ) : Prop where
  measured : Measured deeds
  unfaulted : ∀ outcome, Deed.append outcome ∈ deeds → outcome = .ok ()
  settles : recorder.GivesUp station deeds ending ∨ recorder.AppendsOnce record station deeds ending

theorem not_mem_of_countP {outcome : Except Log.Fault Unit}
    (unappended : deeds.countP Deed.isAppend = 0) : Deed.append outcome ∉ deeds := by
  intro member
  exact List.countP_eq_zero.mp unappended _ member rfl

theorem Stores.careful (turns : recorder.drainer.Turns recorder.log)
    (holds : station.bank.Holds recorder.log)
    (stores : recorder.Stores record station deeds ending) :
    recorder.Careful record station deeds ending := by
  have small := size_le_reserve record
  cases stores with
  | stopped loops =>
    have givesUp := loops.givesUp small
    exact ⟨loops.measured turns small holds,
      fun outcome member => absurd member (not_mem_of_countP givesUp.unappended), .inl givesUp⟩
  | through loops appends =>
    rename_i before more between
    obtain ⟨unappended, free, drained⟩ := loops.passes small
    have ready : between.bank.Holds recorder.log := by
      obtain ⟨-, rfl⟩ | ⟨-, drained⟩ := drained
      · exact holds
      · have left := turns.holds holds
        rwa [drained] at left
    have fits := record.fits_of_room ready.soundLog free
    have measured := (loops.measured turns small holds).append (appends.measured turns ready fits)
    obtain ⟨after, log, rfl, none, gains, ends⟩ := appends.of_fits ready.soundLog fits
    refine ⟨measured, ?_,
      .inr ⟨before, after, between, log, rfl, unappended, none, drained, gains, ends⟩⟩
    intro outcome member
    rcases List.mem_append.mp member with early | here
    · exact absurd early (not_mem_of_countP unappended)
    · rcases List.mem_cons.mp here with same | late
      · cases same
        rfl
      · exact absurd late (not_mem_of_countP none)

end Recorder

/-- Operations on logs leave sound banks. -/
theorem Bank.holds_operateAll (memory : UInt64) (operations : List LogOperation) {id : LogId}
    (known : id < ((empty memory).operateAll (operations.map .onLogs)).logs.size) :
    ((empty memory).operateAll (operations.map .onLogs)).Holds id :=
  ⟨(Tended.operateAll _ (tended_empty memory)).sound, known⟩

/-- **Recorders that check for room keep off the guard page.**  Whatever was done with the logs
before, and however the drainer flips and resets the log, or fails: a call that is recorded comes to
an end as the loop does, and every course of the loop is careful. -/
theorem Recorder.checks_keep_clear {δ : Type} (memory : UInt64)
    (operations : List Bank.LogOperation) (handled : WordMap Nat) (consumer : δ)
    (recorder : Recorder δ) (instrumented : recorder.isInstrumented = true)
    (checks : recorder.policy ≠ .guardPage)
    (known : recorder.log < ((Bank.empty memory).operateAll (operations.map .onLogs)).logs.size)
    (turns : recorder.drainer.Turns recorder.log) (call : Call) :
    let station : Station δ :=
      ⟨(Bank.empty memory).operateAll (operations.map .onLogs), handled, consumer⟩
    (∃ deeds, recorder.Stores call.encoded station deeds ((recorder.answer call).start station))
      ∧ ∀ deeds ending, recorder.Stores call.encoded station deeds ending →
        ending = (recorder.answer call).start station
          ∧ recorder.Careful call.encoded station deeds ending := by
  intro station
  have holds : station.bank.Holds recorder.log := Bank.holds_operateAll memory operations known
  have checked : recorder.answer call = recorder.storeChecked call.encoded := by
    rw [answer_eq_store, store, if_pos instrumented]
    cases policy : recorder.policy with
    | guardPage => exact absurd policy checks
    | checkBefore => rfl
    | checkAfter => rfl
  rw [checked]
  exact ⟨recorder.exists_stores call.encoded station,
    fun deeds ending stores => ⟨stores.start_eq.symm, stores.careful turns holds⟩⟩

/-- A pair does not fit behind 254 events, and a drainer that does nothing does not help: the
recorder gives up after one drain. -/
theorem Recorder.checks_keep_clear_of_idle_drainer :
    let operations : List Bank.LogOperation :=
      .task (.create 1) :: List.replicate 254 (.task (.act 0 (.append ⟨1, 2⟩)))
    let station : Station Journal :=
      ⟨(Bank.empty 0x100000000).operateAll (operations.map .onLogs), ∅, []⟩
    let recorder : Recorder Journal := ⟨0, true, .checkBefore, Journal.drainer .leave, none⟩
    let call : Call := .recordPair .fieldSet ⟨8, 16⟩ .fieldSet ⟨24, 32⟩
    recorder.log < station.bank.logs.size ∧ recorder.drainer.Turns recorder.log
      ∧ ((recorder.answer call).start station).1.isOk = false
      ∧ ∃ deeds, recorder.GivesUp station deeds ((recorder.answer call).start station) := by
  intro operations station recorder call
  have known : recorder.log < station.bank.logs.size := by decide +kernel
  have turns := Journal.drainer_turns .leave recorder.log
  have failed : ((recorder.answer call).start station).1.isOk = false := by decide +kernel
  obtain ⟨⟨deeds, stores⟩, courses⟩ := checks_keep_clear 0x100000000 operations ∅ [] recorder rfl
    (by decide) known turns call
  refine ⟨known, turns, failed, deeds, ?_⟩
  rcases (courses deeds _ stores).2.settles with givesUp | appendsOnce
  · exact givesUp
  · obtain ⟨_, _, between, log, -, -, -, -, -, ⟨-, ending⟩ | ⟨policy, -⟩⟩ := appendsOnce
    · rw [ending] at failed
      cases failed
    · cases policy

end HeapAudit
