import HeapAudit.Proofs.Recording.Store

/-!
# Logs as buffers of two lists

A log keeps its counters inside the memory that they count, in pages that can and
cannot be written by turns.  What a mutator and a reader see of it is much less: an
active list that grows up to a capacity, and perhaps a list sealed before
(`Log.Buffer`).  `Log.buffer` reads that off the memory, and this module shows that the
operations of a log are those of its buffer (`Log.act_refines`).

Three things of the memory do not show in that view: the slot behind the counted ones that
a pair may have written before it faulted, the counter of the other half, which stays
when a log is drained because that half cannot be written, and which side is active.

Logs share a bank, which hands out their regions, so the statement is about a bank and
about any sequence of tasks for it (`Bank.runs_shelf`): its logs answer like a shelf
of buffers, where a task for one buffer leaves the others alone.  In every state that
is reached, the active half of a log is the only part of its region that can be
written.
-/

namespace HeapAudit

set_option autoImplicit false

/-! ## Buffers -/

/-- What can be asked of a log once it exists. -/
inductive Log.Action where
  | append (event : Event)
  | appendPair (event operand : Event)
  | flip
  | reset
  deriving DecidableEq

/-- A list of events that grows up to a capacity, and perhaps another one sealed before. -/
structure Log.Buffer where
  capacity : Nat
  sealed : Option (List Event)
  active : List Event
  deriving DecidableEq

namespace Log.Buffer

/-- A buffer without events. -/
def empty (capacity : Nat) : Buffer := ⟨capacity, none, []⟩

/-- The buffer with more events in its active list, if they all find room there. -/
def push (buffer : Buffer) (events : List Event) : Option Buffer :=
  if buffer.active.length + events.length ≤ buffer.capacity then
    some { buffer with active := buffer.active ++ events }
  else none

/-- What an action makes of a buffer; nothing if the action faults. -/
def act (buffer : Buffer) : Log.Action → Option Buffer
  | .append event => buffer.push [event]
  | .appendPair event operand => buffer.push [event, operand]
  | .flip => some { buffer with sealed := some buffer.active, active := [] }
  | .reset => some { buffer with sealed := none, active := [] }

/-- The events that are not drained, by lists. -/
def segments (buffer : Buffer) : List (List Event) := buffer.sealed.toList ++ [buffer.active]

end Log.Buffer

namespace Log

/-- Answers an action. -/
def act (log : Log) : Action → Except Fault Unit × Log
  | .append event => log.append event
  | .appendPair event operand => log.appendPair event operand
  | .flip => (.ok (), log.flip)
  | .reset => (.ok (), log.reset)

/-- The buffer that a log stands for. -/
def buffer (log : Log) : Buffer where
  capacity := log.capacity.toNat
  sealed := if log.isSealed then some (log.half log.active.other).events else none
  active := log.activeEvents

variable {log : Log}

theorem length_activeEvents (log : Log) : log.activeEvents.length = log.count.toNat :=
  Half.length_take ..

theorem segments_eq_buffer (opened : log.isClosed = false) :
    log.segments = log.buffer.segments := by
  cases isSealed : log.isSealed with
  | false => simp [segments_of_unsealed opened isSealed, Buffer.segments, buffer, isSealed]
  | true => simp [segments_of_sealed opened isSealed, Buffer.segments, buffer, isSealed]

/-- The two counters together do not wrap around. -/
theorem Sound.toNat_pending (sound : log.Sound) :
    log.pending.toNat = log.buffer.segments.flatten.length := by
  have small := sound.toNat_capacity_lt
  have active : log.count.toNat ≤ log.capacity.toNat := sound.counted log.active
  have other := sound.counted log.active.other
  cases isSealed : log.isSealed with
  | false => simp [pending, Buffer.segments, buffer, isSealed, length_activeEvents]
  | true =>
    have length : (log.half log.active.other).events.length
        = (log.half log.active.other).count.toNat := Half.length_take ..
    simp only [pending, isSealed, if_true, Buffer.segments, buffer, Option.toList_some,
      List.singleton_append, List.flatten_cons, List.flatten_nil, List.append_nil,
      List.length_append, length, length_activeEvents]
    rw [toNat_add_of_lt (by omega), Nat.add_comm]

/-! ## Actions -/

theorem Gains.buffer {other : Log} {slots : List Event} (gains : log.Gains slots other) :
    other.buffer = { log.buffer with active := log.buffer.active ++ slots } := by
  have active := gains.activeEvents
  obtain ⟨half, rfl, -⟩ := gains
  simp only [Log.buffer, capacity_setHalf, isSealed_setHalf, active_setHalf, half_setHalf_other,
    active]

theorem Gains.buffer_nil {other : Log} (gains : log.Gains [] other) :
    other.buffer = log.buffer := by
  rw [gains.buffer, List.append_nil]

theorem buffer_flip (log : Log) :
    log.flip.buffer = { log.buffer with sealed := some log.buffer.active, active := [] } := by
  have empty : (log.flip.half log.active.other).events = [] :=
    Half.events_of_count_eq_zero (by rw [half_flip_other])
  have isSealed : log.flip.isSealed = true := rfl
  simp only [buffer, capacity, halfBytes_flip, isSealed, if_true, activeEvents, active_flip,
    Side.other_other, half_flip_active, empty]

theorem buffer_reset (opened : log.isClosed = false) :
    log.reset.buffer = { log.buffer with sealed := none, active := [] } := by
  have drained : log.reset.activeEvents = [] := Half.events_of_count_eq_zero (count_reset opened)
  simp only [buffer, capacity, halfBytes_reset, isSealed_reset opened, drained,
    Bool.false_eq_true, if_false]

/-- A record is appended exactly if its slots find room in the active list. -/
theorem appendTo_refines (sound : log.Sound) (record : Record) :
    (record.appendTo log).1.isOk = (log.buffer.push record.slots).isSome
      ∧ (record.appendTo log).2.buffer = (log.buffer.push record.slots).getD log.buffer
      ∧ ∃ slots, log.Gains slots (record.appendTo log).2
        ∧ log.count.toNat + slots.length ≤ log.capacity.toNat := by
  by_cases fits : record.Fits log
  · obtain ⟨other, appended, gains⟩ := record.appendTo_of_fits sound fits
    have room : log.buffer.active.length + record.slots.length ≤ log.buffer.capacity := by
      rw [buffer, length_activeEvents]
      exact fits
    rw [appended, Buffer.push, if_pos room]
    exact ⟨rfl, gains.buffer, record.slots, gains, fits⟩
  · obtain ⟨other, faulted, gains⟩ := record.appendTo_of_not_fits sound fits
    have full : ¬ log.buffer.active.length + record.slots.length ≤ log.buffer.capacity := by
      rw [buffer, length_activeEvents]
      exact fits
    rw [faulted, Buffer.push, if_neg full]
    exact ⟨rfl, gains.buffer_nil, [], gains, sound.counted log.active⟩

/-- **A log answers like its buffer.**  An action faults exactly if the buffer has no room for it,
and then the buffer is as before. -/
theorem act_refines (sound : log.Sound) (opened : log.isClosed = false) (action : Action) :
    (log.act action).1.isOk = (log.buffer.act action).isSome
      ∧ (log.act action).2.buffer = (log.buffer.act action).getD log.buffer := by
  cases action with
  | append event =>
    obtain ⟨answer, buffer, -⟩ := appendTo_refines sound (.single event)
    exact ⟨answer, buffer⟩
  | appendPair event operand =>
    obtain ⟨answer, buffer, -⟩ := appendTo_refines sound (.pair event operand)
    exact ⟨answer, buffer⟩
  | flip => exact ⟨rfl, buffer_flip log⟩
  | reset => exact ⟨rfl, buffer_reset opened⟩

/-- A log stays as it should be and where it is. -/
structure Stays (log other : Log) : Prop where
  sound : other.Sound
  opened : other.isClosed = log.isClosed
  base : other.base = log.base
  halfBytes : other.halfBytes = log.halfBytes

theorem Gains.stays {other : Log} {slots : List Event} (gains : log.Gains slots other)
    (sound : log.Sound) (fits : log.count.toNat + slots.length ≤ log.capacity.toNat) :
    log.Stays other :=
  ⟨gains.sound sound fits, gains.isClosed, gains.base, gains.halfBytes⟩

/-- No action breaks a log, a fault included. -/
theorem act_stays (sound : log.Sound) (action : Action) : log.Stays (log.act action).2 := by
  cases action with
  | append event =>
    obtain ⟨-, -, slots, gains, fits⟩ := appendTo_refines sound (.single event)
    exact gains.stays sound fits
  | appendPair event operand =>
    obtain ⟨-, -, slots, gains, fits⟩ := appendTo_refines sound (.pair event operand)
    exact gains.stays sound fits
  | flip => exact ⟨sound.flip, isClosed_flip log, base_flip log, halfBytes_flip log⟩
  | reset => exact ⟨sound.reset, isClosed_reset log, base_reset log, halfBytes_reset log⟩

theorem buffer_create {base room requested : UInt64}
    (created : create base room requested = .ok log) :
    log.buffer = .empty (capacityFor requested).toNat := by
  obtain ⟨protection, rfl, -⟩ := create_eq_ok created
  rfl

theorem buffer_clone {copy : Log} {base room : UInt64} (spacious : Spacious log.halfBytes)
    (cloned : log.clone base room = .ok copy) : copy.buffer = log.buffer := by
  obtain ⟨protection, rfl, -⟩ := clone_eq_ok spacious cloned
  have half : ∀ side, Log.half { log with
      base := base, protection := protection, isClosed := false } side = log.half side := by
    intro side
    cases side <;> rfl
  simp only [buffer, activeEvents, half]
  rfl

/-! ## What a reachable log looks like -/

/-- A byte of the region lies in the guard page behind a half. -/
def InGuard (halfBytes : UInt64) (side : Side) (offset : UInt64) : Prop :=
  (halfOffset halfBytes side).toNat + halfBytes.toNat ≤ offset.toNat
    ∧ offset.toNat < (halfOffset halfBytes side).toNat + halfBytes.toNat + 4096

/-- The changes of protection of `flip`, with the checks that memory makes of them. -/
def protectFlipped (log : Log) : Except Failure Memory.Protection := do
  let length := regionBytes log.halfBytes
  let start := halfOffset log.halfBytes
  let closed ← log.protection.protect length (start log.active) log.halfBytes false
  closed.protect length (start log.active.other) log.halfBytes true

/-- A log shows its buffer to readers, and its region is protected so that exactly the active half,
its counter included, can be written. -/
structure Shows (log : Log) : Prop where
  count : log.count.toNat = log.buffer.active.length
  pending : log.pending.toNat = log.buffer.segments.flatten.length
  isSealed : log.isSealed = log.buffer.sealed.isSome
  segments : log.segments = log.buffer.segments
  counted : ∀ side ∈ log.pendingSides, (log.half side).count ≤ log.capacity
  writable : ∀ offset, InHalf log.halfBytes log.active offset →
    log.protection.isWritable offset = true
  otherHalf : ∀ offset, InHalf log.halfBytes log.active.other offset →
    log.protection.isWritable offset = false
  guards : ∀ side offset, InGuard log.halfBytes side offset →
    log.protection.isWritable offset = false
  flips : log.protectFlipped = .ok log.flip.protection

/-- A half lies in the region, apart from the other one. -/
theorem Spacious.inHalf {halfBytes offset : UInt64} (spacious : Spacious halfBytes) {side : Side}
    (inside : InHalf halfBytes side offset) :
    offset.toNat < (regionBytes halfBytes).toNat ∧ ¬ InHalf halfBytes side.other offset := by
  have first : (halfOffset halfBytes .first).toNat = 0 := rfl
  have second := spacious.toNat_halfOffset_second
  rw [spacious.toNat_regionBytes]
  cases side <;> simp only [InHalf, Side.other, first, second] at inside ⊢ <;> omega

/-- A guard page lies in the region, apart from both halves. -/
theorem Spacious.inGuard {halfBytes offset : UInt64} (spacious : Spacious halfBytes) {side : Side}
    (inside : InGuard halfBytes side offset) (half : Side) :
    offset.toNat < (regionBytes halfBytes).toNat ∧ ¬ InHalf halfBytes half offset := by
  have first : (halfOffset halfBytes .first).toNat = 0 := rfl
  have second := spacious.toNat_halfOffset_second
  rw [spacious.toNat_regionBytes]
  cases side <;> cases half <;> simp only [InHalf, InGuard, first, second] at inside ⊢ <;> omega

/-- What lies outside the active half cannot be written. -/
theorem Sound.isWritable_eq_false (sound : log.Sound) {offset : UInt64}
    (inRegion : offset.toNat < (regionBytes log.halfBytes).toNat)
    (outside : ¬ InHalf log.halfBytes log.active offset) :
    log.protection.isWritable offset = false :=
  Bool.eq_false_iff.mpr fun writable => outside ((sound.guarded offset inRegion).mp writable)

theorem Spacious.protectFlipped (spacious : Spacious log.halfBytes) :
    log.protectFlipped = .ok log.flip.protection := by
  have length := spacious.toNat_regionBytes
  have accepts : ∀ (side : Side) (protection : Memory.Protection) (writable : Bool),
      protection.protect (regionBytes log.halfBytes) (halfOffset log.halfBytes side) log.halfBytes
        writable = .ok (protection.set (halfOffset log.halfBytes side) log.halfBytes writable) := by
    intro side
    have inside := spacious.toNat_halfOffset_le side
    have whole := spacious.whole
    refine Memory.Protection.protect_of_inside ?_ whole spacious.positive (by omega)
    cases side with
    | first => rfl
    | second =>
      rw [spacious.toNat_halfOffset_second]
      omega
  exact bind_eq_ok.mpr ⟨_, accepts log.active log.protection false, accepts log.active.other _ true⟩

theorem Sound.shows (sound : log.Sound) (opened : log.isClosed = false) : log.Shows where
  count := (length_activeEvents log).symm
  pending := sound.toNat_pending
  isSealed := by
    rw [buffer]
    cases log.isSealed <;> rfl
  segments := segments_eq_buffer opened
  counted := fun side _ => UInt64.le_iff_toNat_le.mpr (sound.counted side)
  writable := by
    intro offset inside
    exact (sound.guarded offset (sound.spacious.inHalf inside).1).mpr inside
  otherHalf := by
    intro offset inside
    obtain ⟨inRegion, outside⟩ := sound.spacious.inHalf inside
    rw [Side.other_other] at outside
    exact sound.isWritable_eq_false inRegion outside
  guards := by
    intro side offset inside
    obtain ⟨inRegion, outside⟩ := sound.spacious.inGuard inside log.active
    exact sound.isWritable_eq_false inRegion outside
  flips := sound.spacious.protectFlipped

end Log

/-! ## Shelves -/

/-- What can be asked of a bank: new logs, copies of logs, and actions of logs. -/
inductive Bank.Task where
  | create (requested : UInt64)
  | clone (id : LogId)
  | act (id : LogId) (action : Log.Action)
  deriving DecidableEq

/-- Buffers side by side, known by their numbers. -/
abbrev Shelf := List Log.Buffer

namespace Shelf

/-- A task is answered and makes one shelf of buffers of another.  Memory may be refused to a new
buffer; apart from that the shelf decides the answer. -/
inductive Step : Shelf → Bank.Task → Bool → Shelf → Prop where
  | create (shelf : Shelf) (requested : UInt64) :
      Step shelf (.create requested) true
        (shelf ++ [.empty (Log.capacityFor requested).toNat])
  | createRefused (shelf : Shelf) (requested : UInt64) :
      Step shelf (.create requested) false shelf
  | clone {shelf : Shelf} {id : LogId} {buffer : Log.Buffer} (here : shelf[id]? = some buffer) :
      Step shelf (.clone id) true (shelf ++ [buffer])
  | cloneRefused (shelf : Shelf) (id : LogId) : Step shelf (.clone id) false shelf
  | act {shelf : Shelf} {id : LogId} {buffer next : Log.Buffer} {action : Log.Action}
      (here : shelf[id]? = some buffer) (acts : buffer.act action = some next) :
      Step shelf (.act id action) true (shelf.set id next)
  | fault {shelf : Shelf} {id : LogId} {buffer : Log.Buffer} {action : Log.Action}
      (here : shelf[id]? = some buffer) (faults : buffer.act action = none) :
      Step shelf (.act id action) false shelf
  | unknown {shelf : Shelf} {id : LogId} (nowhere : shelf[id]? = none)
      (action : Log.Action) : Step shelf (.act id action) false shelf

/-- Tasks are answered in order. -/
inductive Runs : Shelf → List Bank.Task → List Bool → Shelf → Prop where
  | nil (shelf : Shelf) : Runs shelf [] [] shelf
  | cons {shelf next reached : Shelf} {task : Bank.Task} {rest : List Bank.Task}
      {answer : Bool} {answers : List Bool} (step : Step shelf task answer next)
      (onward : Runs next rest answers reached) :
      Runs shelf (task :: rest) (answer :: answers) reached

end Shelf

namespace Bank

/-- Answers a task; a log that does not exist does nothing. -/
def perform (bank : Bank) : Task → Bool × Bank
  | .create requested => ((bank.create requested).1.isOk, (bank.create requested).2)
  | .clone id =>
    if id < bank.logs.size then ((bank.clone id).1.isOk, (bank.clone id).2) else (false, bank)
  | .act id action =>
    if id < bank.logs.size then
      (((bank.log id).act action).1.isOk, bank.modify id fun log => (log.act action).2)
    else (false, bank)

/-- Answers tasks in order. -/
def performAll (bank : Bank) : List Task → List Bool × Bank
  | [] => ([], bank)
  | task :: rest =>
    let (answer, next) := bank.perform task
    let (answers, reached) := next.performAll rest
    (answer :: answers, reached)

/-- The buffers that the logs stand for, in order of creation. -/
def shelf (bank : Bank) : Shelf := bank.logs.toList.map Log.buffer

variable {bank : Bank}

theorem getElem?_shelf (bank : Bank) (id : LogId) :
    bank.shelf[id]? = if id < bank.logs.size then some (bank.log id).buffer else none := by
  by_cases known : id < bank.logs.size
  · simp [shelf, log, Array.getD, known]
  · simp [shelf, known]

theorem shelf_add (bank : Bank) (log : Log) :
    (bank.add log).2.shelf = bank.shelf ++ [log.buffer] := by
  simp [shelf, add]

theorem shelf_modify {id : LogId} (known : id < bank.logs.size) (change : Log → Log) :
    (bank.modify id change).shelf = bank.shelf.set id (change (bank.log id)).buffer := by
  have length : bank.shelf.length = bank.logs.size := by simp [shelf]
  refine List.ext_getElem? fun sought => ?_
  rw [getElem?_shelf, size_modify, log_modify, List.getElem?_set, getElem?_shelf, length]
  by_cases here : id = sought
  · subst here
    simp [known]
  · simp [here]

/-- The logs are sound and open. -/
structure Usable (bank : Bank) : Prop where
  sound : bank.Sound
  opened : ∀ id < bank.logs.size, (bank.log id).isClosed = false

theorem Usable.add {log : Log} (usable : bank.Usable) (sound : (bank.add log).2.Sound)
    (opened : log.isClosed = false) : (bank.add log).2.Usable := by
  refine ⟨sound, ?_⟩
  intro id known
  rw [size_add] at known
  rcases Nat.lt_succ_iff_lt_or_eq.mp known with old | rfl
  · rw [log_add_of_lt log old]
    exact usable.opened id old
  · rw [log_add_self]
    exact opened

theorem Usable.modify (usable : bank.Usable) {id : LogId} (known : id < bank.logs.size)
    {change : Log → Log} (stays : (bank.log id).Stays (change (bank.log id))) :
    (bank.modify id change).Usable where
  sound := usable.sound.modify id (fun _ => stays.sound) stays.base stays.halfBytes
  opened := by
    intro sought inside
    rw [size_modify] at inside
    rw [log_modify]
    split
    · rename_i here
      rw [← here.1, stays.opened]
      exact usable.opened id known
    · exact usable.opened sought inside

theorem shelf_of_known {id : LogId} (known : id < bank.logs.size) :
    bank.shelf[id]? = some (bank.log id).buffer := by
  rw [getElem?_shelf, if_pos known]

/-- Creating a log puts an empty buffer on the shelf, unless memory is refused. -/
theorem create_refines (usable : bank.Usable) (requested : UInt64) :
    Shelf.Step bank.shelf (.create requested) (bank.create requested).1.isOk
        (bank.create requested).2.shelf
      ∧ (bank.create requested).2.Usable := by
  cases created : bank.create requested with
  | mk outcome reached =>
    cases outcome with
    | error failure =>
      obtain rfl := create_eq_error created
      exact ⟨.createRefused _ _, usable⟩
    | ok id =>
      obtain ⟨log, fresh, rfl, rfl⟩ := create_eq_ok created
      dsimp only
      rw [shelf_add, Log.buffer_create fresh]
      exact ⟨.create _ _, usable.add (usable.sound.add_create fresh) (Log.create_fresh fresh).1⟩

/-- Cloning a log puts a copy of its buffer on the shelf, unless memory is refused. -/
theorem clone_refines (usable : bank.Usable) {id : LogId} (known : id < bank.logs.size) :
    Shelf.Step bank.shelf (.clone id) (bank.clone id).1.isOk (bank.clone id).2.shelf
      ∧ (bank.clone id).2.Usable := by
  cases cloned : bank.clone id with
  | mk outcome reached =>
    cases outcome with
    | error failure =>
      obtain rfl := clone_eq_error cloned
      exact ⟨.cloneRefused _ _, usable⟩
    | ok copy =>
      obtain ⟨log, fresh, rfl, rfl⟩ := clone_eq_ok cloned
      have spacious := (usable.sound.logs id known).spacious
      have opened := (Log.clone_same spacious (usable.opened id known) fresh).1
      dsimp only
      rw [shelf_add, Log.buffer_clone spacious fresh]
      exact ⟨.clone (shelf_of_known known), usable.add (usable.sound.add_clone known fresh) opened⟩

/-- An action changes the buffer of its log and no other one. -/
theorem act_refines (usable : bank.Usable) {id : LogId} (known : id < bank.logs.size)
    (action : Log.Action) :
    Shelf.Step bank.shelf (.act id action) ((bank.log id).act action).1.isOk
        (bank.modify id fun log => (log.act action).2).shelf
      ∧ (bank.modify id fun log => (log.act action).2).Usable := by
  have sound := usable.sound.logs id known
  have here := shelf_of_known known
  obtain ⟨answer, buffer⟩ := Log.act_refines sound (usable.opened id known) action
  refine ⟨?_, usable.modify known (Log.act_stays sound action)⟩
  rw [shelf_modify known, answer, buffer]
  cases acts : (bank.log id).buffer.act action with
  | some next => exact .act here acts
  | none =>
    -- the memory may have changed, but not so that its buffer shows it
    have same : bank.shelf.set id (bank.log id).buffer = bank.shelf := by
      obtain ⟨inside, buffer⟩ := List.getElem?_eq_some_iff.mp here
      rw [← buffer, List.set_getElem_self]
    rw [Option.getD_none, same]
    exact .fault here acts

/-- **One task.**  A bank answers it as its shelf does, and its logs stay usable. -/
theorem perform_refines (usable : bank.Usable) (task : Task) :
    Shelf.Step bank.shelf task (bank.perform task).1 (bank.perform task).2.shelf
      ∧ (bank.perform task).2.Usable := by
  cases task with
  | create requested => exact create_refines usable requested
  | clone id =>
    by_cases known : id < bank.logs.size
    · rw [perform, if_pos known]
      exact clone_refines usable known
    · rw [perform, if_neg known]
      exact ⟨.cloneRefused _ _, usable⟩
  | act id action =>
    by_cases known : id < bank.logs.size
    · rw [perform, if_pos known]
      exact act_refines usable known action
    · rw [perform, if_neg known]
      have nowhere : bank.shelf[id]? = none := by rw [getElem?_shelf, if_neg known]
      exact ⟨.unknown nowhere action, usable⟩

theorem performAll_cons (bank : Bank) (task : Task) (rest : List Task) :
    bank.performAll (task :: rest)
      = ((bank.perform task).1 :: ((bank.perform task).2.performAll rest).1,
        ((bank.perform task).2.performAll rest).2) :=
  rfl

/-- **Many tasks**, by one task after the other. -/
theorem performAll_refines (tasks : List Task) : ∀ {bank : Bank}, bank.Usable →
    Shelf.Runs bank.shelf tasks (bank.performAll tasks).1 (bank.performAll tasks).2.shelf
      ∧ (bank.performAll tasks).2.Usable := by
  induction tasks with
  | nil =>
    intro bank usable
    exact ⟨.nil _, usable⟩
  | cons task rest onward =>
    intro bank usable
    obtain ⟨step, next⟩ := perform_refines usable task
    obtain ⟨runs, reached⟩ := onward next
    rw [performAll_cons]
    exact ⟨.cons step runs, reached⟩

theorem usable_empty (memory : UInt64) : (empty memory).Usable :=
  ⟨.empty memory, fun _ known => absurd known (Nat.not_lt_zero _)⟩

/-- A usable log is cloned if there is room for its region. -/
theorem Usable.clone_of_fits (usable : bank.Usable) {id : LogId} (known : id < bank.logs.size)
    (fits : Log.regionBytes (bank.log id).halfBytes ≤ bank.room) :
    (bank.clone id).1 = .ok bank.logs.size := by
  obtain ⟨copy, cloned⟩ :=
    Log.clone_of_fits (usable.sound.logs id known).spacious bank.nextBase fits
  simp only [clone, cloned]
  rfl

/-- **Paged logs are buffers of two lists.**  Whatever a bank is asked for from the start, on a
machine with any memory, it answers like a shelf of buffers: an event is appended exactly if the
active list is shorter than the capacity, a pair exactly if two events find room, and what faults
changes nothing that is seen.  In the state that is reached, every log shows its buffer to readers,
exactly its active half can be written, no address belongs to two logs, and a log is cloned whenever
there is room for its region. -/
theorem runs_shelf (memory : UInt64) (tasks : List Task) :
    let (answers, bank) := (empty memory).performAll tasks
    Shelf.Runs [] tasks answers bank.shelf
      ∧ ∀ id < bank.logs.size, (bank.log id).Shows
        ∧ (∀ other < bank.logs.size, other ≠ id → ∀ address,
          (bank.log id).owns address = true → (bank.log other).owns address = false)
        ∧ (Log.regionBytes (bank.log id).halfBytes ≤ bank.room →
          (bank.perform (.clone id)).1 = true) := by
  obtain ⟨runs, usable⟩ := performAll_refines tasks (usable_empty memory)
  refine ⟨runs, ?_⟩
  intro id known
  refine ⟨(usable.sound.logs id known).shows (usable.opened id known), ?_, ?_⟩
  · intro other otherKnown distinct address owned
    exact Bool.eq_false_iff.mpr fun alsoOwned =>
      distinct (usable.sound.eq_of_owns otherKnown known alsoOwned owned)
  · intro fits
    rw [perform, if_pos known, usable.clone_of_fits known fits]
    rfl

/-- A copy keeps what its original drains. -/
example : Prod.map id shelf ((empty 0x100000000).performAll [.create 1, .act 0 (.append ⟨1, 2⟩),
      .act 0 .flip, .act 0 (.appendPair ⟨3, 4⟩ ⟨5, 6⟩), .clone 0, .act 0 .reset, .act 2 .flip])
    = ([true, true, true, true, true, true, false],
      [⟨255, none, []⟩, ⟨255, some [⟨1, 2⟩], [⟨3, 4⟩, ⟨5, 6⟩]⟩]) := by
  decide +kernel

end Bank

end HeapAudit
