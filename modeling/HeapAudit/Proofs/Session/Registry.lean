import HeapAudit.Proofs.Recording.Store
import HeapAudit.Session.Operations

/-!
# The registry of a session

The registered logs of a session are open, are registered once, and include all snapshots
(`Bank.Orderly`).  A new log and a snapshot are admitted at the end of the registry, a log
whose recorder is closed is retired, and a cycle drains them all: snapshots are closed and
leave the registry, the others stay in it in their order without events
(`Bank.Orderly.drain`).
-/

namespace HeapAudit

set_option autoImplicit false

namespace Bank

/-- A bank all of whose registered logs are open, are registered once, and include the
snapshots. -/
structure Orderly (bank : Bank) : Prop where
  sound : bank.Sound
  known : ∀ id ∈ bank.registered, id < bank.logs.size
  opened : ∀ id ∈ bank.registered, (bank.log id).isClosed = false
  distinct : bank.registered.Nodup
  owned : ∀ id ∈ bank.snapshots, id ∈ bank.registered
  ownedOnce : bank.snapshots.Nodup

/-- The registered logs that are no snapshots. -/
def ordinary (bank : Bank) : List LogId := bank.registered.filter fun id => !bank.isSnapshot id

theorem mem_ordinary {bank : Bank} {id : LogId} :
    id ∈ bank.ordinary ↔ id ∈ bank.registered ∧ bank.isSnapshot id = false := by
  simp [ordinary]

/-! ## Draining -/

/-- What draining makes of a replayed log. -/
def drainedLog (bank : Bank) (id : LogId) : Log :=
  if bank.isSnapshot id then (bank.log id).close else (bank.log id).reset

theorem isSnapshot_iff {bank : Bank} {id : LogId} :
    bank.isSnapshot id = true ↔ id ∈ bank.snapshots := by
  simp [isSnapshot]

/-- The registry after logs were drained one after another. -/
structure Drains (ids : List LogId) (bank reached : Bank) : Prop where
  size : reached.logs.size = bank.logs.size
  nextBase : reached.nextBase = bank.nextBase
  log : ∀ id, id < bank.logs.size →
    reached.log id = if id ∈ ids then bank.drainedLog id else bank.log id
  registered : reached.registered
    = bank.registered.filter fun id => !(ids.contains id && bank.isSnapshot id)
  snapshots : reached.snapshots = bank.snapshots.filter fun id => !ids.contains id
  sound : reached.Sound

section DrainReplayed

variable {bank : Bank} {id : LogId}

/-- The change that draining makes to a log. -/
theorem logs_drainReplayed : (Session.drainReplayed bank id).logs
    = (bank.modify id fun log => if bank.isSnapshot id then log.close else log.reset).logs := by
  unfold Session.drainReplayed release
  split <;> rfl

theorem nextBase_drainReplayed : (Session.drainReplayed bank id).nextBase = bank.nextBase := by
  unfold Session.drainReplayed release
  split <;> rfl

theorem registered_drainReplayed : (Session.drainReplayed bank id).registered
    = if bank.isSnapshot id then bank.registered.erase id else bank.registered := by
  unfold Session.drainReplayed release
  split <;> rfl

theorem snapshots_drainReplayed :
    (Session.drainReplayed bank id).snapshots = bank.snapshots.erase id := by
  unfold Session.drainReplayed release
  split
  · rfl
  · rename_i ordinary
    have absent : id ∉ bank.snapshots := fun member => ordinary (isSnapshot_iff.mpr member)
    exact (List.erase_of_not_mem absent).symm

theorem sound_drainReplayed (sound : bank.Sound) (known : id < bank.logs.size) :
    (Session.drainReplayed bank id).Sound := by
  refine (sound.modify id ?_ ?_ ?_).congr logs_drainReplayed nextBase_drainReplayed
  · intro _
    split
    · exact (sound.logs id known).close
    · exact (sound.logs id known).reset
  · split
    · rfl
    · exact Log.base_reset _
  · split
    · rfl
    · exact Log.halfBytes_reset _

theorem size_drainReplayed : (Session.drainReplayed bank id).logs.size = bank.logs.size := by
  rw [logs_drainReplayed]
  exact size_modify ..

theorem log_drainReplayed_self (known : id < bank.logs.size) :
    (Session.drainReplayed bank id).log id = bank.drainedLog id := by
  rw [log, logs_drainReplayed]
  exact log_modify_self _ known

theorem log_drainReplayed_of_ne {sought : LogId} (elsewhere : id ≠ sought) :
    (Session.drainReplayed bank id).log sought = bank.log sought := by
  rw [log, logs_drainReplayed]
  exact log_modify_of_ne _ elsewhere

theorem isSnapshot_drainReplayed_of_ne {sought : LogId} (elsewhere : id ≠ sought) :
    (Session.drainReplayed bank id).isSnapshot sought = bank.isSnapshot sought := by
  rw [Bool.eq_iff_iff, isSnapshot_iff, isSnapshot_iff, snapshots_drainReplayed]
  exact List.mem_erase_of_ne (Ne.symm elsewhere)

end DrainReplayed

/-- Logs are drained one after another without getting in each other's way. -/
theorem drains_foldl {ids : List LogId} (each : ids.Nodup) {bank : Bank} (sound : bank.Sound)
    (known : ∀ id ∈ ids, id < bank.logs.size) (distinct : bank.registered.Nodup)
    (ownedOnce : bank.snapshots.Nodup) : Drains ids bank (ids.foldl Session.drainReplayed bank) := by
  induction ids generalizing bank with
  | nil =>
    refine ⟨rfl, rfl, ?_, ?_, ?_, sound⟩
    · intro id _
      rw [if_neg List.not_mem_nil]
      rfl
    · exact (List.filter_eq_self.mpr fun _ _ => rfl).symm
    · exact (List.filter_eq_self.mpr fun _ _ => rfl).symm
  | cons id rest onward =>
    obtain ⟨absent, each⟩ := List.nodup_cons.mp each
    have here := known id List.mem_cons_self
    have others := onward each (sound_drainReplayed sound here)
      (fun other member => by
        rw [size_drainReplayed]
        exact known other (List.mem_cons_of_mem _ member))
      (by
        rw [registered_drainReplayed]
        split
        · exact distinct.erase id
        · exact distinct)
      (by
        rw [snapshots_drainReplayed]
        exact ownedOnce.erase id)
    rw [List.foldl_cons]
    refine ⟨?_, ?_, ?_, ?_, ?_, others.sound⟩
    · rw [others.size, size_drainReplayed]
    · rw [others.nextBase, nextBase_drainReplayed]
    · intro sought bound
      rw [others.log sought (by rw [size_drainReplayed]; exact bound)]
      by_cases same : id = sought
      · subst same
        rw [if_neg absent, if_pos List.mem_cons_self, log_drainReplayed_self here]
      · have apart : sought ≠ id := Ne.symm same
        simp only [List.mem_cons, apart, false_or, drainedLog, log_drainReplayed_of_ne same,
          isSnapshot_drainReplayed_of_ne same]
    · have parts : (Session.drainReplayed bank id).registered
          = bank.registered.filter fun other => !(other == id && bank.isSnapshot id) := by
        rw [registered_drainReplayed]
        split
        · rename_i snapshot
          rw [distinct.erase_eq_filter]
          simp [snapshot, bne]
        · rename_i ordinary
          exact (List.filter_eq_self.mpr fun _ _ => by simp [ordinary]).symm
      rw [others.registered, parts, List.filter_filter]
      refine List.filter_congr fun other _ => ?_
      by_cases same : id = other
      · subst same
        simp [absent]
      · have apart : other ≠ id := Ne.symm same
        simp [isSnapshot_drainReplayed_of_ne same, apart]
    · rw [others.snapshots, snapshots_drainReplayed, ownedOnce.erase_eq_filter, List.filter_filter]
      refine List.filter_congr fun other _ => ?_
      simp only [List.contains_cons, Bool.not_or, Bool.and_comm, bne]

/-- The bank after all open logs were drained. -/
def drained (bank : Bank) : Bank := (Session.openLogs bank).foldl Session.drainReplayed bank

namespace Orderly

variable {bank : Bank} {id : LogId}

theorem openLogs (orderly : bank.Orderly) : Session.openLogs bank = bank.registered :=
  List.filter_eq_self.mpr fun id member => by simp [orderly.opened id member]

/-- A change to a sound open log in the same place keeps a bank orderly. -/
theorem modify (orderly : bank.Orderly) {change : Log → Log} (sound : (change (bank.log id)).Sound)
    (base : (change (bank.log id)).base = (bank.log id).base)
    (halfBytes : (change (bank.log id)).halfBytes = (bank.log id).halfBytes)
    (opened : (change (bank.log id)).isClosed = false) : (bank.modify id change).Orderly where
  sound := orderly.sound.modify id (fun _ => sound) base halfBytes
  known := by
    intro other member
    rw [size_modify]
    exact orderly.known other member
  opened := by
    intro other member
    rw [log_modify]
    split
    · rename_i here
      rw [← here.1, opened]
    · exact orderly.opened other member
  distinct := orderly.distinct
  owned := orderly.owned
  ownedOnce := orderly.ownedOnce

theorem drains (orderly : bank.Orderly) : Drains bank.registered bank bank.drained := by
  rw [drained, orderly.openLogs]
  exact drains_foldl orderly.distinct orderly.sound orderly.known orderly.distinct orderly.ownedOnce

theorem registered_drained (orderly : bank.Orderly) :
    bank.drained.registered = bank.ordinary := by
  rw [orderly.drains.registered]
  refine List.filter_congr fun id member => ?_
  simp [member]

/-- Every snapshot is released. -/
theorem snapshots_drained (orderly : bank.Orderly) : bank.drained.snapshots = [] := by
  rw [orderly.drains.snapshots]
  refine List.filter_eq_nil_iff.mpr fun id member => ?_
  simp [orderly.owned id member]

theorem ordinary_drained (orderly : bank.Orderly) : bank.drained.ordinary = bank.ordinary := by
  rw [← orderly.registered_drained, ordinary]
  refine List.filter_eq_self.mpr fun id _ => ?_
  rw [isSnapshot, orderly.snapshots_drained]
  rfl

theorem log_drained (orderly : bank.Orderly) (member : id ∈ bank.registered) :
    bank.drained.log id = bank.drainedLog id := by
  rw [orderly.drains.log id (orderly.known id member), if_pos member]

theorem log_drained_of_not_mem (orderly : bank.Orderly) (known : id < bank.logs.size)
    (absent : id ∉ bank.registered) : bank.drained.log id = bank.log id := by
  rw [orderly.drains.log id known, if_neg absent]

/-- A log that stays registered is empty. -/
theorem log_drained_of_mem_drained (orderly : bank.Orderly)
    (member : id ∈ bank.drained.registered) :
    id ∈ bank.registered ∧ bank.isSnapshot id = false
      ∧ bank.drained.log id = (bank.log id).reset := by
  rw [orderly.registered_drained] at member
  obtain ⟨before, ordinary⟩ := mem_ordinary.mp member
  refine ⟨before, ordinary, ?_⟩
  rw [orderly.log_drained before, drainedLog, ordinary]
  rfl

/-- A bank stays orderly when it is drained. -/
theorem drain (orderly : bank.Orderly) : bank.drained.Orderly where
  sound := orderly.drains.sound
  known := by
    intro id member
    rw [orderly.drains.size]
    exact orderly.known id (orderly.log_drained_of_mem_drained member).1
  opened := by
    intro id member
    obtain ⟨before, -, empty⟩ := orderly.log_drained_of_mem_drained member
    rw [empty, Log.isClosed_reset, orderly.opened id before]
  distinct := by
    rw [orderly.registered_drained]
    exact orderly.distinct.filter _
  owned := by
    intro id member
    rw [orderly.snapshots_drained] at member
    exact absurd member List.not_mem_nil
  ownedOnce := by
    rw [orderly.snapshots_drained]
    exact List.nodup_nil

/-- Nothing is left in a registered log once it is drained. -/
theorem segments_flatten_drained (orderly : bank.Orderly) (member : id ∈ bank.registered) :
    (bank.drained.log id).segments.flatten = [] := by
  have opened := orderly.opened id member
  rw [orderly.log_drained member, drainedLog]
  split
  · rw [Log.segments_close]
    rfl
  · rw [Log.segments_reset opened]
    rfl

end Orderly

/-! ## Admission -/

/-- Adds and registers a log, as a snapshot or not. -/
def enroll (bank : Bank) (log : Log) (owned : Bool) : Bank :=
  { (bank.add log).2.register bank.logs.size with
    snapshots := if owned then bank.logs.size :: bank.snapshots else bank.snapshots }

section Enroll

variable {bank : Bank} {log : Log} {owned : Bool} {id : LogId}

theorem size_enroll : (bank.enroll log owned).logs.size = bank.logs.size + 1 := size_add bank log

theorem log_enroll_self : (bank.enroll log owned).log bank.logs.size = log := bank.log_add_self log

theorem log_enroll_of_lt (known : id < bank.logs.size) :
    (bank.enroll log owned).log id = bank.log id := log_add_of_lt log known

theorem registered_enroll :
    (bank.enroll log owned).registered = bank.registered ++ [bank.logs.size] := rfl

theorem isSnapshot_enroll_of_lt (known : id < bank.logs.size) :
    (bank.enroll log owned).isSnapshot id = bank.isSnapshot id := by
  have different : id ≠ bank.logs.size := Nat.ne_of_lt known
  rw [Bool.eq_iff_iff, isSnapshot_iff, isSnapshot_iff]
  cases owned with
  | true => exact List.mem_cons.trans (or_iff_right different)
  | false => exact Iff.rfl

theorem Orderly.enroll (orderly : bank.Orderly) (sound : (bank.add log).2.Sound)
    (opened : log.isClosed = false) (owned : Bool) : (bank.enroll log owned).Orderly where
  sound := sound.congr rfl rfl
  known := by
    intro id member
    rw [size_enroll]
    rcases List.mem_append.mp member with old | new
    · exact Nat.lt_succ_of_lt (orderly.known id old)
    · rw [List.mem_singleton.mp new]
      exact Nat.lt_succ_self _
  opened := by
    intro id member
    rcases List.mem_append.mp member with old | new
    · rw [log_enroll_of_lt (orderly.known id old)]
      exact orderly.opened id old
    · rw [List.mem_singleton.mp new, log_enroll_self, opened]
  distinct := by
    refine List.nodup_append.mpr ⟨orderly.distinct, ?_, ?_⟩
    · exact List.nodup_cons.mpr ⟨List.not_mem_nil, List.nodup_nil⟩
    · intro id old other new
      rw [List.mem_singleton.mp new]
      exact Nat.ne_of_lt (orderly.known id old)
  owned := by
    intro id member
    cases owned with
    | true =>
      rcases List.mem_cons.mp member with rfl | old
      · exact List.mem_append_right _ (List.mem_singleton.mpr rfl)
      · exact List.mem_append_left _ (orderly.owned id old)
    | false => exact List.mem_append_left _ (orderly.owned id member)
  ownedOnce := by
    cases owned with
    | true =>
      refine List.nodup_cons.mpr ⟨fun old => ?_, orderly.ownedOnce⟩
      exact Nat.lt_irrefl _ (orderly.known _ (orderly.owned _ old))
    | false => exact orderly.ownedOnce

theorem Orderly.ordinary_enroll (orderly : bank.Orderly) (log : Log) (owned : Bool) :
    (bank.enroll log owned).ordinary
      = bank.ordinary ++ if owned then [] else [bank.logs.size] := by
  have new : (bank.enroll log owned).isSnapshot bank.logs.size = owned := by
    rw [Bool.eq_iff_iff, isSnapshot_iff]
    cases owned with
    | true => exact iff_of_true List.mem_cons_self rfl
    | false =>
      refine iff_of_false (fun member => ?_) Bool.false_ne_true
      exact Nat.lt_irrefl _ (orderly.known _ (orderly.owned _ member))
  have old : (bank.registered.filter fun id => !(bank.enroll log owned).isSnapshot id)
      = bank.ordinary :=
    List.filter_congr fun id member => by rw [isSnapshot_enroll_of_lt (orderly.known id member)]
  rw [Bank.ordinary, registered_enroll, List.filter_append, old, List.filter_cons, new]
  cases owned <;> rfl

/-- A snapshot is a clone that is enrolled in the registry and owned by it. -/
theorem snapshot_eq_ok {after : Bank} {copy : LogId}
    (taken : bank.snapshot id = (.ok copy, after)) :
    ∃ log, (bank.log id).clone bank.nextBase bank.room = .ok log ∧ copy = bank.logs.size
      ∧ after = bank.enroll log true := by
  unfold snapshot at taken
  split at taken
  · cases taken
  · rename_i made cloned
    obtain ⟨log, fresh, rfl, rfl⟩ := clone_eq_ok cloned
    cases taken
    exact ⟨log, fresh, rfl, rfl⟩

theorem snapshot_eq_error {after : Bank} {failure : Failure}
    (refused : bank.snapshot id = (.error failure, after)) : after = bank := by
  unfold Bank.snapshot clone at refused
  split at refused
  · rename_i cloned
    split at cloned
    · cases cloned
      cases refused
      rfl
    · cases cloned
  · cases refused

/-- A snapshot is taken wherever there is room for it. -/
theorem snapshot_of_fits (spacious : Log.Spacious (bank.log id).halfBytes)
    (fits : Log.regionBytes (bank.log id).halfBytes ≤ bank.room) :
    ∃ copy, (bank.snapshot id).1 = .ok copy := by
  obtain ⟨log, cloned⟩ := Log.clone_of_fits spacious bank.nextBase fits
  refine ⟨bank.logs.size, ?_⟩
  rw [Bank.snapshot, clone, cloned]
  rfl

end Enroll

/-! ## Retirement -/

/-- Unregisters and closes a log. -/
def retire (bank : Bank) (id : LogId) : Bank := (bank.unregister id).modify id Log.close

section Retire

variable {bank : Bank} {id : LogId}

theorem size_retire : (bank.retire id).logs.size = bank.logs.size :=
  size_modify (bank.unregister id) id Log.close

theorem log_retire_of_ne {sought : LogId} (elsewhere : id ≠ sought) :
    (bank.retire id).log sought = bank.log sought :=
  log_modify_of_ne Log.close elsewhere

theorem isClosed_retire_self (known : id < bank.logs.size) :
    ((bank.retire id).log id).isClosed = true := by
  have closed : (bank.retire id).log id = (bank.log id).close :=
    log_modify_self Log.close known
  rw [closed]
  rfl

theorem mem_registered_retire (orderly : bank.Orderly) {sought : LogId} :
    sought ∈ (bank.retire id).registered ↔ sought ≠ id ∧ sought ∈ bank.registered :=
  orderly.distinct.mem_erase_iff

theorem Orderly.retire (orderly : bank.Orderly) (known : id < bank.logs.size)
    (ordinary : bank.isSnapshot id = false) : (bank.retire id).Orderly where
  sound := (orderly.sound.modify id (fun _ => (orderly.sound.logs id known).close) rfl rfl).congr
    rfl rfl
  known := by
    intro other member
    rw [size_retire]
    exact orderly.known other ((mem_registered_retire orderly).mp member).2
  opened := by
    intro other member
    obtain ⟨different, before⟩ := (mem_registered_retire orderly).mp member
    rw [log_retire_of_ne (Ne.symm different)]
    exact orderly.opened other before
  distinct := orderly.distinct.erase id
  owned := by
    intro other member
    refine (mem_registered_retire orderly).mpr ⟨?_, orderly.owned other member⟩
    rintro rfl
    have snapshot : bank.isSnapshot other = true := isSnapshot_iff.mpr member
    rw [ordinary] at snapshot
    cases snapshot
  ownedOnce := orderly.ownedOnce

theorem Orderly.ordinary_retire (orderly : bank.Orderly) (id : LogId) :
    (bank.retire id).ordinary = bank.ordinary.erase id := by
  have distinct : bank.ordinary.Nodup := orderly.distinct.filter _
  rw [distinct.erase_eq_filter, ordinary, ordinary, List.filter_filter]
  show (bank.registered.erase id).filter _ = _
  rw [orderly.distinct.erase_eq_filter, List.filter_filter]
  refine List.filter_congr fun other _ => ?_
  exact Bool.and_comm ..

end Retire

end Bank

/-! ## Opening and closing recorders -/

namespace Session

variable {session reached : Session} {id : LogId}

/-- A recorder that is opened gets the next log, which is admitted to the registry. -/
theorem openRecorder_eq_ok (started : openRecorder.start session = (.ok id, reached)) :
    ∃ log, Log.create session.bank.nextBase session.bank.room session.consumer.config.logCapacity
        = .ok log
      ∧ id = session.bank.logs.size
      ∧ reached = { session with bank := session.bank.enroll log false } := by
  rw [openRecorder, Work.start_bind, Work.start_get] at started
  dsimp only at started
  cases created : session.bank.create session.consumer.config.logCapacity with
  | mk outcome bank =>
    rw [created] at started
    cases outcome with
    | error failure => cases started
    | ok fresh =>
      obtain ⟨log, made, rfl, rfl⟩ := Bank.create_eq_ok created
      cases started
      exact ⟨log, made, rfl, rfl⟩

/-- A recorder that cannot be opened leaves the session alone. -/
theorem openRecorder_eq_error {failure : Failure}
    (started : openRecorder.start session = (.error failure, reached)) : reached = session := by
  rw [openRecorder, Work.start_bind, Work.start_get] at started
  dsimp only at started
  cases created : session.bank.create session.consumer.config.logCapacity with
  | mk outcome bank =>
    rw [created] at started
    cases outcome with
    | error cause =>
      cases started
      rfl
    | ok fresh => cases started

/-- Closing a recorder takes a snapshot of its log and retires the log. -/
theorem start_closeRecorder (session : Session) (id : LogId) :
    (closeRecorder id).start session
      = ((session.bank.snapshot id).1.map fun _ => (),
        { session with bank := (session.bank.snapshot id).2.retire id }) := by
  rw [closeRecorder, Work.start_bind, Work.start_get]
  dsimp only
  cases session.bank.snapshot id with
  | mk outcome bank => cases outcome <;> rfl

/-- A new session has no logs and the configuration, the heap and the random source it was given. -/
theorem create_eq_ok {memory : UInt64} {config : SessionConfig} {heap : Heap}
    {device : Option Device} {random : RandomSource}
    (created : Session.create memory config heap device random = .ok session) :
    ∃ device, session = { bank := .empty memory, consumer := {
      config := config
      heap := heap
      table := .empty HeapObject.arrayBase
      coordinator := { buildsGraph := config.buildsGraph, device := device }
      random := random } } := by
  unfold Session.create at created
  dsimp only at created
  split at created
  · cases created
  · split at created
    · cases created
    · cases device with
      | some device =>
        cases created
        exact ⟨device, rfl⟩
      | none =>
        obtain ⟨device, -, made⟩ := bind_eq_ok.mp created
        cases made
        exact ⟨device, rfl⟩

theorem start_dump (session : Session) :
    let saved := Dump.save session.bank.memory (pendingEvents session.bank) session.consumer.random
    dump.start session
      = (saved.1, { session with consumer := { session.consumer with random := saved.2 } }) := by
  rw [dump, Work.start_bind, Work.start_get]
  dsimp only
  cases Dump.save session.bank.memory (pendingEvents session.bank) session.consumer.random with
  | mk outcome random => cases outcome <;> rfl

theorem start_capture (session : Session) :
    let captured :=
      Dump.capture session.bank.memory (pendingEvents session.bank) session.consumer.random
    capture.start session
      = (captured.1,
        { session with consumer := { session.consumer with random := captured.2 } }) := by
  rw [capture, Work.start_bind, Work.start_get]
  dsimp only
  cases Dump.capture session.bank.memory (pendingEvents session.bank) session.consumer.random with
  | mk outcome random => cases outcome <;> rfl

/-- Dumping only draws identifiers. -/
theorem start_dump_reached (session : Session) :
    ∃ random, (dump.start session).2
      = { session with consumer := { session.consumer with random := random } } := by
  rw [start_dump]
  exact ⟨_, rfl⟩

/-- Capturing only draws identifiers. -/
theorem start_capture_reached (session : Session) :
    ∃ random, (capture.start session).2
      = { session with consumer := { session.consumer with random := random } } := by
  rw [start_capture]
  exact ⟨_, rfl⟩

end Session

end HeapAudit
