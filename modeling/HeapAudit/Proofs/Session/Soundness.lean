import HeapAudit.Proofs.Audit.Reflection
import HeapAudit.Proofs.Session.Chronicle

/-!
# Recording is sound

A mutator works on the heap of a strict session and records each of its deeds through the one
recorder of the session.  This module follows such a run through every way in which the log
is cut into cycles: overflows drain it in the middle of a recording, when the heap has
changed already and the record is not stored yet, and verifications drain it between two
deeds.

What is in the log leads from the table of the auditor to the scene as of the last record
(`Trial.Follows`).  Recording never fails and verifying always gives a verdict.  The verdict is
that the table mirrors the heap, provided that every cycle was timely (`Batch.Timely`): a replay
retargets the edges to moved objects once, at its end, so in the same cycle behind a move
nothing may store the address that was left, and nothing may be moved twice.
-/

namespace HeapAudit

set_option autoImplicit false

/-! ## Timely cycles -/

/-- Behind a move nothing stores the address that was left and nothing is moved on from where the
move led. -/
def Frame.Timely (earlier later : Frame) : Prop :=
  earlier.kind = .moveObject →
    (later.kind = .fieldSet → later.event.src ≠ earlier.event.src)
    ∧ (later.kind = .moveObject → later.event.src ≠ earlier.event.dst)

/-- The frames that a cycle replays from a batch. -/
def Batch.frames (range : HeapRange) (batch : Batch) : List Frame :=
  (batch.flatMap Prod.snd).flatMap (Frame.ofSlots range)

/-- A cycle whose moves come behind everything that they could confuse. -/
def Batch.Timely (range : HeapRange) (batch : Batch) : Prop :=
  (batch.frames range).Pairwise Frame.Timely

instance : DecidableRel Frame.Timely := fun _ _ => inferInstanceAs (Decidable (_ → _ ∧ _))

instance (range : HeapRange) (batch : Batch) : Decidable (batch.Timely range) :=
  inferInstanceAs (Decidable (List.Pairwise _ _))

/-- The deeds of a timely batch are timely. -/
theorem Batch.Timely.deeds {range : HeapRange} (telling : range.Legible) {batch : Batch}
    (timely : batch.Timely range) {deeds : List Deed}
    (legible : ∀ deed ∈ deeds, deed.Legible range)
    (held : (batch.flatMap Prod.snd).flatten = deeds.map Deed.stored) :
    deeds.Pairwise Deed.Timely := by
  have unplaced : ((batch.frames range).map Frame.unplaced).Pairwise Frame.Timely :=
    List.pairwise_map.mpr timely
  rw [Batch.frames, Deed.unplaced_frames telling legible held] at unplaced
  refine (List.pairwise_map.mp unplaced).imp fun {earlier later} inTime => ?_
  cases earlier with
  | allocate kind size address => trivial
  | store value slot => trivial
  | move src dst =>
    obtain ⟨stores, moves⟩ := inTime rfl
    cases later with
    | allocate kind size address => trivial
    | store value slot => exact stores rfl
    | move source target => exact moves rfl

/-! ## Sessions with one recorder -/

/-- The chronicle of a session whose heap has changed. -/
def Chronicle.withHeap (chronicle : Chronicle) (heap : Heap) : Chronicle :=
  { chronicle with consumer := { chronicle.consumer with
      auditor := { chronicle.consumer.auditor with heap := heap } } }

/-- A chronicled session with the recorder of one mutator, and everything that was ever occupied in
its heap. -/
structure Trial where
  chronicle : Chronicle
  occupied : List Tract := []

namespace Trial

/-- The scene of the mutator. -/
def scene (trial : Trial) : Scene := ⟨trial.chronicle.consumer.auditor.heap, trial.occupied⟩

/-- A strict session without verifiers, with a heap and one log. -/
structure Stands (id : LogId) (heap : Heap) (chronicle : Chronicle) : Prop where
  strict : chronicle.consumer.auditor.config.checksLiveHeap = true
  instrumented : chronicle.consumer.auditor.config.isInstrumented = true
  selected : chronicle.consumer.auditor.config.subsystems.has .heap = true
  unaided : chronicle.consumer.auditor.verifiers = []
  heap : chronicle.consumer.auditor.heap = heap
  bank : chronicle.bank.Orderly
  registered : chronicle.bank.registered = [id]
  snapshots : chronicle.bank.snapshots = []

/-- **The deeds in the log lead from the table to the scene.**  If all cycles so far were timely, then
following the deeds in order makes a mirror of the scene out of the table. -/
structure Follows (id : LogId) (scene : Scene) (pending : List Deed) (chronicle : Chronicle) :
    Prop where
  held : (chronicle.bank.log id).segments.flatten = pending.map Deed.stored
  sound : scene.Sound
  recalls : scene.Recalls pending
  reflects : (∀ batch ∈ chronicle.consumer.batches, batch.Timely scene.heap.range) →
    scene.Reflected (pending.foldl Replay.Progress.follow
      ⟨chronicle.consumer.auditor.table, ∅, {}⟩)

section Draining

variable {id : LogId} {heap : Heap} {scene : Scene} {pending : List Deed}
variable {chronicle reached : Chronicle}

theorem Stands.openLogs (stands : Stands id heap chronicle) :
    Session.openLogs chronicle.bank = [id] := by
  rw [stands.bank.openLogs, stands.registered]

theorem Stands.pendingSegments (stands : Stands id heap chronicle) :
    Session.pendingSegments chronicle.bank = (chronicle.bank.log id).segments := by
  rw [Session.pendingSegments, stands.openLogs, List.flatMap_singleton]

theorem Stands.mem_registered (stands : Stands id heap chronicle) :
    id ∈ chronicle.bank.registered := by
  rw [stands.registered]
  exact List.mem_singleton.mpr rfl

theorem Stands.ready (stands : Stands id heap chronicle) : chronicle.bank.Ready id :=
  ⟨stands.bank.sound, stands.bank.known id stands.mem_registered,
    stands.bank.opened id stands.mem_registered⟩

/-- A cycle leaves a session with an empty log. -/
theorem Stands.settle (stands : Stands id heap chronicle) (settles : chronicle.Settles reached) :
    Stands id heap reached ∧ (reached.bank.log id).isSealed = false
      ∧ (reached.bank.log id).count = 0 := by
  have ordinary : chronicle.bank.drained.registered = [id] := by
    rw [stands.bank.registered_drained, Bank.ordinary, stands.registered]
    simp [Bank.isSnapshot, stands.snapshots]
  have opened := stands.bank.opened id stands.mem_registered
  have empty : chronicle.bank.drained.log id = (chronicle.bank.log id).reset :=
    (stands.bank.log_drained_of_mem_drained (by simp [ordinary])).2.2
  refine ⟨⟨?_, ?_, ?_, ?_, ?_, ?_, ?_, ?_⟩, ?_, ?_⟩
  · rw [settles.config]
    exact stands.strict
  · rw [settles.config]
    exact stands.instrumented
  · rw [settles.config]
    exact stands.selected
  · rw [settles.verifiers]
    exact stands.unaided
  · rw [settles.heap]
    exact stands.heap
  · rw [settles.bank]
    exact stands.bank.drain
  · rw [settles.bank]
    exact ordinary
  · rw [settles.bank]
    exact stands.bank.snapshots_drained
  · rw [settles.bank, empty, Log.isSealed_reset opened]
  · rw [settles.bank, empty, Log.count_reset opened]

theorem Follows.held_segments (follows : Follows id scene pending chronicle)
    (stands : Stands id heap chronicle) :
    (Session.pendingSegments chronicle.bank).flatten = pending.map Deed.stored := by
  rw [stands.pendingSegments, follows.held]

/-- The range by which a replay recognises field stores. -/
theorem Stands.range_replayConfig (stands : Stands id heap chronicle)
    (range : heap.range = scene.heap.range) :
    (Session.replayConfig chronicle.session.consumer).range = scene.heap.range :=
  (congrArg Heap.range stands.heap).trans range

/-- The replay of the log is not stopped. -/
theorem Follows.replays (follows : Follows id scene pending chronicle)
    (stands : Stands id heap chronicle) (range : heap.range = scene.heap.range) :
    Session.Replays chronicle.session := by
  have config := stands.range_replayConfig range
  have run := Replay.run_of_deeds (Session.replayConfig chronicle.session.consumer)
    (by rw [config]; exact follows.sound.telling) (by rw [config]; exact follows.recalls.legible)
    (follows.held_segments stands) chronicle.consumer.auditor.table
  exact ⟨_, congrArg Replay.Replayed.outcome run⟩

/-- **In timely cycles the replay of the log leads the table to the scene** and misses nothing. -/
theorem Follows.replayed (follows : Follows id scene pending chronicle)
    (stands : Stands id heap chronicle) (range : heap.range = scene.heap.range)
    (timely : ∀ batch ∈ chronicle.consumer.batches ++ [Batch.ofBank chronicle.bank],
      batch.Timely scene.heap.range) :
    (Session.replayed chronicle.session).table.arrayBase = HeapObject.arrayBase
      ∧ scene.Mirrored (Session.replayed chronicle.session).table.nodes
      ∧ ∃ stats, (Session.replayed chronicle.session).outcome = .ok stats
        ∧ stats.unrecognized = 0 ∧ stats.unresolvedFieldSets = 0 ∧ stats.unresolvedCopies = 0 := by
  have reflected := follows.reflects fun batch member =>
    timely batch (List.mem_append_left _ member)
  have last := timely _ (List.mem_append_right _ (List.mem_singleton.mpr rfl))
  have held := follows.held_segments stands
  have config := stands.range_replayConfig range
  have inTime := last.deeds follows.sound.telling follows.recalls.legible
    (by rw [Batch.flatMap_ofBank, held])
  obtain ⟨nodes, base, outcome⟩ := Replay.run_eq_follow
    (Session.replayConfig chronicle.session.consumer) (by rw [config]; exact follows.sound.telling)
    (by rw [config]; exact follows.recalls.legible) held follows.recalls.ordered inTime
    chronicle.consumer.auditor.table rfl
  refine ⟨base.trans reflected.arrayBase, ?_, _, outcome, reflected.recognized,
    reflected.resolved, reflected.copied⟩
  have mirrored := reflected.mirrored
  rw [← nodes] at mirrored
  exact mirrored

/-- A cycle leads the table to the scene. -/
theorem Follows.settle (follows : Follows id scene pending chronicle)
    (stands : Stands id heap chronicle) (range : heap.range = scene.heap.range)
    (settles : chronicle.Settles reached) : Follows id scene [] reached where
  held := by
    rw [settles.bank]
    exact stands.bank.segments_flatten_drained stands.mem_registered
  sound := follows.sound
  recalls := .nil scene
  reflects := by
    intro timely
    rw [settles.batches] at timely
    obtain ⟨base, mirrored, -⟩ := follows.replayed stands range timely
    rw [settles.table]
    exact ⟨base, mirrored, rfl, rfl, rfl⟩

/-- A cycle succeeds and finds no problem. -/
theorem Follows.cycle (follows : Follows id scene pending chronicle)
    (stands : Stands id heap chronicle) (range : heap.range = scene.heap.range)
    {occupied : List Tract} (live : Scene.Sound ⟨heap, occupied⟩) (verifies : Bool) :
    ∃ verdict session inspection, (Session.cycle verifies).start chronicle.session
        = (.ok verdict, session)
      ∧ verdict.problem = none
      ∧ (Session.replayed chronicle.session).outcome = .ok verdict.stats
      ∧ Validation.validate heap (Session.replayed chronicle.session).table = .ok inspection
      ∧ (verifies = true → verdict.report = inspection.report) := by
  obtain ⟨stats, finished⟩ := follows.replays stands range
  obtain ⟨inspection, validated⟩ :=
    Validation.validate_eq_ok live (Session.replayed chronicle.session).table
  have same : chronicle.session.consumer.heap = heap := stands.heap
  have ends := Session.ends_cycle verifies finished stands.unaided stands.selected
    (by rw [same]; exact validated)
  obtain ⟨verdict, session, started, problem, counted, reported⟩ := ends.succeeds
  refine ⟨verdict, session, inspection, started, problem, ?_, validated, reported⟩
  rw [counted]
  exact finished

/-- A drain succeeds and leaves an empty log. -/
theorem Follows.drain (follows : Follows id scene pending chronicle)
    (stands : Stands id heap chronicle) (range : heap.range = scene.heap.range)
    {occupied : List Tract} (live : Scene.Sound ⟨heap, occupied⟩) (drained : LogId) :
    (Chronicle.drain drained).Ends False chronicle fun _ reached =>
      (Stands id heap reached ∧ Follows id scene [] reached
        ∧ (reached.bank.log id).isSealed = false) ∧ (reached.bank.log id).count = 0 := by
  obtain ⟨verdict, session, -, started, problem, -⟩ := follows.cycle stands range live
    (!chronicle.consumer.auditor.config.verifiesOnlyAtExit)
  have consumed : (Session.drain drained).start chronicle.session = (.ok (), session) := by
    rw [Session.start_drain drained stands.strict]
    have started : (Session.cycle (!chronicle.session.consumer.config.verifiesOnlyAtExit)).start
      chronicle.session = (.ok verdict, session) := started
    rw [started]
    dsimp only
    rw [problem]
  have ran : (Chronicle.drain drained).start chronicle
      = (.ok (), chronicle.noted.resume session) := by
    rw [Chronicle.start_drain drained stands.strict, Chronicle.start_perform]
    have same : chronicle.noted.session = chronicle.session := rfl
    rw [same, consumed]
  have settles := Chronicle.settles_of_drain stands.strict ran
  obtain ⟨stood, unsealed, empty⟩ := stands.settle settles
  exact .of_start ran ⟨⟨stood, follows.settle stands range settles, unsealed⟩, empty⟩

end Draining

/-! ## Recording -/

section Recording

variable {id : LogId} {heap : Heap} {scene next : Scene} {pending : List Deed} {deed : Deed}
variable {chronicle : Chronicle} {log : Log}

theorem Stands.setLog (stands : Stands id heap chronicle) (sound : log.Sound)
    (base : log.base = (chronicle.bank.log id).base)
    (halfBytes : log.halfBytes = (chronicle.bank.log id).halfBytes)
    (opened : log.isClosed = false) : Stands id heap (chronicle.setLog id log) :=
  ⟨stands.strict, stands.instrumented, stands.selected, stands.unaided, stands.heap,
    stands.bank.modify sound base halfBytes opened, stands.registered, stands.snapshots⟩

theorem Stands.log_setLog (stands : Stands id heap chronicle) :
    (chronicle.setLog id log).bank.log id = log := by
  rw [Station.setLog, stands.ready.log_modify]

/-- Sealing the log changes nothing about what is in it. -/
theorem Stands.flip (stands : Stands id heap chronicle)
    (follows : Follows id scene pending chronicle)
    (unsealed : (chronicle.bank.log id).isSealed = false)
    (gains : (chronicle.bank.log id).Gains [] log) :
    Stands id heap (chronicle.setLog id log.flip)
      ∧ Follows id scene pending (chronicle.setLog id log.flip) := by
  have ready := stands.ready
  have opened : log.isClosed = false := by rw [gains.isClosed, ready.opened]
  have sound := gains.sound ready.soundLog (ready.soundLog.counted _)
  refine ⟨stands.setLog sound.flip ?_ ?_ ?_, ?_, follows.sound, follows.recalls, follows.reflects⟩
  · rw [Log.base_flip, gains.base]
  · rw [Log.halfBytes_flip, gains.halfBytes]
  · rw [Log.isClosed_flip, opened]
  · have held := follows.held
    rw [Log.segments_of_unsealed ready.opened unsealed] at held
    rw [stands.log_setLog, Log.segments_flip opened, gains.activeEvents, ← held]
    simp

/-- The record of a deed that the scene has gone through catches up with it. -/
theorem Stands.append (stands : Stands id heap chronicle)
    (follows : Follows id scene pending chronicle)
    (unsealed : (chronicle.bank.log id).isSealed = false) (does : scene.Does deed next)
    (gains : (chronicle.bank.log id).Gains [deed.stored] log)
    (fits : (chronicle.bank.log id).count.toNat + 1 ≤ (chronicle.bank.log id).capacity.toNat) :
    Stands id heap (chronicle.setLog id log)
      ∧ Follows id next (pending ++ [deed]) (chronicle.setLog id log)
      ∧ ((chronicle.setLog id log).bank.log id).isSealed = false := by
  have ready := stands.ready
  have opened : log.isClosed = false := by rw [gains.isClosed, ready.opened]
  have stillUnsealed : log.isSealed = false := by rw [gains.isSealed, unsealed]
  have stood := stands.setLog (gains.sound ready.soundLog fits) gains.base gains.halfBytes opened
  refine ⟨stood, ⟨?_, follows.sound.does does, follows.recalls.does follows.sound does, ?_⟩, ?_⟩
  · have held := follows.held
    rw [Log.segments_of_unsealed ready.opened unsealed] at held
    rw [stands.log_setLog, Log.segments_of_unsealed opened stillUnsealed, gains.activeEvents,
      List.map_append, ← held]
    simp
  · intro timely
    rw [does.range follows.sound] at timely
    rw [List.foldl_append]
    exact (follows.reflects timely).does follows.sound does
  · rw [stands.log_setLog]
    exact stillUnsealed

/-- The rule of storing, for the record of a deed that the scene has gone through. -/
theorem keeps (config : SessionConfig) (sound : scene.Sound) (does : scene.Does deed next) :
    (Chronicle.recorder config id).Keeps (.single deed.stored) False
      (fun chronicle => ∃ pending, Stands id next.heap chronicle
        ∧ Follows id scene pending chronicle ∧ (chronicle.bank.log id).isSealed = false)
      (fun chronicle => ∃ pending, Stands id next.heap chronicle
        ∧ Follows id scene pending chronicle)
      (fun chronicle => ∃ pending, Stands id next.heap chronicle
        ∧ Follows id next pending chronicle ∧ (chronicle.bank.log id).isSealed = false) where
  readyBefore := by
    rintro chronicle ⟨pending, stands, -⟩
    exact stands.ready
  readyAfter := by
    rintro chronicle ⟨pending, stands, -⟩
    exact stands.ready
  listed := by
    rintro - chronicle ⟨pending, stands, -⟩
    exact ⟨stands.mem_registered, stands.bank.known⟩
  spill := by
    rintro chronicle log ⟨pending, stands, follows, unsealed⟩ - gains
    exact ⟨pending, stands.flip follows unsealed gains⟩
  append := by
    rintro chronicle log ⟨pending, stands, follows, unsealed⟩ fits gains
    exact ⟨pending ++ [deed], stands.append follows unsealed does gains fits⟩
  handled := by
    rintro chronicle controller ⟨pending, stands, follows, unsealed⟩
    exact ⟨pending, ⟨stands.strict, stands.instrumented, stands.selected, stands.unaided,
      stands.heap, stands.bank, stands.registered, stands.snapshots⟩,
      ⟨follows.held, follows.sound, follows.recalls, follows.reflects⟩, unsealed⟩
  drain := by
    have range := does.range sound
    rintro chronicle (⟨pending, stands, follows, -⟩ | ⟨pending, stands, follows⟩)
    · exact (follows.drain stands range (sound.does does) id).mono
        fun _ _ drained => ⟨⟨[], drained.1⟩, drained.2⟩
    · exact (follows.drain stands range (sound.does does) id).mono
        fun _ _ drained => ⟨⟨[], drained.1⟩, drained.2⟩
  drainAfter := by
    rintro chronicle ⟨pending, stands, follows, -⟩
    exact (follows.drain stands rfl (sound.does does) id).mono
      fun _ _ drained => ⟨⟨[], drained.1⟩, drained.2⟩

end Recording

/-! ## Runs -/

/-- Between two steps the log leads from the table to the scene. -/
def Watched (id : LogId) (range : HeapRange) (trial : Trial) : Prop :=
  trial.scene.heap.range = range ∧ ∃ pending, Stands id trial.scene.heap trial.chronicle
    ∧ Follows id trial.scene pending trial.chronicle
    ∧ (trial.chronicle.bank.log id).isSealed = false

/-- The recording of a deed. -/
def record (id : LogId) (trial : Trial) (deed : Deed) : Work Chronicle Unit :=
  (Chronicle.recorder trial.chronicle.consumer.auditor.config id).record deed.kind deed.event

/-- **The steps of a run.**  The mutator does something to the heap and records it, an object
disappears, or the heap graph is verified. -/
inductive Step (id : LogId) : Trial → Trial → Prop where
  | record {trial : Trial} {deed : Deed} {scene : Scene} {reached : Chronicle} :
    trial.scene.Does deed scene →
    (trial.record id deed).start (trial.chronicle.withHeap scene.heap) = (.ok (), reached) →
    Step id trial ⟨reached, scene.occupied⟩
  | remove {trial : Trial} (address : UInt64) :
    Step id trial
      ⟨trial.chronicle.withHeap (trial.scene.remove address).heap, trial.occupied⟩
  | verify {trial : Trial} {verdict : Verdict} {reached : Chronicle} :
    Chronicle.verify.start trial.chronicle = (.ok verdict, reached) →
    Step id trial ⟨reached, trial.occupied⟩

/-- The states that steps lead to. -/
inductive Reachable (id : LogId) (start : Trial) : Trial → Prop where
  | start : Reachable id start start
  | step {trial next : Trial} : Reachable id start trial → Step id trial next →
    Reachable id start next

/-- A session with an empty chronicle, on a heap that was never used. -/
def ofSession (session : Session) : Trial where
  chronicle := ⟨session.bank, session.handled, { auditor := session.consumer }⟩

section Running

variable {id : LogId} {range : HeapRange} {trial next : Trial} {deed : Deed} {scene : Scene}

theorem Stands.withHeap {heap : Heap} {chronicle : Chronicle} (stands : Stands id heap chronicle)
    (changed : Heap) : Stands id changed (chronicle.withHeap changed) :=
  ⟨stands.strict, stands.instrumented, stands.selected, stands.unaided, rfl, stands.bank,
    stands.registered, stands.snapshots⟩

/-- **Recording a deed succeeds** and catches up with the heap. -/
theorem Watched.record (watched : Watched id range trial) (does : trial.scene.Does deed scene) :
    (trial.record id deed).Ends False (trial.chronicle.withHeap scene.heap) fun _ reached =>
      Watched id range ⟨reached, scene.occupied⟩ := by
  obtain ⟨kept, pending, stands, follows, unsealed⟩ := watched
  have drains : (Controller.mk 0 Chronicle.drain).drainer = Chronicle.drain := rfl
  have stored := Recorder.ends_store stands.instrumented (fun _ => rfl) drains
    (keeps trial.chronicle.consumer.auditor.config follows.sound does)
    ⟨pending, stands.withHeap scene.heap,
      ⟨follows.held, follows.sound, follows.recalls, follows.reflects⟩, unsealed⟩
  refine stored.mono ?_
  rintro - reached ⟨later, stood, followed, open_⟩
  have same : Trial.scene ⟨reached, scene.occupied⟩ = scene := by
    rw [Trial.scene, stood.heap]
  rw [Watched, same]
  exact ⟨(does.range follows.sound).trans kept, later, stood, followed, open_⟩

theorem Watched.remove (watched : Watched id range trial) (address : UInt64) :
    Watched id range ⟨trial.chronicle.withHeap (trial.scene.remove address).heap, trial.occupied⟩ := by
  obtain ⟨kept, pending, stands, follows, unsealed⟩ := watched
  refine ⟨kept, pending, stands.withHeap _, ⟨follows.held, follows.sound.remove address,
    follows.recalls.remove address, fun timely => ?_⟩, unsealed⟩
  have reflected := follows.reflects timely
  exact ⟨reflected.arrayBase, reflected.mirrored.remove address, reflected.recognized,
    reflected.resolved, reflected.copied⟩

/-- **Verifying succeeds**, and in timely cycles it finds the heap in the table. -/
theorem Watched.verify (watched : Watched id range trial) :
    Chronicle.verify.Ends False trial.chronicle fun verdict reached =>
      Watched id range ⟨reached, trial.occupied⟩ ∧ verdict.problem = none
      ∧ ((∀ batch ∈ reached.consumer.batches, batch.Timely range) →
        verdict.report.isValid = true
        ∧ verdict.report.objectsFound = trial.scene.heap.objects.size
        ∧ verdict.stats.unrecognized = 0 ∧ verdict.stats.unresolvedFieldSets = 0
        ∧ verdict.stats.unresolvedCopies = 0
        ∧ ∀ address object, trial.scene.heap.objects.find? address = some object →
          reached.consumer.auditor.table.find? address = some object.node) := by
  obtain ⟨kept, pending, stands, follows, unsealed⟩ := watched
  obtain ⟨verdict, session, inspection, started, problem, finished, validated, reported⟩ :=
    follows.cycle stands rfl follows.sound true
  have ran : Chronicle.verify.start trial.chronicle
      = (.ok verdict, trial.chronicle.noted.resume session) := by
    rw [Chronicle.start_verify, Chronicle.start_perform]
    have started : Session.verify.start trial.chronicle.noted.session = (.ok verdict, session) :=
      started
    rw [started]
  have settles := Chronicle.settles_of_verify ⟨_, finished⟩ ran
  obtain ⟨stood, opened, -⟩ := stands.settle settles
  have same : Trial.scene ⟨trial.chronicle.noted.resume session, trial.occupied⟩ = trial.scene := by
    rw [Trial.scene, stood.heap]
    rfl
  refine .of_start ran ⟨?_, problem, fun timely => ?_⟩
  · rw [Watched, same]
    exact ⟨kept, [], stood, follows.settle stands rfl settles, opened⟩
  · rw [settles.batches, ← kept] at timely
    obtain ⟨-, mirrored, stats, outcome, clean⟩ := follows.replayed stands rfl timely
    obtain ⟨found, valid, isValid, counted, -⟩ := mirrored.validate follows.sound
    obtain rfl : stats = verdict.stats := Except.ok.inj (outcome.symm.trans finished)
    obtain rfl : found = inspection := Except.ok.inj (valid.symm.trans validated)
    rw [reported rfl]
    refine ⟨isValid, counted, clean.1, clean.2.1, clean.2.2, fun address object present => ?_⟩
    rw [settles.table]
    exact mirrored.live address object present

theorem Watched.step (watched : Watched id range trial) (step : Step id trial next) :
    Watched id range next := by
  cases step with
  | record does recorded => exact (watched.record does).of_ok recorded
  | remove address => exact watched.remove address
  | verify verified => exact (watched.verify.of_ok verified).1

theorem Watched.reachable {start : Trial} (watched : Watched id range start)
    (reachable : Reachable id start trial) : Watched id range trial := by
  induction reachable with
  | start => exact watched
  | step _ step earlier => exact earlier.step step

/-- The run starts with an empty log, an empty table and an empty heap. -/
theorem Watched.start {memory : UInt64} {config : SessionConfig}
    (strict : config.checksLiveHeap = true) (instrumented : config.isInstrumented = true)
    (selected : config.subsystems.has .heap = true) (legible : range.Legible)
    {device : Option Device} {random : RandomSource} {session opened : Session}
    (created : Session.create memory config (.empty range) device random = .ok session)
    (started : Session.openRecorder.start session = (.ok id, opened)) :
    Watched id range (ofSession opened) := by
  obtain ⟨device, rfl⟩ := Session.create_eq_ok created
  obtain ⟨log, made, rfl, rfl⟩ := Session.openRecorder_eq_ok started
  obtain ⟨open_, unsealed, empty⟩ := Log.create_fresh made
  have none : ∀ member : LogId, member ∉ ([] : List LogId) := fun _ => List.not_mem_nil
  have bank : (Bank.empty memory).Orderly :=
    ⟨.empty memory, fun id member => absurd member (none id),
      fun id member => absurd member (none id), List.nodup_nil,
      fun id member => absurd member (none id), List.nodup_nil⟩
  have orderly := bank.enroll (bank.sound.add_create made) open_ false
  have here : ((Bank.empty memory).enroll log false).log 0 = log := Bank.log_enroll_self
  refine ⟨rfl, [], ⟨strict, instrumented, selected, rfl, rfl, orderly, rfl, rfl⟩,
    ⟨?_, ?_, .nil _, ?_⟩, ?_⟩
  · show (((Bank.empty memory).enroll log false).log 0).segments.flatten = []
    rw [here, Log.segments_of_unsealed open_ unsealed, empty]
    rfl
  · refine ⟨legible, Nat.le_refl _, legible.ordered, ?_, ?_, ?_, ?_⟩
    · exact fun tract member => absurd member List.not_mem_nil
    · exact fun tract member => absurd member List.not_mem_nil
    · intro address object found
      cases (WordMap.find?_empty address).symm.trans found
    · intro address object found
      cases (WordMap.find?_empty address).symm.trans found
  · intro timely
    refine ⟨rfl, ⟨fun address node found => ?_, fun address object found => ?_⟩, rfl, rfl, rfl⟩
    · cases (WordMap.find?_empty address).symm.trans found
    · cases (WordMap.find?_empty address).symm.trans found
  · show (((Bank.empty memory).enroll log false).log 0).isSealed = false
    rw [here, unsealed]

end Running

/-- **Recording is sound.**  Take a strict session with instrumentation that verifies the heap, over
a fresh heap in a legible range, on a machine with any memory, whatever the size of its logs and
however overflows are noticed.  After every run, recording the next deed succeeds, and so does
verifying.  If all cycles were timely, that of the verification included, the verdict is valid:
every object was found with its size, every reference with its value, every event was recognised and
every store resolved.  The table then has for each object a node with its kind, its size and its
references. -/
theorem recording_sound (memory : UInt64) (config : SessionConfig)
    (strict : config.checksLiveHeap = true) (instrumented : config.isInstrumented = true)
    (selected : config.subsystems.has .heap = true) (range : HeapRange) (legible : range.Legible)
    (device : Option Device) (random : RandomSource) (session opened : Session) (id : LogId)
    (created : Session.create memory config (.empty range) device random = .ok session)
    (started : Session.openRecorder.start session = (.ok id, opened)) (trial : Trial)
    (reachable : Reachable id (ofSession opened) trial) :
    (∀ deed scene, trial.scene.Does deed scene → ∃ reached,
      (trial.record id deed).start (trial.chronicle.withHeap scene.heap) = (.ok (), reached))
    ∧ ∃ verdict reached, Chronicle.verify.start trial.chronicle = (.ok verdict, reached)
      ∧ verdict.problem = none
      ∧ ((∀ batch ∈ reached.consumer.batches, batch.Timely range) →
        verdict.report.isValid = true
        ∧ verdict.report.objectsFound = trial.scene.heap.objects.size
        ∧ verdict.stats.unrecognized = 0 ∧ verdict.stats.unresolvedFieldSets = 0
        ∧ verdict.stats.unresolvedCopies = 0
        ∧ ∀ address object, trial.scene.heap.objects.find? address = some object →
          reached.consumer.auditor.table.find? address
            = some ⟨object.kind, object.size, object.slots⟩) := by
  have watched := (Watched.start strict instrumented selected legible created started).reachable
    reachable
  constructor
  · intro deed scene does
    obtain ⟨⟨⟩, reached, recorded, -⟩ := (watched.record does).succeeds
    exact ⟨reached, recorded⟩
  · obtain ⟨verdict, reached, verified, -, problem, sound⟩ := watched.verify.succeeds
    exact ⟨verdict, reached, verified, problem, sound⟩

/-- The start of a run in a session with the least logs that verifies the heap. -/
def small (range : HeapRange) : Trial :=
  ofSession (Session.openRecorder.start (.least (.add .empty .heap) range)).2

/-- A range of 256 megabytes. -/
def smallRange : HeapRange := ⟨0x10000000, 0x20000000⟩

/-- An object that refers to itself and is moved: the verdict is valid, and the node refers to where
the object went. -/
theorem recording_sound_moved :
    ∃ trial, Reachable 0 (small smallRange) trial ∧ ∃ verdict reached,
      Chronicle.verify.start trial.chronicle = (.ok verdict, reached)
        ∧ verdict.report.isValid = true ∧ verdict.report.objectsFound = 1
        ∧ reached.consumer.auditor.table.find? 0x10001000
          = some ⟨.newObject, 1, .insert ∅ 0 0x10001000⟩ := by
  have run : ∃ trial, Reachable 0 (small smallRange) trial
      ∧ (∀ batch ∈ trial.chronicle.consumer.batches ++ [Batch.ofBank trial.chronicle.bank],
        batch.Timely smallRange)
      ∧ trial.scene.heap.objects
        = .insert ∅ 0x10001000 ⟨.newObject, 1, [0], .insert ∅ 0 0x10001000⟩ := by
    have allocated : Reachable 0 (small smallRange) ⟨_, _⟩ := .step .start
      (.record (@Scene.Does.object _ _ _ 1 [0] 0x10000000 (by decide) (by decide) rfl) rfl)
    have stored : Reachable 0 (small smallRange) ⟨_, _⟩ := .step allocated
      (.record (@Scene.Does.store _ _ _ 0x10000000 0 0x10000000 (.inr (by decide)) rfl) rfl)
    have moved : Reachable 0 (small smallRange) ⟨_, _⟩ := .step stored
      (.record (@Scene.Does.move _ _ _ _ 0x10000000 0x10001000 rfl (by decide) (by decide) rfl) rfl)
    exact ⟨_, moved, by decide +kernel, by decide +kernel⟩
  obtain ⟨trial, reachable, timely, objects⟩ := run
  obtain ⟨-, verdict, reached, verified, -, sound⟩ := recording_sound 0x100000000
    (.least (.add .empty .heap)) rfl rfl rfl smallRange ⟨by decide, by decide, by decide⟩
    (some { capacity := 255 }) { byteAt := fun _ => 0 } (.least (.add .empty .heap) smallRange) _ 0
    rfl rfl trial reachable
  rw [← Chronicle.batches_verify, verified] at timely
  obtain ⟨valid, found, -, -, -, known⟩ := sound timely
  rw [objects] at found known
  exact ⟨trial, reachable, verdict, reached, verified, valid, found,
    known 0x10001000 _ (WordMap.find?_insert_self ..)⟩

/-- A range with room for more references than can be listed. -/
def wideRange : HeapRange := ⟨0x10000000000, 0x2000000000000⟩

/-- **What recording is not sound for.**  A store of the address that an object has left, in the cycle
of its only move, is retargeted although the heap keeps the address.  A move that wraps around the
words leads to an address that does not fit beside the tag of its event.  An array with more
references than can be listed aborts the verification. -/
theorem recording_sound_limits :
    (∃ trial, Reachable 0 (small smallRange) trial
      ∧ (∀ batch ∈ trial.chronicle.consumer.batches ++ [Batch.ofBank trial.chronicle.bank],
        (batch.frames smallRange).countP (fun frame => frame.kind = .moveObject) ≤ 1)
      ∧ (Chronicle.verify.start trial.chronicle).1.toOption.map Verdict.report
        = some { objectsFound := 1, fieldMismatches := 1 })
    ∧ (∃ placed moved recorded reached,
      (small smallRange).scene.heap.allocateObject 2 [] = (.ok 0x10000000, placed)
      ∧ ((small smallRange).record 0 (.allocate .newObject 2 0x10000000)).start
        ((small smallRange).chronicle.withHeap placed) = (.ok (), recorded)
      ∧ placed.move 0x10000000 0xfffffffffffffff8 = (.ok (), moved)
      ∧ ((small smallRange).record 0 (.move 0x10000000 0xfffffffffffffff8)).start
        (recorded.withHeap moved) = (.ok (), reached)
      ∧ (Chronicle.verify.start reached).1.toOption.map Verdict.report
        = some { objectsNotFound := 1 })
    ∧ ∃ grown recorded,
      (small wideRange).scene.heap.allocateArray 0x200000000000 = (.ok 0x10000000000, grown)
      ∧ ((small wideRange).record 0 (.allocate .newArray 0x200000000000 0x10000000000)).start
        ((small wideRange).chronicle.withHeap grown) = (.ok (), recorded)
      ∧ (Chronicle.verify.start recorded).1.toOption = none := by
  refine ⟨?_, ?_, ?_⟩
  · have allocated : Reachable 0 (small smallRange) ⟨_, _⟩ := .step .start
      (.record (@Scene.Does.object _ _ _ 1 [0] 0x10000000 (by decide) (by decide) rfl) rfl)
    have moved : Reachable 0 (small smallRange) ⟨_, _⟩ := .step allocated
      (.record (@Scene.Does.move _ _ _ _ 0x10000000 0x10001000 rfl (by decide) (by decide) rfl) rfl)
    have stored : Reachable 0 (small smallRange) ⟨_, _⟩ := .step moved
      (.record (@Scene.Does.store _ _ _ 0x10001000 0 0x10000000 (.inr (by decide)) rfl) rfl)
    exact ⟨_, stored, by decide +kernel, by decide +kernel⟩
  · exact ⟨_, _, _, _, rfl, rfl, rfl, rfl, by decide +kernel⟩
  · exact ⟨_, _, rfl, rfl, by decide +kernel⟩

end Trial

end HeapAudit
