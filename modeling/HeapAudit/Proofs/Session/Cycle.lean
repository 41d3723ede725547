import HeapAudit.Proofs.Session.Registry

/-!
# What a cycle does

A cycle hands the open logs to the replay, drains them, and then only looks around: the
checks behind the replay change nothing but what was reported and which verifiers were
called (`Session.inspects_inspect`).  So what is left of a session after a cycle whose replay
succeeds is known in advance (`Session.settle`), whatever the checks find.
-/

namespace HeapAudit

set_option autoImplicit false

/-! ## Inspection -/

namespace Session

variable {α β : Type}

/-- A session that differs from another one only in what was reported and in the verifiers that
were called. -/
def SameGround (session reached : Session) : Prop :=
  ∃ diagnostics calls, reached = { session with
    consumer := { session.consumer with diagnostics := diagnostics, verifierCalls := calls } }

theorem SameGround.refl (session : Session) : SameGround session session := ⟨_, _, rfl⟩

theorem SameGround.trans {session between reached : Session} (first : SameGround session between)
    (second : SameGround between reached) : SameGround session reached := by
  obtain ⟨diagnostics, calls, rfl⟩ := first
  obtain ⟨later, laterCalls, rfl⟩ := second
  exact ⟨later, laterCalls, rfl⟩

/-- Work that only looks around. -/
def Inspects (work : Work Session α) : Prop :=
  ∀ session, SameGround session (work.start session).2

namespace Inspects

theorem pure (value : α) : Inspects (Pure.pure value) := fun session => .refl session

theorem throw (failure : Failure) : Inspects (MonadExcept.throw failure : Work Session α) :=
  fun session => .refl session

theorem auditor : Inspects Session.auditor := fun session => .refl session

theorem report (diagnostics : List Diagnostic) : Inspects (Session.report diagnostics) :=
  fun _ => ⟨_, _, rfl⟩

theorem bind {work : Work Session α} {next : α → Work Session β} (first : Inspects work)
    (second : ∀ value, Inspects (next value)) : Inspects (work >>= next) := by
  intro session
  have reached := first session
  rw [Work.start_bind]
  cases outcome : work.start session with
  | mk result between =>
    rw [outcome] at reached
    cases result with
    | error failure => exact reached
    | ok value => exact reached.trans (second value between)

theorem ite (condition : Prop) [Decidable condition] {work other : Work Session α}
    (first : Inspects work) (second : Inspects other) :
    Inspects (if condition then work else other) := by
  split
  · exact first
  · exact second

end Inspects

theorem inspects_verifyHeap (verdict : Verdict) : Inspects (verifyHeap verdict) := by
  refine .bind .auditor fun auditor => ?_
  cases Validation.validate auditor.heap auditor.table with
  | error halt => exact .bind (.report _) fun _ => .throw _
  | ok inspection => exact .bind (.report _) fun _ => .pure _

theorem inspects_verifyThreads (verdict : Verdict) : Inspects (verifyThreads verdict) :=
  .bind .auditor fun _ => .bind (.report _) fun _ => .pure _

theorem inspects_callVerifiers (verifiers : List Verifier) : Inspects (callVerifiers verifiers) := by
  induction verifiers with
  | nil => exact .pure none
  | cons verifier rest onward =>
    refine .bind (fun session => ⟨_, _, rfl⟩) fun _ => ?_
    cases verifier.problem with
    | some problem => exact .pure _
    | none => exact onward

theorem inspects_verifyExternal (subsystems : List Subsystem) (verdict : Verdict) :
    Inspects (verifyExternal verdict subsystems) := by
  induction subsystems generalizing verdict with
  | nil => exact .pure verdict
  | cons subsystem rest onward =>
    refine .bind .auditor fun auditor => .ite _ (onward verdict) ?_
    refine .bind (inspects_callVerifiers _) fun found => ?_
    cases found with
    | some problem => exact .pure _
    | none => exact onward _

theorem inspects_verifySelected (verdict : Verdict) : Inspects (verifySelected verdict) := by
  refine .bind .auditor fun auditor => ?_
  have threads : ∀ verdict : Verdict, Inspects (do
      let verdict ← if auditor.config.subsystems.has .threads then verifyThreads verdict
        else pure verdict
      verifyExternal verdict Subsystem.external) := fun verdict =>
    .ite _ (.bind (inspects_verifyThreads verdict) (inspects_verifyExternal _))
      (.bind (.pure verdict) (inspects_verifyExternal _))
  exact .ite _ (.bind (inspects_verifyHeap verdict) threads) (.bind (.pure verdict) threads)

/-! ## Cycles -/

/-- The segments of the open logs, in the order in which a cycle replays them. -/
def pendingSegments (bank : Bank) : List (List Event) :=
  (openLogs bank).flatMap fun id => (bank.log id).segments

/-- The replay of the open logs. -/
def replayed (session : Session) : Replay.Replayed :=
  Replay.run (replayConfig session.consumer) session.consumer.table (pendingSegments session.bank)

/-- The replay of the open logs is not stopped. -/
def Replays (session : Session) : Prop := ∃ stats, (replayed session).outcome = .ok stats

/-- The session after its open logs were replayed and drained. -/
def settle (session : Session) : Session :=
  { session with
    bank := session.bank.drained
    consumer := { session.consumer with table := (replayed session).table } }

/-- What a cycle does after replaying and draining a number of logs. -/
def inspect (verifies : Bool) (count : Nat) (stats : Replay.Stats) : Work Session Verdict := do
  report [.reconstructed count stats]
  let verdict : Verdict := { stats := stats, digest := (← auditor).table.digest }
  if verifies then verifySelected verdict else return verdict

theorem inspects_inspect (verifies : Bool) (count : Nat) (stats : Replay.Stats) :
    Inspects (inspect verifies count stats) :=
  .bind (.report _) fun _ => .bind .auditor fun _ => .ite _ (inspects_verifySelected _) (.pure _)

theorem start_reconstruct (session : Session) :
    (reconstruct (openLogs session.bank)).start session
      = ((replayed session).outcome.mapError .abort, { session with
          consumer := { session.consumer with table := (replayed session).table } }) := by
  rw [reconstruct, Work.start_bind, Work.start_get]
  have run : Replay.run (replayConfig session.consumer) session.consumer.table
      ((openLogs session.bank).flatMap fun id => (session.bank.log id).segments)
        = replayed session := rfl
  simp only [run]
  cases (replayed session).outcome <;> rfl

/-- A cycle whose replay is not stopped settles the session and inspects it. -/
theorem start_cycle {session : Session} {stats : Replay.Stats} (verifies : Bool)
    (finished : (replayed session).outcome = .ok stats) :
    (cycle verifies).start session
      = (inspect verifies (openLogs session.bank).length stats).start (settle session) := by
  rw [cycle, Work.start_bind, Work.start_get]
  dsimp only
  rw [Work.start_bind, start_reconstruct, finished]
  rfl

/-- A cycle whose replay is stopped fails. -/
theorem start_cycle_of_error {session : Session} {cause : Cause} (verifies : Bool)
    (stopped : (replayed session).outcome = .error cause) :
    ((cycle verifies).start session).1 = .error (.abort cause) := by
  rw [cycle, Work.start_bind, Work.start_get]
  dsimp only
  rw [Work.start_bind, start_reconstruct, stopped]
  rfl

/-- A cycle whose replay is not stopped settles the session, apart from what it reports. -/
theorem sameGround_of_replays {session reached : Session} {outcome : Except Failure Verdict}
    {verifies : Bool} (replays : Replays session)
    (started : (cycle verifies).start session = (outcome, reached)) :
    SameGround (settle session) reached := by
  obtain ⟨stats, finished⟩ := replays
  have ground := inspects_inspect verifies (openLogs session.bank).length stats (settle session)
  rw [← start_cycle verifies finished, started] at ground
  exact ground

/-- The replay of a cycle that succeeds is not stopped. -/
theorem replays_of_cycle {session reached : Session} {verdict : Verdict} {verifies : Bool}
    (started : (cycle verifies).start session = (.ok verdict, reached)) : Replays session := by
  cases outcome : (replayed session).outcome with
  | ok stats => exact ⟨stats, outcome⟩
  | error cause =>
    have failed := start_cycle_of_error verifies outcome
    rw [started] at failed
    cases failed

/-! ## Cycles that find nothing -/

theorem start_verifyExternal {session : Session} (none : session.consumer.verifiers = [])
    (verdict : Verdict) (subsystems : List Subsystem) :
    (verifyExternal verdict subsystems).start session = (.ok verdict, session) := by
  induction subsystems with
  | nil => rfl
  | cons subsystem rest onward =>
    have read : auditor.start session = (.ok session.consumer, session) := rfl
    rw [verifyExternal, Work.start_bind, read]
    dsimp only
    rw [none, if_pos (by simp), onward]

theorem start_verifyHeap {session : Session} {inspection : Validation.Inspection}
    (validated : Validation.validate session.consumer.heap session.consumer.table
      = .ok inspection) (verdict : Verdict) :
    (verifyHeap verdict).start session
      = (.ok { verdict with
          report := inspection.report
          verified := verdict.verified.add .heap },
        ((report inspection.diagnostics).start session).2) := by
  have read : auditor.start session = (.ok session.consumer, session) := rfl
  rw [verifyHeap, Work.start_bind, read]
  dsimp only
  rw [validated]
  rfl

/-- Without verifiers, going through the subsystems finds no problem, and the report is that of the
validation. -/
theorem ends_verifySelected {session : Session} {inspection : Validation.Inspection}
    (none : session.consumer.verifiers = [])
    (selected : session.consumer.config.subsystems.has .heap = true)
    (validated : Validation.validate session.consumer.heap session.consumer.table
      = .ok inspection) (verdict : Verdict) :
    (verifySelected verdict).Ends False session fun found _ => found.problem = verdict.problem
      ∧ found.stats = verdict.stats ∧ found.report = inspection.report := by
  have read : auditor.start session = (.ok session.consumer, session) := rfl
  refine .pass read ?_
  dsimp only
  rw [if_pos selected]
  refine .pass (start_verifyHeap validated verdict) ?_
  split
  · refine .pass rfl ?_
    exact .of_start (start_verifyExternal (by exact none) _ _) ⟨rfl, rfl, rfl⟩
  · refine .pass rfl ?_
    exact .of_start (start_verifyExternal (by exact none) _ _) ⟨rfl, rfl, rfl⟩

/-- **A cycle without verifiers succeeds** if its replay is not stopped and its validation does not
fail. -/
theorem ends_cycle {session : Session} {stats : Replay.Stats}
    {inspection : Validation.Inspection} (verifies : Bool)
    (finished : (replayed session).outcome = .ok stats)
    (none : session.consumer.verifiers = [])
    (selected : session.consumer.config.subsystems.has .heap = true)
    (validated : Validation.validate session.consumer.heap (replayed session).table
      = .ok inspection) :
    (cycle verifies).Ends False session fun verdict _ => verdict.problem = Option.none
      ∧ verdict.stats = stats ∧ (verifies = true → verdict.report = inspection.report) := by
  rw [Work.Ends, start_cycle verifies finished]
  refine Work.Ends.pass rfl (Work.Ends.pass rfl ?_)
  split
  · refine (ends_verifySelected (by exact none) (by exact selected) (by exact validated) _).mono ?_
    rintro verdict reached ⟨problem, counted, reported⟩
    exact ⟨problem, counted, fun _ => reported⟩
  · rename_i skipped
    exact .of_start (Work.start_pure ..) ⟨rfl, rfl, fun verified => absurd verified skipped⟩

/-- In strict mode a full log is consumed by a cycle, and a problem that it finds is a failure. -/
theorem start_drain {session : Session} (id : LogId)
    (strict : session.consumer.config.checksLiveHeap = true) :
    (drain id).start session
      = match (cycle (!session.consumer.config.verifiesOnlyAtExit)).start session with
        | (.ok verdict, reached) =>
          (match verdict.problem with
            | some problem => .error (.refusal problem)
            | none => .ok (), reached)
        | (.error failure, reached) => (.error failure, reached) := by
  have read : auditor.start session = (.ok session.consumer, session) := rfl
  rw [drain, Work.start_bind, read]
  dsimp only
  rw [if_pos strict, Work.start_bind]
  cases (cycle (!session.consumer.config.verifiesOnlyAtExit)).start session with
  | mk outcome reached =>
    cases outcome with
    | error failure => rfl
    | ok verdict =>
      dsimp only
      cases verdict.problem <;> rfl

/-- In strict mode, consuming a full log settles the session if it succeeds. -/
theorem sameGround_of_drain {session reached : Session} {id : LogId}
    (strict : session.consumer.config.checksLiveHeap = true)
    (started : (drain id).start session = (.ok (), reached)) :
    SameGround (settle session) reached := by
  rw [start_drain id strict] at started
  split at started
  · rename_i verdict after ran
    obtain ⟨-, rfl⟩ := Prod.mk.inj started
    exact sameGround_of_replays (replays_of_cycle ran) ran
  · cases started

end Session

end HeapAudit
