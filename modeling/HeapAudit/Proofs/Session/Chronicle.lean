import HeapAudit.Proofs.Recording.Erasure
import HeapAudit.Proofs.Session.Cycle

/-!
# Sessions with a chronicle

Which events a session replayed, and when, cannot be read off its state: a cycle empties
the logs.  A chronicled session is a session whose auditor also writes down, before every
cycle, the segments that the cycle is about to replay, by logs.

The chronicle is written by an observer.  Forgetting it turns every operation into that of
the session (`Chronicle.mirrors_answer`, `Chronicle.mirrors_verify` and
`Chronicle.mirrors_perform`), so a statement about the chronicle of all runs is one about
all runs of sessions.
-/

namespace HeapAudit

set_option autoImplicit false

/-- The segments that one cycle replays, by logs. -/
abbrev Batch := List (LogId × List (List Event))

/-- The segments of the open logs of a bank. -/
def Batch.ofBank (bank : Bank) : Batch :=
  (Session.openLogs bank).map fun id => (id, (bank.log id).segments)

/-- The segments of a batch are what a cycle replays. -/
theorem Batch.flatMap_ofBank (bank : Bank) :
    (ofBank bank).flatMap Prod.snd = Session.pendingSegments bank := by
  rw [ofBank, List.flatMap_map]
  rfl

/-- An auditor with its chronicle. -/
structure Chronicler where
  auditor : Auditor
  /-- The batches replayed so far, in order. -/
  batches : List Batch := []

/-- A session with its chronicle. -/
abbrev Chronicle := Station Chronicler

namespace Chronicle

variable {α : Type}

/-- The session without its chronicle. -/
def session : Chronicle → Session := Station.mapConsumer Chronicler.auditor

/-- The same chronicle for another session. -/
def resume (chronicle : Chronicle) (session : Session) : Chronicle :=
  ⟨session.bank, session.handled, ⟨session.consumer, chronicle.consumer.batches⟩⟩

/-- The chronicle after what the next cycle replays was written down. -/
def noted (chronicle : Chronicle) : Chronicle :=
  { chronicle with consumer := { chronicle.consumer with
      batches := chronicle.consumer.batches ++ [Batch.ofBank chronicle.bank] } }

/-- Writes down what the next cycle replays. -/
def note : Work Chronicle Unit := modify noted

/-- Performs work of the session. -/
def perform (work : Work Session α) : Work Chronicle α := do
  let chronicle ← get
  let (outcome, reached) := work.start chronicle.session
  modify fun _ => chronicle.resume reached
  match outcome with
  | .ok value => return value
  | .error failure => throw failure

/-- Consumes a full log; in strict mode this starts a cycle. -/
def drain : Drainer Chronicler := fun id => do
  let config := (← get).consumer.auditor.config
  if config.checksLiveHeap then note
  perform (Session.drain id)

/-- The recorder of a log. -/
def recorder (config : SessionConfig) (id : LogId) : Recorder Chronicler where
  log := id
  isInstrumented := config.isInstrumented
  policy := config.policy
  drainer := drain
  handler := some (Controller.handle ⟨0, drain⟩)

/-- Verifies the heap graph. -/
def verify : Work Chronicle Verdict := do
  note
  perform Session.verify

theorem start_perform (work : Work Session α) (chronicle : Chronicle) :
    (perform work).start chronicle
      = ((work.start chronicle.session).1,
        chronicle.resume (work.start chronicle.session).2) := by
  rw [perform, Work.start_bind, Work.start_get]
  dsimp only
  cases outcome : work.start chronicle.session with
  | mk result reached =>
    cases result <;> rfl

/-- Work of a session is performed on the session, and the chronicle stays as it is. -/
theorem perform_eq {work : Work Session α} {chronicle reached : Chronicle}
    {outcome : Except Failure α} (started : (perform work).start chronicle = (outcome, reached)) :
    ∃ session, work.start chronicle.session = (outcome, session)
      ∧ reached = chronicle.resume session := by
  rw [start_perform] at started
  obtain ⟨rfl, rfl⟩ := Prod.mk.inj started
  exact ⟨_, rfl, rfl⟩

theorem start_verify (chronicle : Chronicle) :
    verify.start chronicle = (perform Session.verify).start chronicle.noted := by
  rw [verify, Work.start_bind]
  rfl

/-- A verification adds what it replays to the chronicle. -/
theorem batches_verify (chronicle : Chronicle) :
    (verify.start chronicle).2.consumer.batches
      = chronicle.consumer.batches ++ [Batch.ofBank chronicle.bank] := by
  rw [start_verify, start_perform]
  rfl

theorem start_drain {chronicle : Chronicle} (id : LogId)
    (strict : chronicle.consumer.auditor.config.checksLiveHeap = true) :
    (drain id).start chronicle = (perform (Session.drain id)).start chronicle.noted := by
  rw [drain, Work.start_bind, Work.start_get]
  dsimp only
  rw [if_pos strict]
  rfl

/-! ## Forgetting the chronicle -/

theorem mirrors_perform (work : Work Session α) : (perform work).Mirrors session work := by
  intro chronicle
  rw [start_perform]
  rfl

/-- A chronicled verification is that of the session. -/
theorem mirrors_verify : verify.Mirrors session Session.verify := by
  intro chronicle
  rw [start_verify]
  exact mirrors_perform Session.verify chronicle.noted

theorem mirrors_drain : Drainer.Mirrors Chronicler.auditor drain Session.drain := by
  intro id chronicle
  by_cases strict : chronicle.consumer.auditor.config.checksLiveHeap = true
  · rw [start_drain id strict]
    exact mirrors_perform (Session.drain id) (noted chronicle)
  · have started : (drain id).start chronicle = (perform (Session.drain id)).start chronicle := by
      rw [drain, Work.start_bind, Work.start_get]
      dsimp only
      rw [if_neg strict]
    rw [started]
    exact mirrors_perform (Session.drain id) chronicle

/-- A chronicled recorder is the recorder of the session. -/
theorem mirrors_answer (config : SessionConfig) (id : LogId) (call : Call) :
    ((recorder config id).answer call).Mirrors session
      ((Session.recorder config id).answer call) := by
  have mirrors : (recorder config id).Mirrors Chronicler.auditor (Session.recorder config id) :=
    ⟨rfl, rfl, rfl, mirrors_drain, _, _, rfl, rfl, Controller.mirrors_handle mirrors_drain 0⟩
  exact Recorder.mirrors_answer mirrors call

/-! ## Chronicled cycles -/

/-- What a cycle whose replay is not stopped leaves behind. -/
structure Settles (chronicle reached : Chronicle) : Prop where
  bank : reached.bank = chronicle.bank.drained
  batches : reached.consumer.batches = chronicle.consumer.batches ++ [Batch.ofBank chronicle.bank]
  table : reached.consumer.auditor.table = (Session.replayed chronicle.session).table
  config : reached.consumer.auditor.config = chronicle.consumer.auditor.config
  heap : reached.consumer.auditor.heap = chronicle.consumer.auditor.heap
  verifiers : reached.consumer.auditor.verifiers = chronicle.consumer.auditor.verifiers

theorem Settles.of_sameGround {chronicle : Chronicle} {session : Session}
    (ground : Session.SameGround (Session.settle chronicle.session) session) :
    Settles chronicle (chronicle.noted.resume session) := by
  obtain ⟨diagnostics, calls, rfl⟩ := ground
  exact ⟨rfl, rfl, rfl, rfl, rfl, rfl⟩

/-- In strict mode a drain that succeeds is a cycle. -/
theorem settles_of_drain {chronicle reached : Chronicle} {id : LogId}
    (strict : chronicle.consumer.auditor.config.checksLiveHeap = true)
    (started : (drain id).start chronicle = (.ok (), reached)) : Settles chronicle reached := by
  rw [start_drain id strict] at started
  obtain ⟨session, drained, rfl⟩ := perform_eq started
  exact .of_sameGround (Session.sameGround_of_drain strict drained)

/-- A verification settles the session, whatever it finds. -/
theorem settles_of_verify {chronicle reached : Chronicle} {outcome : Except Failure Verdict}
    (replays : Session.Replays chronicle.session)
    (started : verify.start chronicle = (outcome, reached)) : Settles chronicle reached := by
  rw [start_verify] at started
  obtain ⟨session, verified, rfl⟩ := perform_eq started
  exact .of_sameGround (Session.sameGround_of_replays replays verified)

end Chronicle

/-! ## A small session -/

/-- Strict mode with the least logs, guarded by pages. -/
def SessionConfig.least (subsystems : SubsystemSet) : SessionConfig where
  isInstrumented := true
  checksLiveHeap := true
  buildsGraph := false
  usesGuardPages := true
  verifiesOnlyAtExit := false
  logCapacity := 1
  overflowCheck := .checkBefore
  subsystems := subsystems
  copyLimit := 0

/-- A session in that mode, over a heap without objects, on a machine with four gigabytes. -/
def Session.least (subsystems : SubsystemSet) (range : HeapRange) : Session where
  bank := .empty 0x100000000
  consumer := {
    config := .least subsystems
    heap := .empty range
    table := .empty HeapObject.arrayBase
    coordinator := { buildsGraph := false, device := { capacity := 255 } }
    random := { byteAt := fun _ => 0 } }

end HeapAudit
