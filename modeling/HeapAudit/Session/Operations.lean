import HeapAudit.Session.Cycle

/-!
# Working with a session

Recorders are opened and closed, full logs are drained, and the events that are not
drained yet can be dumped without draining them.
-/

namespace HeapAudit.Session

set_option autoImplicit false

/-! ## Draining -/

/-- Waits until the logs are transferred.  A transfer that fails ends the offload loop for good, and
whoever waits is called off. -/
def awaitTransfer : Work Session Unit := do
  let session ← get
  let auditor := session.consumer
  if auditor.loopFailure.isSome then throw (.refusal .cancelled)
  let (turn, coordinator) := auditor.coordinator.turn session.bank
  modifyAuditor fun auditor => { auditor with coordinator := coordinator }
  match turn with
  | .failed cause =>
    modifyAuditor fun auditor => { auditor with loopFailure := some cause }
    throw (.refusal .cancelled)
  | .idle | .worked _ => return

/-- Publishes the oldest segment of a log and signals the offload loop. -/
def signal (id : LogId) : Work Session Unit := do
  let session ← get
  let (outcome, coordinator) := session.consumer.coordinator.signalLog session.bank id
  modifyAuditor fun auditor => { auditor with coordinator := coordinator }
  match outcome with
  | .ok () => return
  | .error failure => throw failure

/-- **Consumes a full log.**  In strict mode all logs are replayed; else the log is handed over to
the device and reset. -/
def drain : Drainer Auditor := fun id => do
  let config := (← auditor).config
  if config.checksLiveHeap then
    match (← cycle (!config.verifiesOnlyAtExit)).problem with
    | some problem => throw (.refusal problem)
    | none => return
  else
    signal id
    if config.buildsGraph then awaitTransfer
    Station.modifyLog id Log.reset

/-! ## Recorders -/

/-- The controller of a session, the only one at its station. -/
def controller : Controller Auditor := ⟨0, drain⟩

/-- The recorder of a log. -/
def recorder (config : SessionConfig) (id : LogId) : Recorder Auditor where
  log := id
  isInstrumented := config.isInstrumented
  policy := config.policy
  drainer := drain
  handler := some controller.handle

/-- Creates and registers the log of a new mutator. -/
def openRecorder : Work Session LogId := do
  let session ← get
  let (outcome, bank) := session.bank.create session.consumer.config.logCapacity
  match outcome with
  | .error failure => throw failure
  | .ok id =>
    Station.modifyBank fun _ => bank.register id
    return id

/-- Closes the log of a mutator; a snapshot keeps its events. -/
def closeRecorder (id : LogId) : Work Session Unit := do
  let (outcome, bank) := (← get).bank.snapshot id
  Station.modifyBank fun _ => (bank.unregister id).modify id Log.close
  match outcome with
  | .error failure => throw failure
  | .ok _ => return

/-- Registers a verifier for a word of flags. -/
def addVerifier (flags : UInt64) (verifier : Verifier) : Work Session Unit :=
  modifyAuditor fun auditor =>
    { auditor with verifiers := auditor.verifiers ++ [(flags, verifier)] }

/-! ## Verification and overflow -/

/-- Verifies the heap graph. -/
def verify : Work Session Verdict := cycle true

/-- The signals that a faulting store raises. -/
def isFaultSignal (number : UInt64) : Bool := number = 11 || number = 7

/-- Handles a signal raised at an address; answers whether a guard page was hit. -/
def handleSignal (number address : UInt64) : Work Session Bool :=
  if isFaultSignal number then controller.handle address else return false

/-- Runs the offload loop for one turn.  In strict mode there is no loop to run. -/
def runLoop : Work Session Unit := do
  let session ← get
  if session.consumer.config.checksLiveHeap then throw (.refusal .cancelled)
  let (turn, coordinator) := session.consumer.coordinator.turn session.bank
  modifyAuditor fun auditor => { auditor with coordinator := coordinator }
  match turn with
  | .worked diagnostics => report diagnostics
  | .idle => return
  | .failed cause => throw (.refusal cause)

/-! ## Dumps -/

/-- The events of every open log that are not drained, by logs. -/
def pendingEvents (bank : Bank) : List (List Event) :=
  (openLogs bank).map fun id => (bank.log id).segments.flatten

/-- Writes the pending events into a dump file: its session and its bytes. -/
def dump : Work Session (Uuid × List UInt8) := do
  let session ← get
  let (outcome, random) :=
    Dump.save session.bank.memory (pendingEvents session.bank) session.consumer.random
  modifyAuditor fun auditor => { auditor with random := random }
  match outcome with
  | .ok saved => return saved
  | .error failure => throw failure

/-- Captures the pending events in memory. -/
def capture : Work Session Dump := do
  let session ← get
  let (outcome, random) :=
    Dump.capture session.bank.memory (pendingEvents session.bank) session.consumer.random
  modifyAuditor fun auditor => { auditor with random := random }
  match outcome with
  | .ok dump => return dump
  | .error failure => throw failure

end HeapAudit.Session
