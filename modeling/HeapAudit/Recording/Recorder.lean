import HeapAudit.Recording.Station

/-!
# Recorders

A recorder appends the events of one mutator to its log.  A full log is noticed in
one of three ways: by the fault of a store that hits the guard page, by a check
before each append, or by a check after it.  In all cases the log is drained and
recording goes on.
-/

namespace HeapAudit

set_option autoImplicit false

/-- How a full log is noticed. -/
inductive OverflowPolicy where
  /-- A store into the guard page faults. -/
  | guardPage
  /-- The log is drained before an append that would not fit. -/
  | checkBefore
  /-- The log is also drained after an append that leaves no room for a pair. -/
  | checkAfter
  deriving DecidableEq

/-- The policy with a number; numbers without a policy of their own check before appending. -/
def OverflowPolicy.ofNumber (number : Int) : OverflowPolicy :=
  if number = 0 then guardPage else if number = 2 then checkAfter else checkBefore

/-- What is recorded at once: one stored event, or one with its operand. -/
inductive Record where
  | single (event : Event)
  | pair (event operand : Event)
  deriving DecidableEq

namespace Record

/-- The number of slots. -/
def size : Record → UInt64
  | single _ => 1
  | pair _ _ => 2

/-- The stored slots, in order. -/
def slots : Record → List Event
  | single event => [event]
  | pair event operand => [event, operand]

/-- Appends the slots to a log. -/
def appendTo (record : Record) (log : Log) : Except Log.Fault Unit × Log :=
  match record with
  | single event => log.append event
  | pair event operand => log.appendPair event operand

end Record

/-- The recorder of one mutator. -/
structure Recorder (δ : Type) where
  log : LogId
  /-- Whether events are recorded at all. -/
  isInstrumented : Bool
  policy : OverflowPolicy
  drainer : Drainer δ
  /-- Consulted about faults; without it every fault is final. -/
  handler : Option (FaultHandler δ)

namespace Recorder

variable {δ : Type}

/-- The number of slots that every drain must leave free. -/
def reserve : UInt64 := 2

/-- Appends to the log; answers the fault if there is one. -/
def tryAppend (recorder : Recorder δ) (record : Record) :
    Work (Station δ) (Except Log.Fault Unit) := do
  let (outcome, log) := record.appendTo (← Station.log recorder.log)
  Station.modifyLog recorder.log fun _ => log
  return outcome

/-- Appends to the log; a fault is final. -/
def append (recorder : Recorder δ) (record : Record) : Work (Station δ) Unit := do
  match ← recorder.tryAppend record with
  | .ok () => return
  | .error _ => throw .fault

/-- Drains the log, after which there must be room for a pair. -/
def drain (recorder : Recorder δ) : Work (Station δ) Unit := do
  Station.escalating (recorder.drainer recorder.log)
  if (← Station.log recorder.log).room < reserve then throw (.abort .stillFull)

/-- Appends and leaves a full log to the fault handler, after which the append is repeated. -/
def storeGuarded (recorder : Recorder δ) (record : Record) : Work (Station δ) Unit := do
  match ← recorder.tryAppend record with
  | .ok () => return
  | .error fault =>
    let handled ← match recorder.handler with
      | some handler => handler fault.address
      | none => pure false
    if handled then recorder.append record else throw .fault

/-- Drains the log if the append would not fit, appends, and under the policy of checking after
drains a log without room for a pair.  One drain is enough: it leaves room for a pair or fails. -/
def storeChecked (recorder : Recorder δ) (record : Record) : Work (Station δ) Unit := do
  if (← Station.log recorder.log).room < record.size then recorder.drain
  recorder.append record
  if recorder.policy = .checkAfter then
    if (← Station.log recorder.log).room < reserve then recorder.drain

/-- Stores the slots of a record. -/
def store (recorder : Recorder δ) (record : Record) : Work (Station δ) Unit :=
  if recorder.isInstrumented then
    match recorder.policy with
    | .guardPage => recorder.storeGuarded record
    | .checkBefore | .checkAfter => recorder.storeChecked record
  else pure ()

/-- **Records an event.** -/
def record (recorder : Recorder δ) (kind : Kind) (event : Event) : Work (Station δ) Unit :=
  recorder.store (.single (event.encode kind))

/-- **Records an event and its operand in consecutive slots.** -/
def recordPair (recorder : Recorder δ) (kind : Kind) (event : Event) (operandKind : Kind)
    (operand : Event) : Work (Station δ) Unit :=
  recorder.store (.pair (event.encode kind) (operand.encode operandKind))

/-- Records a number of events whose words grow in steps. -/
def recordRun (recorder : Recorder δ) (kind : Kind) (step : Event) :
    Event → Nat → Work (Station δ) Unit
  | _, 0 => pure ()
  | event, count + 1 => do
    recorder.record kind event
    recorder.recordRun kind step ⟨event.src + step.src, event.dst + step.dst⟩ count

end Recorder

end HeapAudit
