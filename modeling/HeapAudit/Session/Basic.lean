import HeapAudit.Audit.Reachability
import HeapAudit.Audit.Validation
import HeapAudit.Dump.Format
import HeapAudit.Offload.Coordinator
import HeapAudit.Recording.Recorder
import HeapAudit.Shadow.Digest
import HeapAudit.Subsystem

/-!
# Audit sessions

A session ties everything together: mutators record into the logs of its station,
and the auditor is the consumer of full logs.  In strict mode the auditor replays
the logs into its shadow table and checks the result against the live heap; else it
hands the events over to a device.
-/

namespace HeapAudit

set_option autoImplicit false

/-- The choices made for a session. -/
structure SessionConfig where
  /-- Whether events are recorded at all. -/
  isInstrumented : Bool
  /-- Strict mode: full logs are replayed and checked against the live heap. -/
  checksLiveHeap : Bool
  /-- Whether whole logs are transferred to the device and producers wait for that. -/
  buildsGraph : Bool
  /-- Whether full logs are noticed by faults on guard pages. -/
  usesGuardPages : Bool
  /-- Whether full logs are replayed without being checked. -/
  verifiesOnlyAtExit : Bool
  /-- The least number of events in each half of a log. -/
  logCapacity : UInt64
  /-- How full logs are noticed without guard pages. -/
  overflowCheck : OverflowPolicy
  /-- The subsystems to verify. -/
  subsystems : SubsystemSet
  /-- The greatest length of an array copy; zero stands for no limit. -/
  copyLimit : UInt64
  deriving DecidableEq

/-- The policy of all recorders of a session. -/
def SessionConfig.policy (config : SessionConfig) : OverflowPolicy :=
  if config.usesGuardPages then .guardPage else config.overflowCheck

/-- A check of a subsystem that the audit does not know itself: its name and the problem it finds,
if any. -/
structure Verifier where
  name : String
  problem : Option String
  deriving DecidableEq

/-- What the auditor keeps. -/
structure Auditor where
  config : SessionConfig
  heap : Heap
  table : Table
  coordinator : Coordinator
  /-- The registered verifiers with the flags they were registered for, in order. -/
  verifiers : List (UInt64 × Verifier) := []
  /-- Why the offload loop ended, if it did. -/
  loopFailure : Option Cause := none
  random : RandomSource
  /-- What was reported so far, in order. -/
  diagnostics : List Diagnostic := []
  /-- The names of the verifiers called so far, in order. -/
  verifierCalls : List String := []

/-- A session: a station whose consumer is the auditor. -/
abbrev Session := Station Auditor

namespace Session

/-- Opens a session on a heap, on a machine with the given memory.  Without a device of its own,
events go to one whose buffers hold as many events as a half of a log. -/
def create (memory : UInt64) (config : SessionConfig) (heap : Heap) (device : Option Device)
    (random : RandomSource) : Except Failure Session := do
  if config.logCapacity = 0 then throw (.refusal .emptyLog)
  if config.buildsGraph && config.checksLiveHeap then throw (.refusal .deviceGraphChecked)
  let device ← match device with
    | some device => pure device
    | none => (Device.create (Log.capacityFor config.logCapacity)).mapError .abort
  return {
    bank := .empty memory
    consumer := {
      config := config
      heap := heap
      table := .empty HeapObject.arrayBase
      coordinator := { buildsGraph := config.buildsGraph, device := device }
      random := random } }

/-- The auditor. -/
def auditor : Work Session Auditor := do return (← get).consumer

/-- Changes the auditor. -/
def modifyAuditor (change : Auditor → Auditor) : Work Session Unit :=
  modify fun session => { session with consumer := change session.consumer }

/-- Reports diagnostics. -/
def report (diagnostics : List Diagnostic) : Work Session Unit :=
  modifyAuditor fun auditor =>
    { auditor with diagnostics := auditor.diagnostics ++ diagnostics }

/-- The registered logs that are open, the oldest first. -/
def openLogs (bank : Bank) : List LogId :=
  bank.registered.filter fun id => !(bank.log id).isClosed

/-- The configuration of a replay against the live heap. -/
def replayConfig (auditor : Auditor) : Replay.Config where
  range := auditor.heap.range
  referenceOffsets? := auditor.heap.referenceOffsets?
  copyLimit := auditor.config.copyLimit

end Session

end HeapAudit
