import HeapAudit.Session.Basic

/-!
# Verification cycles

A cycle replays all open logs into the shadow table and drains them: a snapshot is
released and any other log reset.  If it is to verify, it then goes through the
selected subsystems.  The heap is validated, threads are checked by reachability,
and the others are left to registered verifiers, the first of which to find a
problem ends the cycle.
-/

namespace HeapAudit

set_option autoImplicit false

/-- What a cycle found. -/
structure Verdict where
  stats : Replay.Stats
  digest : UInt64
  report : Report := {}
  liveness : Reachability.Difference := {}
  verified : SubsystemSet := .empty
  /-- The problem that ended the cycle. -/
  problem : Option Cause := none
  deriving DecidableEq

namespace Session

/-- Replays the open logs into the table; a replay that is stopped aborts the cycle. -/
def reconstruct (logs : List LogId) : Work Session Replay.Stats := do
  let session ← get
  let auditor := session.consumer
  let segments := logs.flatMap fun id => (session.bank.log id).segments
  let replayed := Replay.run (replayConfig auditor) auditor.table segments
  modifyAuditor fun auditor => { auditor with table := replayed.table }
  match replayed.outcome with
  | .error cause => throw (.abort cause)
  | .ok stats => return stats

/-- Drains a replayed log: a snapshot is released, any other log reset. -/
def drainReplayed (bank : Bank) (id : LogId) : Bank :=
  if bank.isSnapshot id then bank.release id else bank.modify id Log.reset

/-- Validates the heap. -/
def verifyHeap (verdict : Verdict) : Work Session Verdict := do
  let auditor ← auditor
  match Validation.validate auditor.heap auditor.table with
  | .error halt =>
    report halt.reached.diagnostics
    throw (.abort halt.cause)
  | .ok inspection =>
    report inspection.diagnostics
    return { verdict with
      report := inspection.report
      verified := verdict.verified.add .heap }

/-- Compares reachability with the mark bits. -/
def verifyThreads (verdict : Verdict) : Work Session Verdict := do
  let auditor ← auditor
  let reached := Reachability.mark auditor.table auditor.heap.roots
  let difference := Reachability.compare reached auditor.heap
  report [.livenessCompared difference.markedNotReached.length difference.reachedNotMarked.length]
  return { verdict with
    liveness := difference
    verified := verdict.verified.add .threads }

/-- Calls verifiers in turn until one finds a problem. -/
def callVerifiers : List Verifier → Work Session (Option String)
  | [] => return none
  | verifier :: rest => do
    modifyAuditor fun auditor =>
      { auditor with verifierCalls := auditor.verifierCalls ++ [verifier.name] }
    match verifier.problem with
    | some problem => return some problem
    | none => callVerifiers rest

/-- Goes through subsystems with registered verifiers until one has a problem. -/
def verifyExternal (verdict : Verdict) : List Subsystem → Work Session Verdict
  | [] => return verdict
  | subsystem :: rest => do
    let auditor ← auditor
    let verifiers := (auditor.verifiers.filter fun entry => entry.1 = subsystem.flag).map (·.2)
    if !auditor.config.subsystems.has subsystem || verifiers.isEmpty then
      verifyExternal verdict rest
    else
      match ← callVerifiers verifiers with
      | some problem =>
        return { verdict with problem := some (.verificationFailed subsystem.name problem) }
      | none => verifyExternal { verdict with verified := verdict.verified.add subsystem } rest

/-- Goes through the selected subsystems. -/
def verifySelected (verdict : Verdict) : Work Session Verdict := do
  let selected := (← auditor).config.subsystems
  let verdict ← if selected.has .heap then verifyHeap verdict else pure verdict
  let verdict ← if selected.has .threads then verifyThreads verdict else pure verdict
  verifyExternal verdict Subsystem.external

/-- **A verification cycle.** -/
def cycle (verifies : Bool) : Work Session Verdict := do
  let logs := openLogs (← get).bank
  let stats ← reconstruct logs
  Station.modifyBank fun bank => logs.foldl drainReplayed bank
  report [.reconstructed logs.length stats]
  let verdict : Verdict := { stats := stats, digest := (← auditor).table.digest }
  if verifies then verifySelected verdict else return verdict

end Session

end HeapAudit
