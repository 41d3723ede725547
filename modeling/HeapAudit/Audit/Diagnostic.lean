import HeapAudit.Audit.Report
import HeapAudit.Event.Kind
import HeapAudit.Failure
import HeapAudit.Replay.Run

/-!
# Diagnostics

What the library reports while it works.  A diagnostic has a level, a message and
named fields with textual values; addresses are written in hexadecimal and numbers
in decimal.
-/

namespace HeapAudit

set_option autoImplicit false

/-- How serious a diagnostic is. -/
inductive Level where
  | info
  | warn
  | error
  deriving DecidableEq

/-- Something worth reporting. -/
inductive Diagnostic where
  /-- A live object has no node. -/
  | objectMissing (address : UInt64) (kind : Kind) (size : UInt64)
  /-- A live object and its node differ in size. -/
  | sizeMismatch (address : UInt64) (kind : Kind) (size shadowSize : UInt64)
  /-- A live reference has no edge. -/
  | fieldMissing (address offset value : UInt64)
  /-- A live reference and its edge differ. -/
  | fieldMismatch (address offset value shadowValue : UInt64)
  /-- A validation is complete. -/
  | validated (report : Report)
  /-- A number of logs has been replayed. -/
  | reconstructed (logs : Nat) (stats : Replay.Stats)
  /-- Reachability has been compared with the mark bits. -/
  | livenessCompared (markedNotReached reachedNotMarked : Nat)
  /-- Events could not be copied to the device. -/
  | copyFailed (cause : Cause)
  deriving DecidableEq

namespace Diagnostic

/-- The level of a diagnostic. -/
def level : Diagnostic → Level
  | objectMissing .. | sizeMismatch .. | fieldMissing .. | fieldMismatch .. => .warn
  | validated .. | reconstructed .. | livenessCompared .. => .info
  | copyFailed .. => .error

/-- The message of a diagnostic. -/
def message : Diagnostic → String
  | objectMissing .. => "Object not found in shadow graph"
  | sizeMismatch .. => "Object size mismatch"
  | fieldMissing .. => "Field not found in shadow graph"
  | fieldMismatch .. => "Field value mismatch"
  | validated .. => "Shadow graph validated"
  | reconstructed .. => "Shadow graph reconstructed"
  | livenessCompared .. => "Shadow graph liveness compared"
  | copyFailed .. => "Copying events to device failed"

/-- The fields of a diagnostic. -/
def fields : Diagnostic → List (String × String)
  | objectMissing address kind size =>
    [("address", Hex.ofWord address), ("kind", kind.name), ("size", toString size.toNat)]
  | sizeMismatch address kind size shadowSize =>
    [("address", Hex.ofWord address), ("kind", kind.name), ("size", toString size.toNat),
      ("shadowSize", toString shadowSize.toNat)]
  | fieldMissing address offset value =>
    [("address", Hex.ofWord address), ("offset", toString offset.toNat),
      ("value", Hex.ofWord value)]
  | fieldMismatch address offset value shadowValue =>
    [("address", Hex.ofWord address), ("offset", toString offset.toNat),
      ("value", Hex.ofWord value), ("shadowValue", Hex.ofWord shadowValue)]
  | validated report =>
    [("objectsFound", toString report.objectsFound),
      ("objectsNotFound", toString report.objectsNotFound),
      ("sizeMismatches", toString report.sizeMismatches),
      ("fieldsFound", toString report.fieldsFound),
      ("fieldsNotFound", toString report.fieldsNotFound),
      ("fieldMismatches", toString report.fieldMismatches)]
  | reconstructed logs stats =>
    [("logs", toString logs), ("events", toString stats.events), ("nodes", toString stats.nodes),
      ("edges", toString stats.edges), ("unrecognized", toString stats.unrecognized),
      ("unresolvedFieldSets", toString stats.unresolvedFieldSets),
      ("unresolvedCopies", toString stats.unresolvedCopies), ("moves", toString stats.moves),
      ("cleared", toString stats.cleared)]
  | livenessCompared markedNotReached reachedNotMarked =>
    [("markedNotReached", toString markedNotReached),
      ("reachedNotMarked", toString reachedNotMarked)]
  | copyFailed cause => [("error", cause.message)]

end Diagnostic

end HeapAudit
