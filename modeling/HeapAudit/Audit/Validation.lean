import HeapAudit.Audit.Diagnostic
import HeapAudit.Heap.Basic
import HeapAudit.Shadow.Table

/-!
# Validating the shadow graph against the live heap

A validation walks the live heap once, by address.  Every object must have a node
of its size, and every reference slot an edge with the live reference in it.  A
null slot needs no edge, and an edge to the former address of a moved object counts
as an edge to the object.  Of each kind of problem the first hundred are reported.
-/

namespace HeapAudit.Validation

set_option autoImplicit false

/-- How many problems of each kind are reported. -/
def maxDiagnostics : Nat := 100

/-- The state of a validation. -/
structure Inspection where
  report : Report := {}
  diagnostics : List Diagnostic := []
  deriving DecidableEq, Inhabited

/-- A validation that was stopped, with the state it had reached. -/
structure Halt where
  cause : Cause
  reached : Inspection

namespace Inspection

/-- Takes the counts on and reports a problem unless `count` problems are too many. -/
def note (inspection : Inspection) (report : Report) (count : Nat) (diagnostic : Diagnostic) :
    Inspection where
  report := report
  diagnostics :=
    if count ≤ maxDiagnostics then inspection.diagnostics ++ [diagnostic]
    else inspection.diagnostics

end Inspection

/-- Whether a recorded reference stands for a live one: it is the same, or the object moved from
the recorded address to the live one. -/
def matchesLive (heap : Heap) (live recorded : UInt64) : Bool :=
  live == recorded || heap.forwardee? recorded == some live

/-- Compares one reference slot with the edge recorded for it. -/
def checkReference (heap : Heap) (address : UInt64) (node : Node) (inspection : Inspection)
    (slot : UInt64 × UInt64) : Inspection :=
  let (offset, live) := slot
  let report := inspection.report
  match node.edges.find? offset with
  | none =>
    if live = 0 then inspection
    else
      let count := report.fieldsNotFound + 1
      inspection.note { report with fieldsNotFound := count } count
        (.fieldMissing address offset live)
  | some recorded =>
    if matchesLive heap live recorded then
      { inspection with report := { report with fieldsFound := report.fieldsFound + 1 } }
    else
      let count := report.fieldMismatches + 1
      inspection.note { report with fieldMismatches := count } count
        (.fieldMismatch address offset live recorded)

/-- Compares the size of an object with that of its node. -/
def checkSize (address : UInt64) (object : HeapObject) (node : Node) (inspection : Inspection) :
    Inspection :=
  if node.size = object.size then inspection
  else
    let count := inspection.report.sizeMismatches + 1
    inspection.note { inspection.report with sizeMismatches := count } count
      (.sizeMismatch address object.kind object.size node.size)

/-- Compares one object with its node. -/
def checkObject (heap : Heap) (table : Table) (inspection : Inspection)
    (entry : UInt64 × HeapObject) : Except Halt Inspection :=
  let (address, object) := entry
  let report := inspection.report
  match table.find? address with
  | none =>
    let count := report.objectsNotFound + 1
    .ok (inspection.note { report with objectsNotFound := count } count
      (.objectMissing address object.kind object.size))
  | some node =>
    let sized := checkSize address object node
      { inspection with report := { report with objectsFound := report.objectsFound + 1 } }
    match object.references with
    | .error cause => .error ⟨cause, sized⟩
    | .ok references => .ok (references.foldl (checkReference heap address node) sized)

/-- **Compares every live object with the shadow graph.** -/
def validate (heap : Heap) (table : Table) : Except Halt Inspection :=
  (heap.objects.entries.foldlM (checkObject heap table) {}).map fun inspection =>
    { inspection with
      diagnostics := inspection.diagnostics ++ [.validated inspection.report] }

end HeapAudit.Validation
