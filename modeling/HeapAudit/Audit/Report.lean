/-!
# The counts of a validation

A validation compares live objects with shadow nodes and live reference slots with
shadow edges.  Its report counts every outcome; the shadow graph is valid if nothing
was missing and nothing differed.
-/

namespace HeapAudit

set_option autoImplicit false

/-- How often each outcome of a validation occurred. -/
structure Report where
  objectsFound : Nat := 0
  objectsNotFound : Nat := 0
  sizeMismatches : Nat := 0
  fieldsFound : Nat := 0
  fieldsNotFound : Nat := 0
  fieldMismatches : Nat := 0
  deriving DecidableEq, Inhabited

namespace Report

/-- The objects and fields found in the shadow graph. -/
def found (report : Report) : Nat := report.objectsFound + report.fieldsFound

/-- The objects and fields missing in the shadow graph. -/
def notFound (report : Report) : Nat := report.objectsNotFound + report.fieldsNotFound

/-- The sizes and fields that differ from the live heap. -/
def mismatches (report : Report) : Nat := report.sizeMismatches + report.fieldMismatches

/-- Whether the shadow graph agrees with the live heap. -/
def isValid (report : Report) : Bool := report.notFound = 0 && report.mismatches = 0

end Report

end HeapAudit
