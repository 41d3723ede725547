import HeapAudit.Audit.Validation
import Mathlib.Data.List.Count

/-!
# The verdict of a validation

A validation goes through the live objects and, of each one that has a node, through its reference
slots.  What it comes across is a list of findings that can be written down without counting
(`Validation.findings`): an object is found or missing, its size may differ, and each slot is as
recorded, missing, different, or null and never recorded.  A validation counts its findings one by
one (`Validation.validate_eq`), so that every count of the report is the number of findings with
that outcome (`Validation.count_foldl_record`).

The four outcomes that are problems are also reported, the first hundred of each
(`Validation.Inspection.Logged`).  A report is valid if there was no problem, which is the case
exactly if every live object agrees with its node (`Validation.isProblem_findings_iff`).
-/

namespace HeapAudit

set_option autoImplicit false

namespace Validation

/-! ## Outcomes -/

/-- What a report counts. -/
inductive Outcome where
  | objectFound
  | objectMissing
  | sizeMismatch
  | fieldFound
  | fieldMissing
  | fieldMismatch
  deriving DecidableEq

/-- Whether an outcome speaks against the shadow graph. -/
def Outcome.isProblem : Outcome → Bool
  | objectFound | fieldFound => false
  | objectMissing | sizeMismatch | fieldMissing | fieldMismatch => true

end Validation

open Validation (Outcome)

/-- The outcome that a diagnostic is about. -/
def Diagnostic.outcome? : Diagnostic → Option Outcome
  | objectMissing .. => some .objectMissing
  | sizeMismatch .. => some .sizeMismatch
  | fieldMissing .. => some .fieldMissing
  | fieldMismatch .. => some .fieldMismatch
  | validated .. | reconstructed .. | livenessCompared .. | copyFailed .. => none

namespace Report

/-- How often an outcome occurred. -/
def count (report : Report) : Outcome → Nat
  | .objectFound => report.objectsFound
  | .objectMissing => report.objectsNotFound
  | .sizeMismatch => report.sizeMismatches
  | .fieldFound => report.fieldsFound
  | .fieldMissing => report.fieldsNotFound
  | .fieldMismatch => report.fieldMismatches

/-- Counts an outcome. -/
def add (report : Report) : Outcome → Report
  | .objectFound => { report with objectsFound := report.objectsFound + 1 }
  | .objectMissing => { report with objectsNotFound := report.objectsNotFound + 1 }
  | .sizeMismatch => { report with sizeMismatches := report.sizeMismatches + 1 }
  | .fieldFound => { report with fieldsFound := report.fieldsFound + 1 }
  | .fieldMissing => { report with fieldsNotFound := report.fieldsNotFound + 1 }
  | .fieldMismatch => { report with fieldMismatches := report.fieldMismatches + 1 }

theorem count_add (report : Report) (outcome counted : Outcome) :
    (report.add counted).count outcome
      = report.count outcome + if counted = outcome then 1 else 0 := by
  cases counted <;> cases outcome <;> rfl

/-- **A report is valid** if it counts no problem. -/
theorem isValid_iff (report : Report) :
    report.isValid = true ↔ ∀ outcome : Outcome, outcome.isProblem = true →
      report.count outcome = 0 := by
  rw [isValid, Bool.and_eq_true, decide_eq_true_eq, decide_eq_true_eq, notFound, mismatches,
    Nat.add_eq_zero_iff, Nat.add_eq_zero_iff]
  constructor
  · rintro ⟨⟨objects, fields⟩, sizes, values⟩ outcome problem
    cases outcome with
    | objectFound | fieldFound => cases problem
    | objectMissing => exact objects
    | sizeMismatch => exact sizes
    | fieldMissing => exact fields
    | fieldMismatch => exact values
  · intro none
    exact ⟨⟨none .objectMissing rfl, none .fieldMissing rfl⟩,
      none .sizeMismatch rfl, none .fieldMismatch rfl⟩

end Report

namespace Validation

/-! ## Findings -/

/-- What a validation comes across. -/
inductive Finding where
  /-- An object has a node. -/
  | objectFound
  /-- The edge of a slot holds its reference. -/
  | fieldFound
  /-- A slot is null and has no edge. -/
  | fieldUnset
  /-- Something is missing or different. -/
  | problem (diagnostic : Diagnostic)

/-- The outcome that a finding counts as. -/
def Finding.outcome? : Finding → Option Outcome
  | objectFound => some .objectFound
  | fieldFound => some .fieldFound
  | fieldUnset => none
  | problem diagnostic => diagnostic.outcome?

/-- Whether a finding speaks against the shadow graph. -/
def Finding.isProblem (finding : Finding) : Bool :=
  match finding.outcome? with
  | none => false
  | some outcome => outcome.isProblem

/-- Takes a finding into account. -/
def Inspection.record (inspection : Inspection) (finding : Finding) : Inspection :=
  match finding.outcome? with
  | none => inspection
  | some outcome =>
    let report := inspection.report.add outcome
    match finding with
    | .problem diagnostic => inspection.note report (report.count outcome) diagnostic
    | _ => { inspection with report := report }

/-- What a slot comes to, given the node of its object. -/
def slotFinding (heap : Heap) (address : UInt64) (node : Node) (slot : UInt64 × UInt64) :
    Finding :=
  match node.edges.find? slot.1 with
  | none => if slot.2 = 0 then .fieldUnset else .problem (.fieldMissing address slot.1 slot.2)
  | some recorded =>
    if matchesLive heap slot.2 recorded then .fieldFound
    else .problem (.fieldMismatch address slot.1 slot.2 recorded)

/-- What the size of an object comes to. -/
def sizeFindings (address : UInt64) (object : HeapObject) (node : Node) : List Finding :=
  if node.size = object.size then []
  else [.problem (.sizeMismatch address object.kind object.size node.size)]

end Validation

/-- The reference slots of an object with their content.  An array that is too long for its slots
to be listed has none here. -/
def HeapObject.listedSlots (object : HeapObject) : List (UInt64 × UInt64) :=
  match object.references with
  | .ok slots => slots
  | .error _ => []

namespace Validation

/-- What an object comes to. -/
def objectFindings (heap : Heap) (table : Table) (entry : UInt64 × HeapObject) : List Finding :=
  match table.find? entry.1 with
  | none => [.problem (.objectMissing entry.1 entry.2.kind entry.2.size)]
  | some node =>
    .objectFound :: (sizeFindings entry.1 entry.2 node
      ++ entry.2.listedSlots.map (slotFinding heap entry.1 node))

/-- **What a validation comes across**, by increasing address. -/
def findings (heap : Heap) (table : Table) : List Finding :=
  heap.objects.entries.flatMap (objectFindings heap table)

/-! ## A validation counts its findings -/

variable {heap : Heap} {table : Table}

theorem checkReference_eq (heap : Heap) (address : UInt64) (node : Node) (inspection : Inspection)
    (slot : UInt64 × UInt64) :
    checkReference heap address node inspection slot
      = inspection.record (slotFinding heap address node slot) := by
  rw [checkReference, slotFinding]
  cases node.edges.find? slot.1 with
  | none => dsimp only; split <;> rfl
  | some recorded => dsimp only; split <;> rfl

theorem checkSize_eq (address : UInt64) (object : HeapObject) (node : Node)
    (inspection : Inspection) :
    checkSize address object node inspection
      = (sizeFindings address object node).foldl Inspection.record inspection := by
  rw [checkSize, sizeFindings]
  split <;> rfl

theorem checkObject_eq (heap : Heap) (table : Table) (inspection : Inspection)
    {entry : UInt64 × HeapObject} {slots : List (UInt64 × UInt64)}
    (listed : entry.2.references = .ok slots) :
    checkObject heap table inspection entry
      = .ok ((objectFindings heap table entry).foldl Inspection.record inspection) := by
  rw [checkObject, objectFindings, HeapObject.listedSlots]
  cases table.find? entry.1 with
  | none => rfl
  | some node =>
    simp only [listed, checkSize_eq, List.foldl_cons, List.foldl_append, List.foldl_map,
      ← checkReference_eq]
    rfl

theorem foldlM_checkObject_eq (heap : Heap) (table : Table) {entries : List (UInt64 × HeapObject)}
    (listable : ∀ entry ∈ entries, ∃ slots, entry.2.references = .ok slots)
    (inspection : Inspection) :
    entries.foldlM (checkObject heap table) inspection
      = .ok ((entries.flatMap (objectFindings heap table)).foldl Inspection.record
        inspection) := by
  induction entries generalizing inspection with
  | nil => rfl
  | cons entry rest onward =>
    obtain ⟨slots, listed⟩ := listable entry List.mem_cons_self
    rw [List.foldlM_cons, checkObject_eq heap table inspection listed, List.flatMap_cons,
      List.foldl_append]
    exact onward (fun other member => listable other (List.mem_cons_of_mem _ member)) _

/-- Only an array may have too many slots to be listed. -/
theorem references_eq_ok {object : HeapObject}
    (small : object.kind = .newArray → object.size ≤ HeapObject.maxReferences) :
    ∃ slots, object.references = .ok slots := by
  rw [HeapObject.references]
  split
  · exact ⟨_, rfl⟩
  · rename_i array
    rw [if_neg (UInt64.not_lt.mpr (small array))]
    exact ⟨_, rfl⟩
  · exact ⟨_, rfl⟩

/-- **A validation takes all findings into account.** -/
theorem validate_eq (table : Table)
    (small : ∀ object ∈ heap.objects.values, object.kind = .newArray →
      object.size ≤ HeapObject.maxReferences) :
    validate heap table
      = let reached := (findings heap table).foldl Inspection.record {}
        .ok { reached with
          diagnostics := reached.diagnostics ++ [.validated reached.report] } := by
  have listable : ∀ entry ∈ heap.objects.entries, ∃ slots, entry.2.references = .ok slots :=
    fun entry member => references_eq_ok (small entry.2 (List.mem_map_of_mem member))
  rw [validate, foldlM_checkObject_eq heap table listable]
  rfl

/-- The number of findings with an outcome. -/
def tally (outcome : Outcome) (findings : List Finding) : Nat :=
  findings.countP fun finding => finding.outcome? = some outcome

theorem count_record (inspection : Inspection) (finding : Finding) (outcome : Outcome) :
    (inspection.record finding).report.count outcome
      = inspection.report.count outcome + if finding.outcome? = some outcome then 1 else 0 := by
  rw [Inspection.record]
  cases counted : finding.outcome? with
  | none => rfl
  | some other =>
    have added := Report.count_add inspection.report outcome other
    simp only [Option.some.injEq]
    rw [← added]
    cases finding <;> rfl

/-- **Every count of the report** is the number of findings with that outcome. -/
theorem count_foldl_record (findings : List Finding) (inspection : Inspection)
    (outcome : Outcome) :
    (findings.foldl Inspection.record inspection).report.count outcome
      = inspection.report.count outcome + tally outcome findings := by
  induction findings generalizing inspection with
  | nil => rfl
  | cons finding rest onward =>
    rw [List.foldl_cons, onward, count_record, tally, tally, List.countP_cons]
    simp only [decide_eq_true_eq]
    omega

/-! ## What is reported -/

/-- The number of diagnostics about an outcome. -/
def logged (outcome : Outcome) (diagnostics : List Diagnostic) : Nat :=
  diagnostics.countP fun diagnostic => diagnostic.outcome? = some outcome

/-- **The invariant of reporting**: each problem is reported as long as there are no more than a
hundred of its kind. -/
def Inspection.Logged (inspection : Inspection) : Prop :=
  ∀ outcome : Outcome, outcome.isProblem = true →
    logged outcome inspection.diagnostics = min (inspection.report.count outcome) maxDiagnostics

/-- A finding that is no problem is counted in silence. -/
theorem Inspection.Logged.add {inspection : Inspection} (before : inspection.Logged)
    {counted : Outcome} (harmless : counted.isProblem = false) :
    Inspection.Logged { inspection with report := inspection.report.add counted } := by
  intro outcome problem
  have different : counted ≠ outcome := by
    rintro rfl
    rw [harmless] at problem
    cases problem
  rw [Report.count_add, if_neg different]
  exact before outcome problem

/-- A problem is counted and reported. -/
theorem Inspection.Logged.note {inspection : Inspection} (before : inspection.Logged)
    {diagnostic : Diagnostic} {counted : Outcome} (about : diagnostic.outcome? = some counted) :
    Inspection.Logged (inspection.note (inspection.report.add counted)
      ((inspection.report.add counted).count counted) diagnostic) := by
  intro outcome problem
  have reported := before outcome problem
  simp only [Inspection.note, Report.count_add, ↓reduceIte]
  by_cases same : counted = outcome
  · subst same
    rw [if_pos rfl]
    split
    · rw [logged, List.countP_append, ← logged, reported, List.countP_singleton]
      simp only [about, decide_true, ↓reduceIte]
      omega
    · rw [reported]
      omega
  · rw [if_neg same, Nat.add_zero (inspection.report.count outcome), ← reported]
    split
    · rw [logged, logged, List.countP_append, List.countP_singleton]
      simp [about, same]
    · rfl

theorem Inspection.Logged.record {inspection : Inspection} (before : inspection.Logged)
    (finding : Finding) : (inspection.record finding).Logged := by
  cases finding with
  | objectFound => exact before.add rfl
  | fieldFound => exact before.add rfl
  | fieldUnset => exact before
  | problem diagnostic =>
    rw [Inspection.record, Finding.outcome?]
    cases about : diagnostic.outcome? with
    | none => exact before
    | some counted => exact before.note about

theorem Inspection.Logged.foldl_record {inspection : Inspection} (before : inspection.Logged)
    (findings : List Finding) : (findings.foldl Inspection.record inspection).Logged := by
  induction findings generalizing inspection with
  | nil => exact before
  | cons finding rest onward => exact onward (before.record finding)

/-! ## What the findings say -/

/-- **A slot agrees with its node**: it is null and has no edge, or it has an edge with its
reference or with the former address of the object that it refers to. -/
def SlotAgrees (heap : Heap) (node : Node) (offset live : UInt64) : Prop :=
  node.edges.find? offset = none ∧ live = 0
    ∨ ∃ recorded, node.edges.find? offset = some recorded
      ∧ (recorded = live ∨ heap.forwardee? recorded = some live)

/-- **An object agrees with the shadow graph**: it has a node of its size with which all its
reference slots agree. -/
def ObjectAgrees (heap : Heap) (table : Table) (address : UInt64) (object : HeapObject) : Prop :=
  ∃ node, table.find? address = some node ∧ node.size = object.size
    ∧ ∀ slot ∈ object.listedSlots, SlotAgrees heap node slot.1 slot.2

theorem matchesLive_iff {live recorded : UInt64} :
    matchesLive heap live recorded = true
      ↔ recorded = live ∨ heap.forwardee? recorded = some live := by
  rw [matchesLive, Bool.or_eq_true, beq_iff_eq, beq_iff_eq, eq_comm]

theorem isProblem_slotFinding_iff {address : UInt64} {node : Node} {slot : UInt64 × UInt64} :
    (slotFinding heap address node slot).isProblem = false
      ↔ SlotAgrees heap node slot.1 slot.2 := by
  rw [slotFinding, SlotAgrees]
  cases node.edges.find? slot.1 with
  | none =>
    dsimp only
    split
    · rename_i null
      exact iff_of_true rfl (.inl ⟨rfl, null⟩)
    · rename_i stored
      refine iff_of_false nofun ?_
      rintro (⟨-, null⟩ | ⟨_, impossible, -⟩)
      · exact stored null
      · cases impossible
  | some recorded =>
    dsimp only
    split
    · rename_i meets
      exact iff_of_true rfl (.inr ⟨recorded, rfl, matchesLive_iff.mp meets⟩)
    · rename_i differs
      refine iff_of_false nofun ?_
      rintro (⟨impossible, -⟩ | ⟨_, same, meets⟩)
      · cases impossible
      · cases same
        exact differs (matchesLive_iff.mpr meets)

theorem isProblem_sizeFindings_iff {address : UInt64} {object : HeapObject} {node : Node} :
    (∀ finding ∈ sizeFindings address object node, finding.isProblem = false)
      ↔ node.size = object.size := by
  rw [sizeFindings]
  split
  · rename_i same
    exact iff_of_true (fun _ member => nomatch member) same
  · rename_i different
    exact iff_of_false (fun fine => nomatch fine _ (List.mem_singleton_self _)) different

/-- **An object without problem agrees with the shadow graph.** -/
theorem isProblem_objectFindings_iff {entry : UInt64 × HeapObject} :
    (∀ finding ∈ objectFindings heap table entry, finding.isProblem = false)
      ↔ ObjectAgrees heap table entry.1 entry.2 := by
  rw [objectFindings, ObjectAgrees]
  cases table.find? entry.1 with
  | none =>
    refine iff_of_false (fun fine => nomatch fine _ (List.mem_singleton_self _)) ?_
    rintro ⟨_, impossible, -⟩
    cases impossible
  | some node =>
    have found : Finding.objectFound.isProblem = false := rfl
    simp only [List.forall_mem_cons, List.forall_mem_append, List.forall_mem_map, found,
      true_and, isProblem_sizeFindings_iff, isProblem_slotFinding_iff, Option.some.injEq,
      exists_eq_left']

-- Decided by the findings: words are finitely many, so a slot could also be sought among all pairs.
instance (heap : Heap) (table : Table) (address : UInt64) (object : HeapObject) :
    Decidable (ObjectAgrees heap table address object) :=
  decidable_of_iff (∀ finding ∈ objectFindings heap table (address, object),
    finding.isProblem = false) isProblem_objectFindings_iff

theorem isProblem_findings_iff :
    (∀ finding ∈ findings heap table, finding.isProblem = false)
      ↔ ∀ address object, heap.objects.find? address = some object →
        ObjectAgrees heap table address object := by
  rw [findings, List.forall_mem_flatMap]
  constructor
  · intro fine address object found
    exact isProblem_objectFindings_iff.mp (fine (address, object) (WordMap.mem_entries.mpr found))
  · intro agree entry member
    exact isProblem_objectFindings_iff.mpr
      (agree entry.1 entry.2 (WordMap.mem_entries.mp member))

theorem tally_eq_zero_iff {findings : List Finding} :
    (∀ outcome : Outcome, outcome.isProblem = true → tally outcome findings = 0)
      ↔ ∀ finding ∈ findings, finding.isProblem = false := by
  simp only [tally, List.countP_eq_zero, decide_eq_true_eq, Finding.isProblem]
  constructor
  · intro none finding member
    cases counted : finding.outcome? with
    | none => rfl
    | some outcome =>
      refine Bool.eq_false_iff.mpr fun problem => ?_
      exact none outcome problem finding member counted
  · intro none outcome problem finding member counted
    have fine := none finding member
    rw [counted] at fine
    exact Bool.eq_false_iff.mp fine problem

/-! ## How many findings there are -/

theorem tally_append (outcome : Outcome) (first second : List Finding) :
    tally outcome (first ++ second) = tally outcome first + tally outcome second :=
  List.countP_append

theorem tally_cons (outcome : Outcome) (finding : Finding) (rest : List Finding) :
    tally outcome (finding :: rest)
      = tally outcome rest + if finding.outcome? = some outcome then 1 else 0 := by
  rw [tally, tally, List.countP_cons]
  simp only [decide_eq_true_eq]

theorem tally_sizeFindings {outcome : Outcome} (other : outcome ≠ .sizeMismatch)
    (address : UInt64) (object : HeapObject) (node : Node) :
    tally outcome (sizeFindings address object node) = 0 := by
  rw [sizeFindings]
  split
  · rfl
  · rw [tally_cons, Finding.outcome?, Diagnostic.outcome?, if_neg (by simpa using other.symm)]
    rfl

/-- A slot with its node, null and without an edge. -/
def isUnset (known : Node × UInt64 × UInt64) : Bool :=
  (known.1.edges.find? known.2.1).isNone && known.2.2 = 0

/-- A slot is null without an edge, or it is counted once. -/
theorem slotFinding_cases (heap : Heap) (address : UInt64) (node : Node) (slot : UInt64 × UInt64) :
    isUnset (node, slot) = true ∧ slotFinding heap address node slot = .fieldUnset
      ∨ isUnset (node, slot) = false
        ∧ (slotFinding heap address node slot).outcome?
          ∈ [some .fieldFound, some .fieldMissing, some .fieldMismatch] := by
  rw [slotFinding, isUnset]
  cases node.edges.find? slot.1 with
  | none =>
    by_cases null : slot.2 = 0
    · exact .inl (by simp [null])
    · exact .inr (by simp [null, Finding.outcome?, Diagnostic.outcome?])
  | some recorded =>
    refine .inr ⟨rfl, ?_⟩
    dsimp only
    split <;> simp [Finding.outcome?, Diagnostic.outcome?]

theorem tally_slots (heap : Heap) (address : UInt64) (node : Node)
    (slots : List (UInt64 × UInt64)) :
    let findings := slots.map (slotFinding heap address node)
    tally .objectFound findings = 0 ∧ tally .objectMissing findings = 0
      ∧ tally .fieldFound findings + tally .fieldMissing findings + tally .fieldMismatch findings
        + (slots.map (node, ·)).countP isUnset = (slots.map (node, ·)).length := by
  induction slots with
  | nil => exact ⟨rfl, rfl, rfl⟩
  | cons slot rest onward =>
    obtain ⟨found, missing, fields⟩ := onward
    simp only [List.map_cons, tally_cons, List.countP_cons, List.length_cons]
    rcases slotFinding_cases heap address node slot with ⟨unset, finding⟩ | ⟨unset, outcome⟩
    · simp only [unset, finding, Finding.outcome?, reduceCtorEq, ↓reduceIte]
      omega
    · simp only [List.mem_cons, List.not_mem_nil, or_false] at outcome
      rcases outcome with outcome | outcome | outcome
      all_goals
        simp only [unset, outcome, Option.some.injEq, reduceCtorEq, Bool.false_eq_true, ↓reduceIte]
        omega

/-- The reference slots of an object, each with the node of the object, if it has one. -/
def entrySlots (table : Table) (entry : UInt64 × HeapObject) : List (Node × UInt64 × UInt64) :=
  match table.find? entry.1 with
  | none => []
  | some node => entry.2.listedSlots.map (node, ·)

/-- The reference slots of all objects that have a node. -/
def knownSlots (heap : Heap) (table : Table) : List (Node × UInt64 × UInt64) :=
  heap.objects.entries.flatMap (entrySlots table)

/-- **An object is counted once**, and so is each of its slots that is not null without an edge. -/
theorem tally_objectFindings (heap : Heap) (table : Table) (entry : UInt64 × HeapObject) :
    let findings := objectFindings heap table entry
    tally .objectFound findings + tally .objectMissing findings = 1
      ∧ tally .fieldFound findings + tally .fieldMissing findings + tally .fieldMismatch findings
        + (entrySlots table entry).countP isUnset = (entrySlots table entry).length := by
  rw [objectFindings, entrySlots]
  cases table.find? entry.1 with
  | none => exact ⟨rfl, rfl⟩
  | some node =>
    obtain ⟨found, missing, fields⟩ := tally_slots heap entry.1 node entry.2.listedSlots
    have size {outcome : Outcome} (other : outcome ≠ .sizeMismatch) :=
      tally_sizeFindings other entry.1 entry.2 node
    simp only [tally_cons, tally_append, Finding.outcome?, Option.some.injEq, reduceCtorEq,
      ↓reduceIte, size, ne_eq, not_false_eq_true]
    omega

theorem tally_entries (heap : Heap) (table : Table) (entries : List (UInt64 × HeapObject)) :
    let findings := entries.flatMap (objectFindings heap table)
    let slots := entries.flatMap (entrySlots table)
    tally .objectFound findings + tally .objectMissing findings = entries.length
      ∧ tally .fieldFound findings + tally .fieldMissing findings + tally .fieldMismatch findings
        + slots.countP isUnset = slots.length := by
  induction entries with
  | nil => exact ⟨rfl, rfl⟩
  | cons entry rest onward =>
    obtain ⟨objects, fields⟩ := onward
    obtain ⟨object, own⟩ := tally_objectFindings heap table entry
    simp only [List.flatMap_cons, tally_append, List.countP_append, List.length_append,
      List.length_cons]
    omega

/-! ## The verdict -/

/-- **The verdict of a validation is sound and complete.**  If no array has more elements than can
be listed, then a validation succeeds, and its report is valid exactly if every live object agrees
with the shadow graph.  Every live object is counted as found or as missing, and every reference
slot of an object that was found is counted once, as found, missing or different, unless it is null
and has no edge.  Each kind of problem is reported as often as it was counted, up to a hundred
times. -/
theorem verdict_sound_and_complete (heap : Heap) (table : Table)
    (small : ∀ object ∈ heap.objects.values, object.kind = .newArray →
      object.size ≤ HeapObject.maxReferences) :
    ∃ inspection, validate heap table = .ok inspection
      ∧ (inspection.report.isValid = true
        ↔ ∀ address object, heap.objects.find? address = some object →
          ObjectAgrees heap table address object)
      ∧ inspection.report.objectsFound + inspection.report.objectsNotFound = heap.objects.size
      ∧ inspection.report.fieldsFound + inspection.report.fieldsNotFound
          + inspection.report.fieldMismatches + (knownSlots heap table).countP isUnset
        = (knownSlots heap table).length
      ∧ ∀ outcome : Outcome, outcome.isProblem = true →
        logged outcome inspection.diagnostics
          = min (inspection.report.count outcome) maxDiagnostics := by
  have counted : ∀ outcome,
      ((findings heap table).foldl Inspection.record {}).report.count outcome
        = tally outcome (findings heap table) := by
    intro outcome
    rw [count_foldl_record]
    cases outcome <;> exact Nat.zero_add _
  obtain ⟨objects, fields⟩ := tally_entries heap table heap.objects.entries
  refine ⟨_, validate_eq table small, ?_, ?_, ?_, ?_⟩
  · rw [Report.isValid_iff, ← isProblem_findings_iff, ← tally_eq_zero_iff]
    refine forall_congr' fun outcome => imp_congr_right fun _ => ?_
    rw [← counted]
  · rw [← WordMap.length_entries, ← objects]
    exact congrArg₂ _ (counted .objectFound) (counted .objectMissing)
  · rw [knownSlots, ← fields]
    refine congrArg (· + _) (congrArg₂ _ (congrArg₂ _ ?_ ?_) ?_)
    · exact counted .fieldFound
    · exact counted .fieldMissing
    · exact counted .fieldMismatch
  · intro outcome problem
    have start : Inspection.Logged {} := by
      intro outcome _
      cases outcome <;> rfl
    have reported := start.foldl_record (findings heap table) outcome problem
    rw [← reported, logged, List.countP_append]
    rfl

/-- An instance that refers to an array, which then moved; the other field is null. -/
def movedArray : Heap :=
  let instanced := ((Heap.empty ⟨0x1000, 0x2000⟩).allocateObject 2 [0, 8]).2
  let placed := (instanced.place 0x1800 .newArray 1 []).2
  let moved := (placed.move 0x1800 0x1010).2
  (moved.set 0x1000 0 0x1010).2

/-- What is recorded of it before the move is known: the field still holds the former address. -/
def formerAddress : Table :=
  (((Table.empty 16).insert 0x1000 .newObject 2).insert 0x1010 .newArray 1).setEdge 0x1000 0 0x1800

theorem verdict_sound_and_complete_moved :
    (∀ object ∈ movedArray.objects.values, object.kind = .newArray →
      object.size ≤ HeapObject.maxReferences)
      ∧ (∃ inspection, validate movedArray formerAddress = .ok inspection
        ∧ inspection.report.isValid = true ∧ logged .objectMissing inspection.diagnostics = 0)
      ∧ ∃ inspection, validate movedArray (.empty 16) = .ok inspection
        ∧ ¬ inspection.report.isValid = true := by
  have small : ∀ object ∈ movedArray.objects.values, object.kind = .newArray →
      object.size ≤ HeapObject.maxReferences := by decide +kernel
  have agree : ∀ entry ∈ movedArray.objects.entries,
      ObjectAgrees movedArray formerAddress entry.1 entry.2 := by decide +kernel
  have stands : ∃ object, movedArray.objects.find? 0x1010 = some object :=
    Option.isSome_iff_exists.mp (by decide +kernel)
  refine ⟨small, ?_, ?_⟩
  · obtain ⟨inspection, validated, valid, -, -, reported⟩ :=
      verdict_sound_and_complete movedArray formerAddress small
    have fine := valid.mpr fun address object found =>
      agree (address, object) (WordMap.mem_entries.mpr found)
    refine ⟨inspection, validated, fine, ?_⟩
    rw [reported .objectMissing rfl, (Report.isValid_iff _).mp fine .objectMissing rfl]
    rfl
  · obtain ⟨inspection, validated, valid, -⟩ :=
      verdict_sound_and_complete movedArray (.empty 16) small
    refine ⟨inspection, validated, fun fine => ?_⟩
    obtain ⟨object, found⟩ := stands
    obtain ⟨node, impossible, -⟩ := valid.mp fine 0x1010 object found
    cases impossible

end Validation

end HeapAudit
