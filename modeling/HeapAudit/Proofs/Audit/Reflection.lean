import HeapAudit.Proofs.Audit.Verdict
import HeapAudit.Proofs.Heap.Scene

/-!
# Tables that reflect a heap

A table mirrors a scene (`Scene.Mirrored`) if it knows every object with its kind, its size and
its references, and if whatever else it knows was there once.  The second part is what makes
looking for a slot exact: no node lies between an object and one of its slots.

Following a deed in order keeps a table a mirror (`Scene.Reflected.does`), and a table that is
one passes validation (`Scene.Mirrored.validate`).  Validation itself never fails on a sound
scene, whatever the table.
-/

namespace HeapAudit

set_option autoImplicit false

namespace Scene

/-- **Nodes that know every object of a scene**, and nothing that was never there. -/
structure Mirrored (scene : Scene) (nodes : WordMap Node) : Prop where
  known : ∀ address node, nodes.find? address = some node →
    ⟨address, extent node.kind node.size HeapObject.arrayBase⟩ ∈ scene.occupied
  live : ∀ address object, scene.heap.objects.find? address = some object →
    nodes.find? address = some object.node

/-- A replay that mirrors a scene and has missed nothing. -/
structure Reflected (scene : Scene) (progress : Replay.Progress) : Prop where
  arrayBase : progress.table.arrayBase = HeapObject.arrayBase
  mirrored : scene.Mirrored progress.table.nodes
  recognized : progress.stats.unrecognized = 0
  resolved : progress.stats.unresolvedFieldSets = 0
  copied : progress.stats.unresolvedCopies = 0

section Following

variable {scene next : Scene} {nodes : WordMap Node} {table : Table}

theorem Mirrored.remove (mirrored : scene.Mirrored nodes) (address : UInt64) :
    (scene.remove address).Mirrored nodes := by
  refine ⟨mirrored.known, fun other object found => ?_⟩
  rw [Scene.remove, Heap.remove, WordMap.find?_erase] at found
  split at found
  · cases found
  · exact mirrored.live other object found

/-- **Looking for a slot of an object finds its node.** -/
theorem Mirrored.lookup?_slot (mirrored : scene.Mirrored table.nodes) (sound : scene.Sound)
    (base : table.arrayBase = HeapObject.arrayBase) {address offset : UInt64} {object : HeapObject}
    (found : scene.heap.objects.find? address = some object)
    (slot : object.isReferenceSlot offset = true) :
    table.lookup? (address + offset) = some (address, object.node) := by
  obtain ⟨sum, within, -⟩ := sound.slot_inside found slot
  have floor : table.nodes.floor? (address + offset) = some (address, object.node) := by
    refine WordMap.floor?_eq_some_iff.mpr ⟨mirrored.live address object found, ?_, ?_⟩
    · rw [UInt64.le_iff_toNat_le, sum]
      exact Nat.le_add_right ..
    · intro other present reached
      obtain ⟨node, held⟩ := Option.isSome_iff_exists.mp present
      rw [UInt64.le_iff_toNat_le] at reached ⊢
      refine Nat.le_of_not_lt fun between => ?_
      -- the other node would start inside the object
      have used := mirrored.known other node held
      have bytes := (sound.inside _ used).1
      have same : (⟨address, object.extent⟩ : Tract)
          = ⟨other, extent node.kind node.size HeapObject.arrayBase⟩ := by
        refine sound.eq_of_shared (sound.live address object found) used
          ⟨Nat.le_of_lt between, by omega⟩ ⟨Nat.le_refl _, ?_⟩
        exact Nat.lt_add_of_pos_right bytes
      have start : address = other := congrArg Tract.start same
      rw [start] at between
      exact Nat.lt_irrefl _ between
  have covered : offset < table.extent object.node := by
    rw [UInt64.lt_iff_toNat_lt, Table.extent, base]
    exact (sound.objects address object found).slot_lt_extent slot
  rw [Table.lookup?, floor]
  dsimp only
  rw [add_sub_self, if_pos (by simp [covered])]

theorem Mirrored.allocate (mirrored : scene.Mirrored nodes) (sound : scene.Sound) {kind : Kind}
    {size address : UInt64} {offsets : List UInt64}
    (fine : HeapObject.Sound ⟨kind, size, offsets, ∅⟩)
    (allocated : scene.heap.allocate kind size offsets = (.ok address, next.heap))
    (occupied : next.occupied
      = ⟨address, extent kind size HeapObject.arrayBase⟩ :: scene.occupied) :
    next.Mirrored (nodes.insert address ⟨kind, size, ∅⟩) := by
  obtain ⟨-, -, objects, -⟩ := sound.allocate_eq fine allocated
  constructor
  · intro other node found
    rw [occupied]
    rw [WordMap.find?_insert] at found
    split at found
    · rename_i here
      cases found
      cases here
      exact List.mem_cons_self
    · exact List.mem_cons_of_mem _ (mirrored.known other node found)
  · intro other object found
    rw [objects, WordMap.find?_insert] at found
    rw [WordMap.find?_insert]
    split at found
    · rename_i here
      cases found
      rw [if_pos here]
      rfl
    · rename_i elsewhere
      rw [if_neg elsewhere]
      exact mirrored.live other object found

theorem Mirrored.store (mirrored : scene.Mirrored nodes) {address offset value : UInt64}
    (stored : scene.heap.set address offset value = (.ok (), next.heap))
    (occupied : next.occupied = scene.occupied) :
    next.Mirrored (nodes.modify address fun node =>
      { node with edges := node.edges.insert offset value }) := by
  obtain ⟨object, present, -, same⟩ := Heap.set_eq_ok stored
  constructor
  · intro other node found
    rw [occupied]
    rw [WordMap.find?_modify] at found
    split at found
    · obtain ⟨before, held, rfl⟩ := Option.map_eq_some_iff.mp found
      exact mirrored.known other before held
    · exact mirrored.known other node found
  · intro other held found
    rw [same, WordMap.find?_insert] at found
    rw [WordMap.find?_modify]
    split at found
    · rename_i here
      cases found
      cases here
      rw [if_pos rfl, mirrored.live address object present]
      rfl
    · rename_i elsewhere
      rw [if_neg elsewhere]
      exact mirrored.live other held found

theorem Mirrored.move (mirrored : scene.Mirrored nodes) (sound : scene.Sound) {object : HeapObject}
    {src dst : UInt64} {after : Heap} (present : scene.heap.objects.find? src = some object)
    (whole : dst.toNat + object.extent.toNat < 2 ^ 64)
    (fresh : ∀ tract ∈ scene.occupied, Tract.Apart ⟨dst, object.extent⟩ tract)
    (moved : scene.heap.move src dst = (.ok (), after)) :
    Mirrored ⟨after.redirect src dst, ⟨dst, object.extent⟩ :: scene.occupied⟩
      (Table.moved nodes src dst) := by
  obtain ⟨-, -, -, -, -, -, objects⟩ := sound.move_eq present whole fresh moved
  have relocated : Table.relocated nodes src dst = (nodes.erase src).insert dst object.node := by
    rw [Table.relocated, mirrored.live src object present]
  constructor
  · intro other node found
    rw [Table.moved, relocated, WordMap.find?_mapValues] at found
    obtain ⟨before, held, rfl⟩ := Option.map_eq_some_iff.mp found
    rw [WordMap.find?_insert] at held
    split at held
    · rename_i here
      cases held
      cases here
      exact List.mem_cons_self
    · rw [WordMap.find?_erase] at held
      split at held
      · cases held
      · exact List.mem_cons_of_mem _ (mirrored.known other before held)
  · intro other held found
    dsimp only at found
    rw [objects] at found
    rw [Table.moved, relocated, WordMap.find?_mapValues]
    rcases find?_redirected found with ⟨rfl, rfl⟩ | ⟨away, other, before, listed, rfl⟩
    · rw [WordMap.find?_insert_self]
      rfl
    · rw [WordMap.find?_insert_of_ne _ (Ne.symm away), WordMap.find?_erase,
        if_neg (Ne.symm other), mirrored.live _ before listed]
      rfl

/-- **Following a deed keeps a reflection.** -/
theorem Reflected.does {progress : Replay.Progress} (reflected : scene.Reflected progress)
    (sound : scene.Sound) {deed : Deed} (does : scene.Does deed next) :
    next.Reflected (progress.follow deed) := by
  obtain ⟨kind, size, offsets, address, rfl, fine, allocated, occupied⟩
    | ⟨address, offset, value, rfl, -, stored, occupied⟩
    | ⟨src, dst, object, after, rfl, present, whole, fresh, moved, rfl⟩ := does.cases
  · exact ⟨reflected.arrayBase, reflected.mirrored.allocate sound fine allocated occupied,
      reflected.recognized, reflected.resolved, reflected.copied⟩
  · obtain ⟨object, present, slot, -⟩ := Heap.set_eq_ok stored
    have found := reflected.mirrored.lookup?_slot sound reflected.arrayBase present slot
    rw [Replay.Progress.follow, Replay.Progress.setField, found]
    dsimp only
    rw [add_sub_self]
    exact ⟨reflected.arrayBase, reflected.mirrored.store stored occupied, reflected.recognized,
      reflected.resolved, reflected.copied⟩
  · refine ⟨?_, ?_, reflected.recognized, reflected.resolved, reflected.copied⟩
    · exact (Table.arrayBase_relocate progress.table src dst).trans reflected.arrayBase
    · have followed : (progress.follow (.move src dst)).table.nodes
          = Table.moved progress.table.nodes src dst := by
        rw [Table.moved, ← Table.nodes_relocate]
        rfl
      rw [followed]
      exact reflected.mirrored.move sound present whole fresh moved

end Following

end Scene

/-! ## Validation -/

namespace Validation

variable {scene : Scene} {table : Table}

/-- **Validation never fails on a sound scene**, whatever the table. -/
theorem validate_eq_ok (sound : scene.Sound) (table : Table) :
    ∃ inspection, validate scene.heap table = .ok inspection := by
  refine ⟨_, validate_eq table fun object listed => ?_⟩
  obtain ⟨entry, member, rfl⟩ := List.mem_map.mp listed
  exact (sound.objects entry.1 entry.2 (WordMap.mem_entries.mp member)).listed

/-- An inspection that has only met what it expected. -/
def Clean (objects : Nat) (inspection : Inspection) : Prop :=
  ∃ fields, inspection = ⟨{ objectsFound := objects, fieldsFound := fields }, []⟩

/-- A slot whose edge holds its reference is as expected. -/
theorem Clean.checkReference {heap : Heap} {address : UInt64} {object : HeapObject} {count : Nat}
    {inspection : Inspection} (clean : Clean count inspection) {slot : UInt64 × UInt64}
    (held : slot.2 = object.reference slot.1) :
    Clean count (checkReference heap address object.node inspection slot) := by
  obtain ⟨fields, rfl⟩ := clean
  obtain ⟨offset, live⟩ := slot
  dsimp only at held
  subst held
  have edges : object.node.edges = object.slots := rfl
  rw [Validation.checkReference, HeapObject.reference, edges]
  cases object.slots.find? offset with
  | none => exact ⟨fields, by simp⟩
  | some value => exact ⟨fields + 1, by simp [matchesLive]⟩

theorem Clean.foldl_checkReference {heap : Heap} {address : UInt64} {object : HeapObject}
    {count : Nat} {inspection : Inspection} (clean : Clean count inspection)
    {slots : List (UInt64 × UInt64)} (held : ∀ slot ∈ slots, slot.2 = object.reference slot.1) :
    Clean count (slots.foldl (Validation.checkReference heap address object.node) inspection) := by
  induction slots generalizing inspection with
  | nil => exact clean
  | cons slot rest onward =>
    exact onward (clean.checkReference (held slot List.mem_cons_self))
      fun other member => held other (List.mem_cons_of_mem _ member)

/-- An object whose node knows it is as expected. -/
theorem Clean.checkObject (heap : Heap) {count : Nat} {inspection : Inspection}
    (clean : Clean count inspection) {entry : UInt64 × HeapObject} (sound : entry.2.Sound)
    (known : table.find? entry.1 = some entry.2.node) :
    ∃ reached, Validation.checkObject heap table inspection entry = .ok reached
      ∧ Clean (count + 1) reached := by
  obtain ⟨fields, rfl⟩ := clean
  obtain ⟨address, object⟩ := entry
  dsimp only at sound known
  obtain ⟨listed, references, held⟩ := sound.references_eq_ok
  have size : object.node.size = object.size := rfl
  rw [Validation.checkObject]
  dsimp only
  rw [known]
  dsimp only
  rw [references, checkSize, if_pos size]
  exact ⟨_, rfl, Clean.foldl_checkReference ⟨fields, rfl⟩ held⟩

theorem Clean.foldlM_checkObject (heap : Heap) {count : Nat} {inspection : Inspection}
    (clean : Clean count inspection) {entries : List (UInt64 × HeapObject)}
    (sound : ∀ entry ∈ entries, entry.2.Sound)
    (known : ∀ entry ∈ entries, table.find? entry.1 = some entry.2.node) :
    ∃ reached, entries.foldlM (Validation.checkObject heap table) inspection = .ok reached
      ∧ Clean (count + entries.length) reached := by
  induction entries generalizing inspection count with
  | nil => exact ⟨inspection, rfl, clean⟩
  | cons entry rest onward =>
    obtain ⟨between, checked, cleaned⟩ := clean.checkObject heap
      (sound entry List.mem_cons_self) (known entry List.mem_cons_self)
    obtain ⟨reached, others, cleanReached⟩ := onward cleaned
      (fun other member => sound other (List.mem_cons_of_mem _ member))
      (fun other member => known other (List.mem_cons_of_mem _ member))
    refine ⟨reached, ?_, ?_⟩
    · rw [List.foldlM_cons, checked]
      exact others
    · rwa [List.length_cons, Nat.add_comm rest.length, ← Nat.add_assoc]

end Validation

/-- **A table that mirrors a scene is valid.**  Every object is found and nothing is reported. -/
theorem Scene.Mirrored.validate {scene : Scene} {table : Table}
    (mirrored : scene.Mirrored table.nodes) (sound : scene.Sound) :
    ∃ inspection, Validation.validate scene.heap table = .ok inspection
      ∧ inspection.report.isValid = true
      ∧ inspection.report.objectsFound = scene.heap.objects.size
      ∧ inspection.diagnostics = [.validated inspection.report] := by
  have listed : ∀ entry ∈ scene.heap.objects.entries,
      scene.heap.objects.find? entry.1 = some entry.2 := fun entry member =>
    WordMap.mem_entries.mp member
  have known : ∀ entry ∈ scene.heap.objects.entries, table.find? entry.1 = some entry.2.node :=
    fun entry member => mirrored.live _ _ (listed entry member)
  obtain ⟨reached, checked, fields, rfl⟩ := Validation.Clean.foldlM_checkObject scene.heap
    ⟨0, rfl⟩ (fun entry member => sound.objects _ _ (listed entry member)) known
  rw [Validation.validate, checked]
  refine ⟨_, rfl, rfl, ?_, rfl⟩
  rw [← WordMap.length_entries]
  exact Nat.zero_add _

end HeapAudit
