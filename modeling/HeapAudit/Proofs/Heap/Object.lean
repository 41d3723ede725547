import HeapAudit.Heap.Basic
import HeapAudit.Proofs.Replay.InOrder

/-!
# Objects and what operations make of them

The objects that allocation creates are well formed (`HeapObject.Sound`): their bytes can be
counted without wrapping around, their reference slots lie among their bytes, and only
reference slots hold references.

Each operation of the heap that succeeds comes with what it leaves behind.  Redirecting all
references to an address (`Heap.redirect`) is a run of stores into the slots that hold it;
it amounts to changing the slots of all objects at once.
-/

namespace HeapAudit

set_option autoImplicit false

/-! ## The bytes of an object -/

theorem toNat_words {size : UInt64} (small : size.toNat < 2 ^ 60) :
    (size * wordSize).toNat = size.toNat * 8 := by
  have word : wordSize.toNat = 8 := rfl
  rw [toNat_mul_of_lt, word]
  rw [word]
  omega

/-- The bytes of an object of moderate size. -/
theorem toNat_extent {kind : Kind} {size : UInt64} (small : size.toNat < 2 ^ 60) :
    (extent kind size HeapObject.arrayBase).toNat
      = (if kind = .newObject then 0 else 16) + size.toNat * 8 := by
  rw [extent]
  split
  · rw [toNat_words small, Nat.zero_add]
  · have base : HeapObject.arrayBase.toNat = 16 := rfl
    rw [toNat_add_of_lt, toNat_words small, base]
    rw [toNat_words small, base]
    omega

namespace HeapObject

/-- The objects that allocation creates and stores keep. -/
structure Sound (object : HeapObject) : Prop where
  allocated : object.kind ∈ Deed.allocations
  small : object.size.toNat < 2 ^ 60
  nonempty : object.kind = .newObject → 1 ≤ object.size.toNat
  fields : object.kind = .newObject →
    ∀ offset ∈ object.referenceOffsets, Heap.isFieldOffset object.size offset = true
  listed : object.kind = .newArray → object.size ≤ maxReferences
  slots : ∀ offset value, object.slots.find? offset = some value →
    object.isReferenceSlot offset = true

/-- The node that knows everything about an object. -/
def node (object : HeapObject) : Node := ⟨object.kind, object.size, object.slots⟩

/-- The object with its references taken along by moves. -/
def retarget (moves : WordMap UInt64) (object : HeapObject) : HeapObject :=
  { object with slots := object.slots.mapValues fun _ value => Replay.image moves value }

/-- A slot that holds one of the two addresses may as well hold the second one already. -/
theorem retarget_insert (object : HeapObject) {src dst offset : UInt64}
    (different : src ≠ dst)
    (holds : object.slots.find? offset = some src ∨ object.slots.find? offset = some dst) :
    retarget ((∅ : WordMap UInt64).insert src dst)
        { object with slots := object.slots.insert offset dst }
      = object.retarget ((∅ : WordMap UInt64).insert src dst) := by
  have slots : (object.slots.insert offset dst).mapValues
        (fun _ value => Replay.image ((∅ : WordMap UInt64).insert src dst) value)
      = object.slots.mapValues
        fun _ value => Replay.image ((∅ : WordMap UInt64).insert src dst) value := by
    rw [WordMap.mapValues_insert]
    refine WordMap.insert_of_find? ?_
    rw [WordMap.find?_mapValues, Replay.image_single_of_ne dst different]
    rcases holds with source | target
    · rw [source, Option.map_some, Replay.image_single]
    · rw [target, Option.map_some, Replay.image_single_of_ne dst different]
  rw [retarget, retarget, slots]

namespace Sound

variable {object : HeapObject}

theorem toNat_extent (sound : object.Sound) :
    object.extent.toNat = (if object.kind = .newObject then 0 else 16) + object.size.toNat * 8 :=
  HeapAudit.toNat_extent sound.small

/-- Every object has bytes. -/
theorem extent_pos (sound : object.Sound) : 0 < object.extent.toNat := by
  rw [sound.toNat_extent]
  split
  · rename_i instance_
    have := sound.nonempty instance_
    omega
  · omega

/-- The reference slots lie among the bytes. -/
theorem slot_lt_extent (sound : object.Sound) {offset : UInt64}
    (slot : object.isReferenceSlot offset = true) : offset.toNat < object.extent.toNat := by
  rw [sound.toNat_extent]
  rw [isReferenceSlot] at slot
  split at slot
  · rename_i kind
    have field := sound.fields kind offset (by simpa using slot)
    rw [Heap.isFieldOffset, Bool.and_eq_true, decide_eq_true_eq, UInt64.lt_iff_toNat_lt,
      toNat_words sound.small] at field
    omega
  · rename_i kind
    simp only [Bool.and_eq_true, decide_eq_true_eq] at slot
    obtain ⟨⟨behind, -⟩, element⟩ := slot
    have word : wordSize.toNat = 8 := rfl
    have base : arrayBase.toNat = 16 := rfl
    rw [UInt64.lt_iff_toNat_lt, UInt64.toNat_div, UInt64.toNat_sub_of_le _ _ behind, word,
      base] at element
    rw [kind, if_neg (by decide)]
    omega
  · cases slot

/-- The references of an object can be listed, and they are what the slots hold. -/
theorem references_eq_ok (sound : object.Sound) :
    ∃ listed, object.references = .ok listed
      ∧ ∀ slot ∈ listed, slot.2 = object.reference slot.1 := by
  rw [references]
  split
  · refine ⟨_, rfl, fun slot member => ?_⟩
    obtain ⟨offset, -, rfl⟩ := List.mem_map.mp member
    rfl
  · rename_i kind
    rw [if_neg (UInt64.not_lt.mpr (sound.listed kind))]
    refine ⟨_, rfl, fun slot member => ?_⟩
    obtain ⟨index, -, rfl⟩ := List.mem_map.mp member
    rfl
  · exact ⟨[], rfl, fun slot member => absurd member List.not_mem_nil⟩

end Sound

end HeapObject

/-! ## Operations that succeed -/

namespace Heap

variable {heap after : Heap}

theorem allocate_eq_ok {kind : Kind} {size address : UInt64} {offsets : List UInt64}
    (allocated : heap.allocate kind size offsets = (.ok address, after)) :
    address = heap.next
      ∧ ∃ stop, stop = heap.next + (if extent kind size HeapObject.arrayBase = 0 then wordSize
          else extent kind size HeapObject.arrayBase)
        ∧ stop ≤ heap.range.high
        ∧ after = { heap with
            objects := heap.objects.insert heap.next ⟨kind, size, offsets, ∅⟩
            next := stop } := by
  rw [allocate] at allocated
  by_cases full : heap.range.high < heap.next + (if extent kind size HeapObject.arrayBase = 0
      then wordSize else extent kind size HeapObject.arrayBase)
  · rw [if_pos full] at allocated
    cases allocated
  · rw [if_neg full] at allocated
    cases allocated
    exact ⟨rfl, _, rfl, UInt64.not_lt.mp full, rfl⟩

theorem allocateObject_eq_ok {size address : UInt64} {offsets : List UInt64}
    (allocated : heap.allocateObject size offsets = (.ok address, after)) :
    (∀ offset ∈ offsets, isFieldOffset size offset = true)
      ∧ heap.allocate .newObject size offsets = (.ok address, after) := by
  rw [allocateObject] at allocated
  split at allocated
  · cases allocated
  · rename_i fine
    refine ⟨fun offset member => ?_, allocated⟩
    simpa using List.find?_eq_none.mp fine offset member

theorem set_eq_ok {address offset value : UInt64}
    (stored : heap.set address offset value = (.ok (), after)) :
    ∃ object, heap.objects.find? address = some object ∧ object.isReferenceSlot offset = true
      ∧ after = { heap with
          objects := heap.objects.insert address
            { object with slots := object.slots.insert offset value } } := by
  rw [set] at stored
  split at stored
  · cases stored
  · rename_i object found
    split at stored
    · rename_i slot
      cases stored
      exact ⟨object, found, slot, rfl⟩
    · cases stored

theorem move_eq_ok {src dst : UInt64} (moved : heap.move src dst = (.ok (), after)) :
    ∃ object, heap.objects.find? src = some object ∧ heap.range.low ≤ dst
      ∧ dst + object.extent ≤ heap.range.high
      ∧ after.objects = (heap.objects.erase src).insert dst object
      ∧ after.range = heap.range
      ∧ after.next = if heap.next < dst + object.extent then dst + object.extent
        else heap.next := by
  rw [move] at moved
  split at moved
  · cases moved
  · rename_i object found
    dsimp only at moved
    rw [place] at moved
    dsimp only at moved
    refine ⟨object, found, ?_⟩
    split at moved
    · rename_i cause left refused
      cases moved
    · rename_i placed accepted
      cases moved
      split at accepted
      · cases accepted
      · rename_i inside
        split at accepted
        · cases accepted
        · cases accepted
          simp only [Bool.or_eq_true, decide_eq_true_eq, not_or, UInt64.not_lt] at inside
          refine ⟨inside.1, inside.2, ?_, rfl, rfl⟩
          exact WordMap.insert_insert_self ..

/-! ## Redirecting references -/

/-- The slots that hold a reference, with the addresses of their objects. -/
def slotsHolding (heap : Heap) (value : UInt64) : List (UInt64 × UInt64) :=
  heap.objects.entries.flatMap fun entry =>
    (entry.2.slots.entries.filter fun slot => slot.2 = value).map fun slot => (entry.1, slot.1)

/-- Stores a reference into every slot that holds another one. -/
def redirect (heap : Heap) (src dst : UInt64) : Heap :=
  (heap.slotsHolding src).foldl (fun heap slot => (heap.set slot.1 slot.2 dst).2) heap

theorem mem_slotsHolding {value address offset : UInt64} :
    (address, offset) ∈ heap.slotsHolding value
      ↔ ∃ object, heap.objects.find? address = some object
        ∧ object.slots.find? offset = some value := by
  simp only [slotsHolding, List.mem_flatMap, List.mem_map, List.mem_filter, decide_eq_true_eq]
  constructor
  · rintro ⟨⟨found, object⟩, listed, ⟨held, content⟩, ⟨inside, rfl⟩, same⟩
    cases same
    exact ⟨object, WordMap.mem_entries.mp listed, WordMap.mem_entries.mp inside⟩
  · rintro ⟨object, found, held⟩
    exact ⟨(address, object), WordMap.mem_entries.mpr found, (offset, value),
      ⟨WordMap.mem_entries.mpr held, rfl⟩, rfl⟩

/-- The objects with all references to one address led to another one. -/
def redirected (objects : WordMap HeapObject) (src dst : UInt64) : WordMap HeapObject :=
  objects.mapValues fun _ object => object.retarget ((∅ : WordMap UInt64).insert src dst)

/-- The invariant of redirecting: `heap` differs from `start` in slots that were led on already, and
those that are still to be led on are in the list. -/
structure Redirects (src dst : UInt64) (start heap : Heap) (todo : List (UInt64 × UInt64)) :
    Prop where
  frame : heap = { start with objects := heap.objects }
  same : redirected heap.objects src dst = redirected start.objects src dst
  rest : ∀ address object offset, heap.objects.find? address = some object →
    object.slots.find? offset = some src → (address, offset) ∈ todo
  slots : ∀ slot ∈ todo, ∃ object, heap.objects.find? slot.1 = some object
    ∧ object.isReferenceSlot slot.2 = true
    ∧ (object.slots.find? slot.2 = some src ∨ object.slots.find? slot.2 = some dst)

section Redirecting

variable {src dst : UInt64} {start : Heap} {slot : UInt64 × UInt64}
variable {todo : List (UInt64 × UInt64)}

theorem Redirects.step (redirects : Redirects src dst start heap (slot :: todo))
    (different : src ≠ dst) :
    Redirects src dst start (heap.set slot.1 slot.2 dst).2 todo := by
  obtain ⟨address, offset⟩ := slot
  obtain ⟨object, found, isSlot, holds⟩ := redirects.slots _ List.mem_cons_self
  dsimp only at found isSlot holds ⊢
  have set : (heap.set address offset dst).2 = { heap with
      objects := heap.objects.insert address
        { object with slots := object.slots.insert offset dst } } := by
    rw [Heap.set, found]
    dsimp only
    rw [if_pos isSlot]
  rw [set]
  refine ⟨by rw [redirects.frame], ?_, ?_, ?_⟩
  · rw [← redirects.same, redirected, redirected, WordMap.mapValues_insert]
    refine WordMap.insert_of_find? ?_
    rw [WordMap.find?_mapValues, found, Option.map_some, object.retarget_insert different holds]
  · intro other changed place present holding
    rw [WordMap.find?_insert] at present
    split at present
    · rename_i here
      subst here
      cases present
      rw [WordMap.find?_insert] at holding
      split at holding
      · exact absurd (Option.some.inj holding).symm different
      · rename_i elsewhere
        refine (List.mem_cons.mp (redirects.rest _ _ _ found holding)).resolve_left ?_
        rintro ⟨⟩
        exact elsewhere rfl
    · rename_i elsewhere
      refine (List.mem_cons.mp (redirects.rest _ _ _ present holding)).resolve_left ?_
      rintro ⟨⟩
      exact elsewhere rfl
  · rintro ⟨other, place⟩ member
    obtain ⟨held, present, isPlace, holding⟩ := redirects.slots _ (List.mem_cons_of_mem _ member)
    dsimp only at present isPlace holding ⊢
    rw [WordMap.find?_insert]
    split
    · rename_i here
      subst here
      obtain rfl := Option.some.inj (found.symm.trans present)
      refine ⟨_, rfl, isPlace, ?_⟩
      dsimp only
      rw [WordMap.find?_insert]
      split
      · exact .inr rfl
      · exact holding
    · exact ⟨held, present, isPlace, holding⟩

/-- **Redirecting changes the slots of all objects at once**, and nothing else. -/
theorem redirect_eq (sound : ∀ address object, heap.objects.find? address = some object → object.Sound)
    (different : src ≠ dst) :
    heap.redirect src dst = { heap with objects := redirected heap.objects src dst } := by
  have run : ∀ todo : List (UInt64 × UInt64), ∀ between, Redirects src dst heap between todo →
      Redirects src dst heap
        (todo.foldl (fun heap slot => (heap.set slot.1 slot.2 dst).2) between) [] := by
    intro todo
    induction todo with
    | nil => exact fun between redirects => redirects
    | cons slot rest onward =>
      intro between redirects
      exact onward _ (redirects.step different)
  have ends : Redirects src dst heap (heap.redirect src dst) [] := by
    refine run _ heap ⟨rfl, rfl, ?_, ?_⟩
    · intro address object offset found holds
      exact mem_slotsHolding.mpr ⟨object, found, holds⟩
    · rintro ⟨address, offset⟩ member
      obtain ⟨object, found, holds⟩ := mem_slotsHolding.mp member
      exact ⟨object, found, (sound _ _ found).slots _ _ holds, .inl holds⟩
  -- no slot holds the source any more, so leading it on once more changes nothing
  have settled : redirected (heap.redirect src dst).objects src dst
      = (heap.redirect src dst).objects := by
    refine WordMap.ext_find? fun address => ?_
    rw [redirected, WordMap.find?_mapValues]
    cases found : (heap.redirect src dst).objects.find? address with
    | none => rfl
    | some object =>
      have same : object.slots.mapValues
          (fun _ value => Replay.image ((∅ : WordMap UInt64).insert src dst) value)
          = object.slots := by
        refine WordMap.ext_find? fun offset => ?_
        rw [WordMap.find?_mapValues]
        cases held : object.slots.find? offset with
        | none => rfl
        | some value =>
          have elsewhere : src ≠ value := by
            rintro rfl
            exact absurd (ends.rest _ _ _ found held) List.not_mem_nil
          rw [Option.map_some, Replay.image_single_of_ne dst elsewhere]
      rw [Option.map_some, HeapObject.retarget, same]
  rw [ends.frame, ← settled, ends.same]

end Redirecting

end Heap

end HeapAudit
