import HeapAudit.Proofs.Heap.Object

/-!
# Mutators at work

A scene is a heap together with every run of bytes that an object ever occupied.  Mutators
allocate, store and move (`Scene.Does`), each deed with the event that stands for it, and
objects disappear without one (`Scene.remove`).  A move leads all references along and goes
where no object has ever been.

Two things are said about a scene.  It is sound (`Scene.Sound`): nothing occupied overlaps,
and allocation goes on behind all of it.  And it recalls a list of deeds (`Scene.Recalls`)
that led to it: they are legible and come in an order that a replay in two passes respects.
Each deed keeps both.
-/

namespace HeapAudit

set_option autoImplicit false

/-- A run of bytes. -/
structure Tract where
  start : UInt64
  bytes : UInt64
  deriving DecidableEq

namespace Tract

/-- The first byte behind the run, as a number. -/
def stop (tract : Tract) : Nat := tract.start.toNat + tract.bytes.toNat

/-- Two runs of bytes do not meet. -/
def Apart (tract other : Tract) : Prop :=
  tract.stop ≤ other.start.toNat ∨ other.stop ≤ tract.start.toNat

instance : DecidableRel Apart := fun _ _ => inferInstanceAs (Decidable (_ ∨ _))

theorem Apart.symm {tract other : Tract} (apart : tract.Apart other) : other.Apart tract :=
  Or.symm apart

end Tract

/-- A heap and everything that was ever occupied. -/
structure Scene where
  heap : Heap
  occupied : List Tract

namespace Scene

/-- **What mutators do.**  Instances have at least one word, arrays of references can be listed, and
a move does not wrap around, goes where no object has ever been and takes all references along. -/
inductive Does : Scene → Deed → Scene → Prop where
  | object {heap after occupied size offsets address} : 1 ≤ size.toNat → size.toNat < 2 ^ 60 →
    heap.allocateObject size offsets = (.ok address, after) →
    Does ⟨heap, occupied⟩ (.allocate .newObject size address)
      ⟨after, ⟨address, extent .newObject size HeapObject.arrayBase⟩ :: occupied⟩
  | array {heap after occupied length address} : length ≤ HeapObject.maxReferences →
    heap.allocateArray length = (.ok address, after) →
    Does ⟨heap, occupied⟩ (.allocate .newArray length address)
      ⟨after, ⟨address, extent .newArray length HeapObject.arrayBase⟩ :: occupied⟩
  | primitives {heap after occupied length address} : length.toNat < 2 ^ 60 →
    heap.allocatePrimitiveArray length = (.ok address, after) →
    Does ⟨heap, occupied⟩ (.allocate .newPrimitiveArray length address)
      ⟨after, ⟨address, extent .newPrimitiveArray length HeapObject.arrayBase⟩ :: occupied⟩
  | store {heap after occupied address offset value} :
    value = 0 ∨ heap.range.contains value = true →
    heap.set address offset value = (.ok (), after) →
    Does ⟨heap, occupied⟩ (.store value (address + offset)) ⟨after, occupied⟩
  | move {heap after occupied object src dst} : heap.objects.find? src = some object →
    dst.toNat + object.extent.toNat < 2 ^ 64 →
    (∀ tract ∈ occupied, Tract.Apart ⟨dst, object.extent⟩ tract) →
    heap.move src dst = (.ok (), after) →
    Does ⟨heap, occupied⟩ (.move src dst)
      ⟨after.redirect src dst, ⟨dst, object.extent⟩ :: occupied⟩

/-- An object disappears. -/
def remove (scene : Scene) (address : UInt64) : Scene :=
  { scene with heap := scene.heap.remove address }

/-! ## Sound scenes -/

/-- **Where things are in a heap.** -/
structure Sound (scene : Scene) : Prop where
  telling : scene.heap.range.Legible
  low_le : scene.heap.range.low.toNat ≤ scene.heap.next.toNat
  le_high : scene.heap.next.toNat ≤ scene.heap.range.high.toNat
  inside : ∀ tract ∈ scene.occupied, 0 < tract.bytes.toNat
    ∧ scene.heap.range.low.toNat ≤ tract.start.toNat ∧ tract.stop ≤ scene.heap.next.toNat
  apart : ∀ tract ∈ scene.occupied, ∀ other ∈ scene.occupied, tract ≠ other → tract.Apart other
  objects : ∀ address object, scene.heap.objects.find? address = some object → object.Sound
  live : ∀ address object, scene.heap.objects.find? address = some object →
    ⟨address, object.extent⟩ ∈ scene.occupied

section Soundness

variable {scene : Scene} {heap after : Heap} {occupied : List Tract}

/-- Two occupied tracts that share an address are the same. -/
theorem Sound.eq_of_shared (sound : scene.Sound) {tract other : Tract} {address : Nat}
    (first : tract ∈ scene.occupied) (second : other ∈ scene.occupied)
    (inFirst : tract.start.toNat ≤ address ∧ address < tract.stop)
    (inSecond : other.start.toNat ≤ address ∧ address < other.stop) : tract = other := by
  refine Decidable.byContradiction fun different => ?_
  rcases sound.apart tract first other second different with before | behind
  · omega
  · omega

/-- One more tract is occupied. -/
theorem Sound.add (sound : Sound ⟨heap, occupied⟩) {tract : Tract} (range : after.range = heap.range)
    (grown : heap.next.toNat ≤ after.next.toNat)
    (le_high : after.next.toNat ≤ heap.range.high.toNat)
    (inside : 0 < tract.bytes.toNat ∧ heap.range.low.toNat ≤ tract.start.toNat
      ∧ tract.stop ≤ after.next.toNat)
    (fresh : ∀ other ∈ occupied, tract.Apart other)
    (objects : ∀ address object, after.objects.find? address = some object → object.Sound)
    (live : ∀ address object, after.objects.find? address = some object →
      ⟨address, object.extent⟩ ∈ tract :: occupied) : Sound ⟨after, tract :: occupied⟩ where
  telling := by
    show after.range.Legible
    rw [range]
    exact sound.telling
  low_le := by
    show after.range.low.toNat ≤ after.next.toNat
    rw [range]
    exact Nat.le_trans sound.low_le grown
  le_high := by
    show after.next.toNat ≤ after.range.high.toNat
    rw [range]
    exact le_high
  inside := by
    show ∀ other ∈ tract :: occupied, 0 < other.bytes.toNat
      ∧ after.range.low.toNat ≤ other.start.toNat ∧ other.stop ≤ after.next.toNat
    rw [range]
    intro other member
    rcases List.mem_cons.mp member with rfl | old
    · exact inside
    · obtain ⟨bytes, above, below⟩ := sound.inside other old
      exact ⟨bytes, above, Nat.le_trans below grown⟩
  apart := by
    intro first inFirst second inSecond different
    rcases List.mem_cons.mp inFirst with rfl | old
    · rcases List.mem_cons.mp inSecond with rfl | other
      · exact absurd rfl different
      · exact fresh second other
    · rcases List.mem_cons.mp inSecond with rfl | other
      · exact (fresh first old).symm
      · exact sound.apart first old second other different
  objects := objects
  live := live

/-- What an allocation leaves behind. -/
theorem Sound.allocate_eq (sound : Sound ⟨heap, occupied⟩) {kind : Kind} {size address : UInt64}
    {offsets : List UInt64} (fine : HeapObject.Sound ⟨kind, size, offsets, ∅⟩)
    (allocated : heap.allocate kind size offsets = (.ok address, after)) :
    address = heap.next ∧ after.range = heap.range
      ∧ after.objects = heap.objects.insert address ⟨kind, size, offsets, ∅⟩
      ∧ after.next.toNat = Tract.stop ⟨address, extent kind size HeapObject.arrayBase⟩
      ∧ after.next.toNat ≤ heap.range.high.toNat := by
  obtain ⟨rfl, stop, rfl, room, rfl⟩ := Heap.allocate_eq_ok allocated
  have bytes : 0 < (extent kind size HeapObject.arrayBase).toNat := fine.extent_pos
  have some : extent kind size HeapObject.arrayBase ≠ 0 := by
    intro none
    rw [none] at bytes
    exact Nat.lt_irrefl _ bytes
  rw [if_neg some] at room
  have bounded := sound.telling.bounded
  have below : heap.next.toNat ≤ heap.range.high.toNat := sound.le_high
  have small : (extent kind size HeapObject.arrayBase).toNat ≤ 16 + 2 ^ 63 := by
    have exact := fine.toNat_extent
    have size := fine.small
    dsimp only [HeapObject.extent] at exact size
    rw [exact]
    split <;> omega
  have sum : (heap.next + extent kind size HeapObject.arrayBase).toNat
      = heap.next.toNat + (extent kind size HeapObject.arrayBase).toNat := by
    refine toNat_add_of_lt ?_
    dsimp only at bounded
    omega
  refine ⟨rfl, rfl, rfl, ?_, ?_⟩
  · dsimp only
    rw [if_neg some]
    exact sum
  · dsimp only
    rw [if_neg some]
    exact UInt64.le_iff_toNat_le.mp room

/-- Allocation keeps a scene sound. -/
theorem Sound.allocate (sound : Sound ⟨heap, occupied⟩) {kind : Kind} {size address : UInt64}
    {offsets : List UInt64} (fine : HeapObject.Sound ⟨kind, size, offsets, ∅⟩)
    (allocated : heap.allocate kind size offsets = (.ok address, after)) :
    Sound ⟨after, ⟨address, extent kind size HeapObject.arrayBase⟩ :: occupied⟩ := by
  obtain ⟨rfl, range, objects, next, high⟩ := sound.allocate_eq fine allocated
  have bytes : 0 < (extent kind size HeapObject.arrayBase).toNat := fine.extent_pos
  refine sound.add range ?_ high ⟨bytes, sound.low_le, Nat.le_of_eq next.symm⟩ ?_ ?_ ?_
  · rw [next]
    exact Nat.le_add_right ..
  · intro other member
    exact .inr (sound.inside other member).2.2
  · intro address object found
    rw [objects, WordMap.find?_insert] at found
    split at found
    · cases found
      exact fine
    · exact sound.objects address object found
  · intro address object found
    rw [objects, WordMap.find?_insert] at found
    split at found
    · rename_i here
      cases found
      cases here
      exact List.mem_cons_self
    · exact List.mem_cons_of_mem _ (sound.live address object found)

/-- A store keeps a scene sound. -/
theorem Sound.store (sound : Sound ⟨heap, occupied⟩) {address offset value : UInt64}
    (stored : heap.set address offset value = (.ok (), after)) : Sound ⟨after, occupied⟩ := by
  obtain ⟨object, present, slot, rfl⟩ := Heap.set_eq_ok stored
  refine ⟨sound.telling, sound.low_le, sound.le_high, sound.inside, sound.apart, ?_, ?_⟩
  · intro other held found
    rw [WordMap.find?_insert] at found
    split at found
    · cases found
      have fine := sound.objects address object present
      refine ⟨fine.allocated, fine.small, fine.nonempty, fine.fields, fine.listed, ?_⟩
      intro place content holds
      rw [WordMap.find?_insert] at holds
      split at holds
      · rename_i here
        rw [← here]
        exact slot
      · exact fine.slots place content holds
    · exact sound.objects other held found
  · intro other held found
    rw [WordMap.find?_insert] at found
    split at found
    · rename_i here
      cases found
      rw [← here]
      exact sound.live address object present
    · exact sound.live other held found

/-- A destination that no object has ever occupied is not the address of one. -/
theorem Sound.ne_of_fresh (sound : scene.Sound) {dst bytes : UInt64} (some : 0 < bytes.toNat)
    (fresh : ∀ tract ∈ scene.occupied, Tract.Apart ⟨dst, bytes⟩ tract) {tract : Tract}
    (member : tract ∈ scene.occupied) : tract.start ≠ dst := by
  rintro rfl
  have used := (sound.inside tract member).1
  have apart := fresh tract member
  simp only [Tract.Apart, Tract.stop] at apart
  omega

/-- What a move leaves behind. -/
theorem Sound.move_eq (sound : Sound ⟨heap, occupied⟩) {object : HeapObject} {src dst : UInt64}
    (present : heap.objects.find? src = some object)
    (whole : dst.toNat + object.extent.toNat < 2 ^ 64)
    (fresh : ∀ tract ∈ occupied, Tract.Apart ⟨dst, object.extent⟩ tract)
    (moved : heap.move src dst = (.ok (), after)) :
    src ≠ dst ∧ heap.range.low.toNat ≤ dst.toNat
      ∧ Tract.stop ⟨dst, object.extent⟩ ≤ (after.redirect src dst).next.toNat
      ∧ heap.next.toNat ≤ (after.redirect src dst).next.toNat
      ∧ (after.redirect src dst).next.toNat ≤ heap.range.high.toNat
      ∧ (after.redirect src dst).range = heap.range
      ∧ (after.redirect src dst).objects
        = Heap.redirected ((heap.objects.erase src).insert dst object) src dst := by
  obtain ⟨found, same, low, high, objects, range, next⟩ := Heap.move_eq_ok moved
  obtain rfl := Option.some.inj (present.symm.trans same)
  have different : src ≠ dst :=
    sound.ne_of_fresh (sound.objects src object present).extent_pos fresh
      (sound.live src object present)
  have fine : ∀ address held, after.objects.find? address = some held → held.Sound := by
    intro address held listed
    rw [objects, WordMap.find?_insert] at listed
    split at listed
    · cases listed
      exact sound.objects src object present
    · rw [WordMap.find?_erase] at listed
      split at listed
      · cases listed
      · exact sound.objects address held listed
  have stop : (dst + object.extent).toNat = dst.toNat + object.extent.toNat := toNat_add_of_lt whole
  have top : (dst + object.extent).toNat ≤ heap.range.high.toNat := UInt64.le_iff_toNat_le.mp high
  have below : heap.next.toNat ≤ heap.range.high.toNat := sound.le_high
  rw [Heap.redirect_eq fine different]
  dsimp only
  rw [next, Tract.stop, ← stop]
  refine ⟨different, UInt64.le_iff_toNat_le.mp low, ?_, ?_, ?_, range, by rw [objects]⟩
  · split
    · exact Nat.le_refl _
    · rename_i reached
      exact UInt64.le_iff_toNat_le.mp (UInt64.not_lt.mp reached)
  · split
    · rename_i beyond
      exact Nat.le_of_lt (UInt64.lt_iff_toNat_lt.mp beyond)
    · exact Nat.le_refl _
  · split
    · exact top
    · exact below

theorem sound_retarget {object : HeapObject} (fine : object.Sound) (moves : WordMap UInt64) :
    (object.retarget moves).Sound := by
  refine ⟨fine.allocated, fine.small, fine.nonempty, fine.fields, fine.listed, ?_⟩
  intro offset value holds
  rw [HeapObject.retarget, WordMap.find?_mapValues] at holds
  obtain ⟨content, held, -⟩ := Option.map_eq_some_iff.mp holds
  exact fine.slots offset content held

/-- What is at an address after a move. -/
theorem find?_redirected {objects : WordMap HeapObject} {object held : HeapObject}
    {src dst address : UInt64}
    (found : (Heap.redirected ((objects.erase src).insert dst object) src dst).find? address
      = some held) :
    (address = dst ∧ held = object.retarget ((∅ : WordMap UInt64).insert src dst))
      ∨ (address ≠ dst ∧ address ≠ src ∧ ∃ before, objects.find? address = some before
        ∧ held = before.retarget ((∅ : WordMap UInt64).insert src dst)) := by
  rw [Heap.redirected, WordMap.find?_mapValues] at found
  obtain ⟨before, listed, rfl⟩ := Option.map_eq_some_iff.mp found
  rw [WordMap.find?_insert] at listed
  split at listed
  · rename_i here
    cases listed
    exact .inl ⟨here.symm, rfl⟩
  · rename_i elsewhere
    rw [WordMap.find?_erase] at listed
    split at listed
    · cases listed
    · rename_i other
      exact .inr ⟨Ne.symm elsewhere, Ne.symm other, before, listed, rfl⟩

/-- A move keeps a scene sound. -/
theorem Sound.move (sound : Sound ⟨heap, occupied⟩) {object : HeapObject} {src dst : UInt64}
    (present : heap.objects.find? src = some object)
    (whole : dst.toNat + object.extent.toNat < 2 ^ 64)
    (fresh : ∀ tract ∈ occupied, Tract.Apart ⟨dst, object.extent⟩ tract)
    (moved : heap.move src dst = (.ok (), after)) :
    Sound ⟨after.redirect src dst, ⟨dst, object.extent⟩ :: occupied⟩ := by
  obtain ⟨-, low, stop, grown, high, range, objects⟩ := sound.move_eq present whole fresh moved
  have fine := sound.objects src object present
  refine sound.add range grown high ⟨fine.extent_pos, low, stop⟩ fresh ?_ ?_
  · intro address held found
    rw [objects] at found
    rcases find?_redirected found with ⟨-, rfl⟩ | ⟨-, -, before, listed, rfl⟩
    · exact sound_retarget fine _
    · exact sound_retarget (sound.objects address before listed) _
  · intro address held found
    rw [objects] at found
    rcases find?_redirected found with ⟨rfl, rfl⟩ | ⟨-, -, before, listed, rfl⟩
    · exact List.mem_cons_self
    · exact List.mem_cons_of_mem _ (sound.live address before listed)

/-- The three ways in which a deed changes a scene: the allocations do so alike. -/
theorem Does.cases {deed : Deed} {next : Scene} (does : scene.Does deed next) :
    (∃ kind size offsets address, deed = .allocate kind size address
      ∧ HeapObject.Sound ⟨kind, size, offsets, ∅⟩
      ∧ scene.heap.allocate kind size offsets = (.ok address, next.heap)
      ∧ next.occupied = ⟨address, extent kind size HeapObject.arrayBase⟩ :: scene.occupied)
    ∨ (∃ address offset value, deed = .store value (address + offset)
      ∧ (value = 0 ∨ scene.heap.range.contains value = true)
      ∧ scene.heap.set address offset value = (.ok (), next.heap)
      ∧ next.occupied = scene.occupied)
    ∨ ∃ src dst object after, deed = .move src dst ∧ scene.heap.objects.find? src = some object
      ∧ dst.toNat + object.extent.toNat < 2 ^ 64
      ∧ (∀ tract ∈ scene.occupied, Tract.Apart ⟨dst, object.extent⟩ tract)
      ∧ scene.heap.move src dst = (.ok (), after)
      ∧ next = ⟨after.redirect src dst, ⟨dst, object.extent⟩ :: scene.occupied⟩ := by
  have bare : ∀ object : HeapObject, object.slots = ∅ → ∀ offset value,
      object.slots.find? offset = some value → object.isReferenceSlot offset = true := by
    intro object none offset value holds
    rw [none, WordMap.find?_empty] at holds
    cases holds
  cases does with
  | @object heap after occupied size offsets address words small allocated =>
    obtain ⟨fields, allocated⟩ := Heap.allocateObject_eq_ok allocated
    refine .inl ⟨_, _, offsets, _, rfl, ⟨?_, small, fun _ => words, fun _ => fields, ?_, ?_⟩,
      allocated, rfl⟩
    · simp [Deed.allocations]
    · intro array
      cases array
    · exact bare _ rfl
  | @array heap after occupied length address short allocated =>
    have small : length.toNat < 2 ^ 60 :=
      Nat.lt_of_le_of_lt (UInt64.le_iff_toNat_le.mp short) (by decide)
    refine .inl ⟨_, _, [], _, rfl, ⟨?_, small, ?_, ?_, fun _ => short, ?_⟩, allocated, rfl⟩
    · simp [Deed.allocations]
    · intro other
      cases other
    · intro other
      cases other
    · exact bare _ rfl
  | @primitives heap after occupied length address small allocated =>
    refine .inl ⟨_, _, [], _, rfl, ⟨?_, small, ?_, ?_, ?_, ?_⟩, allocated, rfl⟩
    · simp [Deed.allocations]
    · intro other
      cases other
    · intro other
      cases other
    · intro other
      cases other
    · exact bare _ rfl
  | store value stored => exact .inr (.inl ⟨_, _, _, rfl, value, stored, rfl⟩)
  | move present whole fresh moved =>
    exact .inr (.inr ⟨_, _, _, _, rfl, present, whole, fresh, moved, rfl⟩)

/-- The range of a heap stays as it is. -/
theorem Does.range {deed : Deed} {next : Scene} (does : scene.Does deed next)
    (sound : scene.Sound) : next.heap.range = scene.heap.range := by
  obtain ⟨kind, size, offsets, address, -, fine, allocated, -⟩
    | ⟨address, offset, value, -, -, stored, -⟩
    | ⟨src, dst, object, after, -, present, whole, fresh, moved, rfl⟩ := does.cases
  · exact (sound.allocate_eq fine allocated).2.1
  · obtain ⟨object, -, -, same⟩ := Heap.set_eq_ok stored
    rw [same]
  · exact (sound.move_eq present whole fresh moved).2.2.2.2.2.1

/-- Every deed keeps a scene sound. -/
theorem Sound.does (sound : scene.Sound) {deed : Deed} {next : Scene}
    (does : scene.Does deed next) : next.Sound := by
  obtain ⟨kind, size, offsets, address, -, fine, allocated, occupied⟩
    | ⟨address, offset, value, -, -, stored, occupied⟩
    | ⟨src, dst, object, after, -, present, whole, fresh, moved, rfl⟩ := does.cases
  · have kept := sound.allocate fine allocated
    rwa [← occupied] at kept
  · have kept := sound.store stored
    rwa [← occupied] at kept
  · exact sound.move present whole fresh moved

/-- A disappearing object keeps a scene sound. -/
theorem Sound.remove (sound : scene.Sound) (address : UInt64) : (scene.remove address).Sound := by
  have kept : ∀ {other object}, (scene.remove address).heap.objects.find? other = some object →
      scene.heap.objects.find? other = some object := by
    intro other object found
    rw [Scene.remove, Heap.remove, WordMap.find?_erase] at found
    split at found
    · cases found
    · exact found
  exact ⟨sound.telling, sound.low_le, sound.le_high, sound.inside, sound.apart,
    fun other object found => sound.objects other object (kept found),
    fun other object found => sound.live other object (kept found)⟩

end Soundness

/-! ## Deeds that led to a scene -/

/-- **What a scene says about the deeds that led to it.** -/
structure Recalls (scene : Scene) (deeds : List Deed) : Prop where
  legible : ∀ deed ∈ deeds, deed.Legible scene.heap.range
  below : ∀ deed ∈ deeds, ∀ place ∈ deed.places, place.toNat < scene.heap.next.toNat
  ordered : deeds.Pairwise Deed.Precedes
  left : ∀ src dst, Deed.move src dst ∈ deeds → scene.heap.objects.find? src = none
    ∧ ∃ tract ∈ scene.occupied, tract.start = src

section Recalling

variable {scene next : Scene} {deeds : List Deed} {deed : Deed}

theorem Recalls.nil (scene : Scene) : scene.Recalls [] where
  legible := fun _ member => absurd member List.not_mem_nil
  below := fun _ member => absurd member List.not_mem_nil
  ordered := .nil
  left := fun _ _ member => absurd member List.not_mem_nil

theorem Recalls.add (recalls : scene.Recalls deeds) (range : next.heap.range = scene.heap.range)
    (grown : scene.heap.next.toNat ≤ next.heap.next.toNat)
    (legible : deed.Legible scene.heap.range)
    (below : ∀ place ∈ deed.places, place.toNat < next.heap.next.toNat)
    (precedes : ∀ earlier ∈ deeds, earlier.Precedes deed)
    (left : ∀ src dst, Deed.move src dst ∈ deeds ∨ Deed.move src dst = deed →
      next.heap.objects.find? src = none ∧ ∃ tract ∈ next.occupied, tract.start = src) :
    next.Recalls (deeds ++ [deed]) where
  legible := by
    rw [range]
    intro other member
    rcases List.mem_append.mp member with old | new
    · exact recalls.legible other old
    · rw [List.mem_singleton.mp new]
      exact legible
  below := by
    intro other member place inside
    rcases List.mem_append.mp member with old | new
    · exact Nat.lt_of_lt_of_le (recalls.below other old place inside) grown
    · rw [List.mem_singleton.mp new] at inside
      exact below place inside
  ordered := by
    refine List.pairwise_append.mpr ⟨recalls.ordered, List.pairwise_singleton .., ?_⟩
    intro earlier old later new
    rw [List.mem_singleton.mp new]
    exact precedes earlier old
  left := by
    intro src dst member
    refine left src dst ((List.mem_append.mp member).imp_right fun new => ?_)
    exact List.mem_singleton.mp new

/-- A slot of an object lies in the heap, below everything that is still to be allocated. -/
theorem Sound.slot_inside (sound : scene.Sound) {address offset : UInt64} {object : HeapObject}
    (found : scene.heap.objects.find? address = some object)
    (slot : object.isReferenceSlot offset = true) :
    (address + offset).toNat = address.toNat + offset.toNat
      ∧ address.toNat + offset.toNat < Tract.stop ⟨address, object.extent⟩
      ∧ (address + offset).toNat < scene.heap.next.toNat
      ∧ scene.heap.range.contains (address + offset) = true := by
  have within := (sound.objects address object found).slot_lt_extent slot
  obtain ⟨-, low, stop⟩ := sound.inside _ (sound.live address object found)
  have high := sound.le_high
  have bounded := sound.telling.bounded
  rw [Tract.stop] at stop
  dsimp only at low stop
  have sum : (address + offset).toNat = address.toNat + offset.toNat := by
    refine toNat_add_of_lt ?_
    omega
  refine ⟨sum, ?_, ?_, ?_⟩
  · exact Nat.add_lt_add_left within _
  · omega
  · rw [HeapRange.contains_iff]
    omega

theorem Recalls.allocate (recalls : scene.Recalls deeds) (sound : scene.Sound) {kind : Kind}
    {size address : UInt64} {offsets : List UInt64}
    (fine : HeapObject.Sound ⟨kind, size, offsets, ∅⟩)
    (allocated : scene.heap.allocate kind size offsets = (.ok address, next.heap))
    (occupied : next.occupied
      = ⟨address, extent kind size HeapObject.arrayBase⟩ :: scene.occupied) :
    next.Recalls (deeds ++ [.allocate kind size address]) := by
  obtain ⟨rfl, range, objects, stop, high⟩ := sound.allocate_eq fine allocated
  have bytes := fine.extent_pos
  dsimp only [HeapObject.extent] at bytes
  rw [Tract.stop] at stop
  dsimp only at stop
  have low : scene.heap.range.low.toNat ≤ scene.heap.next.toNat := sound.low_le
  refine recalls.add range (by omega) ⟨fine.allocated, ?_⟩ ?_ ?_ ?_
  · rw [HeapRange.contains_iff]
    omega
  · intro place inside
    rw [List.mem_singleton.mp inside]
    omega
  · intro earlier old place inside
    exact UInt64.lt_iff_toNat_lt.mpr (recalls.below earlier old place inside)
  · intro src dst member
    have old : Deed.move src dst ∈ deeds := member.resolve_right (by simp)
    obtain ⟨gone, tract, used, start⟩ := recalls.left src dst old
    have below := recalls.below _ old src List.mem_cons_self
    refine ⟨?_, tract, by rw [occupied]; exact List.mem_cons_of_mem _ used, start⟩
    rw [objects, WordMap.find?_insert_of_ne]
    · exact gone
    · rintro rfl
      exact Nat.lt_irrefl _ below

theorem Recalls.store (recalls : scene.Recalls deeds) (sound : scene.Sound)
    {address offset value : UInt64} (known : value = 0 ∨ scene.heap.range.contains value = true)
    (stored : scene.heap.set address offset value = (.ok (), next.heap))
    (occupied : next.occupied = scene.occupied) :
    next.Recalls (deeds ++ [.store value (address + offset)]) := by
  obtain ⟨object, present, slot, same⟩ := Heap.set_eq_ok stored
  obtain ⟨-, -, below, inside⟩ := sound.slot_inside present slot
  refine recalls.add (by rw [same]) (Nat.le_of_eq (by rw [same])) ⟨inside, known⟩ ?_ ?_ ?_
  · intro place member
    rw [List.mem_singleton.mp member, same]
    exact below
  · intro earlier old
    trivial
  · intro src dst member
    obtain ⟨gone, tract, used, start⟩ := recalls.left src dst (member.resolve_right (by simp))
    refine ⟨?_, tract, by rw [occupied]; exact used, start⟩
    rw [same, WordMap.find?_insert_of_ne]
    · exact gone
    · rintro rfl
      rw [present] at gone
      cases gone

theorem Recalls.move (recalls : scene.Recalls deeds) (sound : scene.Sound) {object : HeapObject}
    {src dst : UInt64} {after : Heap} (present : scene.heap.objects.find? src = some object)
    (whole : dst.toNat + object.extent.toNat < 2 ^ 64)
    (fresh : ∀ tract ∈ scene.occupied, Tract.Apart ⟨dst, object.extent⟩ tract)
    (moved : scene.heap.move src dst = (.ok (), after)) :
    Recalls ⟨after.redirect src dst, ⟨dst, object.extent⟩ :: scene.occupied⟩
      (deeds ++ [.move src dst]) := by
  obtain ⟨different, low, stop, grown, high, range, objects⟩ :=
    sound.move_eq present whole fresh moved
  have bytes := (sound.objects src object present).extent_pos
  have here := sound.live src object present
  obtain ⟨-, -, within⟩ := sound.inside _ here
  rw [Tract.stop] at stop within
  dsimp only at stop within
  refine recalls.add range grown ?_ ?_ ?_ ?_
  · show scene.heap.range.contains dst = true
    rw [HeapRange.contains_iff]
    omega
  · intro place member
    rcases List.mem_cons.mp member with rfl | target
    · dsimp only
      omega
    · rw [List.mem_singleton.mp target]
      dsimp only
      omega
  · rintro earlier old source target rfl same
    rw [same, (recalls.left source target old).1] at present
    cases present
  · intro source target member
    dsimp only
    rw [objects]
    -- What was left before the move and what it leaves now were occupied, so neither is `dst`.
    have left : (source = src ∨ scene.heap.objects.find? source = none)
        ∧ ∃ tract ∈ scene.occupied, tract.start = source := by
      rcases member with old | new
      · exact (recalls.left source target old).imp_left .inr
      · cases new
        exact ⟨.inl rfl, _, here, rfl⟩
    obtain ⟨gone, tract, inside, start⟩ := left
    refine ⟨?_, tract, List.mem_cons_of_mem _ inside, start⟩
    cases found : (Heap.redirected ((scene.heap.objects.erase src).insert dst object) src
        dst).find? source with
    | none => rfl
    | some held =>
      have away : source ≠ dst := start ▸ sound.ne_of_fresh bytes fresh inside
      rcases find?_redirected found with ⟨same, -⟩ | ⟨-, other, before, listed, -⟩
      · exact absurd same away
      · rw [gone.resolve_left other] at listed
        cases listed

/-- The next scene recalls one more deed. -/
theorem Recalls.does (recalls : scene.Recalls deeds) (sound : scene.Sound)
    (does : scene.Does deed next) : next.Recalls (deeds ++ [deed]) := by
  obtain ⟨kind, size, offsets, address, rfl, fine, allocated, occupied⟩
    | ⟨address, offset, value, rfl, known, stored, occupied⟩
    | ⟨src, dst, object, after, rfl, present, whole, fresh, moved, rfl⟩ := does.cases
  · exact recalls.allocate sound fine allocated occupied
  · exact recalls.store sound known stored occupied
  · exact recalls.move sound present whole fresh moved

theorem Recalls.remove (recalls : scene.Recalls deeds) (address : UInt64) :
    (scene.remove address).Recalls deeds := by
  refine ⟨recalls.legible, recalls.below, recalls.ordered, fun src dst member => ?_⟩
  obtain ⟨gone, used⟩ := recalls.left src dst member
  refine ⟨?_, used⟩
  rw [Scene.remove, Heap.remove, WordMap.find?_erase]
  split
  · rfl
  · exact gone

end Recalling

end Scene

end HeapAudit
