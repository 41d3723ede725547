import HeapAudit.Proofs.Heap.Geometry

/-!
# Which objects survive a request

A heap keeps its objects by address, and what arrives at an address takes the place of what is
there.  No operation asks whether an address is taken.  Placing and moving compare ranges of bytes
instead, and allocation relies on its pointer, which lies behind the bytes of all objects.

For objects that have bytes this is enough: an address that is taken lies in a range that is taken.
An instance without fields has none, so its range meets no other one, and neither is the pointer
pushed behind it when it is placed.  These objects are the only exception
(`Heap.arrivals_spare_iff`): what arrives takes the place of another object exactly if one of the two
has no bytes.  Allocation sets a word aside for an instance without fields, so that the next one gets
another address, but that word belongs to no range and so is not defended later.
-/

namespace HeapAudit.Heap

set_option autoImplicit false

/-! ## Arrivals -/

/-- The object that a request brings to an address, if it brings one. -/
def Request.arrival? (heap : Heap) : Request → Option (UInt64 × HeapObject)
  | .allocateObject size offsets => some (heap.next, ⟨.newObject, size, offsets, ∅⟩)
  | .allocateArray length => some (heap.next, ⟨.newArray, length, [], ∅⟩)
  | .allocatePrimitiveArray length => some (heap.next, ⟨.newPrimitiveArray, length, [], ∅⟩)
  | .place address kind size offsets => some (address, ⟨kind, size, offsets, ∅⟩)
  | .move src dst => (heap.objects.find? src).map fun object => (dst, object)
  | .set _ _ _ | .remove _ | .mark _ | .addRoot _ => none

/-- The objects that a request has no business with: all of them, but for one that it moves. -/
def Request.staying (heap : Heap) : Request → WordMap HeapObject
  | .move src _ => heap.objects.erase src
  | _ => heap.objects

/-- **A request that brings an object spares the others**: the object comes to an address where none
of them is, it is found there as it should be, and all others are found as before, in kind, size,
reference fields and slots.  Nothing else is found. -/
structure Spares (heap : Heap) (request : Request) (address : UInt64) (object : HeapObject) :
    Prop where
  free : (request.staying heap).find? address = none
  arrived : (heap.perform request).2.objects.find? address = some object
  kept : ∀ other held, (request.staying heap).find? other = some held →
    (heap.perform request).2.objects.find? other = some held
  only : ∀ other held, (heap.perform request).2.objects.find? other = some held →
    other = address ∨ (request.staying heap).find? other = some held

variable {heap : Heap} {request : Request} {address : UInt64} {object : HeapObject}
variable {answer : Option UInt64}

theorem allocate_arrives {kind : Kind} {size given : UInt64} {offsets : List UInt64} {after : Heap}
    (allocated : heap.allocate kind size offsets = (.ok given, after)) :
    given = heap.next
      ∧ after.objects = heap.objects.insert heap.next ⟨kind, size, offsets, ∅⟩ := by
  obtain ⟨same, stop, -, -, rfl⟩ := allocate_eq_ok allocated
  exact ⟨same, rfl⟩

/-- What a granted request makes of the objects. -/
theorem perform_arrival (arrival : request.arrival? heap = some (address, object))
    (granted : (heap.perform request).1 = .ok answer) :
    (∀ given ∈ answer, given = address)
      ∧ (heap.perform request).2.objects = (request.staying heap).insert address object := by
  cases request with
  | allocateObject size offsets =>
    cases arrival
    obtain ⟨given, allocated, rfl⟩ := Result.map_eq_ok granted
    obtain ⟨rfl, objects⟩ := allocate_arrives (allocateObject_eq_ok allocated).2
    exact ⟨fun _ same => (Option.some.inj same).symm, objects⟩
  | allocateArray length =>
    cases arrival
    obtain ⟨given, allocated, rfl⟩ := Result.map_eq_ok granted
    obtain ⟨rfl, objects⟩ := allocate_arrives allocated
    exact ⟨fun _ same => (Option.some.inj same).symm, objects⟩
  | allocatePrimitiveArray length =>
    cases arrival
    obtain ⟨given, allocated, rfl⟩ := Result.map_eq_ok granted
    obtain ⟨rfl, objects⟩ := allocate_arrives allocated
    exact ⟨fun _ same => (Option.some.inj same).symm, objects⟩
  | place address kind size offsets =>
    cases arrival
    obtain ⟨_, placed, rfl⟩ := Result.map_eq_ok granted
    obtain ⟨stop, -, -, -, -, same⟩ := place_eq_ok placed
    exact ⟨fun _ impossible => (by cases impossible), congrArg Heap.objects same⟩
  | move src dst =>
    obtain ⟨_, moved, rfl⟩ := Result.map_eq_ok granted
    obtain ⟨moving, found, -, -, objects, -⟩ := move_eq_ok moved
    simp only [Request.arrival?, found, Option.map_some, Option.some.injEq, Prod.mk.injEq] at arrival
    obtain ⟨rfl, rfl⟩ := arrival
    exact ⟨fun _ impossible => (by cases impossible), objects⟩
  | set | remove | mark | addRoot => cases arrival

/-! ## Objects without bytes -/

namespace Laid

variable {range : HeapRange}

/-- An object at the address of the next allocation has no bytes. -/
theorem extent_next (laid : Laid range heap) {held : HeapObject}
    (found : heap.objects.find? heap.next = some held) : held.extent = 0 := by
  have below := laid.below heap.next held found
  rw [Tract.stop] at below
  apply UInt64.toNat_inj.mp
  rw [UInt64.toNat_zero]
  dsimp only at below
  omega

/-- Of an object that is placed and one at the same address, one has no bytes: otherwise their ranges
meet. -/
theorem extent_place (laid : Laid range heap) {kind : Kind} {size : UInt64}
    {offsets : List UInt64} {after : Heap} {held : HeapObject}
    (whole : address.toNat + (extent kind size HeapObject.arrayBase).toNat < 2 ^ 64)
    (placed : heap.place address kind size offsets = (.ok (), after))
    (found : heap.objects.find? address = some held) :
    held.extent = 0 ∨ extent kind size HeapObject.arrayBase = 0 := by
  obtain ⟨stop, rfl, -, -, free, -⟩ := place_eq_ok placed
  have inside := (laid.inside address held found).2
  rw [Tract.stop] at inside
  have ends : (address + held.extent).toNat = address.toNat + held.extent.toNat :=
    toNat_add_of_lt (Nat.lt_of_le_of_lt inside (UInt64.toNat_lt _))
  have separate := free address held found
  rw [meets, Bool.and_eq_false_iff, decide_eq_false_iff_not, decide_eq_false_iff_not, UInt64.not_lt,
    UInt64.not_lt, UInt64.le_iff_toNat_le, UInt64.le_iff_toNat_le, ends,
    toNat_add_of_lt whole] at separate
  rcases separate with arriving | there
  · refine .inr (UInt64.toNat_inj.mp ?_)
    rw [UInt64.toNat_zero]
    omega
  · refine .inl (UInt64.toNat_inj.mp ?_)
    rw [UInt64.toNat_zero]
    omega

/-- **What arrives at an address that is taken** has no bytes, or what is there has none. -/
theorem extent_arrival (laid : Laid range heap)
    (arrival : request.arrival? heap = some (address, object))
    (granted : (heap.perform request).1 = .ok answer) (whole : request.Whole heap)
    {held : HeapObject} (found : (request.staying heap).find? address = some held) :
    held.extent = 0 ∨ object.extent = 0 := by
  cases request with
  | allocateObject size offsets =>
    cases arrival
    exact .inl (laid.extent_next found)
  | allocateArray length =>
    cases arrival
    exact .inl (laid.extent_next found)
  | allocatePrimitiveArray length =>
    cases arrival
    exact .inl (laid.extent_next found)
  | place address kind size offsets =>
    cases arrival
    obtain ⟨_, placed, -⟩ := Result.map_eq_ok granted
    exact laid.extent_place whole placed found
  | move src dst =>
    obtain ⟨_, moved, -⟩ := Result.map_eq_ok granted
    obtain ⟨moving, placed, present, accepted, -⟩ := move_eq_place moved
    simp only [Request.arrival?, present, Option.map_some, Option.some.injEq,
      Prod.mk.injEq] at arrival
    obtain ⟨rfl, rfl⟩ := arrival
    exact (laid.erase src).extent_place (whole moving present) accepted found
  | set | remove | mark | addRoot => cases arrival

end Laid

/-- A granted request that finds its address free spares the other objects. -/
theorem spares_iff (arrival : request.arrival? heap = some (address, object))
    (granted : (heap.perform request).1 = .ok answer) :
    heap.Spares request address object ↔ (request.staying heap).find? address = none := by
  obtain ⟨-, objects⟩ := perform_arrival arrival granted
  refine ⟨Spares.free, fun free => ⟨free, ?_, ?_, ?_⟩⟩
  · rw [objects]
    exact WordMap.find?_insert_self ..
  · intro other held found
    have elsewhere : address ≠ other := by
      rintro rfl
      rw [free] at found
      cases found
    rw [objects, WordMap.find?_insert_of_ne _ elsewhere]
    exact found
  · intro other held found
    rw [objects, WordMap.find?_insert] at found
    split at found
    · rename_i here
      exact .inl here.symm
    · exact .inr found

/-- **Who displaces whom.**  Whatever was asked of a heap from the start, as long as no range wraps
around: a granted allocation, placement or move spares all other objects exactly if it is not the
case that another object is at the address to which it brings its own and one of these two has no
bytes.  An allocation answers that address. -/
theorem arrivals_spare_iff (range : HeapRange) (requests : List Request)
    (whole : (empty range).Whole requests) (request : Request) (address : UInt64)
    (object : HeapObject) (answer : Option UInt64)
    (arrival : request.arrival? ((empty range).performAll requests) = some (address, object))
    (granted : (((empty range).performAll requests).perform request).1 = .ok answer)
    (fits : request.Whole ((empty range).performAll requests)) :
    let heap := (empty range).performAll requests
    (heap.Spares request address object
      ↔ ¬ ∃ held, (request.staying heap).find? address = some held
        ∧ (held.extent = 0 ∨ object.extent = 0))
    ∧ ∀ given ∈ answer, given = address := by
  intro heap
  have laid := (laid_empty range).performAll whole
  refine ⟨?_, (perform_arrival arrival granted).1⟩
  rw [spares_iff arrival granted]
  constructor
  · rintro free ⟨held, found, -⟩
    rw [free] at found
    cases found
  · intro solid
    cases found : (request.staying heap).find? address with
    | none => rfl
    | some held =>
      exact absurd ⟨held, found, laid.extent_arrival arrival granted fits found⟩ solid

/-- An instance without fields, and behind the word that is set aside for it one with a field. -/
def neighbours : List Request := [.allocateObject 0 [], .allocateObject 1 [0]]

/-- The second instance can be moved behind itself and spares the first one; moved to where the first
one is, it does not. -/
theorem arrivals_spare_iff_neighbours :
    let heap := (empty ⟨0x1000, 0x2000⟩).performAll neighbours
    (heap.perform (.move 0x1008 0x1010)).1 = .ok none
    ∧ heap.Spares (.move 0x1008 0x1010) 0x1010 ⟨.newObject, 1, [0], ∅⟩
    ∧ (heap.perform (.move 0x1008 0x1000)).1 = .ok none
    ∧ ¬ heap.Spares (.move 0x1008 0x1000) 0x1000 ⟨.newObject, 1, [0], ∅⟩ := by
  have whole : (empty ⟨0x1000, 0x2000⟩).Whole neighbours := by decide +kernel
  have behind := arrivals_spare_iff ⟨0x1000, 0x2000⟩ neighbours whole (.move 0x1008 0x1010) 0x1010
    ⟨.newObject, 1, [0], ∅⟩ none (by decide +kernel) rfl (by decide +kernel)
  have onto := arrivals_spare_iff ⟨0x1000, 0x2000⟩ neighbours whole (.move 0x1008 0x1000) 0x1000
    ⟨.newObject, 1, [0], ∅⟩ none (by decide +kernel) rfl (by decide +kernel)
  refine ⟨rfl, behind.1.mpr ?_, rfl, fun spared => onto.1.mp spared ?_⟩
  · rintro ⟨held, found, -⟩
    have nobody : (Request.staying ((empty ⟨0x1000, 0x2000⟩).performAll neighbours)
        (.move 0x1008 0x1010)).find? 0x1010 = none := by decide +kernel
    rw [nobody] at found
    cases found
  · exact ⟨⟨.newObject, 0, [], ∅⟩, by decide +kernel, .inl (by decide)⟩

/-- The objects on `[0x1000, 0x2000)` after requests: their addresses, sizes and slots. -/
def listing (requests : List Request) : List (UInt64 × UInt64 × List (UInt64 × UInt64)) :=
  ((empty ⟨0x1000, 0x2000⟩).performAll requests).objects.entries.map fun entry =>
    (entry.1, entry.2.size, entry.2.slots.entries)

/-- **Objects are lost** to an instance without fields that is placed on them, to an allocation after
such an instance was placed at the pointer, and to a move on one that was allocated. -/
theorem arrivals_displace :
    (empty ⟨0x1000, 0x2000⟩).Whole
      [.allocateObject 1 [0], .set 0x1000 0 0x1000, .place 0x1000 .newObject 0 []]
    ∧ listing [.allocateObject 1 [0], .set 0x1000 0 0x1000] = [(0x1000, 1, [(0, 0x1000)])]
    ∧ listing [.allocateObject 1 [0], .set 0x1000 0 0x1000, .place 0x1000 .newObject 0 []]
      = [(0x1000, 0, [])]
    ∧ (empty ⟨0x1000, 0x2000⟩).Whole [.place 0x1000 .newObject 0 [], .allocateArray 1]
    ∧ listing [.place 0x1000 .newObject 0 []] = [(0x1000, 0, [])]
    ∧ listing [.place 0x1000 .newObject 0 [], .allocateArray 1] = [(0x1000, 1, [])]
    ∧ (empty ⟨0x1000, 0x2000⟩).Whole (neighbours ++ [.move 0x1008 0x1000])
    ∧ listing neighbours = [(0x1000, 0, []), (0x1008, 1, [])]
    ∧ listing (neighbours ++ [.move 0x1008 0x1000]) = [(0x1000, 1, [])] := by
  refine ⟨?_, ?_, ?_, ?_, ?_, ?_, ?_, ?_, ?_⟩ <;> decide +kernel

end HeapAudit.Heap
