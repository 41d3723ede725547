import HeapAudit.Proofs.Heap.Scene

/-!
# Where objects lie in a heap

Allocation never asks whether its range is free.  It can do without because no object reaches
beyond the pointer that it takes addresses from, and placing an object at a chosen address or moving
one there keeps it so: both compare their range with that of every other object and push the pointer
behind it.

This is the invariant of a heap (`Heap.Laid`): its objects lie in its range, below the pointer, and
apart from each other.  Every request keeps it (`Heap.Laid.perform`) as long as the end of the range
that it gives to an object does not wrap around (`Heap.Request.Whole`).  Requests that are refused
leave nothing behind at all (`Heap.perform_refused`), although a move takes its object out before it
knows whether there is a place for it.
-/

namespace HeapAudit.Heap

set_option autoImplicit false

/-! ## Requests -/

/-- What can be asked of a heap. -/
inductive Request where
  | allocateObject (size : UInt64) (referenceOffsets : List UInt64)
  | allocateArray (length : UInt64)
  | allocatePrimitiveArray (length : UInt64)
  | place (address : UInt64) (kind : Kind) (size : UInt64) (referenceOffsets : List UInt64)
  | set (address offset value : UInt64)
  | move (src dst : UInt64)
  | remove (address : UInt64)
  | mark (address : UInt64)
  | addRoot (address : UInt64)
  deriving DecidableEq

/-- An answer with the address of a new object, if there is one. -/
def Result.map {α : Type} (address? : α → Option UInt64) (result : Result α) :
    Result (Option UInt64) :=
  (result.1.map address?, result.2)

/-- Answers a request. -/
def perform (heap : Heap) : Request → Result (Option UInt64)
  | .allocateObject size offsets => (heap.allocateObject size offsets).map some
  | .allocateArray length => (heap.allocateArray length).map some
  | .allocatePrimitiveArray length => (heap.allocatePrimitiveArray length).map some
  | .place address kind size offsets => (heap.place address kind size offsets).map fun _ => none
  | .set address offset value => (heap.set address offset value).map fun _ => none
  | .move src dst => (heap.move src dst).map fun _ => none
  | .remove address => (.ok none, heap.remove address)
  | .mark address => (.ok none, heap.mark address)
  | .addRoot address => (.ok none, heap.addRoot address)

/-- The heap that is left when requests have been answered in order. -/
def performAll (heap : Heap) (requests : List Request) : Heap :=
  requests.foldl (fun heap request => (heap.perform request).2) heap

/-- The number of bytes that allocation sets aside for an object. -/
def room (kind : Kind) (size : UInt64) : UInt64 :=
  let bytes := extent kind size HeapObject.arrayBase
  if bytes = 0 then wordSize else bytes

/-- The end of the range that a request gives to an object does not wrap around. -/
def Request.Whole (heap : Heap) : Request → Prop
  | .allocateObject size _ => heap.next.toNat + (room .newObject size).toNat < 2 ^ 64
  | .allocateArray length => heap.next.toNat + (room .newArray length).toNat < 2 ^ 64
  | .allocatePrimitiveArray length =>
    heap.next.toNat + (room .newPrimitiveArray length).toNat < 2 ^ 64
  | .place address kind size _ =>
    address.toNat + (extent kind size HeapObject.arrayBase).toNat < 2 ^ 64
  | .move src dst => ∀ object ∈ heap.objects.find? src, dst.toNat + object.extent.toNat < 2 ^ 64
  | .set _ _ _ | .remove _ | .mark _ | .addRoot _ => True

/-- Nothing wraps around in requests that are granted one after the other. -/
def Whole (heap : Heap) : List Request → Prop
  | [] => True
  | request :: rest =>
    ((heap.perform request).1.isOk = true → request.Whole heap)
      ∧ Whole (heap.perform request).2 rest

instance (heap : Heap) : (request : Request) → Decidable (request.Whole heap)
  | .allocateObject _ _ | .allocateArray _ | .allocatePrimitiveArray _ | .place _ _ _ _ =>
    inferInstanceAs (Decidable (_ < _))
  | .move src dst => inferInstanceAs (Decidable (∀ object ∈ heap.objects.find? src,
      dst.toNat + object.extent.toNat < 2 ^ 64))
  | .set _ _ _ | .remove _ | .mark _ | .addRoot _ => .isTrue trivial

instance decidableWhole (heap : Heap) : (requests : List Request) → Decidable (heap.Whole requests)
  | [] => .isTrue trivial
  | request :: rest =>
    have := decidableWhole (heap.perform request).2 rest
    inferInstanceAs (Decidable ((_ → _) ∧ _))

/-! ## Refused requests -/

section Refusals

variable {heap after : Heap} {cause : Cause}

theorem allocate_refused {kind : Kind} {size : UInt64} {offsets : List UInt64}
    (refused : heap.allocate kind size offsets = (.error cause, after)) : after = heap := by
  by_cases full : heap.range.high < heap.next + room kind size
  · have answer : heap.allocate kind size offsets = (.error .outOfSpace, heap) := if_pos full
    rw [answer] at refused
    cases refused
    rfl
  · have answer : (heap.allocate kind size offsets).1 = .ok heap.next :=
      congrArg Prod.fst (if_neg full)
    rw [refused] at answer
    cases answer

theorem allocateObject_refused {size : UInt64} {offsets : List UInt64}
    (refused : heap.allocateObject size offsets = (.error cause, after)) : after = heap := by
  rw [allocateObject] at refused
  split at refused
  · cases refused
    rfl
  · exact allocate_refused refused

theorem place_refused {address : UInt64} {kind : Kind} {size : UInt64} {offsets : List UInt64}
    (refused : heap.place address kind size offsets = (.error cause, after)) : after = heap := by
  simp only [place] at refused
  split at refused
  · cases refused
    rfl
  · split at refused <;> cases refused
    rfl

theorem set_refused {address offset value : UInt64}
    (refused : heap.set address offset value = (.error cause, after)) : after = heap := by
  rw [set] at refused
  split at refused
  · cases refused
    rfl
  · split at refused <;> cases refused
    rfl

/-- The object of a move that is refused is put back where it was. -/
theorem move_refused {src dst : UInt64} (refused : heap.move src dst = (.error cause, after)) :
    after = heap := by
  rw [move] at refused
  split at refused
  · cases refused
    rfl
  · rename_i object found
    dsimp only at refused
    split at refused
    · rename_i left declined
      cases refused
      rw [place_refused declined, WordMap.insert_erase_self, WordMap.insert_of_find? found]
    · cases refused

theorem Result.map_eq_error {α : Type} {address? : α → Option UInt64} {result : Result α}
    (refused : (result.map address?).1 = .error cause) : result = (.error cause, result.2) := by
  obtain ⟨outcome, after⟩ := result
  cases outcome with
  | error other =>
    cases refused
    rfl
  | ok value => cases refused

theorem Result.map_eq_ok {α : Type} {address? : α → Option UInt64} {result : Result α}
    {answer : Option UInt64} (granted : (result.map address?).1 = .ok answer) :
    ∃ value, result = (.ok value, result.2) ∧ answer = address? value := by
  obtain ⟨outcome, after⟩ := result
  cases outcome with
  | error cause => cases granted
  | ok value =>
    cases granted
    exact ⟨value, rfl, rfl⟩

/-- **A request that is refused leaves the heap as it was.** -/
theorem perform_refused {request : Request} (refused : (heap.perform request).1 = .error cause) :
    (heap.perform request).2 = heap := by
  cases request with
  | allocateObject size offsets => exact allocateObject_refused (Result.map_eq_error refused)
  | allocateArray length => exact allocate_refused (Result.map_eq_error refused)
  | allocatePrimitiveArray length => exact allocate_refused (Result.map_eq_error refused)
  | place address kind size offsets => exact place_refused (Result.map_eq_error refused)
  | set address offset value => exact set_refused (Result.map_eq_error refused)
  | move src dst => exact move_refused (Result.map_eq_error refused)
  | remove | mark | addRoot => cases refused

end Refusals

/-! ## Objects side by side -/

/-- **Where the objects of a heap with a range lie.** -/
structure Laid (range : HeapRange) (heap : Heap) : Prop where
  range_eq : heap.range = range
  low_le : range.low.toNat ≤ heap.next.toNat
  inside : ∀ address object, heap.objects.find? address = some object →
    range.low.toNat ≤ address.toNat
      ∧ Tract.stop ⟨address, object.extent⟩ ≤ range.high.toNat
  below : ∀ address object, heap.objects.find? address = some object →
    Tract.stop ⟨address, object.extent⟩ ≤ heap.next.toNat
  apart : ∀ first object second other, heap.objects.find? first = some object →
    heap.objects.find? second = some other → first ≠ second →
    Tract.Apart ⟨first, object.extent⟩ ⟨second, other.extent⟩

theorem laid_empty (range : HeapRange) : Laid range (empty range) where
  range_eq := rfl
  low_le := Nat.le_refl _
  inside := fun address object found => by
    rw [empty, WordMap.find?_empty] at found
    cases found
  below := fun address object found => by
    rw [empty, WordMap.find?_empty] at found
    cases found
  apart := fun first object second other found => by
    rw [empty, WordMap.find?_empty] at found
    cases found

namespace Laid

variable {range : HeapRange} {heap after : Heap}

/-- Objects may disappear, and they may change in everything but their number of bytes. -/
theorem congr (laid : Laid range heap) (bounds : after.range = heap.range)
    (next : after.next = heap.next)
    (objects : ∀ address object, after.objects.find? address = some object →
      ∃ before, heap.objects.find? address = some before ∧ before.extent = object.extent) :
    Laid range after where
  range_eq := bounds.trans laid.range_eq
  low_le := by
    rw [next]
    exact laid.low_le
  inside := by
    intro address object found
    obtain ⟨before, held, same⟩ := objects address object found
    rw [← same]
    exact laid.inside address before held
  below := by
    intro address object found
    obtain ⟨before, held, same⟩ := objects address object found
    rw [next, ← same]
    exact laid.below address before held
  apart := by
    intro first object second other found present different
    obtain ⟨before, held, same⟩ := objects first object found
    obtain ⟨beside, present, alike⟩ := objects second other present
    rw [← same, ← alike]
    exact laid.apart first before second beside held present different

/-- An object comes to an address apart from all objects at other addresses. -/
theorem put (laid : Laid range heap) {address : UInt64} {object : HeapObject}
    (bounds : after.range = heap.range)
    (objects : after.objects = heap.objects.insert address object)
    (grown : heap.next.toNat ≤ after.next.toNat)
    (low : range.low.toNat ≤ address.toNat)
    (high : Tract.stop ⟨address, object.extent⟩ ≤ range.high.toNat)
    (below : Tract.stop ⟨address, object.extent⟩ ≤ after.next.toNat)
    (fresh : ∀ place other, heap.objects.find? place = some other → place ≠ address →
      Tract.Apart ⟨address, object.extent⟩ ⟨place, other.extent⟩) : Laid range after where
  range_eq := bounds.trans laid.range_eq
  low_le := Nat.le_trans laid.low_le grown
  inside := by
    intro place other found
    rw [objects, WordMap.find?_insert] at found
    split at found
    · rename_i here
      cases found
      exact here ▸ ⟨low, high⟩
    · exact laid.inside place other found
  below := by
    intro place other found
    rw [objects, WordMap.find?_insert] at found
    split at found
    · rename_i here
      cases found
      exact here ▸ below
    · exact Nat.le_trans (laid.below place other found) grown
  apart := by
    intro first held second other found present different
    rw [objects, WordMap.find?_insert] at found present
    split at found
    · rename_i here
      subst here
      cases found
      rw [if_neg different] at present
      exact fresh second other present (Ne.symm different)
    · rename_i elsewhere
      split at present
      · rename_i here
        subst here
        cases present
        exact (fresh first held found different).symm
      · exact laid.apart first held second other found present different

theorem allocate (laid : Laid range heap) {kind : Kind} {size address : UInt64}
    {offsets : List UInt64}
    (whole : heap.next.toNat + (room kind size).toNat < 2 ^ 64)
    (allocated : heap.allocate kind size offsets = (.ok address, after)) : Laid range after := by
  obtain ⟨-, stop, reached, high, rfl⟩ := allocate_eq_ok allocated
  rw [laid.range_eq, UInt64.le_iff_toNat_le] at high
  have sum : stop.toNat = heap.next.toNat + (room kind size).toNat := by
    rw [reached]
    exact toNat_add_of_lt whole
  have bytes : (extent kind size HeapObject.arrayBase).toNat ≤ (room kind size).toNat := by
    rw [room]
    split
    · rename_i none
      rw [none]
      exact Nat.zero_le _
    · exact Nat.le_refl _
  have within : Tract.stop ⟨heap.next, extent kind size HeapObject.arrayBase⟩ ≤ stop.toNat := by
    rw [Tract.stop, sum]
    exact Nat.add_le_add_left bytes _
  refine laid.put rfl rfl ?_ laid.low_le ?_ within ?_
  · dsimp only
    omega
  · exact Nat.le_trans within high
  · -- no object reaches beyond the address that is taken
    intro place other found elsewhere
    exact .inr (laid.below place other found)

end Laid

theorem place_eq_ok {heap after : Heap} {address : UInt64} {kind : Kind} {size : UInt64}
    {offsets : List UInt64} (placed : heap.place address kind size offsets = (.ok (), after)) :
    ∃ stop, stop = address + extent kind size HeapObject.arrayBase
      ∧ heap.range.low ≤ address ∧ stop ≤ heap.range.high
      ∧ (∀ other object, heap.objects.find? other = some object →
        meets other object address stop = false)
      ∧ after = { heap with
          objects := heap.objects.insert address ⟨kind, size, offsets, ∅⟩
          next := if heap.next < stop then stop else heap.next } := by
  simp only [place] at placed
  split at placed
  · cases placed
  · rename_i inside
    split at placed
    · cases placed
    · rename_i free
      cases placed
      simp only [Bool.or_eq_true, decide_eq_true_eq, not_or, UInt64.not_lt] at inside
      refine ⟨_, rfl, inside.1, inside.2, fun other object found => ?_, rfl⟩
      refine Bool.eq_false_iff.mpr fun meeting => free ?_
      exact List.any_eq_true.mpr ⟨(other, object), WordMap.mem_entries.mpr found, meeting⟩

/-- An object that moves is placed anew in the heap without it, and keeps its slots. -/
theorem move_eq_place {heap after : Heap} {src dst : UInt64}
    (moved : heap.move src dst = (.ok (), after)) :
    ∃ object placed, heap.objects.find? src = some object
      ∧ place { heap with objects := heap.objects.erase src } dst object.kind object.size
        object.referenceOffsets = (.ok (), placed)
      ∧ after = { placed with
          objects := placed.objects.insert dst object
          forwarding := placed.forwarding.insert src dst
          marks := if placed.marks.contains src then (placed.marks.erase src).insert dst ()
            else placed.marks } := by
  rw [move] at moved
  split at moved
  · cases moved
  · rename_i object found
    dsimp only at moved
    split at moved
    · cases moved
    · rename_i placed accepted
      cases moved
      exact ⟨object, placed, found, accepted, rfl⟩

namespace Laid

variable {range : HeapRange} {heap after : Heap}

theorem place (laid : Laid range heap) {address : UInt64} {kind : Kind} {size : UInt64}
    {offsets : List UInt64}
    (whole : address.toNat + (extent kind size HeapObject.arrayBase).toNat < 2 ^ 64)
    (placed : heap.place address kind size offsets = (.ok (), after)) : Laid range after := by
  obtain ⟨stop, reached, low, high, free, rfl⟩ := place_eq_ok placed
  have sum : stop.toNat = Tract.stop ⟨address, extent kind size HeapObject.arrayBase⟩ := by
    rw [reached]
    exact toNat_add_of_lt whole
  rw [laid.range_eq, UInt64.le_iff_toNat_le] at low high
  refine laid.put rfl rfl ?_ low (sum ▸ high) ?_ ?_
  · dsimp only
    split
    · rename_i behind
      exact Nat.le_of_lt (UInt64.lt_iff_toNat_lt.mp behind)
    · exact Nat.le_refl _
  · show Tract.stop ⟨address, extent kind size HeapObject.arrayBase⟩ ≤ _
    rw [← sum]
    dsimp only
    split
    · exact Nat.le_refl _
    · rename_i before
      exact UInt64.le_iff_toNat_le.mp (UInt64.not_lt.mp before)
  · intro place other found elsewhere
    have stops : (place + other.extent).toNat = place.toNat + other.extent.toNat := by
      refine toNat_add_of_lt ?_
      have within := (laid.inside place other found).2
      rw [Tract.stop] at within
      exact Nat.lt_of_le_of_lt within (UInt64.toNat_lt _)
    have separate := free place other found
    rw [meets, Bool.and_eq_false_iff, decide_eq_false_iff_not, decide_eq_false_iff_not,
      UInt64.not_lt, UInt64.not_lt, UInt64.le_iff_toNat_le, UInt64.le_iff_toNat_le, stops,
      sum] at separate
    exact separate

/-- Taking an object out leaves the others where they are. -/
theorem erase (laid : Laid range heap) (address : UInt64) :
    Laid range { heap with objects := heap.objects.erase address } := by
  refine laid.congr rfl rfl fun place other present => ⟨other, ?_, rfl⟩
  rw [WordMap.find?_erase] at present
  split at present
  · cases present
  · exact present

/-- A move takes an object out and places it elsewhere, with its slots. -/
theorem move (laid : Laid range heap) {src dst : UInt64}
    (whole : Request.Whole heap (.move src dst))
    (moved : heap.move src dst = (.ok (), after)) : Laid range after := by
  obtain ⟨object, placed, found, accepted, rfl⟩ := move_eq_place moved
  have set := (laid.erase src).place (whole object found) accepted
  obtain ⟨_, _, _, _, _, same⟩ := place_eq_ok accepted
  refine set.congr rfl rfl fun address other present => ?_
  rw [WordMap.find?_insert] at present
  split at present
  · rename_i here
    cases present
    refine ⟨⟨object.kind, object.size, object.referenceOffsets, ∅⟩, ?_, rfl⟩
    rw [same, ← here]
    exact WordMap.find?_insert_self ..
  · exact ⟨other, present, rfl⟩

theorem set (laid : Laid range heap) {address offset value : UInt64}
    (stored : heap.set address offset value = (.ok (), after)) : Laid range after := by
  obtain ⟨object, found, -, rfl⟩ := set_eq_ok stored
  refine laid.congr rfl rfl fun place other present => ?_
  rw [WordMap.find?_insert] at present
  split at present
  · rename_i here
    cases present
    exact ⟨object, here ▸ found, rfl⟩
  · exact ⟨other, present, rfl⟩

theorem remove (laid : Laid range heap) (address : UInt64) :
    Laid range (heap.remove address) :=
  (laid.erase address).congr rfl rfl fun _ object present => ⟨object, present, rfl⟩

/-- **One request** keeps the objects apart and below the pointer. -/
theorem perform (laid : Laid range heap) {request : Request}
    (whole : (heap.perform request).1.isOk = true → request.Whole heap) :
    Laid range (heap.perform request).2 := by
  cases outcome : (heap.perform request).1 with
  | error cause =>
    rw [perform_refused outcome]
    exact laid
  | ok answer =>
    have whole := whole (by rw [outcome]; rfl)
    cases request with
    | allocateObject size offsets =>
      obtain ⟨address, granted, -⟩ := Result.map_eq_ok outcome
      exact laid.allocate whole (allocateObject_eq_ok granted).2
    | allocateArray length =>
      obtain ⟨address, granted, -⟩ := Result.map_eq_ok outcome
      exact laid.allocate whole granted
    | allocatePrimitiveArray length =>
      obtain ⟨address, granted, -⟩ := Result.map_eq_ok outcome
      exact laid.allocate whole granted
    | place address kind size offsets =>
      obtain ⟨_, granted, -⟩ := Result.map_eq_ok outcome
      exact laid.place whole granted
    | set address offset value =>
      obtain ⟨_, granted, -⟩ := Result.map_eq_ok outcome
      exact laid.set granted
    | move src dst =>
      obtain ⟨_, granted, -⟩ := Result.map_eq_ok outcome
      exact laid.move whole granted
    | remove address => exact laid.remove address
    | mark address =>
      exact laid.congr rfl rfl fun _ object present => ⟨object, present, rfl⟩
    | addRoot address =>
      exact laid.congr rfl rfl fun _ object present => ⟨object, present, rfl⟩

/-- **Many requests**, by one request after the other. -/
theorem performAll {requests : List Request} (laid : Laid range heap)
    (whole : heap.Whole requests) : Laid range (heap.performAll requests) := by
  induction requests generalizing heap with
  | nil => exact laid
  | cons request rest onward => exact onward (laid.perform whole.1) whole.2

end Laid

/-- **The geometry of a heap.**  Whatever is asked of a heap from the start, as long as no range of
a new or moved object wraps around: every object lies in the range of the heap and ends at or below
the pointer of the next allocation, no two objects have a byte in common, the objects are listed by
increasing address, and whatever is refused leaves the heap exactly as it was. -/
theorem requests_keep_objects_apart (range : HeapRange) (requests : List Request)
    (whole : (empty range).Whole requests) :
    let heap := (empty range).performAll requests
    (∀ address object, heap.objects.find? address = some object →
      range.low.toNat ≤ address.toNat
        ∧ address.toNat + object.extent.toNat ≤ range.high.toNat
        ∧ address.toNat + object.extent.toNat ≤ heap.next.toNat)
    ∧ (∀ first object second other, heap.objects.find? first = some object →
      heap.objects.find? second = some other → first ≠ second → ∀ byte : Nat,
      first.toNat ≤ byte → byte < first.toNat + object.extent.toNat →
      ¬ (second.toNat ≤ byte ∧ byte < second.toNat + other.extent.toNat))
    ∧ heap.objects.entries.Pairwise (fun earlier later => earlier.1 < later.1)
    ∧ ∀ request cause, (heap.perform request).1 = .error cause →
      (heap.perform request).2 = heap := by
  have laid := (laid_empty range).performAll whole
  refine ⟨?_, ?_, WordMap.ordered_entries _, fun request cause refused => perform_refused refused⟩
  · intro address object found
    obtain ⟨low, high⟩ := laid.inside address object found
    exact ⟨low, high, laid.below address object found⟩
  · rintro first object second other found present different byte above below ⟨start, stop⟩
    have apart := laid.apart first object second other found present different
    simp only [Tract.Apart, Tract.stop] at apart
    omega

/-- An instance without fields, an array, an object placed behind a gap, and moves: one into the gap
and one that is refused because the array is in the way. -/
def busy : List Request :=
  [.allocateObject 0 [], .allocateArray 2, .place 0x1100 .newObject 1 [], .mark 0x1100,
    .move 0x1100 0x1030, .set 0x1008 16 0x1030, .move 0x1030 0x1010, .allocatePrimitiveArray 3]

/-- The objects of a busy heap lie apart. -/
theorem requests_keep_objects_apart_busy :
    (empty ⟨0x1000, 0x2000⟩).Whole busy
    ∧ ((empty ⟨0x1000, 0x2000⟩).performAll busy).objects.entries.map
        (fun entry => (entry.1, entry.2.extent))
      = [(0x1000, 0), (0x1008, 32), (0x1030, 8), (0x1108, 40)]
    ∧ ∀ byte : Nat, 0x1008 ≤ byte → byte < 0x1008 + 32 → ¬ (0x1030 ≤ byte ∧ byte < 0x1030 + 8) := by
  have whole : (empty ⟨0x1000, 0x2000⟩).Whole busy := by decide +kernel
  refine ⟨whole, by decide +kernel, ?_⟩
  exact (requests_keep_objects_apart ⟨0x1000, 0x2000⟩ busy whole).2.1 0x1008
    ⟨.newArray, 2, [], (∅ : WordMap UInt64).insert 16 0x1030⟩ 0x1030 ⟨.newObject, 1, [], ∅⟩
    (by decide +kernel) (by decide +kernel) (by decide)

end HeapAudit.Heap
