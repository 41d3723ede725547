import HeapAudit.Data.WordMap
import HeapAudit.Event.Slot
import HeapAudit.Failure
import HeapAudit.Heap.Extent

/-!
# The reference heap

The live heap that recorded events are checked against: objects at addresses,
their reference slots, the forwarding addresses that moves leave behind, mark bits
and roots.  Allocation takes addresses from a pointer that only grows; objects can
also be placed at a chosen free range.

Operations return their outcome next to the heap they leave behind, also when they
are refused.
-/

namespace HeapAudit

set_option autoImplicit false

/-- An object of the live heap. -/
structure HeapObject where
  kind : Kind
  /-- The number of words of an instance, or of elements of an array. -/
  size : UInt64
  /-- The byte offsets of the reference fields of an instance. -/
  referenceOffsets : List UInt64
  /-- The references stored so far, by byte offset. -/
  slots : WordMap UInt64
  deriving DecidableEq

/-- The live heap. -/
structure Heap where
  range : HeapRange
  /-- The address of the next allocation. -/
  next : UInt64
  objects : WordMap HeapObject
  /-- Where moved objects went, by their former address. -/
  forwarding : WordMap UInt64
  marks : WordMap Unit
  roots : List UInt64

namespace HeapObject

/-- The offset of the first element of an array. -/
def arrayBase : UInt64 := 16

/-- The number of bytes of an object. -/
def extent (object : HeapObject) : UInt64 := HeapAudit.extent object.kind object.size arrayBase

/-- Whether the object holds a reference at a byte offset. -/
def isReferenceSlot (object : HeapObject) (offset : UInt64) : Bool :=
  match object.kind with
  | .newObject => object.referenceOffsets.contains offset
  | .newArray =>
    arrayBase ≤ offset && offset % wordSize == 0 && (offset - arrayBase) / wordSize < object.size
  | _ => false

/-- The reference stored at a byte offset; null if none was stored. -/
def reference (object : HeapObject) (offset : UInt64) : UInt64 := (object.slots.find? offset).getD 0

/-- The greatest number of references that fit into the address space. -/
def maxReferences : UInt64 := 0x100000000000

/-- The reference slots of an object with their content, by increasing element for arrays. -/
def references (object : HeapObject) : Except Cause (List (UInt64 × UInt64)) :=
  match object.kind with
  | .newObject => .ok (object.referenceOffsets.map fun offset => (offset, object.reference offset))
  | .newArray =>
    if maxReferences < object.size then .error .bufferTooLarge
    else .ok ((List.range object.size.toNat).map fun index =>
      let offset := arrayBase + index.toUInt64 * wordSize
      (offset, object.reference offset))
  | _ => .ok []

end HeapObject

namespace Heap

/-- The heap without objects. -/
def empty (range : HeapRange) : Heap where
  range := range
  next := range.low
  objects := ∅
  forwarding := ∅
  marks := ∅
  roots := []

/-- What an operation answers, and the heap it leaves. -/
abbrev Result (α : Type) := Except Cause α × Heap

/-! ## Allocation -/

/-- Takes the next free range for an object; an object without bytes takes one word. -/
def allocate (heap : Heap) (kind : Kind) (size : UInt64) (referenceOffsets : List UInt64) :
    Result UInt64 :=
  let bytes := extent kind size HeapObject.arrayBase
  let stop := heap.next + (if bytes = 0 then wordSize else bytes)
  if heap.range.high < stop then (.error .outOfSpace, heap)
  else
    (.ok heap.next,
      { heap with
        objects := heap.objects.insert heap.next ⟨kind, size, referenceOffsets, ∅⟩
        next := stop })

/-- Whether a reference field is a word of an instance. -/
def isFieldOffset (size offset : UInt64) : Bool :=
  offset % wordSize == 0 && offset < size * wordSize

/-- Allocates an instance with reference fields at the given byte offsets. -/
def allocateObject (heap : Heap) (size : UInt64) (referenceOffsets : List UInt64) :
    Result UInt64 :=
  match referenceOffsets.find? fun offset => !isFieldOffset size offset with
  | some offset => (.error (.badReferenceField offset size), heap)
  | none => heap.allocate .newObject size referenceOffsets

/-- Allocates an array of references. -/
def allocateArray (heap : Heap) (length : UInt64) : Result UInt64 :=
  heap.allocate .newArray length []

/-- Allocates an array without references. -/
def allocatePrimitiveArray (heap : Heap) (length : UInt64) : Result UInt64 :=
  heap.allocate .newPrimitiveArray length []

/-- Whether the range of an object at an address meets a range. -/
def meets (address : UInt64) (object : HeapObject) (start stop : UInt64) : Bool :=
  address < stop && start < address + object.extent

/-- Puts an object at an address whose range is free. -/
def place (heap : Heap) (address : UInt64) (kind : Kind) (size : UInt64)
    (referenceOffsets : List UInt64) : Result Unit :=
  let stop := address + extent kind size HeapObject.arrayBase
  if address < heap.range.low || heap.range.high < stop then
    (.error (.outsideHeap address stop), heap)
  else if heap.objects.entries.any fun entry => meets entry.1 entry.2 address stop then
    (.error (.overlap address stop), heap)
  else
    (.ok (),
      { heap with
        objects := heap.objects.insert address ⟨kind, size, referenceOffsets, ∅⟩
        next := if heap.next < stop then stop else heap.next })

/-! ## References -/

/-- Stores a reference in a slot. -/
def set (heap : Heap) (address offset value : UInt64) : Result Unit :=
  match heap.objects.find? address with
  | none => (.error (.noObject address), heap)
  | some object =>
    if object.isReferenceSlot offset then
      (.ok (),
        { heap with
          objects := heap.objects.insert address
            { object with slots := object.slots.insert offset value } })
    else (.error (.noReferenceSlot offset address), heap)

/-- The reference stored at a byte offset of an object. -/
def get (heap : Heap) (address offset : UInt64) : Except Cause UInt64 :=
  match heap.objects.find? address with
  | none => .error (.noObject address)
  | some object => .ok (object.reference offset)

/-- The reference slots of an object with their content; none for a missing object. -/
def references (heap : Heap) (address : UInt64) : Except Cause (List (UInt64 × UInt64)) :=
  match heap.objects.find? address with
  | none => .ok []
  | some object => object.references

/-- The reference fields of an instance. -/
def referenceOffsets? (heap : Heap) (address : UInt64) : Option (List UInt64) :=
  match heap.objects.find? address with
  | some object => if object.kind = .newObject then some object.referenceOffsets else none
  | none => none

/-! ## Moving, marking, removing -/

/-- Moves an object and leaves its new address behind.  The object is lifted out before its new
place is looked for, and put back if that place is refused. -/
def move (heap : Heap) (src dst : UInt64) : Result Unit :=
  match heap.objects.find? src with
  | none => (.error (.noObject src), heap)
  | some object =>
    let lifted := { heap with objects := heap.objects.erase src }
    match lifted.place dst object.kind object.size object.referenceOffsets with
    | (.error cause, left) =>
      (.error cause, { left with objects := left.objects.insert src object })
    | (.ok (), placed) =>
      (.ok (),
        { placed with
          objects := placed.objects.insert dst object
          forwarding := placed.forwarding.insert src dst
          marks := if placed.marks.contains src then (placed.marks.erase src).insert dst ()
            else placed.marks })

/-- Frees an object. -/
def remove (heap : Heap) (address : UInt64) : Heap :=
  { heap with objects := heap.objects.erase address, marks := heap.marks.erase address }

/-- Sets the mark bit of an address. -/
def mark (heap : Heap) (address : UInt64) : Heap :=
  { heap with marks := heap.marks.insert address () }

/-- Adds a root. -/
def addRoot (heap : Heap) (address : UInt64) : Heap :=
  { heap with roots := heap.roots ++ [address] }

/-- Whether the mark bit of an address is set. -/
def isMarked (heap : Heap) (address : UInt64) : Bool := heap.marks.contains address

/-- Where the object that was at an address went. -/
def forwardee? (heap : Heap) (address : UInt64) : Option UInt64 := heap.forwarding.find? address

end Heap

end HeapAudit
