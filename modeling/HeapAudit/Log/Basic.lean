import HeapAudit.Data.WordMap
import HeapAudit.Event.Slot
import HeapAudit.Memory.Protection

/-!
# Event logs

A log records the events of one mutator.  Its region is laid out as two halves,
each followed by a guard page:

    [half] [guard page] [half] [guard page]

The first slot of a half counts the events stored behind it.  One half is active
and only that one can be written, so the first store past its end hits the guard
page and faults.  `Log.flip` seals the active half and opens the other one;
`Log.reset` drains both.

Sizes are computed in 64-bit words and wrap around for absurd capacities;
`Log.create` is exact about what happens then.
-/

namespace HeapAudit

set_option autoImplicit false

/-- The two halves of a log. -/
inductive Side where
  | first
  | second
  deriving DecidableEq, Inhabited

/-- The other half. -/
def Side.other : Side → Side
  | first => second
  | second => first

/-- The memory of a half: the counter in its first slot and the slots written behind it, counted
from the first one behind the counter.  Slots never written are zero. -/
structure Half where
  count : UInt64 := 0
  slots : WordMap Event := ∅
  deriving DecidableEq, Inhabited

namespace Half

/-- Writes a slot. -/
def write (half : Half) (slot : UInt64) (event : Event) : Half :=
  { half with slots := half.slots.insert slot event }

/-- The content of a slot. -/
def read (half : Half) (slot : UInt64) : Event := (half.slots.find? slot).getD default

/-- The given number of slots behind the counter. -/
def take (half : Half) (count : Nat) : List Event :=
  (List.range count).map fun index => half.read index.toUInt64

/-- A slot holds what was written to it last. -/
theorem read_write (half : Half) (slot : UInt64) (event : Event) (sought : UInt64) :
    (half.write slot event).read sought = if slot = sought then event else half.read sought := by
  rw [read, write, WordMap.find?_insert]
  split <;> rfl

/-- The events that the counter counts. -/
def events (half : Half) : List Event := half.take half.count.toNat

end Half

/-- The log of one mutator. -/
structure Log where
  /-- The address at which the region is mapped. -/
  base : UInt64
  /-- The number of bytes of each half. -/
  halfBytes : UInt64
  protection : Memory.Protection
  first : Half
  second : Half
  active : Side
  /-- Whether the inactive half still holds events that are not drained. -/
  isSealed : Bool
  isClosed : Bool
  deriving DecidableEq, Inhabited

namespace Log

open Memory (pageSize)

/-! ## Geometry -/

/-- The number of bytes of a half that holds a number of events behind its counter. -/
def halfSize (requested : UInt64) : UInt64 := Memory.roundUp ((requested + 1) * Event.byteSize)

/-- The number of events that fit into a half of a given number of bytes. -/
def slotsIn (halfBytes : UInt64) : UInt64 := halfBytes / Event.byteSize - 1

/-- The capacity of a log created for a requested capacity. -/
def capacityFor (requested : UInt64) : UInt64 := slotsIn (halfSize requested)

/-- The number of bytes of the whole region. -/
def regionBytes (halfBytes : UInt64) : UInt64 := 2 * halfBytes + 2 * pageSize

/-- Where a half starts in the region. -/
def halfOffset (halfBytes : UInt64) : Side → UInt64
  | .first => 0
  | .second => halfBytes + pageSize

/-- The number of events that fit into one half. -/
def capacity (log : Log) : UInt64 := slotsIn log.halfBytes

/-- The address right behind the active half. -/
def guardAddress (log : Log) : UInt64 :=
  log.base + halfOffset log.halfBytes log.active + log.halfBytes

/-- Whether an address belongs to the region of the log. -/
def owns (log : Log) (address : UInt64) : Bool :=
  log.base ≤ address && address < log.base + regionBytes log.halfBytes

/-! ## Creation -/

/-- The protection of a log: the active half can be written, the other half and both guard pages
cannot. -/
def protect (length halfBytes : UInt64) (active : Side) (protection : Memory.Protection) :
    Except Failure Memory.Protection := do
  let start := halfOffset halfBytes .second
  let protection ← protection.protect length 0 halfBytes (active == .first)
  let protection ← protection.protect length halfBytes pageSize false
  let protection ← protection.protect length start halfBytes (active == .second)
  protection.protect length (start + halfBytes) pageSize false

/-- Creates a log for at least the requested number of events in each half, at an address with the
given room behind it. -/
def create (base room requested : UInt64) : Except Failure Log := do
  if requested = 0 then throw (.refusal .emptyLog)
  let halfBytes := halfSize requested
  let length ← (Memory.mappedLength room (regionBytes halfBytes)).mapError .refusal
  let start := halfOffset halfBytes .second
  if length ≤ start then throw (.abort (.indexOutside start length))
  let protection ← protect length halfBytes .first .fresh
  return {
    base := base
    halfBytes := halfBytes
    protection := protection
    first := {}
    second := {}
    active := .first
    isSealed := false
    isClosed := false }

/-! ## Reading -/

/-- The memory of a half. -/
def half (log : Log) : Side → Half
  | .first => log.first
  | .second => log.second

/-- The number of events in the active half. -/
def count (log : Log) : UInt64 := (log.half log.active).count

/-- The number of events that are not drained. -/
def pending (log : Log) : UInt64 :=
  if log.isSealed then log.count + (log.half log.active.other).count else log.count

/-- The number of free slots of the active half. -/
def room (log : Log) : UInt64 := log.capacity - log.count

/-- The events of the active half. -/
def activeEvents (log : Log) : List Event := (log.half log.active).events

/-- The halves that hold events that are not drained, the sealed one first.  A closed log has
none. -/
def pendingSides (log : Log) : List Side :=
  if log.isClosed then []
  else if log.isSealed then [log.active.other, log.active]
  else [log.active]

/-- The events that are not drained, by halves. -/
def segments (log : Log) : List (List Event) :=
  log.pendingSides.map fun side => (log.half side).events

/-! ## Writing -/

/-- A store that hit protected memory, with its address. -/
structure Fault where
  address : UInt64
  deriving DecidableEq

/-- Replaces the memory of a half. -/
def setHalf (log : Log) (side : Side) (half : Half) : Log :=
  match side with
  | .first => { log with first := half }
  | .second => { log with second := half }

/-- Sets the counter of a half. -/
def setCount (log : Log) (side : Side) (count : UInt64) : Log :=
  log.setHalf side { log.half side with count := count }

/-- Stores an event in a slot of the active half; slot zero is the counter. -/
def store (log : Log) (slot : UInt64) (event : Event) : Except Fault Log :=
  let offset := halfOffset log.halfBytes log.active + slot * Event.byteSize
  if log.protection.isWritable offset then
    .ok (log.setHalf log.active ((log.half log.active).write (slot - 1) event))
  else .error ⟨log.base + offset⟩

/-- Appends an event to the active half. -/
def append (log : Log) (event : Event) : Except Fault Unit × Log :=
  let slot := log.count + 1
  match log.store slot event with
  | .error fault => (.error fault, log)
  | .ok stored => (.ok (), stored.setCount stored.active slot)

/-- Appends two events to the active half.  They are counted together, after both are stored. -/
def appendPair (log : Log) (event operand : Event) : Except Fault Unit × Log :=
  let slot := log.count + 1
  match log.store slot event with
  | .error fault => (.error fault, log)
  | .ok stored =>
    match stored.store (slot + 1) operand with
    | .error fault => (.error fault, stored)
    | .ok both => (.ok (), both.setCount both.active (slot + 1))

/-- Seals the active half and opens the other one without events.  Events sealed before are
discarded. -/
def flip (log : Log) : Log :=
  let next := log.active.other
  let protection := (log.protection.set (halfOffset log.halfBytes log.active) log.halfBytes false).set
    (halfOffset log.halfBytes next) log.halfBytes true
  { log.setCount next 0 with protection := protection, active := next, isSealed := true }

/-- Drains both halves; does nothing to a closed log. -/
def reset (log : Log) : Log :=
  if log.isClosed then log else { log.setCount log.active 0 with isSealed := false }

/-- Marks the log as closed. -/
def close (log : Log) : Log := { log with isClosed := true }

/-- A log at another address with the same memory, the same active half and its own
protection. -/
def clone (log : Log) (base room : UInt64) : Except Failure Log := do
  let fresh ← create base room log.capacity
  let length := regionBytes fresh.halfBytes
  let opened ← fresh.protection.protect length 0 length true
  let protection ← protect length fresh.halfBytes log.active opened
  return { fresh with
    protection := protection
    first := log.first
    second := log.second
    active := log.active
    isSealed := log.isSealed }

end Log

end HeapAudit
