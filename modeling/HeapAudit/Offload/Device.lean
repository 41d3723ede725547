import HeapAudit.Bytes.LittleEndian
import HeapAudit.Data.WordMap
import HeapAudit.Event.Slot
import HeapAudit.Failure
import HeapAudit.Hash.Blake3

/-!
# The device that receives events

A device keeps events in numbered buffers of a fixed capacity and in one staging
buffer.  Each buffer carries the checksum of its events; a buffer that was never
stored into has a checksum of zeros.
-/

namespace HeapAudit

set_option autoImplicit false

/-- The bytes of stored events. -/
def Event.bytes (events : List Event) : List UInt8 :=
  events.flatMap fun event => LittleEndian.encode event.src ++ LittleEndian.encode event.dst

/-- The checksum of events. -/
def Event.checksum (events : List Event) : List UInt8 := Blake3.digest (Event.bytes events)

/-- A buffer of a device. -/
structure Buffer where
  events : List Event := []
  checksum : List UInt8 := List.replicate 32 0
  deriving DecidableEq, Inhabited

/-- A device with its buffers. -/
structure Device where
  /-- The number of events a buffer holds. -/
  capacity : UInt64
  buffers : WordMap Buffer := ∅
  staging : Buffer := {}
  transfers : Nat := 0
  copies : Nat := 0

namespace Device

/-- The greatest capacity of a buffer in the address space. -/
def maxCapacity : UInt64 := 0x100000000000

/-- A device with buffers of a capacity. -/
def create (capacity : UInt64) : Except Cause Device :=
  if maxCapacity < capacity then .error .bufferTooLarge else .ok { capacity := capacity }

/-- The buffer that holds the given events, if they fit. -/
def fill (device : Device) (events : List Event) : Except Cause Buffer :=
  if device.capacity.toNat < events.length then
    .error (.deviceFull events.length device.capacity)
  else .ok ⟨events, Event.checksum events⟩

/-- Stores events in a numbered buffer, which exists from then on. -/
def transfer (device : Device) (id : UInt64) (events : List Event) : Except Cause Unit × Device :=
  let held := (device.buffers.find? id).getD {}
  let device := { device with buffers := device.buffers.insert id held }
  match device.fill events with
  | .error cause => (.error cause, device)
  | .ok buffer =>
    (.ok (),
      { device with
        buffers := device.buffers.insert id buffer
        transfers := device.transfers + 1 })

/-- Stores events in the staging buffer. -/
def copy (device : Device) (events : List Event) : Except Cause Unit × Device :=
  match device.fill events with
  | .error cause => (.error cause, device)
  | .ok buffer => (.ok (), { device with staging := buffer, copies := device.copies + 1 })

end Device

end HeapAudit
