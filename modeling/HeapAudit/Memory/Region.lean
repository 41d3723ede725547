import HeapAudit.Data.WordMap
import HeapAudit.Memory.Protection

/-!
# Mapped regions of bytes

A region holds bytes, all zero at first, and refuses writes to protected pages.
-/

namespace HeapAudit.Memory

set_option autoImplicit false

/-- A mapped region. -/
structure Region where
  length : UInt64
  protection : Protection
  /-- The bytes written so far; all others are zero. -/
  bytes : WordMap UInt8
  deriving DecidableEq

namespace Region

/-- Maps a region of at least the given size, on a machine with the given memory. -/
def map (memory size : UInt64) : Except Cause Region :=
  (mappedLength (roomAt memory 0) size).map fun length => ⟨length, .fresh, ∅⟩

/-- Changes the protection of a range of whole pages. -/
def protect (region : Region) (offset size : UInt64) (writable : Bool) : Except Failure Region :=
  (region.protection.protect region.length offset size writable).map fun protection =>
    { region with protection := protection }

/-- Stores a byte. -/
def write (region : Region) (offset : UInt64) (value : UInt8) : Except Failure Region :=
  if region.length ≤ offset then .error (.abort (.indexOutside offset region.length))
  else if region.protection.isWritable offset then
    .ok { region with bytes := region.bytes.insert offset value }
  else .error .fault

/-- Loads a byte. -/
def read (region : Region) (offset : UInt64) : Except Failure UInt8 :=
  if region.length ≤ offset then .error (.abort (.indexOutside offset region.length))
  else .ok ((region.bytes.find? offset).getD 0)

end Region

end HeapAudit.Memory
