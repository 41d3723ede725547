import HeapAudit.Memory.Page

/-!
# Write protection

Pages of a region can be protected against writes and opened again.  The state of
protection is the list of changes made so far, the latest first: a byte can be
written if the latest change that covers it allows writes, or if none covers it.
-/

namespace HeapAudit.Memory

set_option autoImplicit false

/-- A change of protection of the bytes in `[start, stop)`. -/
structure ProtectionChange where
  start : UInt64
  stop : UInt64
  writable : Bool
  deriving DecidableEq

/-- The changes of protection made to a region, the latest first. -/
structure Protection where
  changes : List ProtectionChange
  deriving DecidableEq, Inhabited

namespace Protection

/-- The protection of a fresh region: every byte can be written. -/
def fresh : Protection := ⟨[]⟩

/-- Whether a change covers a byte. -/
def covers (change : ProtectionChange) (offset : UInt64) : Bool :=
  change.start ≤ offset && offset < change.stop

/-- Whether a byte can be written. -/
def isWritable (protection : Protection) (offset : UInt64) : Bool :=
  match protection.changes.find? fun change => covers change offset with
  | some change => change.writable
  | none => true

/-- Changes the protection of a range without looking at its bounds. -/
def set (protection : Protection) (offset size : UInt64) (writable : Bool) : Protection :=
  ⟨⟨offset, offset + size, writable⟩ :: protection.changes⟩

/-- Changes the protection of a range of whole pages inside a region of the given length. -/
def protect (protection : Protection) (length offset size : UInt64) (writable : Bool) :
    Except Failure Protection :=
  let stop := offset + size
  if offset % pageSize != 0 || size % pageSize != 0 then
    .error (.refusal (.unalignedRange offset stop))
  else if length < stop then .error (.refusal (.rangeOutside offset stop length))
  else if stop < offset then .error (.abort (.partOutside offset stop))
  else if size = 0 then .error (.refusal .invalidProtection)
  else .ok (protection.set offset size writable)

end Protection

end HeapAudit.Memory
