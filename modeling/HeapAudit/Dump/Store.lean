import HeapAudit.Failure
import HeapAudit.Memory.Page

/-!
# Stores

The destination of a dump: a fixed number of bytes, all zero at first, that can be
overwritten in part.  Bounds are checked in 64-bit words; a write that wraps around
aborts.
-/

namespace HeapAudit

set_option autoImplicit false

/-- A fixed number of bytes. -/
structure Store where
  bytes : List UInt8
  deriving DecidableEq, Inhabited

namespace Store

/-- A store of zeros, on a machine with the given memory. -/
def create (memory size : UInt64) : Except Cause Store :=
  (Memory.grant (Memory.roomAt memory 0) size).map fun size => ⟨List.replicate size.toNat 0⟩

/-- The number of bytes. -/
def size (store : Store) : UInt64 := store.bytes.length.toUInt64

/-- Overwrites bytes from an offset on. -/
def write (store : Store) (offset : UInt64) (data : List UInt8) : Except Failure Store :=
  let stop := offset + data.length.toUInt64
  if store.size < stop then .error (.refusal (.storeExceeded offset stop store.size))
  else if store.size < offset then .error (.abort (.partOutside offset store.size))
  else .ok ⟨store.bytes.take offset.toNat ++ data ++ store.bytes.drop (offset.toNat + data.length)⟩

end Store

end HeapAudit
