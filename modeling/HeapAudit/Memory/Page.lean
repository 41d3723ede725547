import HeapAudit.Failure

/-!
# Pages and mapped regions

Memory is mapped in whole pages.  Sizes are 64-bit words: rounding up to a page
wraps around close to the top, and a size is refused if it is zero after rounding,
if it is no positive signed number, or if there is no room for it.  There is as much
room as the machine has memory and as there are addresses left.
-/

namespace HeapAudit.Memory

set_option autoImplicit false

/-- The number of bytes of a page. -/
def pageSize : UInt64 := 4096

/-- The least multiple of the page size that is not below a size, modulo `2 ^ 64`. -/
def roundUp (size : UInt64) : UInt64 := (size + pageSize - 1) / pageSize * pageSize

/-- The address of the page that holds an address. -/
def pageOf (address : UInt64) : UInt64 := address - address % pageSize

/-- The first address past those that can be mapped. -/
def addressLimit : UInt64 := 0x800000000000

/-- The least size that is no positive signed number. -/
def signLimit : UInt64 := 0x8000000000000000

/-- The room for a region at an address, on a machine with the given memory. -/
def roomAt (memory base : UInt64) : UInt64 :=
  if base < addressLimit then min memory (addressLimit - base) else 0

/-- Whether a region of exactly the given size can be mapped into the given room. -/
def grant (room size : UInt64) : Except Cause UInt64 :=
  if size = 0 || signLimit ≤ size then .error .invalidMapping
  else if room < size then .error .noMemory
  else .ok size

/-- The length of the region mapped for a size, in whole pages. -/
def mappedLength (room size : UInt64) : Except Cause UInt64 :=
  if roundUp size = 0 then .error .emptyRegion else grant room (roundUp size)

end HeapAudit.Memory
