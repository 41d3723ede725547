import HeapAudit.Event.Kind

/-!
# How many bytes an object occupies

The size of an instance counts words and that of an array counts elements, which
follow a header.  The arithmetic is that of 64-bit words and wraps around.
-/

namespace HeapAudit

set_option autoImplicit false

/-- The number of bytes of a word and of a reference slot. -/
def wordSize : UInt64 := 8

/-- The number of bytes of an object; `base` is the offset of the first element of an array. -/
def extent (kind : Kind) (size base : UInt64) : UInt64 :=
  if kind = .newObject then size * wordSize else base + size * wordSize

end HeapAudit
