import HeapAudit.Event.Kind

/-!
# Events and their stored form

An event is a pair of words, a source and a destination.  A log stores it with
its kind packed into the low fifteen bits of the destination.  Field stores are
the exception: they are frequent, so they are stored as they are, and a reader
recognises them by their addresses, which lie in the heap.  An encoded event whose
packed destination happens to lie in the heap is therefore read as a field store;
`Event.classify` is exact on all others.
-/

namespace HeapAudit

set_option autoImplicit false

/-- The two words of an event, plain or stored. -/
structure Event where
  src : UInt64
  dst : UInt64
  deriving DecidableEq, Inhabited

/-- The half-open range of addresses reserved for the heap. -/
structure HeapRange where
  low : UInt64
  high : UInt64
  deriving DecidableEq, Inhabited

/-- Whether an address lies in the range. -/
def HeapRange.contains (range : HeapRange) (address : UInt64) : Bool :=
  range.low ≤ address && address < range.high

namespace Event

/-- The number of low bits that hold the kind. -/
def tagBits : UInt64 := 15

/-- The low bits that hold the kind. -/
def tagMask : UInt64 := 0x7fff

/-- The number of bytes of a stored event. -/
def byteSize : UInt64 := 16

/-- The stored form of an event. -/
def encode (kind : Kind) (event : Event) : Event :=
  if kind = .fieldSet then event
  else ⟨event.src, kind.code ||| (event.dst <<< tagBits)⟩

/-- The code of the kind of a stored event. -/
def kindCode (stored : Event) : UInt64 := stored.dst &&& tagMask

/-- A stored event without its kind. -/
def decode (stored : Event) : Event := ⟨stored.src, stored.dst >>> tagBits⟩

/-- Whether a stored event looks like a field store: it goes to the heap and stores null or an
address of the heap. -/
def isRawFieldSet (range : HeapRange) (stored : Event) : Bool :=
  range.contains stored.dst && (stored.src = 0 || range.contains stored.src)

/-- The kind and the words of a stored event. -/
def classify (range : HeapRange) (stored : Event) : Kind × Event :=
  if stored.isRawFieldSet range then (.fieldSet, stored)
  else (.ofCode stored.kindCode, stored.decode)

end Event

end HeapAudit
