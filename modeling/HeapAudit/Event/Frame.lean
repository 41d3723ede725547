import HeapAudit.Event.Slot

/-!
# Frames: the records of a log

A record takes one slot of a log, or two if its kind needs an operand.  Reading a
list of slots cuts it into frames, one per record; a record whose operand is cut
off by the end of the log keeps its frame, without operand.
-/

namespace HeapAudit

set_option autoImplicit false

/-- A record read from a log. -/
structure Frame where
  kind : Kind
  event : Event
  /-- The decoded operand slot. -/
  operand : Option Event
  /-- The number of slots in front of the record. -/
  index : Nat
  deriving DecidableEq

namespace Frame

/-- The records of a list of slots that starts after `index` other slots. -/
def ofSlotsFrom (range : HeapRange) (index : Nat) : List Event → List Frame
  | [] => []
  | [slot] =>
    let (kind, event) := slot.classify range
    [⟨kind, event, none, index⟩]
  | slot :: next :: rest =>
    let (kind, event) := slot.classify range
    if kind.isPaired then
      ⟨kind, event, some next.decode, index⟩ :: ofSlotsFrom range (index + 2) rest
    else
      ⟨kind, event, none, index⟩ :: ofSlotsFrom range (index + 1) (next :: rest)

/-- The records of a log. -/
def ofSlots (range : HeapRange) (slots : List Event) : List Frame := ofSlotsFrom range 0 slots

end Frame

end HeapAudit
