import HeapAudit.Shadow.Table

/-!
# Copying edges

Copies of objects and arrays move edges slot by slot.  A slot without edge in the
source loses its edge in the destination.  Inside one array the slots are copied
in the direction that reads every slot before it is overwritten.
-/

namespace HeapAudit

set_option autoImplicit false

namespace Edges

/-- Copies the edge of one slot. -/
def copyEdge (source target : Edges) (srcOffset dstOffset : UInt64) : Edges :=
  match source.find? srcOffset with
  | some value => target.insert dstOffset value
  | none => target.erase dstOffset

/-- Copies a number of slots of another object by increasing offset. -/
def copyFrom (source : Edges) : Edges → UInt64 → UInt64 → Nat → Edges
  | target, _, _, 0 => target
  | target, srcOffset, dstOffset, count + 1 =>
    copyFrom source (copyEdge source target srcOffset dstOffset)
      (srcOffset + wordSize) (dstOffset + wordSize) count

/-- Copies a number of slots of the same object by increasing offset. -/
def shiftUp : Edges → UInt64 → UInt64 → Nat → Edges
  | edges, _, _, 0 => edges
  | edges, srcOffset, dstOffset, count + 1 =>
    shiftUp (copyEdge edges edges srcOffset dstOffset)
      (srcOffset + wordSize) (dstOffset + wordSize) count

/-- Copies a number of slots of the same object by decreasing offset. -/
def shiftDown : Edges → UInt64 → UInt64 → Nat → Edges
  | edges, _, _, 0 => edges
  | edges, srcOffset, dstOffset, count + 1 =>
    let distance := count.toUInt64 * wordSize
    shiftDown (copyEdge edges edges (srcOffset + distance) (dstOffset + distance))
      srcOffset dstOffset count

/-- Copies a run of slots inside one object: downwards if the destination starts inside the
source, upwards otherwise. -/
def shift (edges : Edges) (srcOffset dstOffset length : UInt64) : Edges :=
  if srcOffset < dstOffset && dstOffset < srcOffset + length * wordSize then
    edges.shiftDown srcOffset dstOffset length.toNat
  else
    edges.shiftUp srcOffset dstOffset length.toNat

end Edges

namespace Table

/-- Copies a run of slots between the nodes at two addresses, which may be the same. -/
def copySlots (table : Table) (src dst srcOffset dstOffset length : UInt64) : Table :=
  if src = dst then
    table.update dst fun node => { node with edges := node.edges.shift srcOffset dstOffset length }
  else
    match table.find? src with
    | none => table
    | some source => table.update dst fun node =>
      { node with edges := source.edges.copyFrom node.edges srcOffset dstOffset length.toNat }

/-- Copies single slots between the nodes at two addresses, each to its own offset. -/
def copyFields (table : Table) (src dst : UInt64) (offsets : List UInt64) : Table :=
  match table.find? src with
  | none => table
  | some source => table.update dst fun node =>
    { node with
      edges := offsets.foldl (fun edges offset => source.edges.copyEdge edges offset offset)
        node.edges }

end Table

end HeapAudit
