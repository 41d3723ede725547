import HeapAudit.Heap.Basic
import HeapAudit.Shadow.Table

/-!
# Reachability in the shadow graph

Marking follows the edges of the shadow graph from a list of roots.  The set of
nodes it reaches is then compared with the mark bits of the live heap: a live
object that is marked must have been reached, and a reached address must be marked.
-/

namespace HeapAudit.Reachability

set_option autoImplicit false

/-- A set of addresses. -/
abbrev AddressSet := WordMap Unit

/-- The addresses a node points to. -/
def successors (node : Node) : List UInt64 := node.edges.values.filter (· ≠ 0)

/-- Visits pending addresses and those reachable from them.  The first argument bounds the number
of visits. -/
def visit (table : Table) : Nat → List UInt64 → AddressSet → AddressSet
  | 0, _, reached => reached
  | _, [], reached => reached
  | fuel + 1, address :: pending, reached =>
    if reached.contains address then visit table fuel pending reached
    else match table.find? address with
      | none => visit table fuel pending reached
      | some node => visit table fuel (successors node ++ pending) (reached.insert address ())

/-- **The nodes reachable from the roots.**  Every root and every edge is visited at most once, so
the visits never run out. -/
def mark (table : Table) (roots : List UInt64) : AddressSet :=
  visit table (roots.length + table.edgeCount + 1) roots ∅

/-- Where reachability and mark bits differ, by increasing address. -/
structure Difference where
  markedNotReached : List UInt64 := []
  reachedNotMarked : List UInt64 := []
  deriving DecidableEq, Inhabited

/-- Whether there is no difference. -/
def Difference.isEmpty (difference : Difference) : Bool :=
  difference.markedNotReached.isEmpty && difference.reachedNotMarked.isEmpty

/-- Compares the reached addresses with the mark bits. -/
def compare (reached : AddressSet) (heap : Heap) : Difference where
  markedNotReached := heap.objects.keys.filter fun address =>
    !reached.contains address && heap.isMarked address
  reachedNotMarked := reached.keys.filter fun address => !heap.isMarked address

end HeapAudit.Reachability
