import HeapAudit.Data.WordMap
import HeapAudit.Heap.Extent

/-!
# The shadow table

The object graph that recorded events describe: a node for every object, at its
address, with the references last seen in its slots.  A table also counts the
nodes it has removed and may hand out again.

`Table.find?` asks for the node that starts at an address and `Table.lookup?` for
the one that covers it.
-/

namespace HeapAudit

set_option autoImplicit false

/-- The references seen in the slots of an object, by byte offset. -/
abbrev Edges := WordMap UInt64

/-- What is known of an object. -/
structure Node where
  kind : Kind
  size : UInt64
  edges : Edges
  deriving DecidableEq

/-- The known objects, by address. -/
structure Table where
  /-- The offset of the first element of an array. -/
  arrayBase : UInt64
  nodes : WordMap Node
  /-- The number of removed nodes waiting for reuse. -/
  free : Nat
  deriving DecidableEq

namespace Table

/-- The table without nodes. -/
def empty (arrayBase : UInt64) : Table := ⟨arrayBase, ∅, 0⟩

/-- The number of bytes a node covers. -/
def extent (table : Table) (node : Node) : UInt64 :=
  HeapAudit.extent node.kind node.size table.arrayBase

/-- The number of nodes. -/
def size (table : Table) : Nat := table.nodes.size

/-- The number of edges of all nodes. -/
def edgeCount (table : Table) : Nat :=
  table.nodes.values.foldr (fun node count => node.edges.size + count) 0

/-! ## Finding nodes -/

/-- The node that starts at an address. -/
def find? (table : Table) (address : UInt64) : Option Node := table.nodes.find? address

/-- The node that covers an address, with its own address.  A node covers its own address even if
it has no bytes. -/
def lookup? (table : Table) (address : UInt64) : Option (UInt64 × Node) :=
  match table.nodes.floor? address with
  | none => none
  | some (start, node) =>
    if start = address || address - start < table.extent node then some (start, node) else none

/-! ## Changing nodes -/

/-- Puts a node at an address; a node that is already there is removed. -/
def put (table : Table) (address : UInt64) (node : Node) : Table :=
  { table with
    nodes := table.nodes.insert address node
    free := if table.nodes.contains address then table.free + 1 else table.free }

/-- Creates a node without edges, out of a removed one if there is any. -/
def insert (table : Table) (address : UInt64) (kind : Kind) (size : UInt64) : Table :=
  { table with free := table.free - 1 }.put address ⟨kind, size, ∅⟩

/-- Changes the node at an address, if there is one. -/
def update (table : Table) (address : UInt64) (change : Node → Node) : Table :=
  { table with nodes := table.nodes.modify address change }

/-- Records the reference in a slot of the node at an address. -/
def setEdge (table : Table) (address offset value : UInt64) : Table :=
  table.update address fun node => { node with edges := node.edges.insert offset value }

/-- Removes the node at an address. -/
def erase (table : Table) (address : UInt64) : Table :=
  if table.nodes.contains address then
    { table with nodes := table.nodes.erase address, free := table.free + 1 }
  else table

/-- Moves a node to another address, where it replaces a node that is already there. -/
def relocate (table : Table) (src dst : UInt64) : Table :=
  match table.find? src with
  | none => table
  | some node => { table with nodes := table.nodes.erase src }.put dst node

/-- The addresses of the nodes that `clear` removes, in increasing order. -/
def cleared (table : Table) (start stop : UInt64) : List UInt64 :=
  if start = stop then [start].filter table.nodes.contains
  else table.nodes.keysWithin start stop

/-- Removes the nodes that start in a range.  A range without bytes stands for its start alone,
and a range that ends before it starts for nothing. -/
def clear (table : Table) (start stop : UInt64) : Table :=
  (table.cleared start stop).foldl erase table

/-- Replaces every edge value that has an image, all at once. -/
def retarget (table : Table) (images : WordMap UInt64) : Table :=
  { table with
    nodes := table.nodes.mapValues fun _ node =>
      { node with edges := node.edges.mapValues fun _ value => (images.find? value).getD value } }

/-- Removes all nodes and forgets the removed ones. -/
def reset (table : Table) : Table := empty table.arrayBase

end Table

end HeapAudit
