import HeapAudit.Hash.XxHash64
import HeapAudit.Shadow.Table

/-!
# The fingerprint of a table

Nodes are written in address order, each as its address, size and kind followed by
the offset and value of every edge by increasing offset; the fingerprint is the
hash of that sequence of words.
-/

namespace HeapAudit.Table

set_option autoImplicit false

/-- The words of one node. -/
def nodeWords (address : UInt64) (node : Node) : List UInt64 :=
  [address, node.size, node.kind.code] ++ node.edges.entries.flatMap fun edge => [edge.1, edge.2]

/-- The words that are hashed. -/
def digestWords (table : Table) : List UInt64 :=
  table.nodes.entries.flatMap fun entry => nodeWords entry.1 entry.2

/-- The fingerprint of the nodes and edges. -/
def digest (table : Table) : UInt64 := XxHash64.hash 0 table.digestWords

end HeapAudit.Table
