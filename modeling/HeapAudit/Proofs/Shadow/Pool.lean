import HeapAudit.Proofs.Shadow.Catalog
import Mathlib.Data.Multiset.Range

/-!
# The nodes of a table, one by one

A table counts the nodes it removed.  Here are the nodes themselves: every node is made once and
named by the number of nodes made before it since the last reset, whatever object it stands for in
the course of time (`Pool`).  A node that is removed drops its references and goes on top of the
free ones, and an insertion takes the topmost of them before it makes a new one.

A node holds its own address and every reference its own offset, beside the keys under which they
are found.  The tree has a node at the address that the node had when it was put there, and nothing
in the tree changes if the node is given another address later.  That nodes and references are under
their own keys has to be kept up by every operation.

At every point each node is in exactly one place: in the tree, among the free ones, or in the hands
of the operation that is going on (`Pool.Sound`).  The steps of an operation hand nodes from one
place to the next, and at its end no node is left in hand.

What is seen of a pool is a table, with the number of the free nodes in place of the nodes
(`Pool.table`), and requests to the pool are seen as requests to this table
(`Pool.performAll_refines`): no object shows what its node held before.
-/

namespace HeapAudit

set_option autoImplicit false

/-- A reference that was seen, with the offset of its slot. -/
structure FieldEdge where
  offset : UInt64
  value : UInt64
  deriving DecidableEq

/-- The reference under an offset, led to its image if it has one. -/
def FieldEdge.retarget (images : WordMap UInt64) (offset : UInt64) (edge : FieldEdge) : FieldEdge :=
  match images.find? edge.value with
  | none => edge
  | some image => ⟨offset, image⟩

theorem FieldEdge.value_retarget (images : WordMap UInt64) (offset : UInt64) (edge : FieldEdge) :
    (edge.retarget images offset).value = (images.find? edge.value).getD edge.value := by
  rw [retarget]
  cases images.find? edge.value <;> rfl

theorem FieldEdge.offset_retarget (images : WordMap UInt64) (edge : FieldEdge) :
    (edge.retarget images edge.offset).offset = edge.offset := by
  rw [retarget]
  cases images.find? edge.value <;> rfl

/-- What a node holds. -/
structure Cell where
  address : UInt64
  kind : Kind
  size : UInt64
  /-- The references of the object by offset, dropped with the removal of the node. -/
  edges : Option (WordMap FieldEdge)

namespace Cell

/-- The reference in a slot. -/
def field? (cell : Cell) (offset : UInt64) : Option FieldEdge :=
  (cell.edges.getD ∅).find? offset

/-- The number of references. -/
def edgeCount (cell : Cell) : Nat := (cell.edges.getD ∅).size

/-- The offsets under which there are references. -/
def offsets (cell : Cell) : List UInt64 := (cell.edges.getD ∅).keys

/-- The cell with a reference in a slot.  What was dropped is not made again. -/
def setField (cell : Cell) (offset value : UInt64) : Cell :=
  { cell with edges := cell.edges.map (·.insert offset ⟨offset, value⟩) }

/-- The cell with every reference that has an image led to it, one after the other. -/
def retargetAlong (cell : Cell) (images : WordMap UInt64) (order : List UInt64) : Cell :=
  { cell with
    edges := cell.edges.map fun edges =>
      order.foldl (fun edges offset => edges.modify offset (FieldEdge.retarget images offset))
        edges }

/-- The cell with every reference that has an image led to it. -/
def retarget (cell : Cell) (images : WordMap UInt64) : Cell :=
  cell.retargetAlong images cell.offsets

/-- What a cell says of its object. -/
def node (cell : Cell) : Node :=
  ⟨cell.kind, cell.size, (cell.edges.getD ∅).mapValues fun _ edge => edge.value⟩

/-- The cell has not dropped its references, and each of them is under its own offset. -/
def Labelled (cell : Cell) : Prop :=
  ∃ edges, cell.edges = some edges
    ∧ ∀ offset edge, edges.find? offset = some edge → edge.offset = offset

variable {cell : Cell}

theorem labelled_of_bare (bare : cell.edges = some ∅) : cell.Labelled := by
  refine ⟨∅, bare, fun offset edge found => ?_⟩
  rw [WordMap.find?_empty] at found
  cases found

theorem Labelled.setField (labelled : cell.Labelled) (offset value : UInt64) :
    (cell.setField offset value).Labelled := by
  obtain ⟨edges, held, labels⟩ := labelled
  refine ⟨edges.insert offset ⟨offset, value⟩, ?_, fun sought edge found => ?_⟩
  · rw [Cell.setField, held, Option.map_some]
  · rw [WordMap.find?_insert] at found
    split at found
    · rename_i here
      cases found
      exact here
    · exact labels sought edge found

/-- **The order of the references does not matter**: each is led to its image once, and all of them
as if at the same time. -/
theorem retargetAlong_eq (cell : Cell) (images : WordMap UInt64) {order : List UInt64}
    (visits : order.Perm cell.offsets) :
    cell.retargetAlong images order
      = { cell with edges := cell.edges.map (·.mapValues (FieldEdge.retarget images)) } := by
  obtain ⟨address, kind, size, edges⟩ := cell
  cases edges with
  | none => rfl
  | some edges =>
    rw [retargetAlong, Option.map_some, Option.map_some,
      WordMap.foldl_modify_eq_mapValues edges (FieldEdge.retarget images) visits]

theorem retarget_eq (cell : Cell) (images : WordMap UInt64) :
    cell.retarget images
      = { cell with edges := cell.edges.map (·.mapValues (FieldEdge.retarget images)) } :=
  cell.retargetAlong_eq images (List.Perm.refl _)

theorem Labelled.retarget (labelled : cell.Labelled) (images : WordMap UInt64) :
    (cell.retarget images).Labelled := by
  obtain ⟨edges, held, labels⟩ := labelled
  refine ⟨edges.mapValues (FieldEdge.retarget images), ?_, fun offset edge found => ?_⟩
  · rw [retarget_eq, held, Option.map_some]
  · rw [WordMap.find?_mapValues] at found
    obtain ⟨before, held, rfl⟩ := Option.map_eq_some_iff.mp found
    obtain rfl := labels offset before held
    exact before.offset_retarget images

theorem node_setField (labelled : cell.Labelled) (offset value : UInt64) :
    (cell.setField offset value).node
      = { cell.node with edges := cell.node.edges.insert offset value } := by
  obtain ⟨edges, held, -⟩ := labelled
  rw [node, node, setField, held, Option.map_some, Option.getD_some, Option.getD_some,
    WordMap.mapValues_insert]

theorem node_retarget (cell : Cell) (images : WordMap UInt64) :
    (cell.retarget images).node
      = { cell.node with
          edges := cell.node.edges.mapValues fun _ value => (images.find? value).getD value } := by
  obtain ⟨address, kind, size, edges⟩ := cell
  rw [retarget_eq, node, node, Node.mk.injEq]
  refine ⟨rfl, rfl, ?_⟩
  rw [WordMap.mapValues_mapValues]
  cases edges with
  | none => rfl
  | some edges =>
    rw [Option.map_some, Option.getD_some, Option.getD_some, WordMap.mapValues_mapValues]
    refine WordMap.mapValues_congr fun offset edge _ => ?_
    exact edge.value_retarget images offset

end Cell

/-- A table with its nodes. -/
structure Pool where
  arrayBase : UInt64
  /-- The number of nodes made since the last reset. -/
  made : Nat
  /-- What every node holds. -/
  cells : Nat → Cell
  /-- The nodes by the address that each of them had when it was put here. -/
  tree : WordMap Nat
  /-- The removed nodes, from the latest on. -/
  free : List Nat

namespace Pool

/-! ## Handing nodes on -/

/-- The pool without nodes. -/
def empty (arrayBase : UInt64) : Pool := ⟨arrayBase, 0, fun _ => ⟨0, default, 0, none⟩, ∅, []⟩

/-- What the node at an address holds. -/
def get? (pool : Pool) (address : UInt64) : Option Cell := (pool.tree.find? address).map pool.cells

/-- What the nodes of the tree hold, from one to the next. -/
def nodes (pool : Pool) : List Cell := pool.tree.values.map pool.cells

/-- The number of nodes in the tree. -/
def size (pool : Pool) : Nat := pool.tree.size

/-- The number of references in all nodes of the tree. -/
def edgeCount (pool : Pool) : Nat :=
  pool.nodes.foldr (fun cell count => cell.edgeCount + count) 0

/-- Fills a node anew. -/
def write (pool : Pool) (id : Nat) (cell : Cell) : Pool :=
  { pool with cells := Function.update pool.cells id cell }

/-- A node to use, out of the free ones if there are any. -/
def take (pool : Pool) : Nat × Pool :=
  match pool.free with
  | id :: rest => (id, { pool with free := rest })
  | [] => (pool.made, { pool with made := pool.made + 1 })

/-- Takes the node at an address out of the tree. -/
def unlink (pool : Pool) (address : UInt64) : Pool :=
  { pool with tree := pool.tree.erase address }

/-- Puts a node into the tree. -/
def attach (pool : Pool) (id : Nat) : Pool :=
  { pool with tree := pool.tree.insert (pool.cells id).address id }

/-- Drops the references of a node and keeps it for reuse. -/
def release (pool : Pool) (id : Nat) : Pool :=
  { pool.write id { pool.cells id with edges := none } with free := id :: pool.free }

/-- Puts a node into the tree; a node that is already there is released. -/
def replace (pool : Pool) (id : Nat) : Pool :=
  match pool.tree.find? (pool.cells id).address with
  | none => pool.attach id
  | some evicted => (pool.attach id).release evicted

/-! ## Operations -/

/-- Creates a node without references. -/
def insert (pool : Pool) (address : UInt64) (kind : Kind) (size : UInt64) : Pool :=
  (pool.take.2.write pool.take.1 ⟨address, kind, size, some ∅⟩).replace pool.take.1

/-- Removes the node at an address. -/
def delete (pool : Pool) (address : UInt64) : Pool :=
  match pool.tree.find? address with
  | none => pool
  | some id => (pool.unlink address).release id

/-- Moves a node to another address, where it replaces a node that is already there. -/
def relocate (pool : Pool) (src dst : UInt64) : Pool :=
  match pool.tree.find? src with
  | none => pool
  | some id => ((pool.unlink src).write id { pool.cells id with address := dst }).replace id

/-- The addresses of the nodes that `clear` removes, as these nodes have them. -/
def cleared (pool : Pool) (start stop : UInt64) : List UInt64 :=
  if start = stop then [start].filter pool.tree.contains
  else ((pool.tree.keysWithin start stop).filterMap pool.get?).map Cell.address

/-- Removes the nodes that start in a range. -/
def clear (pool : Pool) (start stop : UInt64) : Pool := (pool.cleared start stop).foldl delete pool

/-- Records the reference in a slot of the node at an address. -/
def setField (pool : Pool) (address offset value : UInt64) : Pool :=
  match pool.tree.find? address with
  | none => pool
  | some id => pool.write id ((pool.cells id).setField offset value)

/-- Replaces every reference of a node that has an image. -/
def retargetNode (images : WordMap UInt64) (pool : Pool) (id : Nat) : Pool :=
  pool.write id ((pool.cells id).retarget images)

/-- Replaces every reference that has an image, in one node of the tree after the other. -/
def retarget (pool : Pool) (images : WordMap UInt64) : Pool :=
  pool.tree.values.foldl (retargetNode images) pool

/-- Starts again without nodes. -/
def reset (pool : Pool) : Pool := empty pool.arrayBase

open Table in
/-- Does what is requested. -/
def perform (pool : Pool) : Request → Pool
  | .insert address kind size => pool.insert address kind size
  | .delete address => pool.delete address
  | .relocate src dst => pool.relocate src dst
  | .clear start stop => pool.clear start stop
  | .setField address offset value => pool.setField address offset value
  | .retarget images => pool.retarget images
  | .reset => pool.reset

/-- Does what is requested, in order. -/
def performAll (pool : Pool) (requests : List Table.Request) : Pool := requests.foldl perform pool

open Table in
/-- What is answered to a request. -/
def answer (pool : Pool) : Request → Answer
  | .insert .. => .done
  | .delete address => .known (pool.get? address).isSome
  | .relocate src _ => .known (pool.get? src).isSome
  | .clear start stop => .cleared (pool.cleared start stop).length
  | .setField address _ _ => .known (pool.get? address).isSome
  | .retarget _ => .done
  | .reset => .done

open Table in
/-- What is answered to requests, in order. -/
def answers (pool : Pool) : List Request → List Answer
  | [] => []
  | request :: rest => pool.answer request :: (pool.perform request).answers rest

/-- What is seen of a pool. -/
def table (pool : Pool) : Table :=
  ⟨pool.arrayBase, pool.tree.mapValues fun _ id => (pool.cells id).node, pool.free.length⟩

/-! ## Where the nodes are -/

/-- Every node that was made is in the tree, free, or one of the `loose` ones, and in no two of
these places.  A node of the tree lies at its own address and keeps its references under their own
offsets, a free one has dropped them. -/
structure Sound (pool : Pool) (loose : Multiset Nat) : Prop where
  accounted : (pool.tree.values : Multiset Nat) + pool.free + loose = Multiset.range pool.made
  addressed : ∀ address id, pool.tree.find? address = some id → (pool.cells id).address = address
  kept : ∀ address id, pool.tree.find? address = some id → (pool.cells id).Labelled
  dropped : ∀ id ∈ pool.free, (pool.cells id).edges = none

variable {pool : Pool} {loose : Multiset Nat} {id other : Nat} {address : UInt64}

theorem sound_empty (arrayBase : UInt64) : (empty arrayBase).Sound 0 where
  accounted := rfl
  addressed address id found := by
    rw [empty, WordMap.find?_empty] at found
    cases found
  kept address id found := by
    rw [empty, WordMap.find?_empty] at found
    cases found
  dropped := nofun

theorem cells_write_self (pool : Pool) (id : Nat) (cell : Cell) :
    (pool.write id cell).cells id = cell :=
  Function.update_self ..

theorem cells_write_of_ne (pool : Pool) (cell : Cell) (different : other ≠ id) :
    (pool.write id cell).cells other = pool.cells other :=
  Function.update_of_ne different ..

theorem tree_write (pool : Pool) (id : Nat) (cell : Cell) : (pool.write id cell).tree = pool.tree :=
  rfl

/-- What is left in the tree was there before. -/
theorem find?_of_unlink {sought : UInt64}
    (found : (pool.unlink address).tree.find? sought = some id) :
    pool.tree.find? sought = some id := by
  rw [unlink, WordMap.find?_erase] at found
  split at found
  · cases found
  · exact found

/-- What is in the tree is the node that came last or was there before. -/
theorem find?_of_attach {sought : UInt64}
    (found : (pool.attach id).tree.find? sought = some other) :
    sought = (pool.cells id).address ∧ other = id ∨ pool.tree.find? sought = some other := by
  rw [attach, WordMap.find?_insert] at found
  split at found
  · rename_i here
    exact .inl ⟨here.symm, (Option.some.inj found).symm⟩
  · exact .inr found

theorem take_of_nil (free : pool.free = []) :
    pool.take = (pool.made, { pool with made := pool.made + 1 }) := by
  rw [take, free]

theorem take_of_cons {rest : List Nat} (free : pool.free = id :: rest) :
    pool.take = (id, { pool with free := rest }) := by
  rw [take, free]

namespace Sound

theorem nodup (sound : pool.Sound loose) :
    ((pool.tree.values : Multiset Nat) + pool.free + loose).Nodup := by
  rw [sound.accounted]
  exact Multiset.nodup_range pool.made

/-- The tree has every node once. -/
theorem nodup_values (sound : pool.Sound loose) : pool.tree.values.Nodup := by
  have whole := (Multiset.nodup_add.mp sound.nodup).1
  exact Multiset.coe_nodup.mp (Multiset.nodup_add.mp whole).1

/-- A node that is loose is in no other place. -/
theorem not_mem_of_loose (sound : pool.Sound (id ::ₘ loose)) :
    id ∉ (pool.tree.values : Multiset Nat) + pool.free := by
  have apart := (Multiset.nodup_add.mp sound.nodup).2.2
  exact fun member => Multiset.disjoint_left.mp apart member (Multiset.mem_cons_self id loose)

theorem ne_of_find? (sound : pool.Sound (id ::ₘ loose))
    (found : pool.tree.find? address = some other) : other ≠ id := by
  rintro rfl
  have member := Multiset.mem_coe.mpr (WordMap.mem_values.mpr ⟨address, found⟩)
  exact sound.not_mem_of_loose (Multiset.mem_add.mpr (.inl member))

theorem not_mem_free (sound : pool.Sound (id ::ₘ loose)) : id ∉ pool.free := fun member =>
  sound.not_mem_of_loose (Multiset.mem_add.mpr (.inr (Multiset.mem_coe.mpr member)))

/-- A node of the tree lies at one address. -/
theorem address_unique (sound : pool.Sound loose) {first second : UInt64}
    (found : pool.tree.find? first = some id) (again : pool.tree.find? second = some id) :
    first = second :=
  (sound.addressed first id found).symm.trans (sound.addressed second id again)

/-- A node is taken out of the free ones, or made. -/
theorem take (sound : pool.Sound loose) : pool.take.2.Sound (pool.take.1 ::ₘ loose) := by
  have accounted := sound.accounted
  cases free : pool.free with
  | nil =>
    rw [take_of_nil free]
    refine ⟨?_, sound.addressed, sound.kept, sound.dropped⟩
    rw [Multiset.add_cons, accounted, Multiset.range_succ]
  | cons first rest =>
    rw [take_of_cons free]
    refine ⟨?_, sound.addressed, sound.kept, fun id member => ?_⟩
    · rw [free, ← Multiset.cons_coe, Multiset.add_cons, Multiset.cons_add] at accounted
      rw [Multiset.add_cons, accounted]
    · exact sound.dropped id (free ▸ List.mem_cons_of_mem first member)

/-- A node can be filled with anything that suits the place where it is. -/
theorem refill (sound : pool.Sound loose) {cell : Cell}
    (linked : ∀ address, pool.tree.find? address = some id →
      cell.address = address ∧ cell.Labelled)
    (free : id ∈ pool.free → cell.edges = none) : (pool.write id cell).Sound loose := by
  refine ⟨sound.accounted, fun address other found => ?_, fun address other found => ?_,
    fun other member => ?_⟩
  all_goals by_cases here : other = id
  · subst here
    rw [cells_write_self]
    exact (linked address found).1
  · rw [cells_write_of_ne pool cell here]
    exact sound.addressed address other found
  · subst here
    rw [cells_write_self]
    exact (linked address found).2
  · rw [cells_write_of_ne pool cell here]
    exact sound.kept address other found
  · subst here
    rw [cells_write_self]
    exact free member
  · rw [cells_write_of_ne pool cell here]
    exact sound.dropped other member

/-- A loose node can be filled with anything. -/
theorem write (sound : pool.Sound (id ::ₘ loose)) (cell : Cell) :
    (pool.write id cell).Sound (id ::ₘ loose) :=
  sound.refill (fun _ found => absurd rfl (sound.ne_of_find? found))
    fun member => absurd member sound.not_mem_free

/-- The references of a node change, wherever it is. -/
theorem revise (sound : pool.Sound loose) {cell : Cell}
    (same : cell.address = (pool.cells id).address)
    (kept : (pool.cells id).Labelled → cell.Labelled)
    (dropped : (pool.cells id).edges = none → cell.edges = none) :
    (pool.write id cell).Sound loose :=
  sound.refill
    (fun address found =>
      ⟨same.trans (sound.addressed address id found), kept (sound.kept address id found)⟩)
    fun member => dropped (sound.dropped id member)

/-- A node comes out of the tree. -/
theorem unlink (sound : pool.Sound loose) (found : pool.tree.find? address = some id) :
    (pool.unlink address).Sound (id ::ₘ loose) := by
  refine ⟨?_, fun sought other left => sound.addressed sought other (find?_of_unlink left),
    fun sought other left => sound.kept sought other (find?_of_unlink left), sound.dropped⟩
  have split : (pool.tree.values : Multiset Nat) = id ::ₘ (pool.tree.erase address).values :=
    Multiset.coe_eq_coe.mpr (WordMap.values_perm_of_find? found)
  have accounted := sound.accounted
  rw [split, Multiset.cons_add, Multiset.cons_add, ← Multiset.add_cons] at accounted
  exact accounted

/-- A loose node goes into the tree, at an address without a node. -/
theorem attach (sound : pool.Sound (id ::ₘ loose))
    (vacant : pool.tree.find? (pool.cells id).address = none)
    (kept : (pool.cells id).Labelled) : (pool.attach id).Sound loose := by
  refine ⟨?_, fun sought other found => ?_, fun sought other found => ?_, sound.dropped⟩
  · have joined : ((pool.attach id).tree.values : Multiset Nat) = id ::ₘ pool.tree.values := by
      have perm := WordMap.values_insert_perm pool.tree (pool.cells id).address id
      rw [WordMap.erase_of_find?_eq_none vacant] at perm
      exact Multiset.coe_eq_coe.mpr perm
    rw [joined, Multiset.cons_add, Multiset.cons_add, ← Multiset.add_cons]
    exact sound.accounted
  · rcases find?_of_attach found with ⟨rfl, rfl⟩ | before
    · rfl
    · exact sound.addressed sought other before
  · rcases find?_of_attach found with ⟨rfl, rfl⟩ | before
    · exact kept
    · exact sound.kept sought other before

/-- A loose node takes the place of another one, which comes loose. -/
theorem attach_over (sound : pool.Sound (id ::ₘ loose))
    (taken : pool.tree.find? (pool.cells id).address = some other)
    (kept : (pool.cells id).Labelled) : (pool.attach id).Sound (other ::ₘ loose) := by
  -- It is the same to take the other node out first.
  have lifted := sound.unlink taken
  rw [Multiset.cons_swap] at lifted
  have vacant : (pool.tree.erase (pool.cells id).address).find? (pool.cells id).address = none := by
    rw [WordMap.find?_erase, if_pos rfl]
  have same : (pool.unlink (pool.cells id).address).attach id = pool.attach id := by
    rw [Pool.attach, Pool.attach, Pool.unlink, WordMap.insert_erase_self]
  exact same ▸ lifted.attach vacant kept

/-- A loose node joins the free ones. -/
theorem release (sound : pool.Sound (id ::ₘ loose)) : (pool.release id).Sound loose := by
  have written := sound.write { pool.cells id with edges := none }
  refine ⟨?_, written.addressed, written.kept, fun other member => ?_⟩
  · have joined : ((pool.release id).free : Multiset Nat) = id ::ₘ pool.free := rfl
    rw [joined, Multiset.add_cons, Multiset.cons_add, ← Multiset.add_cons]
    exact sound.accounted
  · rcases List.mem_cons.mp member with rfl | before
    · exact congrArg Cell.edges (cells_write_self pool ..)
    · exact written.dropped other before

/-- A loose node takes its place in the tree. -/
theorem replace (sound : pool.Sound (id ::ₘ loose)) (kept : (pool.cells id).Labelled) :
    (pool.replace id).Sound loose := by
  rw [Pool.replace]
  cases found : pool.tree.find? (pool.cells id).address with
  | none => exact sound.attach found kept
  | some evicted => exact (sound.attach_over found kept).release

end Sound

/-! ## What is seen of each step -/

theorem find?_nodes_table (pool : Pool) (address : UInt64) :
    pool.table.nodes.find? address
      = (pool.tree.find? address).map fun id => (pool.cells id).node :=
  WordMap.find?_mapValues ..

theorem contains_nodes_table (pool : Pool) (address : UInt64) :
    pool.table.nodes.contains address = (pool.tree.find? address).isSome :=
  WordMap.contains_mapValues ..

theorem size_table (pool : Pool) : pool.table.size = pool.size := WordMap.size_mapValues ..

theorem table_take (pool : Pool) :
    pool.take.2.table = { pool.table with free := pool.table.free - 1 } := by
  cases free : pool.free with
  | nil =>
    rw [take_of_nil free, table, table, free]
    rfl
  | cons first rest =>
    rw [take_of_cons free, table, table, free]
    rfl

theorem table_unlink (pool : Pool) (address : UInt64) :
    (pool.unlink address).table
      = { pool.table with nodes := pool.table.nodes.erase address } :=
  congrArg ({ pool.table with nodes := · }) (WordMap.mapValues_erase ..)

theorem table_attach (pool : Pool) (id : Nat) :
    (pool.attach id).table
      = { pool.table with
          nodes := pool.table.nodes.insert (pool.cells id).address (pool.cells id).node } :=
  congrArg ({ pool.table with nodes := · }) (WordMap.mapValues_insert ..)

/-- What a loose node holds is not seen. -/
theorem table_write (sound : pool.Sound (id ::ₘ loose)) (cell : Cell) :
    (pool.write id cell).table = pool.table := by
  refine congrArg ({ pool.table with nodes := · }) (WordMap.mapValues_congr ?_)
  intro address other found
  rw [cells_write_of_ne pool cell (sound.ne_of_find? found)]

theorem table_release (sound : pool.Sound (id ::ₘ loose)) :
    (pool.release id).table = { pool.table with free := pool.table.free + 1 } :=
  congrArg ({ · with free := pool.free.length + 1 })
    (table_write sound { pool.cells id with edges := none })

theorem table_replace (sound : pool.Sound (id ::ₘ loose)) (kept : (pool.cells id).Labelled) :
    (pool.replace id).table = pool.table.put (pool.cells id).address (pool.cells id).node := by
  rw [replace, Table.put, contains_nodes_table]
  cases found : pool.tree.find? (pool.cells id).address with
  | none => exact table_attach pool id
  | some evicted =>
    dsimp only
    rw [table_release (sound.attach_over found kept), table_attach]
    rfl

/-! ## What is seen of each operation -/

theorem Sound.insert (sound : pool.Sound 0) (address : UInt64) (kind : Kind) (size : UInt64) :
    (pool.insert address kind size).Sound 0 := by
  refine (sound.take.write _).replace ?_
  rw [cells_write_self]
  exact Cell.labelled_of_bare rfl

theorem table_insert (sound : pool.Sound 0) (address : UInt64) (kind : Kind) (size : UInt64) :
    (pool.insert address kind size).table = pool.table.insert address kind size := by
  have filled := cells_write_self pool.take.2 pool.take.1 ⟨address, kind, size, some ∅⟩
  have bare : ((pool.take.2.write pool.take.1 ⟨address, kind, size, some ∅⟩).cells
      pool.take.1).Labelled := by
    rw [filled]
    exact Cell.labelled_of_bare rfl
  rw [insert, table_replace (sound.take.write _) bare, table_write sound.take, table_take, filled]
  rfl

theorem Sound.delete (sound : pool.Sound 0) (address : UInt64) : (pool.delete address).Sound 0 := by
  rw [Pool.delete]
  cases found : pool.tree.find? address with
  | none => exact sound
  | some id => exact (sound.unlink found).release

theorem table_delete (sound : pool.Sound 0) (address : UInt64) :
    (pool.delete address).table = pool.table.erase address := by
  rw [delete, Table.erase, contains_nodes_table]
  cases found : pool.tree.find? address with
  | none => rfl
  | some id =>
    dsimp only
    rw [table_release (sound.unlink found), table_unlink]
    rfl

theorem Sound.relocate (sound : pool.Sound 0) (src dst : UInt64) :
    (pool.relocate src dst).Sound 0 := by
  rw [Pool.relocate]
  cases found : pool.tree.find? src with
  | none => exact sound
  | some id =>
    refine ((sound.unlink found).write _).replace ?_
    rw [cells_write_self]
    exact sound.kept src id found

theorem table_relocate (sound : pool.Sound 0) (src dst : UInt64) :
    (pool.relocate src dst).table = pool.table.relocate src dst := by
  rw [relocate, Table.relocate, Table.find?, find?_nodes_table]
  cases found : pool.tree.find? src with
  | none => rfl
  | some id =>
    have moved := cells_write_self (pool.unlink src) id { pool.cells id with address := dst }
    have kept := sound.kept src id found
    dsimp only [Option.map_some]
    rw [table_replace ((sound.unlink found).write _) (by rw [moved]; exact kept),
      table_write (sound.unlink found), table_unlink, moved]
    rfl

theorem Sound.foldl_delete (sound : pool.Sound 0) (addresses : List UInt64) :
    (addresses.foldl Pool.delete pool).Sound 0
      ∧ (addresses.foldl Pool.delete pool).table = addresses.foldl Table.erase pool.table := by
  induction addresses generalizing pool with
  | nil => exact ⟨sound, rfl⟩
  | cons first rest onward =>
    rw [List.foldl_cons, List.foldl_cons, ← table_delete sound]
    exact onward (sound.delete first)

/-- A node in a range has its address in the range. -/
theorem Sound.filterMap_get? (sound : pool.Sound loose) (addresses : List UInt64) :
    (addresses.filterMap pool.get?).map Cell.address = addresses.filter pool.tree.contains := by
  induction addresses with
  | nil => rfl
  | cons first rest onward =>
    rw [List.filterMap_cons, List.filter_cons, WordMap.contains, get?]
    cases found : pool.tree.find? first with
    | none => exact onward
    | some id => exact congrArg₂ List.cons (sound.addressed first id found) onward

theorem cleared_table (sound : pool.Sound loose) (start stop : UInt64) :
    pool.table.cleared start stop = pool.cleared start stop := by
  have keys : pool.table.nodes.keys = pool.tree.keys := WordMap.keys_mapValues ..
  have contains : pool.table.nodes.contains = pool.tree.contains := by
    funext address
    exact pool.contains_nodes_table address
  rw [Table.cleared, cleared, contains, sound.filterMap_get?, WordMap.keysWithin_eq_filter,
    WordMap.keysWithin_eq_filter, keys, List.filter_filter]
  refine congrArg (ite _ _) (List.filter_congr fun key member => ?_)
  rw [WordMap.mem_keys.mp member, Bool.true_and]

theorem table_clear (sound : pool.Sound 0) (start stop : UInt64) :
    (pool.clear start stop).table = pool.table.clear start stop := by
  rw [clear, Table.clear, cleared_table sound]
  exact (sound.foldl_delete _).2

theorem Sound.setField (sound : pool.Sound 0) (address offset value : UInt64) :
    (pool.setField address offset value).Sound 0 := by
  rw [Pool.setField]
  cases pool.tree.find? address with
  | none => exact sound
  | some id =>
    refine sound.revise rfl (fun kept => kept.setField offset value) fun dropped => ?_
    rw [Cell.setField, dropped, Option.map_none]

theorem table_setField (sound : pool.Sound 0) (address offset value : UInt64) :
    (pool.setField address offset value).table = pool.table.setEdge address offset value := by
  rw [setField, Table.setEdge, Table.update]
  cases found : pool.tree.find? address with
  | none =>
    have absent : pool.table.nodes.find? address = none := by
      rw [find?_nodes_table, found, Option.map_none]
    rw [WordMap.modify_of_find?_eq_none absent]
  | some id =>
    dsimp only
    refine congrArg ({ pool.table with nodes := · }) (WordMap.ext_find? fun sought => ?_)
    rw [WordMap.find?_mapValues, WordMap.find?_modify, tree_write]
    by_cases here : address = sought
    · subst here
      rw [if_pos rfl, found, Option.map_some, cells_write_self, find?_nodes_table, found,
        Option.map_some, Option.map_some, Cell.node_setField (sound.kept address id found)]
    · have elsewhere : ∀ other, pool.tree.find? sought = some other → other ≠ id := by
        rintro other reached rfl
        exact here (sound.address_unique found reached)
      rw [if_neg here, find?_nodes_table]
      refine Option.map_congr fun other reached => ?_
      rw [cells_write_of_ne pool _ (elsewhere other reached)]

theorem Sound.retargetNode (sound : pool.Sound loose) (images : WordMap UInt64) (id : Nat) :
    (pool.retargetNode images id).Sound loose := by
  refine sound.revise rfl (fun kept => kept.retarget images) fun dropped => ?_
  rw [Cell.retarget_eq, dropped, Option.map_none]

/-- Nothing changes but what nodes hold. -/
theorem foldl_retargetNode_cells (pool : Pool) (images : WordMap UInt64) (ids : List Nat) :
    ids.foldl (retargetNode images) pool
      = { pool with cells := (ids.foldl (retargetNode images) pool).cells } := by
  induction ids generalizing pool with
  | nil => rfl
  | cons first rest onward => exact onward (pool.retargetNode images first)

theorem Sound.foldl_retargetNode (sound : pool.Sound loose) (images : WordMap UInt64)
    (ids : List Nat) : (ids.foldl (Pool.retargetNode images) pool).Sound loose := by
  induction ids generalizing pool with
  | nil => exact sound
  | cons first rest onward => exact onward (sound.retargetNode images first)

/-- Every node that is come to once is retargeted as it was before. -/
theorem foldl_retargetNode_eq (pool : Pool) (images : WordMap UInt64) {ids : List Nat}
    (once : ids.Nodup) :
    ids.foldl (retargetNode images) pool
      = { pool with
          cells := fun id =>
            if id ∈ ids then (pool.cells id).retarget images else pool.cells id } := by
  induction ids generalizing pool with
  | nil => rfl
  | cons first rest onward =>
    obtain ⟨fresh, once⟩ := List.nodup_cons.mp once
    rw [List.foldl_cons, onward _ once, retargetNode]
    refine congrArg ({ pool with cells := · }) (funext fun id => ?_)
    by_cases here : id = first
    · subst here
      rw [if_neg fresh, cells_write_self, if_pos List.mem_cons_self]
    · rw [cells_write_of_ne pool _ here]
      simp [here]

theorem table_retarget (sound : pool.Sound 0) (images : WordMap UInt64) :
    (pool.retarget images).table = pool.table.retarget images := by
  rw [retarget, foldl_retargetNode_eq pool images sound.nodup_values]
  refine congrArg ({ pool.table with nodes := · }) ?_
  rw [table, WordMap.mapValues_mapValues]
  refine WordMap.mapValues_congr fun address id found => ?_
  have linked : id ∈ pool.tree.values := WordMap.mem_values.mpr ⟨address, found⟩
  dsimp only
  rw [if_pos linked, Cell.node_retarget]

/-! ## Requests on both sides -/

/-- **One request** leaves every node in its place, and is seen as the request to the table. -/
theorem Sound.perform (sound : pool.Sound 0) (request : Table.Request) :
    (pool.perform request).Sound 0
      ∧ (pool.perform request).table = (pool.table.perform request).2 := by
  cases request with
  | insert address kind size => exact ⟨sound.insert .., table_insert sound ..⟩
  | delete address => exact ⟨sound.delete .., table_delete sound ..⟩
  | relocate src dst => exact ⟨sound.relocate .., table_relocate sound ..⟩
  | clear start stop => exact ⟨(sound.foldl_delete _).1, table_clear sound ..⟩
  | setField address offset value => exact ⟨sound.setField .., table_setField sound ..⟩
  | retarget images => exact ⟨sound.foldl_retargetNode images _, table_retarget sound images⟩
  | reset => exact ⟨sound_empty pool.arrayBase, rfl⟩

/-- **Many requests**, by one request after the other. -/
theorem performAll_refines (sound : pool.Sound 0) (requests : List Table.Request) :
    (pool.performAll requests).Sound 0
      ∧ (pool.performAll requests).table = (pool.table.performAll requests).2 := by
  induction requests generalizing pool with
  | nil => exact ⟨sound, rfl⟩
  | cons request rest onward =>
    obtain ⟨next, seen⟩ := sound.perform request
    have reached := onward next
    rw [seen] at reached
    exact reached

end Pool

end HeapAudit
