import HeapAudit.Proofs.Shadow.Pool

/-!
# The nodes of a table as a plain map

A node carries its address and a reference carries its offset, and both can be written to.  So it is
up to the requests that a node is found under the address it carries, that the nodes are listed by
the addresses they carry, and that every reference is under the offset it carries.  All of this is
in what `Pool.Sound` says of the tree: only a node in hand is given another address, and a reference
is written with the offset that it is put under.

Read by these keys, a pool stands for a catalog (`Pool.catalog`), that of the table that is seen of
it, and the requests to a new pool are answered as those to a map without objects
(`Pool.requests_refine_catalog`).
-/

namespace HeapAudit

set_option autoImplicit false

/-- What a cell says of its object to one who asks for its fields. -/
def Cell.profile (cell : Cell) : Profile :=
  ⟨cell.kind, cell.size, fun offset => (cell.field? offset).map FieldEdge.value⟩

theorem Cell.profile_node (cell : Cell) : cell.node.profile = cell.profile := by
  rw [Node.profile, profile, Profile.mk.injEq]
  refine ⟨rfl, rfl, funext fun offset => ?_⟩
  exact WordMap.find?_mapValues ..

namespace Pool

open Table (Request)

variable {pool : Pool} {loose : Multiset Nat} {address : UInt64} {cell : Cell}

/-- The catalog that a pool stands for. -/
def catalog (pool : Pool) : Catalog := fun address => (pool.get? address).map Cell.profile

/-! ## Keys that nodes carry -/

namespace Sound

/-- **The nodes are listed by the addresses they carry.** -/
theorem ordered_nodes (sound : pool.Sound loose) :
    pool.nodes.Pairwise fun earlier later => earlier.address < later.address := by
  rw [nodes, WordMap.values, List.map_map, List.pairwise_map]
  refine pool.tree.ordered_entries.imp_of_mem fun {earlier later} first second below => ?_
  have low := sound.addressed earlier.1 earlier.2 (WordMap.mem_entries.mp first)
  have high := sound.addressed later.1 later.2 (WordMap.mem_entries.mp second)
  rw [Function.comp_apply, Function.comp_apply, low, high]
  exact below

/-- **A node is found under the address it carries.** -/
theorem get?_eq_some_iff (sound : pool.Sound loose) :
    pool.get? address = some cell ↔ cell ∈ pool.nodes ∧ cell.address = address := by
  rw [get?, nodes, List.mem_map, Option.map_eq_some_iff]
  constructor
  · rintro ⟨id, found, rfl⟩
    exact ⟨⟨id, WordMap.mem_values.mpr ⟨address, found⟩, rfl⟩, sound.addressed address id found⟩
  · rintro ⟨⟨id, linked, rfl⟩, rfl⟩
    obtain ⟨key, found⟩ := WordMap.mem_values.mp linked
    obtain rfl := sound.addressed key id found
    exact ⟨id, found, rfl⟩

/-- Every reference of a node is under the offset it carries. -/
theorem labelled (sound : pool.Sound loose) (listed : cell ∈ pool.nodes) : cell.Labelled := by
  obtain ⟨id, linked, rfl⟩ := List.mem_map.mp listed
  obtain ⟨address, found⟩ := WordMap.mem_values.mp linked
  exact sound.kept address id found

end Sound

/-! ## What is seen of the nodes -/

theorem catalog_table (pool : Pool) : pool.table.catalog = pool.catalog := by
  funext address
  rw [Table.catalog, Table.find?, find?_nodes_table, Option.map_map, catalog, get?, Option.map_map]
  exact congrArg (Option.map · _) (funext fun id => (pool.cells id).profile_node)

theorem isSome_find?_table (pool : Pool) (address : UInt64) :
    (pool.table.find? address).isSome = (pool.get? address).isSome := by
  rw [Table.find?, find?_nodes_table, get?, Option.isSome_map, Option.isSome_map]

theorem edgeCount_table (pool : Pool) : pool.table.edgeCount = pool.edgeCount := by
  rw [Table.edgeCount, edgeCount, nodes, WordMap.values, WordMap.values, table,
    WordMap.entries_mapValues, List.map_map, List.map_map, List.foldr_map, List.foldr_map]
  refine congrArg (List.foldr · 0 _) (funext fun entry => funext fun count => ?_)
  exact congrArg (· + count) (WordMap.size_mapValues ..)

/-- **One answer.**  A pool answers as the table that is seen of it. -/
theorem Sound.answer_table (sound : pool.Sound loose) (request : Request) :
    (pool.table.perform request).1 = pool.answer request := by
  cases request with
  | insert address kind size => rfl
  | delete address => exact congrArg Table.Answer.known (pool.isSome_find?_table address)
  | relocate src dst => exact congrArg Table.Answer.known (pool.isSome_find?_table src)
  | clear start stop =>
    exact congrArg (Table.Answer.cleared ∘ List.length) (cleared_table sound start stop)
  | setField address offset value =>
    exact congrArg Table.Answer.known (pool.isSome_find?_table address)
  | retarget images => rfl
  | reset => rfl

/-- **Many answers**, by one answer after the other. -/
theorem Sound.answers_table (sound : pool.Sound 0) (requests : List Request) :
    (pool.table.performAll requests).1 = pool.answers requests := by
  induction requests generalizing pool with
  | nil => rfl
  | cons request rest onward =>
    obtain ⟨next, seen⟩ := sound.perform request
    have later := onward next
    rw [seen] at later
    exact congrArg₂ List.cons (sound.answer_table request) later

/-- **A table of nodes is a plain map.**  Any sequence of requests to a new table of nodes is
answered as by a map without objects, and the nodes then stand for the map that is reached; the
table without nodes of its own gives the same answers and is what is seen of them.  In the state
that is reached the nodes are listed by increasing address, what is found at an address is the node
that carries it, every reference is under the offset that it carries, retargeting may come to the
references of a node in any order, and the numbers of nodes and of references are those of the
map. -/
theorem requests_refine_catalog (base : UInt64) (requests : List Request) :
    let pool := (empty base).performAll requests
    let (expected, catalog) := Catalog.performAll (fun _ => none) requests
    (empty base).answers requests = expected ∧ pool.catalog = catalog
      ∧ (Table.empty base).performAll requests = (expected, pool.table)
      ∧ pool.nodes.Pairwise (fun earlier later => earlier.address < later.address)
      ∧ (∀ address cell, pool.get? address = some cell
        ↔ cell ∈ pool.nodes ∧ cell.address = address)
      ∧ (∀ cell ∈ pool.nodes, cell.edges.isSome
        ∧ (∀ offset edge, cell.field? offset = some edge → edge.offset = offset)
        ∧ ∀ images order, order.Perm cell.offsets →
          cell.retargetAlong images order = cell.retarget images)
      ∧ pool.size = catalog.objects.ncard ∧ pool.edgeCount = catalog.slots.ncard := by
  intro pool
  obtain ⟨sound, seen⟩ := performAll_refines (sound_empty base) requests
  obtain ⟨expected, reached⟩ := (Table.empty base).performAll_refines requests
  have answered : ((Table.empty base).performAll requests).1 = (empty base).answers requests :=
    (sound_empty base).answers_table requests
  rw [Table.catalog_empty] at expected reached
  have stands : pool.catalog = (Catalog.performAll (fun _ => none) requests).2 := by
    rw [← reached, ← pool.catalog_table]
    exact congrArg Table.catalog seen
  refine ⟨answered.symm.trans expected, stands, Prod.ext expected seen.symm, sound.ordered_nodes,
    fun _ _ => sound.get?_eq_some_iff, fun cell listed => ?_, ?_, ?_⟩
  · obtain ⟨edges, held, labels⟩ := sound.labelled listed
    refine ⟨held ▸ rfl, ?_, ?_⟩
    · intro offset edge found
      rw [Cell.field?, held, Option.getD_some] at found
      exact labels offset edge found
    · intro images order visits
      rw [cell.retargetAlong_eq images visits, cell.retarget_eq]
  · rw [← stands, ← catalog_table, ← Table.size_eq_ncard, size_table]
  · rw [← stands, ← catalog_table, ← Table.edgeCount_eq_ncard, edgeCount_table]

end Pool

end HeapAudit
