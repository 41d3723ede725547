import HeapAudit.Proofs.Shadow.Pool
import Mathlib.Data.Finset.Card

/-!
# How many nodes a table keeps

A table keeps the nodes it removes, so that those it has and those it could use again are all the
nodes it made.  A node is made only if none is free, and then all the others are in the tree.  Hence
a table never makes more nodes than it had at once at some time, and one more: an insertion has its
node in hand already while the node that it replaces is still in place.

Every request but a reset conserves the nodes: what leaves the tree becomes free, and an insertion
uses what is free first (`Pool.Sound.recycles`).  A reset forgets all nodes, also those that leave
the tree with it, and from then on the count of nodes begins anew (`Table.peak`).
-/

namespace HeapAudit

set_option autoImplicit false

namespace Table

/-- The number of nodes that a request asks for. -/
def Request.inserted : Request → Nat
  | .insert .. => 1
  | _ => 0

/-- A request asks for no node or is an insertion, which asks for one. -/
theorem Request.inserted_cases (request : Request) :
    request.inserted = 0 ∨ ∃ address kind size, request = .insert address kind size := by
  cases request with
  | insert address kind size => exact .inr ⟨address, kind, size, rfl⟩
  | _ => exact .inl rfl

/-- The greatest number of nodes, one request later.  A reset begins anew. -/
def peakAfter (table : Table) (highest : Nat) : Request → Nat
  | .reset => 0
  | request => max highest (table.perform request).2.size

/-- The greatest number of nodes since the last reset, in all the states that requests lead
through, if it was `highest` before. -/
def peak (table : Table) (highest : Nat) : List Request → Nat
  | [] => highest
  | request :: rest => (table.perform request).2.peak (table.peakAfter highest request) rest

theorem size_le_peakAfter (table : Table) (highest : Nat) (request : Request) :
    (table.perform request).2.size ≤ table.peakAfter highest request := by
  cases request with
  | reset => exact Nat.le_refl 0
  | _ => exact Nat.le_max_right ..

theorem le_peakAfter (table : Table) (highest : Nat) {request : Request} (kept : request ≠ .reset) :
    highest ≤ table.peakAfter highest request := by
  cases request with
  | reset => exact absurd rfl kept
  | _ => exact Nat.le_max_left ..

end Table

namespace Pool

open Table (Request)

variable {pool : Pool} {loose : Multiset Nat} {id : Nat}

/-! ## Nodes that come and go -/

/-- The nodes in the tree. -/
def linked (pool : Pool) : Finset Nat := pool.tree.values.toFinset

/-- The number of nodes that leave the tree with a request. -/
def removed (pool : Pool) (request : Request) : Nat :=
  (pool.linked \ (pool.perform request).linked).card

theorem mem_linked : id ∈ pool.linked ↔ ∃ address, pool.tree.find? address = some id := by
  rw [linked, List.mem_toFinset, WordMap.mem_values]

theorem linked_unlink_subset (pool : Pool) (address : UInt64) :
    (pool.unlink address).linked ⊆ pool.linked := by
  intro id member
  obtain ⟨sought, found⟩ := mem_linked.mp member
  exact mem_linked.mpr ⟨sought, find?_of_unlink found⟩

theorem linked_attach_subset (pool : Pool) (id : Nat) :
    (pool.attach id).linked ⊆ Insert.insert id pool.linked := by
  intro other member
  obtain ⟨sought, found⟩ := mem_linked.mp member
  rcases find?_of_attach found with ⟨-, rfl⟩ | before
  · exact Finset.mem_insert_self other pool.linked
  · exact Finset.mem_insert_of_mem (mem_linked.mpr ⟨sought, before⟩)

/-- A release is not seen in the tree. -/
theorem tree_replace (pool : Pool) (id : Nat) : (pool.replace id).tree = (pool.attach id).tree := by
  rw [replace]
  split <;> rfl

theorem linked_replace_subset (pool : Pool) (id : Nat) :
    (pool.replace id).linked ⊆ Insert.insert id pool.linked := by
  rw [linked, tree_replace]
  exact linked_attach_subset pool id

theorem find?_replace_self (pool : Pool) (id : Nat) :
    (pool.replace id).tree.find? (pool.cells id).address = some id := by
  rw [tree_replace]
  exact WordMap.find?_insert_self ..

theorem linked_delete_subset (pool : Pool) (address : UInt64) :
    (pool.delete address).linked ⊆ pool.linked := by
  rw [delete]
  split
  · exact Finset.Subset.refl _
  · exact pool.linked_unlink_subset address

theorem linked_foldl_delete_subset (pool : Pool) (addresses : List UInt64) :
    (addresses.foldl delete pool).linked ⊆ pool.linked := by
  induction addresses generalizing pool with
  | nil => exact Finset.Subset.refl _
  | cons first rest onward => exact (onward _).trans (pool.linked_delete_subset first)

theorem linked_relocate_subset (pool : Pool) (src dst : UInt64) :
    (pool.relocate src dst).linked ⊆ pool.linked := by
  rw [relocate]
  cases found : pool.tree.find? src with
  | none => exact Finset.Subset.refl _
  | some id =>
    have home : id ∈ pool.linked := mem_linked.mpr ⟨src, found⟩
    refine (linked_replace_subset _ id).trans (Finset.insert_subset home ?_)
    exact pool.linked_unlink_subset src

/-- **Only an insertion puts a node into the tree** that was not there before. -/
theorem linked_perform_subset (pool : Pool) {request : Request} (none : request.inserted = 0) :
    (pool.perform request).linked ⊆ pool.linked := by
  cases request with
  | insert address kind size => cases none
  | delete address => exact pool.linked_delete_subset address
  | relocate src dst => exact pool.linked_relocate_subset src dst
  | clear start stop => exact pool.linked_foldl_delete_subset _
  | setField address offset value =>
    rw [perform, setField]
    split <;> exact Finset.Subset.refl _
  | retarget images =>
    rw [perform, retarget, foldl_retargetNode_cells]
    exact Finset.Subset.refl _
  | reset => exact Finset.empty_subset _

/-! ## The node that is handed out -/

theorem linked_take (pool : Pool) : pool.take.2.linked = pool.linked := by
  rw [take]
  split <;> rfl

/-- A node that is taken is not in the tree. -/
theorem Sound.take_not_mem_linked (sound : pool.Sound loose) : pool.take.1 ∉ pool.linked := by
  rw [← linked_take, mem_linked]
  rintro ⟨address, found⟩
  exact sound.take.ne_of_find? found rfl

theorem find?_insert (pool : Pool) (address : UInt64) (kind : Kind) (size : UInt64) :
    (pool.insert address kind size).tree.find? address = some pool.take.1 := by
  have placed := find?_replace_self
    (pool.take.2.write pool.take.1 ⟨address, kind, size, some ∅⟩) pool.take.1
  rwa [cells_write_self] at placed

/-- An insertion puts one node into the tree, the one that it took. -/
theorem Sound.linked_insert_sdiff (sound : pool.Sound loose) (address : UInt64) (kind : Kind)
    (size : UInt64) :
    (pool.insert address kind size).linked \ pool.linked = {pool.take.1} := by
  have gained := linked_replace_subset
    (pool.take.2.write pool.take.1 ⟨address, kind, size, some ∅⟩) pool.take.1
  ext other
  rw [Finset.mem_sdiff, Finset.mem_singleton]
  constructor
  · rintro ⟨member, missing⟩
    rcases Finset.mem_insert.mp (gained member) with here | before
    · exact here
    · exact absurd (pool.linked_take ▸ before) missing
  · rintro rfl
    exact ⟨mem_linked.mpr ⟨address, pool.find?_insert address kind size⟩, sound.take_not_mem_linked⟩

/-- The node that is released is not the one that replaces it. -/
theorem Sound.cells_replace (sound : pool.Sound (id ::ₘ loose)) :
    (pool.replace id).cells id = pool.cells id := by
  rw [Pool.replace]
  cases found : pool.tree.find? (pool.cells id).address with
  | none => rfl
  | some evicted => exact cells_write_of_ne (pool.attach id) _ (sound.ne_of_find? found).symm

/-- The node that is handed out holds the new object and nothing else. -/
theorem Sound.cells_insert (sound : pool.Sound loose) (address : UInt64) (kind : Kind)
    (size : UInt64) :
    (pool.insert address kind size).cells pool.take.1 = ⟨address, kind, size, some ∅⟩ := by
  rw [Pool.insert, (sound.take.write _).cells_replace, cells_write_self]

/-! ## Numbers of nodes -/

theorem made_replace (pool : Pool) (id : Nat) : (pool.replace id).made = pool.made := by
  rw [replace]
  split <;> rfl

theorem made_foldl_delete (pool : Pool) (addresses : List UInt64) :
    (addresses.foldl delete pool).made = pool.made := by
  induction addresses generalizing pool with
  | nil => rfl
  | cons first rest onward =>
    rw [List.foldl_cons, onward, delete]
    split <;> rfl

theorem made_take (pool : Pool) :
    pool.take.2.made + min 1 pool.free.length = pool.made + 1 := by
  cases free : pool.free with
  | nil =>
    rw [take_of_nil free]
    rfl
  | cons first rest =>
    rw [take_of_cons free, List.length_cons]
    dsimp only
    omega

theorem made_perform_of_none (pool : Pool) {request : Request} (kept : request ≠ .reset)
    (none : request.inserted = 0) : (pool.perform request).made = pool.made := by
  cases request with
  | insert address kind size => cases none
  | delete address => exact pool.made_foldl_delete [address]
  | relocate src dst =>
    rw [perform, relocate]
    split
    · rfl
    · exact made_replace ..
  | clear start stop => exact pool.made_foldl_delete _
  | setField address offset value =>
    rw [perform, setField]
    split <;> rfl
  | retarget images =>
    rw [perform, retarget, foldl_retargetNode_cells]
  | reset => exact absurd rfl kept

/-- **A node is made** for an insertion that finds none free, and for nothing else. -/
theorem made_perform (pool : Pool) {request : Request} (kept : request ≠ .reset) :
    (pool.perform request).made + min request.inserted pool.table.free
      = pool.made + request.inserted := by
  rcases request.inserted_cases with none | ⟨address, kind, size, rfl⟩
  · rw [pool.made_perform_of_none kept none, none, Nat.zero_min]
  · rw [perform, insert, made_replace]
    exact pool.made_take

namespace Sound

theorem card_linked (sound : pool.Sound loose) : pool.linked.card = pool.table.size := by
  rw [linked, List.toFinset_card_of_nodup sound.nodup_values, WordMap.length_values, size_table,
    size]

/-- **No node is lost**: what was made is in the tree or free. -/
theorem size_add_free (sound : pool.Sound 0) : pool.table.size + pool.table.free = pool.made := by
  have number := congrArg Multiset.card sound.accounted
  rw [Multiset.card_add, Multiset.card_add, Multiset.card_zero, Multiset.coe_card,
    Multiset.coe_card, Multiset.card_range, Nat.add_zero, WordMap.length_values] at number
  rw [size_table]
  exact number

theorem card_gained (sound : pool.Sound 0) (request : Request) :
    ((pool.perform request).linked \ pool.linked).card = request.inserted := by
  rcases request.inserted_cases with none | ⟨address, kind, size, rfl⟩
  · rw [none, Finset.sdiff_eq_empty_iff_subset.mpr (pool.linked_perform_subset none),
      Finset.card_empty]
  · exact congrArg Finset.card (sound.linked_insert_sdiff address kind size)

/-- What is in the tree was there before and stays, or comes with an insertion. -/
theorem size_perform (sound : pool.Sound 0) (request : Request) :
    (pool.perform request).table.size + pool.removed request
      = pool.table.size + request.inserted := by
  have lost := Finset.card_sdiff_add_card_inter pool.linked (pool.perform request).linked
  have gained := Finset.card_sdiff_add_card_inter (pool.perform request).linked pool.linked
  rw [sound.card_linked] at lost
  rw [(sound.perform request).1.card_linked, sound.card_gained, Finset.inter_comm] at gained
  rw [removed]
  omega

/-- **Every node that leaves the tree becomes free**, and only an insertion uses a free one. -/
theorem recycles (sound : pool.Sound 0) {request : Request} (kept : request ≠ .reset) :
    (pool.perform request).table.free + min request.inserted pool.table.free
      = pool.table.free + pool.removed request := by
  have linked := sound.size_perform request
  have made := pool.made_perform kept
  have before := sound.size_add_free
  have after := (sound.perform request).1.size_add_free
  omega

/-! ## The greatest number of nodes -/

/-- One request keeps the nodes within the bound. -/
theorem made_le_peakAfter (sound : pool.Sound 0) {highest : Nat} (request : Request)
    (reached : pool.table.size ≤ highest) (bounded : pool.made ≤ highest + 1) :
    (pool.perform request).made ≤ pool.table.peakAfter highest request + 1 := by
  by_cases kept : request = .reset
  · subst kept
    exact Nat.zero_le _
  · have higher := pool.table.le_peakAfter highest kept
    have before := sound.size_add_free
    have made := pool.made_perform kept
    rcases request.inserted_cases with none | ⟨address, kind, size, rfl⟩
    · omega
    · rw [Request.inserted] at made
      -- If a node is made, then none was free and all were in the tree.
      omega

/-- **Many requests**, by one request after the other. -/
theorem made_le_peak (sound : pool.Sound 0) {highest : Nat} (requests : List Request)
    (reached : pool.table.size ≤ highest) (bounded : pool.made ≤ highest + 1) :
    (pool.performAll requests).made ≤ pool.table.peak highest requests + 1 := by
  induction requests generalizing pool highest with
  | nil => exact bounded
  | cons request rest onward =>
    obtain ⟨next, seen⟩ := sound.perform request
    have later := onward next (seen ▸ pool.table.size_le_peakAfter highest request)
      (sound.made_le_peakAfter request reached bounded)
    rw [seen] at later
    exact later

end Sound

/-- **The nodes of a table are bounded.**  Any requests to a new table are seen as those to a pool
of nodes, and in the state that is reached no node is lost, so that the nodes the table has and
those it keeps for reuse are at most one more than it ever had since the last reset.  A request
other than a reset makes them no fewer, and frees as many nodes as leave the tree, but for the one
that an insertion uses; a reset leaves none.  An insertion hands out a node that no other object
has, before or after, and that holds nothing but the new object. -/
theorem recycling_is_bounded (base : UInt64) (requests : List Request) :
    let table := ((Table.empty base).performAll requests).2
    let pool := (empty base).performAll requests
    pool.table = table
      ∧ table.size + table.free = pool.made
      ∧ table.size + table.free ≤ (Table.empty base).peak 0 requests + 1
      ∧ (∀ request,
        let next := (table.perform request).2
        next.size + pool.removed request = table.size + request.inserted
          ∧ (request = .reset → next.size = 0 ∧ next.free = 0)
          ∧ (request ≠ .reset → table.size + table.free ≤ next.size + next.free
            ∧ next.free + min request.inserted table.free = table.free + pool.removed request))
      ∧ ∀ address kind size,
        let next := pool.insert address kind size
        next.table = table.insert address kind size
          ∧ next.tree.find? address = some pool.take.1
          ∧ next.cells pool.take.1 = ⟨address, kind, size, some ∅⟩
          ∧ pool.take.1 ∉ pool.linked
          ∧ ∀ other, next.tree.find? other = some pool.take.1 → other = address := by
  intro table pool
  have refines := performAll_refines (sound_empty base) requests
  have sound : pool.Sound 0 := refines.1
  have seen : pool.table = table := refines.2
  have whole : table.size + table.free = pool.made := seen ▸ sound.size_add_free
  have bounded : pool.made ≤ (Table.empty base).peak 0 requests + 1 :=
    (sound_empty base).made_le_peak requests (Nat.le_refl 0) (Nat.zero_le _)
  refine ⟨seen, whole, whole ▸ bounded, fun request => ?_, fun address kind size => ?_⟩
  · have after : (pool.perform request).table = (table.perform request).2 :=
      seen ▸ (sound.perform request).2
    have linked := sound.size_perform request
    rw [after, seen] at linked
    refine ⟨linked, ?_, fun kept => ?_⟩
    · rintro rfl
      exact ⟨rfl, rfl⟩
    · have recycled := sound.recycles kept
      rw [after, seen] at recycled
      exact ⟨by omega, recycled⟩
  · have placed := pool.find?_insert address kind size
    refine ⟨?_, placed, sound.cells_insert address kind size, sound.take_not_mem_linked, ?_⟩
    · rw [table_insert sound, seen]
    · intro other found
      exact (sound.insert address kind size).address_unique found placed

/-- An object is replaced, and its node goes to another one, over which the replacement moves. -/
def displaced : List Request :=
  [.insert 0x1000 .newObject 2, .setField 0x1000 8 0x3000, .insert 0x1000 .newArray 4,
    .insert 0x2000 .newObject 1, .setField 0x2000 0 0x4000, .relocate 0x1000 0x2000]

/-- One more insertion evicts a node and uses the first one for the third time, without the
references it held before. -/
theorem recycling_is_bounded_displaced :
    let table := ((Table.empty 16).performAll displaced).2
    let pool := (empty 16).performAll displaced
    let request : Request := .insert 0x2000 .newObject 3
    let next := pool.insert 0x2000 .newObject 3
    (table.size = 1 ∧ table.free = 1 ∧ (Table.empty 16).peak 0 displaced = 2)
      ∧ table.size + table.free ≤ (Table.empty 16).peak 0 displaced + 1
      ∧ (request ≠ .reset ∧ pool.removed request = 1)
      ∧ (table.perform request).2.free + min request.inserted table.free
        = table.free + pool.removed request
      ∧ pool.take.1 = 0 ∧ next.tree.find? 0x2000 = some pool.take.1
      ∧ next.cells pool.take.1 = ⟨0x2000, .newObject, 3, some ∅⟩
      ∧ ∀ other, next.tree.find? other = some pool.take.1 → other = 0x2000 := by
  intro table pool request next
  obtain ⟨-, -, bounded, steps, handed⟩ := recycling_is_bounded 16 displaced
  obtain ⟨-, placed, bare, -, alone⟩ := handed 0x2000 .newObject 3
  have kept : request ≠ .reset := nofun
  obtain ⟨-, recycled⟩ := (steps request).2.2 kept
  exact ⟨by decide +kernel, bounded, ⟨kept, by decide +kernel⟩, recycled, by decide +kernel, placed,
    bare, alone⟩

/-- **A reset frees no node**: the node of the table leaves the tree, and is not kept. -/
theorem reset_forgets_nodes :
    let requests : List Request := [.insert 0x1000 .newObject 2]
    let table := ((Table.empty 16).performAll requests).2
    let pool := (empty 16).performAll requests
    let next := (table.perform .reset).2
    pool.table = table ∧ table.size = 1 ∧ table.free = 0
      ∧ pool.removed .reset = 1 ∧ next.size = 0 ∧ next.free = 0
      ∧ next.free + min (Request.inserted .reset) table.free
        ≠ table.free + pool.removed .reset := by
  decide +kernel

end Pool

end HeapAudit
