import HeapAudit.Proofs.Shadow.Lookup
import Mathlib.Data.Set.Card

/-!
# The shadow table as a plain map

A catalog says of every address which object is known there, and of every offset of the object which
reference was seen: two functions, without order, search tree or count of removed nodes
(`Catalog`).  What can be asked of a table (`Table.Request`) is answered by a catalog in one line
each, by changing the function at the addresses that are named.

A table stands for a catalog (`Table.catalog`) and answers every request as its catalog does
(`Table.perform_refines`), so that any sequence of requests comes to what the same sequence makes of
the catalog (`Table.performAll_refines`).  The numbers of nodes and edges are read off the catalog
too.
-/

namespace HeapAudit

set_option autoImplicit false

/-! ## Requests -/

namespace Table

/-- What can be asked of a table; a field is set in the node that is found at an address. -/
inductive Request where
  | insert (address : UInt64) (kind : Kind) (size : UInt64)
  | delete (address : UInt64)
  | relocate (src dst : UInt64)
  | clear (start stop : UInt64)
  | setField (address offset value : UInt64)
  | retarget (images : WordMap UInt64)
  | reset

/-- What is answered. -/
inductive Answer where
  | done
  /-- Whether the object that was named is known. -/
  | known (isKnown : Bool)
  /-- The number of objects that were removed. -/
  | cleared (count : Nat)
  deriving DecidableEq

/-- Answers a request. -/
def perform (table : Table) : Request → Answer × Table
  | .insert address kind size => (.done, table.insert address kind size)
  | .delete address => (.known (table.find? address).isSome, table.erase address)
  | .relocate src dst => (.known (table.find? src).isSome, table.relocate src dst)
  | .clear start stop => (.cleared (table.cleared start stop).length, table.clear start stop)
  | .setField address offset value =>
    (.known (table.find? address).isSome, table.setEdge address offset value)
  | .retarget images => (.done, table.retarget images)
  | .reset => (.done, table.reset)

/-- Answers requests in order. -/
def performAll (table : Table) : List Request → List Answer × Table
  | [] => ([], table)
  | request :: rest =>
    let (answer, next) := table.perform request
    let (answers, reached) := next.performAll rest
    (answer :: answers, reached)

end Table

/-! ## Catalogs -/

/-- What a catalog says of an object. -/
structure Profile where
  kind : Kind
  size : UInt64
  /-- The reference seen at an offset. -/
  value? : UInt64 → Option UInt64

/-- The object with every reference that has an image led to it. -/
def Profile.retarget (images : WordMap UInt64) (profile : Profile) : Profile :=
  { profile with
    value? := fun offset =>
      (profile.value? offset).map fun value => (images.find? value).getD value }

/-- The known objects, by address. -/
abbrev Catalog := UInt64 → Option Profile

namespace Catalog

/-- The addresses that are cleared.  A range without bytes stands for its start. -/
def Cleared (start stop address : UInt64) : Prop :=
  start ≤ address ∧ address < stop ∨ start = stop ∧ address = start

instance (start stop address : UInt64) : Decidable (Cleared start stop address) :=
  inferInstanceAs (Decidable (_ ∨ _))

/-- The objects of a catalog. -/
def objects (catalog : Catalog) : Set UInt64 := { address | (catalog address).isSome }

/-- The slots with a reference: the address of the object and the offset. -/
def slots (catalog : Catalog) : Set (UInt64 × UInt64) :=
  { slot | ∃ profile, catalog slot.1 = some profile ∧ (profile.value? slot.2).isSome }

open Table in
/-- Answers a request. -/
noncomputable def perform (catalog : Catalog) : Request → Answer × Catalog
  | .insert address kind size =>
    (.done, Function.update catalog address (some ⟨kind, size, fun _ => none⟩))
  | .delete address => (.known (catalog address).isSome, Function.update catalog address none)
  | .relocate src dst =>
    match catalog src with
    | none => (.known false, catalog)
    | some profile =>
      (.known true, Function.update (Function.update catalog src none) dst (some profile))
  | .clear start stop =>
    (.cleared { address ∈ catalog.objects | Cleared start stop address }.ncard,
      fun address => if Cleared start stop address then none else catalog address)
  | .setField address offset value =>
    (.known (catalog address).isSome,
      Function.update catalog address ((catalog address).map fun profile =>
        { profile with value? := Function.update profile.value? offset (some value) }))
  | .retarget images => (.done, fun address => (catalog address).map (Profile.retarget images))
  | .reset => (.done, fun _ => none)

open Table in
/-- Answers requests in order. -/
noncomputable def performAll (catalog : Catalog) : List Request → List Answer × Catalog
  | [] => ([], catalog)
  | request :: rest =>
    let (answer, next) := catalog.perform request
    let (answers, reached) := performAll next rest
    (answer :: answers, reached)

end Catalog

/-! ## The catalog of a table -/

/-- What a node says of its object. -/
def Node.profile (node : Node) : Profile := ⟨node.kind, node.size, node.edges.find?⟩

namespace Table

/-- The catalog that a table stands for. -/
def catalog (table : Table) : Catalog := fun address => (table.find? address).map Node.profile

variable (table : Table)

theorem catalog_empty (base : UInt64) : (empty base).catalog = fun _ => none := by
  funext address
  rw [catalog, find?, empty, WordMap.find?_empty, Option.map_none]

theorem isSome_catalog (address : UInt64) :
    (table.catalog address).isSome = (table.find? address).isSome := by
  rw [catalog, Option.isSome_map]

/-- A node comes to an address. -/
theorem catalog_of_insert {nodes : WordMap Node} {address : UInt64} {node : Node} {after : Table}
    (inserted : after.nodes = nodes.insert address node) :
    after.catalog
      = Function.update (fun sought => (nodes.find? sought).map Node.profile) address
        (some node.profile) := by
  funext sought
  rw [catalog, find?, inserted, WordMap.find?_insert]
  by_cases here : address = sought
  · subst here
    rw [if_pos rfl, Function.update_self, Option.map_some]
  · rw [if_neg here, Function.update_of_ne (Ne.symm here)]

theorem catalog_insert (address : UInt64) (kind : Kind) (size : UInt64) :
    (table.insert address kind size).catalog
      = Function.update table.catalog address (some ⟨kind, size, fun _ => none⟩) := by
  have bare : Node.profile ⟨kind, size, ∅⟩ = ⟨kind, size, fun _ => none⟩ := by
    rw [Node.profile, Profile.mk.injEq]
    exact ⟨rfl, rfl, funext WordMap.find?_empty⟩
  rw [← bare]
  exact catalog_of_insert rfl

/-- The nodes without one of them. -/
theorem profile_find?_erase (nodes : WordMap Node) (address : UInt64) :
    (fun sought => ((nodes.erase address).find? sought).map Node.profile)
      = Function.update (fun sought => (nodes.find? sought).map Node.profile) address none := by
  funext sought
  rw [WordMap.find?_erase]
  by_cases here : address = sought
  · subst here
    rw [if_pos rfl, Function.update_self, Option.map_none]
  · rw [if_neg here, Function.update_of_ne (Ne.symm here)]

theorem catalog_erase (address : UInt64) :
    (table.erase address).catalog = Function.update table.catalog address none := by
  rw [erase]
  split
  · exact profile_find?_erase table.nodes address
  · rename_i absent
    have none : table.catalog address = none := by
      rw [← Option.not_isSome_iff_eq_none, isSome_catalog]
      exact absent
    rw [← none, Function.update_eq_self]

theorem catalog_relocate (src dst : UInt64) :
    (table.relocate src dst).catalog
      = match table.catalog src with
        | none => table.catalog
        | some profile =>
          Function.update (Function.update table.catalog src none) dst (some profile) := by
  rw [relocate]
  cases found : table.find? src with
  | none =>
    rw [catalog, found]
    rfl
  | some node =>
    have held : table.catalog src = some node.profile := by rw [catalog, found, Option.map_some]
    rw [held]
    dsimp only
    rw [catalog_of_insert rfl]
    exact congrArg (Function.update · dst (some node.profile)) (profile_find?_erase table.nodes src)

theorem catalog_setEdge (address offset value : UInt64) :
    (table.setEdge address offset value).catalog
      = Function.update table.catalog address ((table.catalog address).map fun profile =>
        { profile with value? := Function.update profile.value? offset (some value) }) := by
  funext sought
  rw [catalog, find?, setEdge, update, WordMap.find?_modify]
  by_cases here : address = sought
  · subst here
    rw [if_pos rfl, Function.update_self, Option.map_map, catalog, Option.map_map]
    refine congrArg (Option.map · _) (funext fun node => ?_)
    have edges : (node.edges.insert offset value).find?
        = Function.update node.edges.find? offset (some value) := by
      funext place
      rw [WordMap.find?_insert, Function.update_apply]
      simp only [eq_comm]
    simp only [Function.comp_apply, Node.profile, edges]
  · rw [if_neg here, Function.update_of_ne (Ne.symm here)]
    rfl

theorem profile_retarget (images : WordMap UInt64) (node : Node) :
    Node.profile { node with
      edges := node.edges.mapValues fun _ value => (images.find? value).getD value }
      = node.profile.retarget images := by
  rw [Node.profile, Profile.retarget, Profile.mk.injEq]
  refine ⟨rfl, rfl, ?_⟩
  funext offset
  exact WordMap.find?_mapValues ..

theorem catalog_retarget (images : WordMap UInt64) :
    (table.retarget images).catalog
      = fun address => (table.catalog address).map (Profile.retarget images) := by
  funext address
  rw [catalog, find?, retarget, WordMap.find?_mapValues, catalog, Option.map_map, Option.map_map]
  exact congrArg (Option.map · _) (funext (profile_retarget images))

-- An image that has an image itself is left at the first one.
example : ((((empty 16).insert 0x10 .newObject 2).setEdge 0x10 0 0x20).setEdge 0x10 8 0x30
      |>.retarget (.ofList [(0x20, 0x30), (0x30, 0x50)])).nodes.values.map
        (fun node => node.edges.entries)
    = [[(0, 0x30), (8, 0x50)]] := by
  decide +kernel

theorem mem_cleared_iff {address start stop : UInt64} :
    address ∈ table.cleared start stop
      ↔ address ∈ table.catalog.objects ∧ Catalog.Cleared start stop address := by
  have present : address ∈ table.catalog.objects ↔ table.nodes.contains address = true := by
    rw [Catalog.objects, Set.mem_ofPred_eq, isSome_catalog, WordMap.contains, find?]
  rw [present, cleared, Catalog.Cleared]
  split
  · rename_i same
    subst same
    have empty : ¬ (start ≤ address ∧ address < start) := fun inside =>
      UInt64.lt_irrefl _ (UInt64.lt_of_le_of_lt inside.1 inside.2)
    rw [List.mem_filter, List.mem_singleton, and_comm]
    simp only [empty, true_and, false_or]
  · rename_i different
    rw [WordMap.keysWithin_eq_filter, List.mem_filter, WordMap.mem_keys]
    simp only [different, false_and, or_false, Bool.and_eq_true, decide_eq_true_eq]

theorem nodup_cleared (start stop : UInt64) : (table.cleared start stop).Nodup := by
  rw [cleared]
  split
  · exact (List.nodup_singleton start).filter _
  · rw [WordMap.keysWithin_eq_filter]
    exact table.nodes.nodup_keys.filter _

theorem catalog_foldl_erase (addresses : List UInt64) :
    (addresses.foldl erase table).catalog
      = fun address => if address ∈ addresses then none else table.catalog address := by
  induction addresses generalizing table with
  | nil => rfl
  | cons first rest onward =>
    rw [List.foldl_cons, onward, catalog_erase]
    funext address
    rw [Function.update_apply]
    by_cases later : address ∈ rest
    · simp [later]
    · by_cases here : address = first <;> simp [later, here]

theorem catalog_clear (start stop : UInt64) :
    (table.clear start stop).catalog
      = fun address => if Catalog.Cleared start stop address then none
        else table.catalog address := by
  rw [clear, catalog_foldl_erase]
  funext address
  by_cases gone : Catalog.Cleared start stop address
  · rw [if_pos gone]
    by_cases present : address ∈ table.catalog.objects
    · rw [if_pos (table.mem_cleared_iff.mpr ⟨present, gone⟩)]
    · rw [ite_eq_left_iff]
      intro _
      exact Option.not_isSome_iff_eq_none.mp present
  · rw [if_neg gone, if_neg fun member => gone (table.mem_cleared_iff.mp member).2]

/-! ## Numbers -/

theorem ncard_cleared (start stop : UInt64) :
    { address ∈ table.catalog.objects | Catalog.Cleared start stop address }.ncard
      = (table.cleared start stop).length :=
  ncard_eq_length (table.nodup_cleared start stop) fun _ => table.mem_cleared_iff

/-- The number of nodes is the number of objects. -/
theorem size_eq_ncard : table.size = table.catalog.objects.ncard := by
  have members : ∀ address, address ∈ table.nodes.keys ↔ address ∈ table.catalog.objects := by
    intro address
    rw [WordMap.mem_keys, Catalog.objects, Set.mem_ofPred_eq, isSome_catalog, WordMap.contains,
      find?]
  rw [ncard_eq_length table.nodes.nodup_keys members, WordMap.keys, List.length_map,
    WordMap.length_entries, size]

/-- The slots with an edge, node by node. -/
def edgeSlots : List (UInt64 × UInt64) :=
  table.nodes.entries.flatMap fun entry => entry.2.edges.keys.map fun offset => (entry.1, offset)

theorem nodup_edgeSlots : table.edgeSlots.Nodup := by
  rw [edgeSlots, List.nodup_flatMap]
  refine ⟨fun entry _ => ?_, ?_⟩
  · exact entry.2.edges.nodup_keys.map fun first second same => (Prod.mk.inj same).2
  · refine table.nodes.ordered_entries.imp fun {earlier later} below => ?_
    rw [Function.onFun, List.disjoint_left]
    rintro slot first second
    obtain ⟨_, _, rfl⟩ := List.mem_map.mp first
    obtain ⟨_, _, same⟩ := List.mem_map.mp second
    exact UInt64.lt_irrefl _ ((Prod.mk.inj same).1 ▸ below)

theorem mem_edgeSlots {slot : UInt64 × UInt64} :
    slot ∈ table.edgeSlots ↔ slot ∈ table.catalog.slots := by
  obtain ⟨address, offset⟩ := slot
  rw [edgeSlots, List.mem_flatMap, Catalog.slots, Set.mem_ofPred_eq]
  constructor
  · rintro ⟨⟨found, node⟩, listed, member⟩
    obtain ⟨place, held, same⟩ := List.mem_map.mp member
    cases same
    refine ⟨node.profile, ?_, WordMap.mem_keys.mp held⟩
    rw [catalog, find?, WordMap.mem_entries.mp listed, Option.map_some]
  · rintro ⟨profile, found, held⟩
    obtain ⟨node, present, rfl⟩ := Option.map_eq_some_iff.mp found
    exact ⟨(address, node), WordMap.mem_entries.mpr present,
      List.mem_map.mpr ⟨offset, WordMap.mem_keys.mpr held, rfl⟩⟩

theorem length_edgeSlots : table.edgeSlots.length = table.edgeCount := by
  rw [edgeSlots, edgeCount, WordMap.values]
  induction table.nodes.entries with
  | nil => rfl
  | cons entry rest onward =>
    have edges : entry.2.edges.keys.length = entry.2.edges.size := by
      rw [WordMap.keys, List.length_map, WordMap.length_entries]
    rw [List.flatMap_cons, List.length_append, onward, List.length_map, edges, List.map_cons,
      List.foldr_cons]

/-- The number of edges is the number of slots with a reference. -/
theorem edgeCount_eq_ncard : table.edgeCount = table.catalog.slots.ncard := by
  rw [ncard_eq_length table.nodup_edgeSlots fun _ => table.mem_edgeSlots, length_edgeSlots]

/-! ## Requests on both sides -/

/-- **One request.**  A table answers it as its catalog does. -/
theorem perform_refines (request : Request) :
    (table.perform request).1 = (table.catalog.perform request).1
      ∧ (table.perform request).2.catalog = (table.catalog.perform request).2 := by
  cases request with
  | insert address kind size => exact ⟨rfl, table.catalog_insert address kind size⟩
  | delete address =>
    refine ⟨?_, table.catalog_erase address⟩
    rw [perform, Catalog.perform, isSome_catalog]
  | relocate src dst =>
    rw [perform, Catalog.perform, catalog_relocate, ← isSome_catalog]
    cases table.catalog src <;> exact ⟨rfl, rfl⟩
  | clear start stop =>
    refine ⟨?_, table.catalog_clear start stop⟩
    rw [perform, Catalog.perform, ncard_cleared]
  | setField address offset value =>
    refine ⟨?_, table.catalog_setEdge address offset value⟩
    rw [perform, Catalog.perform, isSome_catalog]
  | retarget images => exact ⟨rfl, table.catalog_retarget images⟩
  | reset => exact ⟨rfl, catalog_empty table.arrayBase⟩

/-- **Many requests**, by one request after the other. -/
theorem performAll_refines (requests : List Request) :
    (table.performAll requests).1 = (table.catalog.performAll requests).1
      ∧ (table.performAll requests).2.catalog = (table.catalog.performAll requests).2 := by
  induction requests generalizing table with
  | nil => exact ⟨rfl, rfl⟩
  | cons request rest onward =>
    obtain ⟨answer, next⟩ := table.perform_refines request
    obtain ⟨answers, reached⟩ := onward (table.perform request).2
    rw [next] at answers reached
    exact ⟨congrArg₂ List.cons answer answers, reached⟩

end Table

end HeapAudit
