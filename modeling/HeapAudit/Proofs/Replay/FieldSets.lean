import HeapAudit.Proofs.Replay.InOrder
import HeapAudit.Proofs.Replay.LogOrder
import HeapAudit.Proofs.Replay.SinglePass
import HeapAudit.Proofs.Shadow.Catalog
import Mathlib.Data.List.Induction

/-!
# What stores leave behind

Logs that only allocate and store describe a graph without any replay: the objects are those that
were allocated, and the reference in a slot is the one that was stored there last (`Latest`), as
long as the slot lies in the range of an object.

A replay into the empty table comes to that graph (`Replay.field_sets_reconstructed`).  The first
pass has placed all objects before the second one stores anything (`Table.Populated`), so that it
does not matter whether an allocation stands before or behind the stores to its object.  Since the
ranges lie apart, the nearest object below a slot is the one whose range the slot lies in, if there
is any (`Table.Populated.owner?_eq_some_iff`).  The invariant between two stores
(`Replay.Reconstructed`) says of the stores made so far what the theorem says of all of them.
-/

namespace HeapAudit

set_option autoImplicit false

/-! ## Stores -/

/-- A reference that is stored in the slot at an address. -/
structure SlotStore where
  slot : UInt64
  value : UInt64
  deriving DecidableEq

/-- What a frame stores. -/
def Frame.store? (frame : Frame) : Option SlotStore :=
  match frame.kind with
  | .fieldSet | .arrayElemSet => some ⟨frame.event.dst, frame.event.src⟩
  | _ => none

/-- A frame that only allocates or only stores. -/
def Frame.Builds (frame : Frame) : Prop :=
  frame.kind ∈ [.newObject, .newArray, .newPrimitiveArray, .newObjectSizeInBits, .fieldSet,
    .arrayElemSet]

instance (frame : Frame) : Decidable frame.Builds := inferInstanceAs (Decidable (_ ∈ _))

theorem Frame.Builds.allocates {frame : Frame} (builds : frame.Builds) : frame.Allocates := by
  refine .inl ?_
  simp only [Builds, List.mem_cons, List.not_mem_nil, or_false] at builds ⊢
  tauto

/-- What such a frame does in the second pass is to store. -/
theorem Frame.Builds.effect {frame : Frame} (builds : frame.Builds) :
    frame.effect = match frame.store? with
      | some store => .store store.slot store.value
      | none => .nothing := by
  obtain ⟨kind, event, operand, index⟩ := frame
  simp only [Builds, List.mem_cons, List.not_mem_nil, or_false] at builds
  rcases builds with rfl | rfl | rfl | rfl | rfl | rfl <;> rfl

/-- **The last store** to a slot stores a value. -/
def Latest (stores : List SlotStore) (slot value : UInt64) : Prop :=
  ∃ earlier later, stores = earlier ++ ⟨slot, value⟩ :: later ∧ ∀ store ∈ later, store.slot ≠ slot

theorem not_latest_nil (slot value : UInt64) : ¬ Latest [] slot value := by
  rintro ⟨earlier, later, split, -⟩
  exact List.cons_ne_nil _ _ (List.append_eq_nil_iff.mp split.symm).2

/-- One more store is the last one to its slot and changes nothing for the others. -/
theorem latest_concat {stores : List SlotStore} {store : SlotStore} {slot value : UInt64} :
    Latest (stores ++ [store]) slot value
      ↔ if store.slot = slot then store.value = value else Latest stores slot value := by
  constructor
  · rintro ⟨earlier, later, split, last⟩
    induction later using List.reverseRecOn with
    | nil =>
      obtain ⟨-, rfl⟩ := List.append_singleton_inj.mp split
      rw [if_pos rfl]
    | append_singleton later final _ =>
      rw [← List.cons_append, ← List.append_assoc, List.append_singleton_inj] at split
      obtain ⟨rfl, rfl⟩ := split
      rw [if_neg (last store (by simp))]
      exact ⟨earlier, later, rfl, fun other member => last other (List.mem_append_left _ member)⟩
  · split
    · rintro rfl
      rename_i here
      subst here
      exact ⟨stores, [], rfl, fun other member => nomatch member⟩
    · rintro ⟨earlier, later, rfl, last⟩
      rename_i elsewhere
      refine ⟨earlier, later ++ [store], by simp, fun other member => ?_⟩
      rcases List.mem_append.mp member with listed | final
      · exact last other listed
      · rwa [List.mem_singleton.mp final]

/-! ## Objects and the slots in them -/

namespace Allocation

variable {base : UInt64}

/-- The slots of an object, by their offsets. -/
theorem covers_add_iff {object : Allocation} (fits : object.stop base ≤ 2 ^ 64) {offset : UInt64} :
    object.Covers base (object.address + offset)
      ↔ offset.toNat < max (extent object.kind object.size base).toNat 1 := by
  have bound := offset.toNat_lt
  have start := object.address.toNat_lt
  rw [Covers, stop] at *
  rw [UInt64.toNat_add]
  omega

/-- No object has a slot in its range. -/
def Stray (base : UInt64) (objects : List Allocation) (slot : UInt64) : Prop :=
  ∀ object ∈ objects, ¬ object.Covers base slot

instance (base : UInt64) (objects : List Allocation) (slot : UInt64) :
    Decidable (Stray base objects slot) :=
  List.decidableBAll _ _

end Allocation

namespace Table

variable {base : UInt64} {objects : List Allocation} {table : Table}

/-- **A table with given objects** and no others. -/
structure Populated (base : UInt64) (objects : List Allocation) (table : Table) : Prop where
  arrayBase : table.arrayBase = base
  outline : ∀ start object, table.outline.find? start = some object
    ↔ object ∈ objects ∧ object.address = start

namespace Populated

theorem empty (base : UInt64) : Populated base [] (.empty base) where
  arrayBase := rfl
  outline := by
    intro start object
    rw [find?_outline]
    constructor
    · intro found
      cases found
    · rintro ⟨member, -⟩
      cases member

theorem congr (populated : Populated base objects table) {other : Table}
    (same : table.SameObjects other) : Populated base objects other where
  arrayBase := same.arrayBase.trans populated.arrayBase
  outline := by
    rw [same.outline]
    exact populated.outline

theorem place (populated : Populated base objects table) {object : Allocation}
    (elsewhere : ∀ other ∈ objects, other.address ≠ object.address) :
    Populated base (objects ++ [object]) (table.place object) where
  arrayBase := populated.arrayBase
  outline := by
    intro start found
    rw [find?_outline, List.mem_append, List.mem_singleton]
    by_cases here : object.address = start
    · subst here
      rw [find?_place_self, Option.map_some]
      constructor
      · intro same
        cases same
        exact ⟨.inr rfl, rfl⟩
      · rintro ⟨listed | rfl, same⟩
        · exact absurd same (elsewhere found listed)
        · rfl
    · rw [find?_place_of_ne table here, ← find?_outline, populated.outline]
      constructor
      · rintro ⟨listed, same⟩
        exact ⟨.inl listed, same⟩
      · rintro ⟨listed | rfl, same⟩
        · exact ⟨listed, same⟩
        · exact absurd same here

/-- An object is known by its node. -/
theorem find?_of_mem (populated : Populated base objects table) {object : Allocation}
    (member : object ∈ objects) :
    ∃ node, table.find? object.address = some node ∧ node.allocation object.address = object := by
  have listed := (populated.outline object.address object).mpr ⟨member, rfl⟩
  rw [find?_outline, Option.map_eq_some_iff] at listed
  exact listed

/-- A node is that of an object. -/
theorem mem_of_find? (populated : Populated base objects table) {start : UInt64} {node : Node}
    (found : table.find? start = some node) : node.allocation start ∈ objects := by
  refine ((populated.outline start _).mp ?_).1
  rw [find?_outline, found, Option.map_some]

theorem contains_iff (populated : Populated base objects table) {start : UInt64} :
    table.nodes.contains start = true ↔ ∃ object ∈ objects, object.address = start := by
  rw [contains_nodes_iff]
  refine exists_congr fun object => ?_
  exact populated.outline start object

/-- There are as many nodes as objects. -/
theorem size_eq (populated : Populated base objects table)
    (apart : objects.Pairwise (Allocation.Apart base)) : table.size = objects.length := by
  have distinct : (objects.map Allocation.address).Nodup :=
    List.pairwise_map.mpr (apart.imp fun separate => separate.ne)
  have same : table.nodes.keys.Perm (objects.map Allocation.address) := by
    rw [List.perm_ext_iff_of_nodup table.nodes.nodup_keys distinct]
    intro start
    rw [WordMap.mem_keys, populated.contains_iff, List.mem_map]
  have count := same.length_eq
  rwa [WordMap.keys, List.length_map, List.length_map, WordMap.length_entries] at count

/-- **An object owns a slot** exactly if the slot lies in its range. -/
theorem owner?_eq_address_iff (populated : Populated base objects table)
    (apart : objects.Pairwise (Allocation.Apart base)) {object : Allocation}
    (member : object ∈ objects) {slot : UInt64} :
    table.owner? slot = some object.address ↔ object.Covers base slot := by
  obtain ⟨node, present, same⟩ := populated.find?_of_mem member
  rw [owner?_eq_some_iff]
  constructor
  · rintro ⟨found, looked⟩
    obtain ⟨held, covers, -⟩ := lookup?_eq_some_iff.mp looked
    rw [present] at held
    cases held
    rwa [same, populated.arrayBase] at covers
  · intro covers
    refine ⟨node, lookup?_eq_some_iff.mpr ⟨present, ?_, ?_⟩⟩
    · rwa [same, populated.arrayBase]
    · intro nearer held below
      obtain ⟨other, listed, rfl⟩ := populated.contains_iff.mp held
      by_cases equal : object = other
      · exact UInt64.le_of_eq (congrArg Allocation.address equal.symm)
      · -- an object that starts between this one and the slot would start inside this one
        have symmetric : Std.Symm (Allocation.Apart base) := ⟨fun _ _ => Allocation.Apart.symm⟩
        have separate := apart.forall member listed equal
        refine UInt64.le_of_lt (UInt64.not_le.mp fun above => ?_)
        exact separate.not_between covers above below

theorem exists_of_owner? (populated : Populated base objects table) {slot start : UInt64}
    (owned : table.owner? slot = some start) : ∃ object ∈ objects, object.address = start := by
  obtain ⟨node, found⟩ := owner?_eq_some_iff.mp owned
  exact ⟨_, populated.mem_of_find? (lookup?_eq_some_iff.mp found).1, rfl⟩

theorem owner?_eq_none_iff (populated : Populated base objects table)
    (apart : objects.Pairwise (Allocation.Apart base)) {slot : UInt64} :
    table.owner? slot = none ↔ Allocation.Stray base objects slot := by
  rw [Option.eq_none_iff_forall_ne_some]
  constructor
  · intro unowned object member covers
    exact unowned _ ((populated.owner?_eq_address_iff apart member).mpr covers)
  · intro stray start owned
    obtain ⟨object, member, rfl⟩ := populated.exists_of_owner? owned
    exact stray object member ((populated.owner?_eq_address_iff apart member).mp owned)

end Populated

/-- The first pass places each object once. -/
theorem populated_foldl_place {objects : List Allocation}
    (apart : objects.Pairwise (Allocation.Apart base)) :
    Populated base objects (objects.foldl place (.empty base)) := by
  induction objects using List.reverseRecOn with
  | nil => exact .empty base
  | append_singleton objects object onward =>
    obtain ⟨before, -, last⟩ := List.pairwise_append.mp apart
    rw [List.foldl_concat]
    refine (onward before).place fun other member => ?_
    exact (last other member object (List.mem_singleton_self object)).ne

end Table

/-! ## The second pass -/

namespace Replay

/-- The stores of the frames of segments, in order. -/
def stores (config : Config) (segments : List (List Event)) : List SlotStore :=
  (frames config segments).filterMap Frame.store?

/-- Makes a store. -/
def Progress.make (progress : Progress) (store : SlotStore) : Progress :=
  progress.setField store.slot store.value

theorem foldl_absorb_eq_make {frames : List Frame} (builds : ∀ frame ∈ frames, frame.Builds)
    (progress : Progress) :
    (frames.map Frame.effect).foldl Progress.absorb progress
      = (frames.filterMap Frame.store?).foldl Progress.make progress := by
  induction frames generalizing progress with
  | nil => rfl
  | cons frame rest onward =>
    have later := onward fun other member => builds other (List.mem_cons_of_mem _ member)
    rw [List.map_cons, List.foldl_cons, later, (builds frame List.mem_cons_self).effect,
      List.filterMap_cons]
    cases frame.store? <;> rfl

/-- **The invariant of the second pass**: the objects are where they were placed, the edge of every
slot is that of the last store to it, and the stores to no object are counted. -/
structure Reconstructed (base : UInt64) (objects : List Allocation) (stores : List SlotStore)
    (progress : Progress) : Prop where
  populated : progress.table.Populated base objects
  edges : ∀ object ∈ objects, ∀ node, progress.table.find? object.address = some node →
    ∀ offset value, node.edges.find? offset = some value
      ↔ object.Covers base (object.address + offset)
        ∧ Latest stores (object.address + offset) value
  relocations : progress.relocations = ∅
  stats : progress.stats = { unresolvedFieldSets :=
    (stores.filter fun store => Allocation.Stray base objects store.slot).length }

variable {base : UInt64} {objects : List Allocation}

/-- Objects have no edges when they are placed. -/
theorem edges_foldl_place {start : UInt64} {node : Node}
    (found : (objects.foldl Table.place (.empty base)).find? start = some node) :
    node.edges = ∅ := by
  induction objects using List.reverseRecOn with
  | nil => cases found
  | append_singleton objects object onward =>
    rw [List.foldl_concat] at found
    by_cases here : object.address = start
    · subst here
      rw [Table.find?_place_self] at found
      cases found
      rfl
    · rw [Table.find?_place_of_ne _ here] at found
      exact onward found

theorem Reconstructed.start (apart : objects.Pairwise (Allocation.Apart base)) :
    Reconstructed base objects [] ⟨objects.foldl Table.place (.empty base), ∅, {}⟩ where
  populated := Table.populated_foldl_place apart
  edges := by
    intro object _ node found offset value
    rw [edges_foldl_place found, WordMap.find?_empty]
    constructor
    · intro impossible
      cases impossible
    · rintro ⟨-, latest⟩
      exact absurd latest (not_latest_nil _ _)
  relocations := rfl
  stats := rfl

namespace Reconstructed

variable {stores : List SlotStore} {progress : Progress} {store : SlotStore}

/-- A store to no object is counted. -/
theorem unresolved (reached : Reconstructed base objects stores progress)
    (stray : Allocation.Stray base objects store.slot) :
    Reconstructed base objects (stores ++ [store])
      (progress.assign store.slot store.value none) where
  populated := reached.populated
  edges := by
    intro object member node found offset value
    rw [reached.edges object member node found]
    refine and_congr_right fun covers => ?_
    have elsewhere : store.slot ≠ object.address + offset := by
      intro same
      rw [← same] at covers
      exact stray object member covers
    rw [latest_concat, if_neg elsewhere]
  relocations := reached.relocations
  stats := by
    rw [List.filter_append, List.filter_singleton, decide_eq_true stray, List.length_append,
      Progress.assign, reached.stats]
    rfl

/-- A store to an object leaves its value in the slot. -/
theorem resolved (reached : Reconstructed base objects stores progress)
    (apart : objects.Pairwise (Allocation.Apart base)) {start : UInt64}
    (owned : progress.table.owner? store.slot = some start) :
    Reconstructed base objects (stores ++ [store])
      (progress.assign store.slot store.value (some start)) where
  populated := reached.populated.congr
    (progress.table.sameObjects_update start fun _ => ⟨rfl, rfl⟩)
  edges := by
    intro object member node found offset value
    rw [Progress.assign, Table.setEdge] at found
    obtain ⟨old, present, -⟩ := reached.populated.find?_of_mem member
    have edges := reached.edges object member old present offset value
    have owns := @Table.Populated.owner?_eq_address_iff _ _ _ reached.populated apart _ member
    rw [latest_concat]
    by_cases here : start = object.address
    · rw [here, Table.find?_update_self, present] at found
      cases found
      rw [WordMap.find?_insert]
      by_cases slot : store.slot = object.address + offset
      · have distance : store.slot - object.address = offset := by rw [slot, add_sub_self]
        have covers : object.Covers base (object.address + offset) := by
          rw [← slot, ← owns, owned, here]
        rw [if_pos distance, if_pos slot, and_iff_right covers, Option.some.injEq]
      · have distance : store.slot - object.address ≠ offset := by
          rintro rfl
          rw [UInt64.add_comm, UInt64.sub_add_cancel] at slot
          exact slot rfl
        rw [if_neg distance, if_neg slot]
        exact edges
    · rw [Table.find?_update_of_ne _ _ here, present] at found
      cases found
      rw [edges]
      refine and_congr_right fun covers => ?_
      -- the slot of this object is not the one that another object owns
      have elsewhere : store.slot ≠ object.address + offset := by
        intro same
        rw [← same, ← owns, owned] at covers
        exact here (Option.some.inj covers)
      rw [if_neg elsewhere]
  relocations := reached.relocations
  stats := by
    have held : ¬ Allocation.Stray base objects store.slot := by
      rw [← reached.populated.owner?_eq_none_iff apart, owned]
      exact Option.some_ne_none start
    rw [List.filter_append, List.filter_singleton, decide_eq_false held, cond_false,
      List.append_nil]
    exact reached.stats

/-- **One store.** -/
theorem make (reached : Reconstructed base objects stores progress)
    (apart : objects.Pairwise (Allocation.Apart base)) (store : SlotStore) :
    Reconstructed base objects (stores ++ [store]) (progress.make store) := by
  rw [Progress.make, Progress.setField_eq_assign]
  cases owned : progress.table.owner? store.slot with
  | none => exact reached.unresolved ((reached.populated.owner?_eq_none_iff apart).mp owned)
  | some start => exact reached.resolved apart owned

end Reconstructed

/-- **All stores**, by one store after the other. -/
theorem reconstructed_foldl_make (apart : objects.Pairwise (Allocation.Apart base))
    (stores : List SlotStore) :
    Reconstructed base objects stores
      (stores.foldl Progress.make ⟨objects.foldl Table.place (.empty base), ∅, {}⟩) := by
  induction stores using List.reverseRecOn with
  | nil => exact .start apart
  | append_singleton stores store onward =>
    rw [List.foldl_concat]
    exact onward.make apart store

/-- **Stores are reconstructed exactly.**  Logs that allocate objects in ranges apart from each other
and store references, in whatever order, are replayed into the empty table to one node for each
object, with its kind and its size.  The node has an edge at an offset if and only if the offset lies
in the object and a frame stores to that slot, and its value is that of the last such frame.  Stores
to no object are counted. -/
theorem field_sets_reconstructed (config : Config) (base : UInt64) (segments : List (List Event))
    (builds : ∀ frame ∈ frames config segments, frame.Builds)
    (apart : (allocations config segments).Pairwise (Allocation.Apart base))
    (fits : ∀ object ∈ allocations config segments, object.stop base ≤ 2 ^ 64) :
    let objects := allocations config segments
    let replayed := run config (.empty base) segments
    replayed.outcome = .ok {
      events := segments.flatten.length
      nodes := objects.length
      edges := replayed.table.edgeCount
      unresolvedFieldSets := ((stores config segments).filter fun store =>
        ∀ object ∈ objects, ¬ object.Covers base store.slot).length }
    ∧ (∀ address, replayed.table.nodes.contains address = true
      ↔ ∃ object ∈ objects, object.address = address)
    ∧ ∀ object ∈ objects, ∃ node, replayed.table.find? object.address = some node
      ∧ node.kind = object.kind ∧ node.size = object.size
      ∧ ∀ offset value, node.edges.find? offset = some value
        ↔ offset.toNat < max (extent object.kind object.size base).toNat 1
          ∧ Latest (stores config segments) (object.address + offset) value := by
  intro objects replayed
  have mild : ∀ effect ∈ effects config segments, effect.Mild :=
    mild_of_permuted (List.Perm.refl segments) fun frame member => (builds frame member).allocates
  have reached := reconstructed_foldl_make apart (stores config segments)
  have ended : replayed = finish segments ((stores config segments).foldl Progress.make
      ⟨objects.foldl Table.place (.empty base), ∅, {}⟩) := by
    rw [stores, ← foldl_absorb_eq_make builds]
    show run config (.empty base) segments = _
    rw [run_eq_conclude, foldlM_perform_of_mild config mild]
    rfl
  generalize (stores config segments).foldl Progress.make _ = progress at reached ended
  have table : replayed.table = progress.table := by
    rw [ended, finish, reached.relocations, Table.retarget_empty]
  refine ⟨?_, ?_, ?_⟩
  · have nodes := reached.populated.size_eq apart
    rw [ended, finish, reached.relocations, Table.retarget_empty, reached.stats, nodes]
    rfl
  · rw [table]
    exact fun address => reached.populated.contains_iff
  · intro object member
    obtain ⟨node, found, same⟩ := reached.populated.find?_of_mem member
    refine ⟨node, table ▸ found, congrArg Allocation.kind same, congrArg Allocation.size same, ?_⟩
    intro offset value
    rw [reached.edges object member node found, Allocation.covers_add_iff (fits object member)]

/-- Two logs that store in an object before it is allocated and in one of another log, in an object
without bytes and one byte behind it, and twice in one slot. -/
def scattered : List (List Event) :=
  [[⟨0x10000200, 0x10000108⟩, Event.encode .newObject ⟨2, 0x10000100⟩,
    Event.encode .arrayElemSet ⟨0x10000100, 0x10000210⟩, Event.encode .newObject ⟨0, 0x10000300⟩,
    ⟨0x10000100, 0x10000300⟩, ⟨0x10000100, 0x10000301⟩],
  [Event.encode .newObjectSizeInBits ⟨24, 0x10000200⟩, ⟨0, 0x10000108⟩]]

/-- The last of the two stores counts, which stores null, and the store behind the object without
bytes goes to no object. -/
theorem field_sets_reconstructed_scattered :
    (∃ stats, (run .plain (.empty 16) scattered).outcome = .ok stats
      ∧ stats.events = 8 ∧ stats.nodes = 3 ∧ stats.unresolvedFieldSets = 1)
    ∧ ∃ node, (run .plain (.empty 16) scattered).table.find? 0x10000100 = some node
      ∧ node.kind = .newObject ∧ node.size = 2 ∧ node.edges.find? 8 = some 0 := by
  obtain ⟨outcome, -, nodes⟩ := field_sets_reconstructed .plain 16 scattered
    (by decide +kernel) (by decide +kernel) (by decide +kernel)
  refine ⟨⟨_, outcome, by decide, by decide +kernel, by decide +kernel⟩, ?_⟩
  obtain ⟨node, found, kind, size, edges⟩ :=
    nodes ⟨0x10000100, .newObject, 2⟩ (by decide +kernel)
  have latest : Latest (stores .plain scattered) 0x10000108 0 :=
    ⟨(stores .plain scattered).take 4, [], by decide +kernel, by decide⟩
  exact ⟨node, found, kind, size, (edges 8 0).mpr ⟨by decide, latest⟩⟩

end Replay

end HeapAudit
