import HeapAudit.Proofs.Replay.Effect

/-!
# A new object at a used address

An allocation evicts the object that was known at its address.  What the table held there before
a replay is forgotten, whatever else is replayed.

It is different with what the same replay says about the address.  Allocations come first, so
that stores, copies, moves and clears recorded ahead of an allocation take effect on the new object
(`Replay.allocation_evicts_limits`).  The new object is as it was allocated if no frame in front of
it reaches it like that (`Effect.Reaches` and `Replay.allocation_evicts`).  The invariant of the
second pass is then that the table has the object, and no edges of it (`Table.Fresh`).
-/

namespace HeapAudit

set_option autoImplicit false

/-! ## Effects that reach an object -/

/-- An effect that can change or remove the node of an object without edges: a store or a copy of
elements to an address in its range, a copy from elsewhere that goes into it, a move away from it or
onto it, or a clear of a range with its address in it. -/
def Effect.Reaches (base : UInt64) (object : Allocation) : Effect → Prop
  | .nothing | .unrecognized => False
  | .store slot _ => object.Covers base slot
  | .copyElements _ dst _ => object.Covers base dst
  | .copyObject _ dst | .copyNewArray _ dst _ _ | .copyWholeArray _ dst => dst = object.address
  -- inside an object without edges there is nothing to copy
  | .copyWithin _ _ _ _ => False
  | .move src dst => src = object.address ∨ dst = object.address
  | .clear start stop =>
    if start = stop then start = object.address
    else start ≤ object.address ∧ object.address < stop

instance (base : UInt64) (object : Allocation) :
    (effect : Effect) → Decidable (effect.Reaches base object)
  | .nothing | .unrecognized | .copyWithin _ _ _ _ => .isFalse id
  | .store slot _ => inferInstanceAs (Decidable (object.Covers base slot))
  | .copyElements _ dst _ => inferInstanceAs (Decidable (object.Covers base dst))
  | .copyObject _ dst | .copyNewArray _ dst _ _ | .copyWholeArray _ dst =>
    inferInstanceAs (Decidable (dst = object.address))
  | .move src dst => inferInstanceAs (Decidable (src = object.address ∨ dst = object.address))
  | .clear start stop =>
    inferInstanceAs (Decidable (if start = stop then start = object.address
      else start ≤ object.address ∧ object.address < stop))

namespace Edges

theorem copyEdge_empty (srcOffset dstOffset : UInt64) :
    copyEdge ∅ ∅ srcOffset dstOffset = ∅ := by
  rw [copyEdge, WordMap.find?_empty]
  refine WordMap.ext_find? fun offset => ?_
  rw [WordMap.find?_erase, WordMap.find?_empty, ite_self]

theorem shiftUp_empty (srcOffset dstOffset : UInt64) (count : Nat) :
    shiftUp ∅ srcOffset dstOffset count = ∅ := by
  induction count generalizing srcOffset dstOffset with
  | zero => rfl
  | succ count onward => rw [shiftUp, copyEdge_empty, onward]

theorem shiftDown_empty (srcOffset dstOffset : UInt64) (count : Nat) :
    shiftDown ∅ srcOffset dstOffset count = ∅ := by
  induction count with
  | zero => rfl
  | succ count onward => rw [shiftDown, copyEdge_empty, onward]

theorem shift_empty (srcOffset dstOffset length : UInt64) :
    shift ∅ srcOffset dstOffset length = ∅ := by
  rw [shift, shiftUp_empty, shiftDown_empty, ite_self]

end Edges

/-! ## An object without edges -/

namespace Table

/-- What is cleared lies in the range that is cleared. -/
theorem mem_cleared {table : Table} {address start stop : UInt64}
    (member : address ∈ table.cleared start stop) :
    if start = stop then start = address else start ≤ address ∧ address < stop := by
  rw [cleared] at member
  split at member
  · rename_i same
    rw [if_pos same]
    exact (List.mem_singleton.mp (List.mem_filter.mp member).1).symm
  · rename_i different
    rw [WordMap.keysWithin_eq_filter] at member
    rw [if_neg different]
    simpa using (List.mem_filter.mp member).2

/-- A table knows an object, and no edges of it. -/
structure Fresh (base : UInt64) (object : Allocation) (table : Table) : Prop where
  arrayBase : table.arrayBase = base
  node : table.find? object.address = some object.node

namespace Fresh

variable {base : UInt64} {object : Allocation} {table : Table} {src dst : UInt64}

/-- An address outside of the object is found in another one. -/
theorem ne_of_lookup? (fresh : Fresh base object table) {slot start : UInt64} {node : Node}
    (found : table.lookup? slot = some (start, node)) (outside : ¬ object.Covers base slot) :
    start ≠ object.address := by
  rintro rfl
  obtain ⟨held, covers, -⟩ := lookup?_eq_some_iff.mp found
  rw [fresh.node] at held
  cases held
  rw [fresh.arrayBase] at covers
  exact outside covers

theorem update_of_ne (fresh : Fresh base object table) (change : Node → Node)
    (elsewhere : dst ≠ object.address) : Fresh base object (table.update dst change) :=
  ⟨fresh.arrayBase, (table.find?_update_of_ne change elsewhere).trans fresh.node⟩

theorem copySlots (fresh : Fresh base object table) (srcOffset dstOffset length : UInt64)
    (elsewhere : dst ≠ object.address) :
    Fresh base object (table.copySlots src dst srcOffset dstOffset length) := by
  rw [Table.copySlots]
  split
  · exact fresh.update_of_ne _ elsewhere
  · split
    · exact fresh
    · exact fresh.update_of_ne _ elsewhere

/-- A copy inside of the object finds nothing to copy. -/
theorem copySlots_self (fresh : Fresh base object table) (srcOffset dstOffset length : UInt64) :
    Fresh base object
      (table.copySlots object.address object.address srcOffset dstOffset length) := by
  refine ⟨?_, ?_⟩
  · rw [Table.copySlots, if_pos rfl]
    exact fresh.arrayBase
  · rw [Table.copySlots, if_pos rfl, find?, update, WordMap.find?_modify, if_pos rfl, ← find?,
      fresh.node, Option.map_some]
    exact congrArg (fun edges => some { object.node with edges := edges })
      (Edges.shift_empty srcOffset dstOffset length)

theorem copyFields (fresh : Fresh base object table) (offsets : List UInt64)
    (elsewhere : dst ≠ object.address) :
    Fresh base object (table.copyFields src dst offsets) := by
  rw [Table.copyFields]
  split
  · exact fresh
  · exact fresh.update_of_ne _ elsewhere

theorem relocate (fresh : Fresh base object table) (left : src ≠ object.address)
    (elsewhere : dst ≠ object.address) : Fresh base object (table.relocate src dst) := by
  rw [Table.relocate]
  split
  · exact fresh
  · refine ⟨fresh.arrayBase, ?_⟩
    show ((table.nodes.erase src).insert dst _).find? object.address = _
    rw [WordMap.find?_insert_of_ne _ elsewhere, WordMap.find?_erase, if_neg left]
    exact fresh.node

theorem erase (fresh : Fresh base object table) {gone : UInt64}
    (elsewhere : gone ≠ object.address) : Fresh base object (table.erase gone) := by
  rw [Table.erase]
  split
  · refine ⟨fresh.arrayBase, ?_⟩
    show (table.nodes.erase gone).find? object.address = _
    rw [WordMap.find?_erase, if_neg elsewhere]
    exact fresh.node
  · exact fresh

theorem foldl_erase (fresh : Fresh base object table) {gone : List UInt64}
    (kept : object.address ∉ gone) : Fresh base object (gone.foldl Table.erase table) := by
  induction gone generalizing table with
  | nil => exact fresh
  | cons first rest onward =>
    rw [List.mem_cons, not_or] at kept
    exact onward (fresh.erase (Ne.symm kept.1)) kept.2

/-- There are no edges to retarget. -/
theorem retarget (fresh : Fresh base object table) (images : WordMap UInt64) :
    Fresh base object (table.retarget images) := by
  have none : (∅ : Edges).mapValues (fun _ value => (images.find? value).getD value) = ∅ := by
    refine WordMap.ext_find? fun offset => ?_
    rw [WordMap.find?_mapValues, WordMap.find?_empty, Option.map_none]
  refine ⟨fresh.arrayBase, ?_⟩
  rw [find?, Table.retarget, WordMap.find?_mapValues, ← find?, fresh.node, Option.map_some]
  exact congrArg (fun edges => some { object.node with edges := edges }) none

end Fresh

end Table

/-! ## The second pass -/

namespace Replay

/-- The table that a second pass has reached, be it at its end or not. -/
def reachedTable : Except Halt Progress → Table
  | .ok progress => progress.table
  | .error halt => halt.reached.table

variable {config : Config} {progress : Progress} {base : UInt64} {object : Allocation}
  {effect : Effect}

/-- What every effect of a second pass keeps is kept however far the pass comes. -/
theorem keeps_foldlM_perform {keeps : Table → Prop} {effects : List Effect}
    (held : keeps progress.table)
    (step : ∀ progress : Progress, ∀ effect ∈ effects, keeps progress.table →
      keeps (reachedTable (progress.perform config effect))) :
    keeps (reachedTable (effects.foldlM (Progress.perform config) progress)) := by
  induction effects generalizing progress with
  | nil => exact held
  | cons effect rest onward =>
    have first := step progress effect List.mem_cons_self held
    rw [List.foldlM_cons]
    cases performed : progress.perform config effect with
    | ok reached =>
      rw [performed] at first
      refine onward first ?_
      intro progress other member
      exact step progress other (List.mem_cons_of_mem _ member)
    | error halt =>
      rw [performed] at first
      exact first

theorem fresh_copySlots (fresh : progress.table.Fresh base object) {dst : UInt64}
    (src srcOffset dstOffset length : UInt64) (elsewhere : dst ≠ object.address) :
    (reachedTable (progress.copySlots config src dst srcOffset dstOffset length)).Fresh
      base object := by
  rw [Progress.copySlots]
  split
  · exact fresh
  · exact fresh.copySlots srcOffset dstOffset length elsewhere

theorem fresh_fillArray (fresh : progress.table.Fresh base object) {dst : UInt64}
    (src length srcIndex : UInt64) (elsewhere : dst ≠ object.address) :
    (reachedTable (progress.fillArray config src dst length srcIndex)).Fresh base object :=
  fresh_copySlots (fresh.update_of_ne _ elsewhere) src _ _ length elsewhere

/-- **An effect that does not reach an object without edges leaves it without edges.** -/
theorem fresh_perform (fresh : progress.table.Fresh base object)
    (spared : ¬ effect.Reaches base object) :
    (reachedTable (progress.perform config effect)).Fresh base object := by
  cases effect with
  | nothing => exact fresh
  | unrecognized => exact fresh
  | store slot value =>
    rw [Progress.perform, Progress.setField]
    split
    · exact fresh
    · rename_i start node found
      exact fresh.update_of_ne _ (fresh.ne_of_lookup? found spared)
  | copyObject src dst =>
    rw [Progress.perform, Progress.copyObject]
    split
    · exact fresh.copyFields _ spared
    · exact fresh
  | copyElements src dst length =>
    rw [Progress.perform, Progress.copyElements]
    split
    · rename_i source _ target _ _ found
      exact fresh_copySlots fresh _ _ _ length (fresh.ne_of_lookup? found spared)
    · exact fresh
  | copyWithin array length srcIndex dstIndex =>
    rw [Progress.perform, Progress.copyWithin]
    split
    · exact fresh
    · by_cases here : array = object.address
      · rw [here, Progress.copySlots]
        split
        · exact fresh
        · exact fresh.copySlots_self _ _ length
      · exact fresh_copySlots fresh _ _ _ length here
  | copyNewArray src dst length srcIndex =>
    rw [Progress.perform, Progress.copyNewArray]
    split
    · exact fresh_fillArray fresh src length srcIndex spared
    · exact fresh
  | copyWholeArray src dst =>
    rw [Progress.perform, Progress.copyWholeArray]
    split
    · exact fresh_fillArray fresh src _ 0 spared
    · exact fresh
  | move src dst =>
    rw [Effect.Reaches, not_or] at spared
    exact fresh.relocate spared.1 spared.2
  | clear start stop =>
    refine fresh.foldl_erase fun member => ?_
    exact spared (Table.mem_cleared member)

/-- So do all effects of a second pass, however far it comes. -/
theorem fresh_foldlM_perform (fresh : progress.table.Fresh base object) {effects : List Effect}
    (spared : ∀ effect ∈ effects, ¬ effect.Reaches base object) :
    (reachedTable (effects.foldlM (Progress.perform config) progress)).Fresh base object := by
  refine keeps_foldlM_perform fresh ?_
  intro progress effect member fresh
  exact fresh_perform fresh (spared effect member)

theorem fresh_conclude (segments : List (List Event)) {result : Except Halt Progress}
    (fresh : (reachedTable result).Fresh base object) :
    (conclude segments result).table.Fresh base object := by
  cases result with
  | ok progress => exact fresh.retarget progress.relocations
  | error halt => exact fresh

/-! ## An allocation behind everything else -/

/-- A segment of one allocation adds a frame that allocates and does nothing else. -/
theorem frames_append_allocation {slot : Event} {kind : Kind} {size address : UInt64}
    (known : kind ∈ [Kind.newObject, .newArray, .newPrimitiveArray])
    (classified : slot.classify config.range = (kind, ⟨size, address⟩))
    (segments : List (List Event)) :
    allocations config (segments ++ [[slot]])
        = allocations config segments ++ [⟨address, kind, size⟩]
      ∧ effects config (segments ++ [[slot]]) = effects config segments ++ [.nothing] := by
  have cut : frames config (segments ++ [[slot]])
      = frames config segments ++ [⟨kind, ⟨size, address⟩, none, 0⟩] := by
    rw [frames, List.flatMap_append, List.flatMap_singleton, Frame.ofSlots, Frame.ofSlotsFrom,
      classified]
    rfl
  rw [allocations, effects, cut, List.filterMap_append, List.map_append]
  simp only [List.mem_cons, List.not_mem_nil, or_false] at known
  rcases known with rfl | rfl | rfl
  · exact ⟨rfl, rfl⟩
  · exact ⟨rfl, rfl⟩
  · exact ⟨rfl, rfl⟩

/-- Nodes that agree outside of an address are the same once an object is placed there. -/
theorem foldl_settle_append {nodes others : WordMap Node} {object : Allocation}
    (alike : ∀ start, start ≠ object.address → others.find? start = nodes.find? start)
    (objects : List Allocation) :
    (objects ++ [object]).foldl settle others = (objects ++ [object]).foldl settle nodes := by
  apply WordMap.ext_find?
  intro start
  apply find?_foldl_settle
  by_cases here : start = object.address
  · subst here
    exact .inl (by simp)
  · exact .inr (alike start here)

/-- The object that is placed last has no edges. -/
theorem fresh_foldl_place (objects : List Allocation) (object : Allocation) (table : Table) :
    ((objects ++ [object]).foldl Table.place table).Fresh table.arrayBase object := by
  refine ⟨arrayBase_foldl_place _ table, ?_⟩
  rw [List.foldl_append]
  exact Table.find?_place_self _ object

/-- **An allocation evicts what was known at its address.**  A replay that ends with it comes to the
same, whatever the table held at the address before; and it leaves there an object of the kind and
size of the allocation, and without edges, unless an effect recorded in front of it reaches the new
object. -/
theorem allocation_evicts (config : Config) (table : Table) (segments : List (List Event))
    {slot : Event} {kind : Kind} {size address : UInt64}
    (known : kind ∈ [Kind.newObject, .newArray, .newPrimitiveArray])
    (classified : slot.classify config.range = (kind, ⟨size, address⟩)) :
    (∀ other : Table, other.arrayBase = table.arrayBase →
      (∀ start, start ≠ address → other.find? start = table.find? start) →
      (run config other (segments ++ [[slot]])).outcome
          = (run config table (segments ++ [[slot]])).outcome
        ∧ (run config other (segments ++ [[slot]])).table.nodes
          = (run config table (segments ++ [[slot]])).table.nodes)
    ∧ ((∀ frame ∈ frames config segments,
        ¬ frame.effect.Reaches table.arrayBase ⟨address, kind, size⟩) →
      (run config table (segments ++ [[slot]])).table.find? address = some ⟨kind, size, ∅⟩) := by
  obtain ⟨placed, done⟩ := frames_append_allocation known classified segments
  constructor
  · intro other base alike
    rw [run_eq_conclude, run_eq_conclude]
    refine conclude_congr ?_ ?_ _ _
    · rw [arrayBase_foldl_place, arrayBase_foldl_place, base]
    · rw [nodes_foldl_place, nodes_foldl_place, placed]
      exact @foldl_settle_append _ _ ⟨address, kind, size⟩ alike (allocations config segments)
  · intro spared
    have fresh := fresh_foldl_place (allocations config segments) ⟨address, kind, size⟩ table
    have missed : ∀ effect ∈ effects config (segments ++ [[slot]]),
        ¬ effect.Reaches table.arrayBase ⟨address, kind, size⟩ := by
      intro effect member
      rw [done, List.mem_append, List.mem_singleton] at member
      rcases member with earlier | rfl
      · obtain ⟨frame, present, rfl⟩ := List.mem_map.mp earlier
        exact spared frame present
      · exact id
    rw [run_eq_conclude, placed]
    exact (fresh_conclude _ (fresh_foldlM_perform fresh missed)).node

/-- An object that is stored in its neighbour, which then moves away. -/
def departing : List Event :=
  [Event.encode .newObject ⟨2, 0x10000100⟩, Event.encode .newObject ⟨2, 0x10000200⟩,
    ⟨0x10000100, 0x10000208⟩, Event.encode .moveObject ⟨0x10000200, 0x10000300⟩]

/-- A table with an object that refers to itself. -/
def looped : Table :=
  ((Table.empty 16).place ⟨0x10000100, .newObject, 3⟩).setEdge 0x10000100 8 0x10000100

/-- An array takes the place of an object that had references before the replay, and that was
allocated and stored once more during it. -/
theorem allocation_evicts_reused :
    (run .plain looped [departing, [Event.encode .newArray ⟨4, 0x10000100⟩]]).table.find? 0x10000100
        = some ⟨.newArray, 4, ∅⟩
      ∧ (run .plain looped [departing, [Event.encode .newArray ⟨4, 0x10000100⟩]]).table.nodes
        = (run .plain (.empty 16) [departing, [Event.encode .newArray ⟨4, 0x10000100⟩]]).table.nodes
      ∧ (run .plain looped
          [departing, [Event.encode .newArray ⟨4, 0x10000100⟩]]).outcome.toOption
        = some { events := 5, nodes := 2, edges := 1, moves := 1 } := by
  obtain ⟨forgets, fresh⟩ := @allocation_evicts .plain (.empty 16) [departing]
    (Event.encode .newArray ⟨4, 0x10000100⟩) .newArray 4 0x10000100 (by decide +kernel)
    (by decide +kernel)
  obtain ⟨outcome, nodes⟩ := forgets looped rfl fun start elsewhere => by
    rw [looped, Table.setEdge, Table.find?_update_of_ne _ _ (Ne.symm elsewhere),
      Table.find?_place_of_ne _ (Ne.symm elsewhere)]
  have found := fresh (by decide +kernel)
  rw [Table.find?, ← nodes] at found
  refine ⟨found, nodes, ?_⟩
  exact (congrArg Except.toOption outcome).trans (by decide +kernel)

/-- A replay of one event between two allocations of the same object. -/
def replacing (between : Event) : Replayed :=
  run .plain (.empty 16) [[Event.encode .newObject ⟨2, 0x10000100⟩, between],
    [Event.encode .newObject ⟨2, 0x10000100⟩]]

/-- What a replay says about an address ahead of an allocation there takes effect on the new
object: it has the edge that was stored, it goes where the old object was moved, and it is
cleared. -/
theorem allocation_evicts_limits :
    (replacing ⟨0x10000200, 0x10000108⟩).outcome.toOption
        = some { events := 3, nodes := 1, edges := 1 }
      ∧ (replacing ⟨0x10000200, 0x10000108⟩).table.find? 0x10000100
        = some ⟨.newObject, 2, (∅ : Edges).insert 8 0x10000200⟩
      ∧ (replacing (Event.encode .moveObject ⟨0x10000100, 0x10000200⟩)).outcome.toOption
        = some { events := 3, nodes := 1, moves := 1 }
      ∧ (replacing (Event.encode .moveObject ⟨0x10000100, 0x10000200⟩)).table.find? 0x10000100
        = none
      ∧ (replacing (Event.encode .clearContiguousSpace ⟨0x10000100, 0x10000110⟩)).outcome.toOption
        = some { events := 3, cleared := 1 }
      ∧ (replacing (Event.encode .clearContiguousSpace ⟨0x10000100, 0x10000110⟩)).table.find?
          0x10000100
        = none := by
  decide +kernel

end Replay

end HeapAudit
