import HeapAudit.Proofs.Data.WordMap
import HeapAudit.Proofs.Event.Codec
import HeapAudit.Replay.Run

/-!
# Two passes and one

A replay goes through the frames twice: allocations come first, then everything else, and
edges to moved objects are retargeted once, at the end.  Following the same events in order,
with every edge to a moved object retargeted by the move itself, is simpler to compare with
what happens in a heap.

The two agree (`Replay.run_eq_follow`) for allocations, stores and moves (`Deed`) that do not
get into each other's way (`Deed.Precedes` and `Deed.Timely`): an allocation takes an address
above all places met before, no address is left twice, and behind a move nothing is moved on
from its destination and nothing stores its source.

The invariant between two frames of the second pass (`Replay.InStep`) says that the table of
the second pass, retargeted by the moves seen so far, is the table reached in order together
with the allocations still to come.
-/

namespace HeapAudit

set_option autoImplicit false

/-! ## Deeds -/

/-- What a mutator does to the heap and records. -/
inductive Deed where
  /-- An object is allocated at an address. -/
  | allocate (kind : Kind) (size address : UInt64)
  /-- A reference is stored in the slot at an address. -/
  | store (value slot : UInt64)
  /-- An object changes its address. -/
  | move (src dst : UInt64)
  deriving DecidableEq

namespace Deed

/-- The kind of event that stands for a deed. -/
def kind : Deed → Kind
  | allocate kind _ _ => kind
  | store _ _ => .fieldSet
  | move _ _ => .moveObject

/-- The event that stands for a deed. -/
def event : Deed → Event
  | allocate _ size address => ⟨size, address⟩
  | store value slot => ⟨value, slot⟩
  | move src dst => ⟨src, dst⟩

/-- The slot that a deed takes in a log. -/
def stored (deed : Deed) : Event := deed.event.encode deed.kind

/-- The frame that is read from that slot. -/
def frame (deed : Deed) : Frame := ⟨deed.kind, deed.event, none, 0⟩

/-- The addresses that a deed is about. -/
def places : Deed → List UInt64
  | allocate _ _ address => [address]
  | store _ slot => [slot]
  | move src dst => [src, dst]

/-- The kinds of allocated objects. -/
def allocations : List Kind := [.newObject, .newArray, .newPrimitiveArray]

/-- A deed inside a heap, which its slot stands for. -/
def Legible (range : HeapRange) : Deed → Prop
  | allocate kind _ address => kind ∈ allocations ∧ range.contains address = true
  | store value slot =>
    range.contains slot = true ∧ (value = 0 ∨ range.contains value = true)
  | move _ dst => range.contains dst = true

/-- An allocation is above all places met before, and no address is left twice. -/
def Precedes (earlier : Deed) : Deed → Prop
  | allocate _ _ address => ∀ place ∈ earlier.places, place < address
  | move source _ => ∀ src dst, earlier = move src dst → source ≠ src
  | store _ _ => True

/-- Behind a move nothing is moved on from its destination and nothing stores its source. -/
def Timely : Deed → Deed → Prop
  | move src _, store value _ => value ≠ src
  | move _ dst, move source _ => source ≠ dst
  | _, _ => True

variable {range : HeapRange} {deed : Deed}

theorem tagged_allocations :
    ∀ kind ∈ allocations, kind ≠ .fieldSet ∧ kind.code.toNat < 2 ^ 15 ∧ kind.isPaired = false := by
  decide

/-- A deed in the heap is read back from its slot. -/
theorem Legible.classify (legible : deed.Legible range) (telling : range.Legible) :
    deed.stored.classify range = (deed.kind, deed.event) := by
  cases deed with
  | allocate kind size address =>
    obtain ⟨known, inside⟩ := legible
    obtain ⟨other, tag, -⟩ := tagged_allocations kind known
    exact Event.classify_encode telling other tag inside
  | store value slot => exact Event.classify_fieldSet legible.1 legible.2
  | move src dst =>
    have other : Kind.moveObject ≠ .fieldSet := by decide
    have tag : Kind.moveObject.code.toNat < 2 ^ 15 := by decide
    exact Event.classify_encode telling other tag legible

theorem Legible.ofSlot (legible : deed.Legible range) (telling : range.Legible) :
    Frame.ofSlot range deed.stored = deed.frame := by
  rw [Frame.ofSlot, legible.classify telling, frame]

/-- The slot of a deed is a record of its own. -/
theorem Legible.isPaired (legible : deed.Legible range) : deed.kind.isPaired = false := by
  cases deed with
  | allocate kind size address => exact (tagged_allocations kind legible.1).2.2
  | store value slot => rfl
  | move src dst => rfl

end Deed

/-- The frames of segments that hold the slots of deeds, apart from their places. -/
theorem Deed.unplaced_frames {range : HeapRange} (telling : range.Legible) {deeds : List Deed}
    (legible : ∀ deed ∈ deeds, deed.Legible range) {segments : List (List Event)}
    (held : segments.flatten = deeds.map stored) :
    (segments.flatMap (Frame.ofSlots range)).map Frame.unplaced = deeds.map frame := by
  have single : ∀ slot ∈ segments.flatten, (slot.classify range).1.isPaired = false := by
    intro slot member
    rw [held] at member
    obtain ⟨deed, present, rfl⟩ := List.mem_map.mp member
    rw [(legible deed present).classify telling]
    exact (legible deed present).isPaired
  rw [Frame.unplaced_ofSlots single, held, List.map_map]
  exact List.map_congr_left fun deed member => (legible deed member).ofSlot telling

/-! ## Tables -/

namespace Replay

/-- Where a reference leads after some moves. -/
def image (moves : WordMap UInt64) (value : UInt64) : UInt64 := (moves.find? value).getD value

theorem image_of_none {moves : WordMap UInt64} {value : UInt64} (still : moves.find? value = none) :
    image moves value = value := by
  rw [image, still]
  rfl

theorem image_single (src dst : UInt64) : image ((∅ : WordMap UInt64).insert src dst) src = dst := by
  rw [image, WordMap.find?_insert_self]
  rfl

theorem image_single_of_ne {src value : UInt64} (dst : UInt64) (elsewhere : src ≠ value) :
    image ((∅ : WordMap UInt64).insert src dst) value = value :=
  image_of_none ((WordMap.find?_insert_of_ne dst elsewhere).trans (WordMap.find?_empty _))

/-- One more move of an address that no earlier move left or led to. -/
theorem image_insert {moves : WordMap UInt64} {src : UInt64} (dst : UInt64)
    (fresh : moves.find? src = none) (apart : ∀ value, moves.find? value ≠ some src)
    (value : UInt64) :
    image (moves.insert src dst) value
      = image ((∅ : WordMap UInt64).insert src dst) (image moves value) := by
  by_cases here : src = value
  · subst here
    rw [image_of_none fresh, image_single, image, WordMap.find?_insert_self]
    rfl
  · have elsewhere : src ≠ image moves value := by
      intro same
      cases found : moves.find? value with
      | none => exact here (same.trans (image_of_none found))
      | some reached =>
        rw [image, found] at same
        exact apart value (by rw [found, same]; rfl)
    rw [image_single_of_ne dst elsewhere, image, WordMap.find?_insert_of_ne dst here, image]

end Replay

/-- The node with its references taken along by moves. -/
def Node.retarget (moves : WordMap UInt64) (node : Node) : Node :=
  { node with edges := node.edges.mapValues fun _ value => Replay.image moves value }

/-- Without moves references stay as they are. -/
theorem Node.retarget_empty (node : Node) : node.retarget ∅ = node := by
  have edges : (node.edges.mapValues fun _ value => Replay.image ∅ value) = node.edges := by
    refine WordMap.ext_find? fun offset => ?_
    rw [WordMap.find?_mapValues]
    cases node.edges.find? offset with
    | none => rfl
    | some value => rw [Option.map_some, Replay.image_of_none (WordMap.find?_empty value)]
  rw [Node.retarget, edges]

namespace Table

variable {table other : Table}

theorem nodes_insert (table : Table) (address : UInt64) (kind : Kind) (size : UInt64) :
    (table.insert address kind size).nodes = table.nodes.insert address ⟨kind, size, ∅⟩ := rfl

theorem nodes_retarget (table : Table) (moves : WordMap UInt64) :
    (table.retarget moves).nodes = table.nodes.mapValues fun _ node => node.retarget moves := rfl

theorem retarget_empty (table : Table) : table.retarget ∅ = table := by
  have nodes : (table.retarget ∅).nodes = table.nodes := by
    refine WordMap.ext_find? fun address => ?_
    rw [nodes_retarget, WordMap.find?_mapValues]
    cases table.nodes.find? address with
    | none => rfl
    | some node => rw [Option.map_some, Node.retarget_empty]
  exact congrArg ({ table with nodes := · }) nodes

theorem nodes_setEdge (table : Table) (address offset value : UInt64) :
    (table.setEdge address offset value).nodes = table.nodes.modify address fun node =>
      { node with edges := node.edges.insert offset value } := rfl

/-- Nodes after the one at an address was moved. -/
def relocated (nodes : WordMap Node) (src dst : UInt64) : WordMap Node :=
  match nodes.find? src with
  | none => nodes
  | some node => (nodes.erase src).insert dst node

theorem nodes_relocate (table : Table) (src dst : UInt64) :
    (table.relocate src dst).nodes = relocated table.nodes src dst := by
  rw [relocate, find?, relocated]
  cases table.nodes.find? src <;> rfl

theorem relocated_insert {nodes : WordMap Node} {src dst address : UInt64} (node : Node)
    (before : src ≠ address) (behind : dst ≠ address) :
    relocated (nodes.insert address node) src dst
      = (relocated nodes src dst).insert address node := by
  rw [relocated, relocated, WordMap.find?_insert_of_ne node (Ne.symm before)]
  cases nodes.find? src with
  | none => rfl
  | some moved =>
    dsimp only
    rw [WordMap.erase_insert_of_ne (Ne.symm before), WordMap.insert_insert_of_ne (Ne.symm behind)]

theorem mapValues_relocated (nodes : WordMap Node) (src dst : UInt64) (transform : Node → Node) :
    (relocated nodes src dst).mapValues (fun _ node => transform node)
      = relocated (nodes.mapValues fun _ node => transform node) src dst := by
  rw [relocated, relocated, WordMap.find?_mapValues]
  cases nodes.find? src with
  | none => rfl
  | some moved =>
    dsimp only [Option.map_some]
    rw [WordMap.mapValues_insert, WordMap.mapValues_erase]

theorem arrayBase_relocate (table : Table) (src dst : UInt64) :
    (table.relocate src dst).arrayBase = table.arrayBase := by
  rw [relocate]
  cases table.find? src <;> rfl

/-- Nodes after the one at an address was moved and every reference to it with it. -/
def moved (nodes : WordMap Node) (src dst : UInt64) : WordMap Node :=
  (relocated nodes src dst).mapValues fun _ node =>
    node.retarget ((∅ : WordMap UInt64).insert src dst)

theorem moved_insert {nodes : WordMap Node} {src dst address : UInt64} (kind : Kind)
    (size : UInt64) (before : src ≠ address) (behind : dst ≠ address) :
    moved (nodes.insert address ⟨kind, size, ∅⟩) src dst
      = (moved nodes src dst).insert address ⟨kind, size, ∅⟩ := by
  rw [moved, relocated_insert _ before behind, WordMap.mapValues_insert]
  rfl

/-- What is found at an address depends on the nodes below it. -/
theorem lookup?_congr {address : UInt64} (base : other.arrayBase = table.arrayBase)
    (floor : other.nodes.floor? address = table.nodes.floor? address) :
    other.lookup? address = table.lookup? address := by
  rw [lookup?, lookup?, floor]
  cases table.nodes.floor? address with
  | none => rfl
  | some entry =>
    have same : other.extent entry.2 = table.extent entry.2 := by rw [extent, extent, base]
    dsimp only
    rw [same]

theorem lookup?_retarget (table : Table) (moves : WordMap UInt64) (address : UInt64) :
    (table.retarget moves).lookup? address
      = (table.lookup? address).map fun found => (found.1, found.2.retarget moves) := by
  rw [lookup?, lookup?, nodes_retarget, WordMap.floor?_mapValues]
  cases table.nodes.floor? address with
  | none => rfl
  | some entry =>
    obtain ⟨start, node⟩ := entry
    have same : (table.retarget moves).extent (node.retarget moves) = table.extent node := rfl
    simp only [Option.map_some, same]
    split <;> rfl

end Table

/-! ## The two passes on deeds -/

namespace Replay

/-- What the first pass makes of a deed. -/
def plan (table : Table) : Deed → Table
  | .allocate kind size address => table.insert address kind size
  | .store _ _ | .move _ _ => table

namespace Progress

/-- What the second pass makes of a deed. -/
def execute (progress : Progress) : Deed → Progress
  | .allocate _ _ _ => progress
  | .store value slot => progress.setField slot value
  | .move src dst => progress.move src dst

/-- What becomes of a replay that follows the deeds in order. -/
def follow (progress : Progress) : Deed → Progress
  | .allocate kind size address =>
    { progress with table := progress.table.insert address kind size }
  | .store value slot => progress.setField slot value
  | .move src dst =>
    { progress.move src dst with
      table := (progress.table.relocate src dst).retarget ((∅ : WordMap UInt64).insert src dst) }

end Progress

section Frames

variable {range : HeapRange} {deed : Deed}

theorem allocate_frame (legible : deed.Legible range) (table : Table) :
    allocate table deed.frame = plan table deed := by
  cases deed with
  | allocate kind size address =>
    obtain ⟨known, -⟩ := legible
    simp only [Deed.allocations, List.mem_cons, List.not_mem_nil, or_false] at known
    rcases known with rfl | rfl | rfl <;> rfl
  | store value slot => rfl
  | move src dst => rfl

theorem apply_frame (config : Config) (legible : deed.Legible range) (progress : Progress) :
    progress.apply config deed.frame = .ok (progress.execute deed) := by
  cases deed with
  | allocate kind size address =>
    obtain ⟨known, -⟩ := legible
    simp only [Deed.allocations, List.mem_cons, List.not_mem_nil, or_false] at known
    rcases known with rfl | rfl | rfl <;> rfl
  | store value slot => rfl
  | move src dst => rfl

theorem foldl_allocate_frames {deeds : List Deed} (legible : ∀ deed ∈ deeds, deed.Legible range)
    (table : Table) : (deeds.map Deed.frame).foldl allocate table = deeds.foldl plan table := by
  induction deeds generalizing table with
  | nil => rfl
  | cons deed rest onward =>
    rw [List.map_cons, List.foldl_cons, List.foldl_cons,
      allocate_frame (legible deed List.mem_cons_self)]
    exact onward (fun other member => legible other (List.mem_cons_of_mem _ member)) _

theorem foldlM_apply_frames (config : Config) {deeds : List Deed}
    (legible : ∀ deed ∈ deeds, deed.Legible range) (progress : Progress) :
    (deeds.map Deed.frame).foldlM (Progress.apply config) progress
      = .ok (deeds.foldl Progress.execute progress) := by
  induction deeds generalizing progress with
  | nil => rfl
  | cons deed rest onward =>
    rw [List.map_cons, List.foldlM_cons, List.foldl_cons,
      apply_frame config (legible deed List.mem_cons_self)]
    exact onward (fun other member => legible other (List.mem_cons_of_mem _ member)) _

end Frames

/-- A replay of deeds is never stopped. -/
theorem run_of_deeds (config : Config) (telling : config.range.Legible) {deeds : List Deed}
    (legible : ∀ deed ∈ deeds, deed.Legible config.range) {segments : List (List Event)}
    (held : segments.flatten = deeds.map Deed.stored) (table : Table) :
    run config table segments
      = finish segments (deeds.foldl Progress.execute ⟨deeds.foldl plan table, ∅, {}⟩) := by
  have read := Deed.unplaced_frames telling legible held
  have first : (frames config segments).foldl allocate table = deeds.foldl plan table := by
    rw [← foldl_allocate_frames legible, ← read, List.foldl_map]
    rfl
  have second : ∀ progress, (frames config segments).foldlM (Progress.apply config) progress
      = .ok (deeds.foldl Progress.execute progress) := by
    intro progress
    rw [← foldlM_apply_frames config legible, ← read, List.foldlM_map]
    rfl
  rw [run, second, first]

/-! ## Allocating ahead of time -/

section Planning

variable {table other : Table} {todo : List Deed}

theorem arrayBase_foldl_plan (todo : List Deed) (table : Table) :
    (todo.foldl plan table).arrayBase = table.arrayBase := by
  induction todo generalizing table with
  | nil => rfl
  | cons deed rest onward =>
    rw [List.foldl_cons, onward]
    cases deed <;> rfl

/-- Allocations above an address are not found at the address. -/
theorem floor?_foldl_plan {bound : UInt64}
    (above : ∀ kind size address, Deed.allocate kind size address ∈ todo → bound < address) :
    (todo.foldl plan table).nodes.floor? bound = table.nodes.floor? bound := by
  induction todo generalizing table with
  | nil => rfl
  | cons deed rest onward =>
    rw [List.foldl_cons,
      onward fun kind size address member => above kind size address (List.mem_cons_of_mem _ member)]
    cases deed with
    | allocate kind size address =>
      exact WordMap.floor?_insert_of_lt _ (above kind size address List.mem_cons_self)
    | store value slot => rfl
    | move src dst => rfl

/-- A change of nodes that can be exchanged with each allocation can be exchanged with all. -/
theorem nodes_foldl_plan (change : WordMap Node → WordMap Node)
    (exchange : ∀ kind size address, Deed.allocate kind size address ∈ todo → ∀ nodes,
      change (WordMap.insert nodes address ⟨kind, size, ∅⟩)
        = (change nodes).insert address ⟨kind, size, ∅⟩)
    (start : other.nodes = change table.nodes) :
    (todo.foldl plan other).nodes = change (todo.foldl plan table).nodes := by
  induction todo generalizing table other with
  | nil => exact start
  | cons deed rest onward =>
    rw [List.foldl_cons, List.foldl_cons]
    refine onward (fun kind size address member =>
      exchange kind size address (List.mem_cons_of_mem _ member)) ?_
    cases deed with
    | allocate kind size address =>
      rw [plan, plan, Table.nodes_insert, Table.nodes_insert, start,
        exchange kind size address List.mem_cons_self]
    | store value slot => exact start
    | move src dst => exact start

end Planning

/-! ## The two passes in step with one -/

/-- **The invariant of the second pass**: `ahead` is where the second pass is and `progress` where
following in order is, with the same deeds still to do. -/
structure InStep (todo : List Deed) (progress ahead : Progress) : Prop where
  arrayBase : ahead.table.arrayBase = progress.table.arrayBase
  nodes : (ahead.table.retarget ahead.relocations).nodes
    = (todo.foldl plan progress.table).nodes
  relocations : ahead.relocations = progress.relocations
  stats : ahead.stats = progress.stats

/-- The first pass is in step. -/
theorem InStep.start (deeds : List Deed) (table : Table) :
    InStep deeds ⟨table, ∅, {}⟩ ⟨deeds.foldl plan table, ∅, {}⟩ where
  arrayBase := arrayBase_foldl_plan deeds table
  nodes := by rw [Table.retarget_empty]
  relocations := rfl
  stats := rfl

section Stepping

variable {todo : List Deed} {progress ahead : Progress}

theorem InStep.allocate {kind : Kind} {size address : UInt64}
    (inStep : InStep (.allocate kind size address :: todo) progress ahead) :
    InStep todo (progress.follow (.allocate kind size address))
      (ahead.execute (.allocate kind size address)) :=
  ⟨inStep.arrayBase, inStep.nodes, inStep.relocations, inStep.stats⟩

/-- A slot below all allocations still to come is found in the same node. -/
theorem InStep.lookup? (inStep : InStep todo progress ahead) {slot : UInt64}
    (above : ∀ kind size address, Deed.allocate kind size address ∈ todo → slot < address) :
    progress.table.lookup? slot
      = (ahead.table.lookup? slot).map fun found =>
        (found.1, found.2.retarget ahead.relocations) := by
  rw [← Table.lookup?_retarget]
  refine Table.lookup?_congr inStep.arrayBase.symm ?_
  rw [inStep.nodes, floor?_foldl_plan above]

/-- The node that covers an address starts at or below it. -/
theorem le_of_lookup? {table : Table} {slot start : UInt64} {node : Node}
    (found : table.lookup? slot = some (start, node)) :
    start ≤ slot ∧ table.nodes.find? start = some node := by
  rw [Table.lookup?] at found
  split at found
  · cases found
  · rename_i below
    split at found
    · cases found
      obtain ⟨present, reached, -⟩ := WordMap.floor?_eq_some_iff.mp below
      exact ⟨reached, present⟩
    · cases found

theorem InStep.store {value slot : UInt64}
    (inStep : InStep (.store value slot :: todo) progress ahead)
    (above : ∀ kind size address, Deed.allocate kind size address ∈ todo → slot < address)
    (still : ahead.relocations.find? value = none) :
    InStep todo (progress.follow (.store value slot)) (ahead.execute (.store value slot)) := by
  have passed : InStep todo progress ahead :=
    ⟨inStep.arrayBase, inStep.nodes, inStep.relocations, inStep.stats⟩
  have same := passed.lookup? above
  rw [Progress.follow, Progress.execute, Progress.setField, Progress.setField]
  cases found : ahead.table.lookup? slot with
  | none =>
    rw [found] at same
    rw [same]
    refine ⟨passed.arrayBase, passed.nodes, passed.relocations, ?_⟩
    dsimp only [Option.map_none]
    rw [passed.stats]
  | some entry =>
    obtain ⟨start, node⟩ := entry
    obtain ⟨below, -⟩ := le_of_lookup? found
    rw [found] at same
    rw [same]
    refine ⟨passed.arrayBase, ?_, passed.relocations, passed.stats⟩
    dsimp only [Option.map_some]
    -- the stored value has not moved, so that storing and retargeting can be exchanged
    have exchange : ∀ node : Node, Node.retarget ahead.relocations
        { node with edges := node.edges.insert (slot - start) value }
        = { node.retarget ahead.relocations with
            edges := (node.retarget ahead.relocations).edges.insert (slot - start) value } := by
      intro node
      rw [Node.retarget, Node.retarget, WordMap.mapValues_insert, image_of_none still]
    have stored : ((ahead.table.setEdge start (slot - start) value).retarget
          ahead.relocations).nodes
        = (ahead.table.retarget ahead.relocations).nodes.modify start fun node =>
          { node with edges := node.edges.insert (slot - start) value } :=
      WordMap.mapValues_modify exchange
    rw [stored, passed.nodes]
    refine (nodes_foldl_plan (WordMap.modify · start fun node =>
      { node with edges := node.edges.insert (slot - start) value })
      (fun kind size address member held => ?_) (Table.nodes_setEdge ..)).symm
    have different : address ≠ start := by
      rintro rfl
      exact UInt64.lt_irrefl _ (UInt64.lt_of_lt_of_le (above kind size _ member) below)
    exact WordMap.modify_insert_of_ne _ different

theorem InStep.move {src dst : UInt64} (inStep : InStep (.move src dst :: todo) progress ahead)
    (above : ∀ kind size address, Deed.allocate kind size address ∈ todo →
      src < address ∧ dst < address)
    (fresh : ahead.relocations.find? src = none)
    (apart : ∀ value, ahead.relocations.find? value ≠ some src) :
    InStep todo (progress.follow (.move src dst)) (ahead.execute (.move src dst)) := by
  have nodes : (ahead.table.retarget ahead.relocations).nodes
    = (todo.foldl plan progress.table).nodes := inStep.nodes
  have later : ∀ node : Node, node.retarget (ahead.relocations.insert src dst)
      = (node.retarget ahead.relocations).retarget ((∅ : WordMap UInt64).insert src dst) := by
    intro node
    rw [Node.retarget, Node.retarget, Node.retarget, WordMap.mapValues_mapValues]
    dsimp only
    rw [WordMap.mapValues_congr fun _ value _ => image_insert dst fresh apart value]
  refine ⟨?_, ?_, ?_, ?_⟩
  · rw [Progress.follow, Progress.execute, Progress.move, Progress.move]
    dsimp only
    rw [Table.arrayBase_relocate, inStep.arrayBase, ← Table.arrayBase_relocate progress.table src dst]
    rfl
  · have moved : ((ahead.execute (.move src dst)).table.retarget
          (ahead.execute (.move src dst)).relocations).nodes
        = Table.moved (ahead.table.retarget ahead.relocations).nodes src dst := by
      rw [Table.moved, Table.nodes_retarget ahead.table, ← Table.mapValues_relocated,
        WordMap.mapValues_mapValues, ← Table.nodes_relocate]
      exact WordMap.mapValues_congr fun _ node _ => later node
    have followed : (progress.follow (.move src dst)).table.nodes
        = Table.moved progress.table.nodes src dst := by
      rw [Table.moved, ← Table.nodes_relocate]
      rfl
    rw [moved, nodes]
    refine (nodes_foldl_plan (Table.moved · src dst) (fun kind size address member held => ?_)
      followed).symm
    obtain ⟨before, behind⟩ := above kind size address member
    exact Table.moved_insert kind size (UInt64.ne_of_lt before) (UInt64.ne_of_lt behind)
  · rw [Progress.follow, Progress.execute, Progress.move, Progress.move, inStep.relocations]
  · rw [Progress.follow, Progress.execute, Progress.move, Progress.move, inStep.stats]

/-- A deed that no earlier move gets in the way of. -/
def Clear (moves : WordMap UInt64) : Deed → Prop
  | .allocate _ _ _ => True
  | .store value _ => moves.find? value = none
  | .move src _ => moves.find? src = none ∧ ∀ value, moves.find? value ≠ some src

theorem Clear.insert {moves : WordMap UInt64} {src dst : UInt64} {later : Deed}
    (clear : Clear moves later) (precedes : (Deed.move src dst).Precedes later)
    (timely : (Deed.move src dst).Timely later) : Clear (moves.insert src dst) later := by
  cases later with
  | allocate kind size address => trivial
  | store value slot =>
    have different : src ≠ value := Ne.symm timely
    exact (WordMap.find?_insert_of_ne dst different).trans clear
  | move source target =>
    have different : src ≠ source := Ne.symm (precedes src dst rfl)
    refine ⟨(WordMap.find?_insert_of_ne dst different).trans clear.1, fun value => ?_⟩
    rw [WordMap.find?_insert]
    split
    · intro same
      exact timely (Option.some.inj same).symm
    · exact clear.2 value

/-- One deed keeps the two passes in step with one. -/
theorem InStep.step {deed : Deed} (inStep : InStep (deed :: todo) progress ahead)
    (precedes : ∀ later ∈ todo, deed.Precedes later) (clear : Clear ahead.relocations deed) :
    InStep todo (progress.follow deed) (ahead.execute deed) := by
  cases deed with
  | allocate kind size address => exact inStep.allocate
  | store value slot =>
    exact inStep.store (fun _ _ _ member => precedes _ member slot List.mem_cons_self) clear
  | move src dst =>
    refine inStep.move (fun _ _ _ member => ⟨?_, ?_⟩) clear.1 clear.2
    · exact precedes _ member src List.mem_cons_self
    · exact precedes _ member dst (List.mem_cons_of_mem _ List.mem_cons_self)

/-- What is clear before a deed is clear behind it. -/
theorem Clear.execute {deed later : Deed} (clear : Clear ahead.relocations later)
    (precedes : deed.Precedes later) (timely : deed.Timely later) :
    Clear (ahead.execute deed).relocations later := by
  cases deed with
  | allocate kind size address => exact clear
  | store value slot =>
    have same : (ahead.execute (.store value slot)).relocations = ahead.relocations := by
      rw [Progress.execute, Progress.setField]
      split <;> rfl
    rw [same]
    exact clear
  | move src dst => exact clear.insert precedes timely

/-- All deeds keep the two passes in step with one. -/
theorem InStep.run (inStep : InStep todo progress ahead) (precedes : todo.Pairwise Deed.Precedes)
    (timely : todo.Pairwise Deed.Timely) (clear : ∀ deed ∈ todo, Clear ahead.relocations deed) :
    InStep [] (todo.foldl Progress.follow progress) (todo.foldl Progress.execute ahead) := by
  induction todo generalizing progress ahead with
  | nil => exact inStep
  | cons deed rest onward =>
    obtain ⟨before, ordered⟩ := List.pairwise_cons.mp precedes
    obtain ⟨inTime, others⟩ := List.pairwise_cons.mp timely
    refine onward (inStep.step before (clear deed List.mem_cons_self)) ordered others ?_
    intro later member
    exact (clear later (List.mem_cons_of_mem _ member)).execute (before later member)
      (inTime later member)

end Stepping

/-- **Two passes do what following in order does.**  The table they leave has the nodes that are
reached in order, and the counts are those of following in order. -/
theorem run_eq_follow (config : Config) (telling : config.range.Legible) {deeds : List Deed}
    (legible : ∀ deed ∈ deeds, deed.Legible config.range) {segments : List (List Event)}
    (held : segments.flatten = deeds.map Deed.stored) (precedes : deeds.Pairwise Deed.Precedes)
    (timely : deeds.Pairwise Deed.Timely) (table : Table) {reached : Progress}
    (followed : deeds.foldl Progress.follow ⟨table, ∅, {}⟩ = reached) :
    (run config table segments).table.nodes = reached.table.nodes
      ∧ (run config table segments).table.arrayBase = reached.table.arrayBase
      ∧ (run config table segments).outcome = .ok { reached.stats with
        events := segments.flatten.length
        nodes := (run config table segments).table.size
        edges := (run config table segments).table.edgeCount } := by
  have inStep := (InStep.start deeds table).run precedes timely (by
    intro deed member
    cases deed with
    | allocate kind size address => trivial
    | store value slot => exact WordMap.find?_empty value
    | move src dst => exact ⟨WordMap.find?_empty src, fun value => by simp⟩)
  rw [followed] at inStep
  rw [run_of_deeds config telling legible held]
  refine ⟨inStep.nodes, inStep.arrayBase, ?_⟩
  rw [finish, inStep.stats]

end Replay

end HeapAudit
