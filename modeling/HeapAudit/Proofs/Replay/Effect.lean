import HeapAudit.Proofs.Shadow.Lookup
import HeapAudit.Replay.Run

/-!
# What a frame asks for

A replay looks at every frame twice.  The first pass takes from it the object that it allocates
(`Frame.allocation?`) and the second one what it does besides (`Frame.effect`).  A replay is
therefore given by the allocations and the effects of its frames (`Replay.run_eq_conclude`), and
what holds of a replay is shown for the few effects instead of the many kinds of frames.

No effect asks how many removed nodes a table keeps for reuse.  Replays that differ in that
number alone come to the same nodes and the same counts (`Replay.conclude_congr`).
-/

namespace HeapAudit

set_option autoImplicit false

/-! ## Allocations and effects -/

/-- The object that a frame allocates. -/
def Frame.allocation? (frame : Frame) : Option Allocation :=
  let event := frame.event
  match frame.kind, frame.operand with
  | .newObject, _ | .newArray, _ | .newPrimitiveArray, _ =>
    some ⟨event.dst, frame.kind, event.src⟩
  | .newObjectSizeInBits, _ => some ⟨event.dst, .newObject, event.src / 8⟩
  | .fieldSetWithNewObject, some operand =>
    some ⟨event.src, .newObject, Replay.wordCount operand.src⟩
  | .copyNewObject, _ => some ⟨event.dst, .newObject, (event.src &&& 0xffff) / 8⟩
  | .copyNewArray, some _ | .copyNewArrayOfSameLength, _ => some ⟨event.dst, .newArray, 0⟩
  | _, _ => none

/-- What a frame does apart from allocating. -/
inductive Effect where
  /-- The frame only allocates. -/
  | nothing
  /-- The frame has no meaning. -/
  | unrecognized
  /-- A reference is stored in the slot at an address. -/
  | store (slot value : UInt64)
  /-- The fields of an instance are copied. -/
  | copyObject (src dst : UInt64)
  /-- Elements are copied between two addresses. -/
  | copyElements (src dst length : UInt64)
  /-- Elements are copied inside one array. -/
  | copyWithin (array length srcIndex dstIndex : UInt64)
  /-- A new array is filled from a part of another one. -/
  | copyNewArray (src dst length srcIndex : UInt64)
  /-- A new array is filled from the whole of another one. -/
  | copyWholeArray (src dst : UInt64)
  /-- An object changes its address. -/
  | move (src dst : UInt64)
  /-- The objects of an address range disappear. -/
  | clear (start stop : UInt64)
  deriving DecidableEq

/-- What a frame does in the second pass. -/
def Frame.effect (frame : Frame) : Effect :=
  let event := frame.event
  match frame.kind, frame.operand with
  | .newObject, _ | .newArray, _ | .newPrimitiveArray, _ | .newObjectSizeInBits, _ => .nothing
  | .fieldSet, _ | .arrayElemSet, _ | .fieldSetWithNewObject, some _ =>
    .store event.dst event.src
  | .copyObject, _ => .copyObject event.src event.dst
  | .copyNewObject, _ => .copyObject (event.src >>> 16) event.dst
  | .copyArray, some operand => .copyElements event.src event.dst operand.src
  | .copySameArray, some operand => .copyWithin event.src event.dst operand.src operand.dst
  | .copyNewArray, some operand => .copyNewArray event.src event.dst operand.src operand.dst
  | .copyNewArrayOfSameLength, _ => .copyWholeArray event.src event.dst
  | .moveObject, _ => .move event.src event.dst
  | .clearContiguousSpace, _ => .clear event.src event.dst
  | _, _ => .unrecognized

namespace Replay

/-- A heap without layouts, and array copies without limit. -/
def Config.plain : Config := ⟨⟨0x10000000, 0x20000000⟩, fun _ => none, 0⟩

/-- The objects that the frames of segments allocate, in order. -/
def allocations (config : Config) (segments : List (List Event)) : List Allocation :=
  (frames config segments).filterMap Frame.allocation?

/-- What the frames of segments do in the second pass, in order. -/
def effects (config : Config) (segments : List (List Event)) : List Effect :=
  (frames config segments).map Frame.effect

/-- Changes the progress that a second pass has reached, be it to its end or not. -/
def mapReached (change : Progress → Progress) : Except Halt Progress → Except Halt Progress
  | .ok progress => .ok (change progress)
  | .error halt => .error ⟨halt.cause, change halt.reached⟩

/-- Does what an effect asks for. -/
def Progress.perform (config : Config) (progress : Progress) : Effect → Except Halt Progress
  | .nothing => .ok progress
  | .unrecognized => .ok progress.skip
  | .store slot value => .ok (progress.setField slot value)
  | .copyObject src dst => .ok (progress.copyObject config src dst)
  | .copyElements src dst length => progress.copyElements config src dst length
  | .copyWithin array length srcIndex dstIndex =>
    progress.copyWithin config array length srcIndex dstIndex
  | .copyNewArray src dst length srcIndex =>
    progress.copyNewArray config src dst length srcIndex
  | .copyWholeArray src dst => progress.copyWholeArray config src dst
  | .move src dst => .ok (progress.move src dst)
  | .clear start stop => .ok (progress.clear start stop)

/-- The first pass places the object of a frame. -/
theorem allocate_eq_place (table : Table) (frame : Frame) :
    allocate table frame = frame.allocation?.toList.foldl Table.place table := by
  obtain ⟨kind, event, operand, index⟩ := frame
  cases kind <;> cases operand <;> rfl

/-- The second pass performs the effect of a frame. -/
theorem apply_eq_perform (config : Config) (progress : Progress) (frame : Frame) :
    progress.apply config frame = progress.perform config frame.effect := by
  obtain ⟨kind, event, operand, index⟩ := frame
  cases kind <;> cases operand <;> rfl

/-- A move in the second pass is the effect of a frame that moves an object. -/
theorem eq_moveObject_of_effect {frame : Frame} {src dst : UInt64}
    (moves : frame.effect = .move src dst) :
    frame.kind = .moveObject ∧ frame.event = ⟨src, dst⟩ := by
  obtain ⟨kind, event, operand, index⟩ := frame
  cases kind <;> cases operand <;> cases moves <;> exact ⟨rfl, rfl⟩

theorem foldl_allocate (frames : List Frame) (table : Table) :
    frames.foldl allocate table = (frames.filterMap Frame.allocation?).foldl Table.place table := by
  induction frames generalizing table with
  | nil => rfl
  | cons frame rest onward =>
    rw [List.foldl_cons, onward, allocate_eq_place, List.filterMap_cons]
    cases frame.allocation? <;> rfl

theorem foldlM_apply (config : Config) (frames : List Frame) (progress : Progress) :
    frames.foldlM (Progress.apply config) progress
      = (frames.map Frame.effect).foldlM (Progress.perform config) progress := by
  rw [List.foldlM_map]
  have same : Progress.apply config
      = fun progress frame => progress.perform config frame.effect := by
    funext progress frame
    exact apply_eq_perform config progress frame
  rw [same]

/-- How a replay ends, by what its second pass comes to. -/
def conclude (segments : List (List Event)) : Except Halt Progress → Replayed
  | .ok progress => finish segments progress
  | .error halt => ⟨.error halt.cause, halt.reached.table⟩

/-- **A replay places all objects and performs all effects.** -/
theorem run_eq_conclude (config : Config) (table : Table) (segments : List (List Event)) :
    run config table segments
      = conclude segments ((effects config segments).foldlM (Progress.perform config)
        ⟨(allocations config segments).foldl Table.place table, ∅, {}⟩) := by
  rw [run, foldlM_apply, foldl_allocate]
  rfl

/-! ## Placing objects -/

theorem arrayBase_foldl_place (objects : List Allocation) (table : Table) :
    (objects.foldl Table.place table).arrayBase = table.arrayBase := by
  induction objects generalizing table with
  | nil => rfl
  | cons object rest onward =>
    rw [List.foldl_cons, onward]
    rfl

/-- Places an object among nodes. -/
def settle (nodes : WordMap Node) (object : Allocation) : WordMap Node :=
  nodes.insert object.address object.node

theorem nodes_foldl_place (objects : List Allocation) (table : Table) :
    (objects.foldl Table.place table).nodes = objects.foldl settle table.nodes := by
  induction objects generalizing table with
  | nil => rfl
  | cons object rest onward =>
    rw [List.foldl_cons, onward]
    rfl

/-- What the first pass leaves at an address depends on the nodes before it only if it places no
object there. -/
theorem find?_foldl_settle {objects : List Allocation} {nodes others : WordMap Node}
    {start : UInt64}
    (alike : start ∈ objects.map Allocation.address ∨ others.find? start = nodes.find? start) :
    (objects.foldl settle others).find? start = (objects.foldl settle nodes).find? start := by
  induction objects generalizing nodes others with
  | nil =>
    rcases alike with placed | same
    · cases placed
    · exact same
  | cons object rest onward =>
    apply onward
    rw [settle, settle, WordMap.find?_insert, WordMap.find?_insert]
    by_cases here : object.address = start
    · rw [if_pos here, if_pos here]
      exact .inr rfl
    · rw [if_neg here, if_neg here]
      rcases alike with placed | same
      · rw [List.map_cons, List.mem_cons] at placed
        exact .inl (placed.resolve_left (Ne.symm here))
      · exact .inr same

end Replay

/-! ## The number of removed nodes -/

/-- The table with another number of removed nodes. -/
def Table.recount (table : Table) (free : Nat) : Table := { table with free := free }

namespace Table

variable (table : Table) (free : Nat)

theorem find?_recount (address : UInt64) :
    (table.recount free).find? address = table.find? address := rfl

theorem lookup?_recount (address : UInt64) :
    (table.recount free).lookup? address = table.lookup? address := rfl

theorem copyFields_recount (src dst : UInt64) (offsets : List UInt64) :
    (table.recount free).copyFields src dst offsets
      = (table.copyFields src dst offsets).recount free := by
  rw [copyFields, copyFields, find?_recount]
  cases table.find? src <;> rfl

theorem copySlots_recount (src dst srcOffset dstOffset length : UInt64) :
    (table.recount free).copySlots src dst srcOffset dstOffset length
      = (table.copySlots src dst srcOffset dstOffset length).recount free := by
  rw [copySlots, copySlots, find?_recount]
  split
  · rfl
  · cases table.find? src <;> rfl

theorem relocate_recount (src dst : UInt64) :
    ∃ other, (table.recount free).relocate src dst = (table.relocate src dst).recount other := by
  rw [relocate, relocate, find?_recount]
  cases table.find? src with
  | none => exact ⟨free, rfl⟩
  | some node => exact ⟨_, rfl⟩

theorem erase_recount (address : UInt64) :
    ∃ other, (table.recount free).erase address = (table.erase address).recount other := by
  have same : (table.recount free).nodes = table.nodes := rfl
  rw [erase, erase, same]
  split
  · exact ⟨free + 1, rfl⟩
  · exact ⟨free, rfl⟩

theorem foldl_erase_recount (addresses : List UInt64) :
    ∃ other, addresses.foldl erase (table.recount free)
      = (addresses.foldl erase table).recount other := by
  induction addresses generalizing table free with
  | nil => exact ⟨free, rfl⟩
  | cons address rest onward =>
    obtain ⟨next, first⟩ := table.erase_recount free address
    rw [List.foldl_cons, List.foldl_cons, first]
    exact onward (table.erase address) next

end Table

namespace Replay

/-- The progress with another number of removed nodes. -/
def Progress.recount (progress : Progress) (free : Nat) : Progress :=
  { progress with table := progress.table.recount free }

theorem Progress.table_recount (progress : Progress) (free : Nat) :
    (progress.recount free).table = progress.table.recount free := rfl

variable {config : Config}

theorem copySlots_recount (progress : Progress) (free : Nat)
    (src dst srcOffset dstOffset length : UInt64) :
    (progress.recount free).copySlots config src dst srcOffset dstOffset length
      = mapReached (Progress.recount · free)
        (progress.copySlots config src dst srcOffset dstOffset length) := by
  rw [Progress.copySlots, Progress.copySlots, Progress.table_recount, Table.copySlots_recount]
  split <;> rfl

theorem fillArray_recount (progress : Progress) (free : Nat) (src dst length srcIndex : UInt64) :
    (progress.recount free).fillArray config src dst length srcIndex
      = mapReached (Progress.recount · free) (progress.fillArray config src dst length srcIndex) :=
  copySlots_recount { progress with
    table := progress.table.update dst fun node => { node with size := length } } free ..

/-- **An effect does not depend on the number of removed nodes.** -/
theorem perform_recount (progress : Progress) (free : Nat) (effect : Effect) :
    ∃ other, (progress.recount free).perform config effect
      = mapReached (Progress.recount · other) (progress.perform config effect) := by
  cases effect with
  | nothing => exact ⟨free, rfl⟩
  | unrecognized => exact ⟨free, rfl⟩
  | store slot value =>
    refine ⟨free, ?_⟩
    simp only [Progress.perform, Progress.setField, Progress.table_recount, Table.lookup?_recount]
    cases progress.table.lookup? slot <;> rfl
  | copyObject src dst =>
    refine ⟨free, ?_⟩
    simp only [Progress.perform, Progress.copyObject, Progress.table_recount, Table.find?_recount,
      Table.copyFields_recount]
    cases progress.table.find? src <;> cases progress.table.find? dst <;> rfl
  | copyElements src dst length =>
    refine ⟨free, ?_⟩
    simp only [Progress.perform, Progress.copyElements, Progress.table_recount,
      Table.lookup?_recount, copySlots_recount]
    cases progress.table.lookup? src <;> cases progress.table.lookup? dst <;> rfl
  | copyWithin array length srcIndex dstIndex =>
    refine ⟨free, ?_⟩
    simp only [Progress.perform, Progress.copyWithin, Progress.table_recount, Table.find?_recount,
      copySlots_recount]
    cases progress.table.find? array <;> rfl
  | copyNewArray src dst length srcIndex =>
    refine ⟨free, ?_⟩
    simp only [Progress.perform, Progress.copyNewArray, Progress.table_recount,
      Table.find?_recount, fillArray_recount]
    cases progress.table.find? src <;> cases progress.table.find? dst <;> rfl
  | copyWholeArray src dst =>
    refine ⟨free, ?_⟩
    simp only [Progress.perform, Progress.copyWholeArray, Progress.table_recount,
      Table.find?_recount, fillArray_recount]
    cases progress.table.find? src <;> cases progress.table.find? dst <;> rfl
  | move src dst =>
    obtain ⟨other, same⟩ := progress.table.relocate_recount free src dst
    refine ⟨other, ?_⟩
    simp only [Progress.perform, Progress.move, Progress.table_recount, same]
    rfl
  | clear start stop =>
    obtain ⟨other, same⟩ :=
      progress.table.foldl_erase_recount free (progress.table.cleared start stop)
    have cleared : (progress.table.recount free).clear start stop
        = (progress.table.clear start stop).recount other := same
    refine ⟨other, ?_⟩
    simp only [Progress.perform, Progress.clear, Progress.table_recount, cleared]
    rfl

theorem foldlM_perform_recount (effects : List Effect) (progress : Progress) (free : Nat) :
    ∃ other, effects.foldlM (Progress.perform config) (progress.recount free)
      = mapReached (Progress.recount · other)
        (effects.foldlM (Progress.perform config) progress) := by
  induction effects generalizing progress free with
  | nil => exact ⟨free, rfl⟩
  | cons effect rest onward =>
    obtain ⟨next, first⟩ := perform_recount progress free effect
    rw [List.foldlM_cons, List.foldlM_cons, first]
    cases progress.perform config effect with
    | ok reached => exact onward reached next
    | error halt => exact ⟨next, rfl⟩

/-- **Second passes over the same nodes come to the same**, whatever number of removed nodes the
tables keep. -/
theorem conclude_congr {table other : Table} (base : other.arrayBase = table.arrayBase)
    (nodes : other.nodes = table.nodes) (segments : List (List Event)) (effects : List Effect) :
    let first := conclude segments (effects.foldlM (Progress.perform config) ⟨table, ∅, {}⟩)
    let second := conclude segments (effects.foldlM (Progress.perform config) ⟨other, ∅, {}⟩)
    second.outcome = first.outcome ∧ second.table.nodes = first.table.nodes := by
  have alike : other = table.recount other.free := by
    rw [Table.recount, ← base, ← nodes]
  obtain ⟨free, same⟩ := @foldlM_perform_recount config effects ⟨table, ∅, {}⟩ other.free
  have renamed : (⟨other, ∅, {}⟩ : Progress) = Progress.recount ⟨table, ∅, {}⟩ other.free :=
    congrArg (Progress.mk · ∅ {}) alike
  dsimp only
  rw [renamed, same]
  cases effects.foldlM (Progress.perform config) ⟨table, ∅, {}⟩ with
  | ok progress => exact ⟨rfl, rfl⟩
  | error halt => exact ⟨rfl, rfl⟩

end Replay

end HeapAudit
