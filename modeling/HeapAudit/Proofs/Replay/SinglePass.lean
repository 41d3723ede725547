import HeapAudit.Proofs.Replay.Effect

/-!
# One pass instead of two

The first pass of a replay places objects that are only allocated by later frames.  A frame could
then find such an object instead of the one that was there when it was recorded.  A replay in one
pass (`Replay.runInOrder`) cannot go wrong like that: it places the object of a frame right
before it performs its effect.

The two agree (`Replay.run_eq_runInOrder`) if objects keep their addresses and sizes, lie apart
from each other and are not mentioned ahead of their allocation (`Replay.Sequential`).  The
invariant between two frames is that the table of the two passes is the table of the one pass
with the objects still to come placed in it, all of which lie apart from what is there
(`Replay.Roomy`).  An effect that mentions none of these objects does not see them
(`Replay.perform_place`).
-/

namespace HeapAudit

set_option autoImplicit false

/-! ## Effects on objects that stay where they are -/

namespace Effect

/-- The addresses by which an effect asks for objects. -/
def mentions : Effect → List UInt64
  | .nothing | .unrecognized | .clear _ _ => []
  | .store slot _ => [slot]
  | .copyObject src dst | .copyElements src dst _ | .copyNewArray src dst _ _
  | .copyWholeArray src dst | .move src dst => [src, dst]
  | .copyWithin array _ _ _ => [array]

/-- Whether an effect leaves every object its address and its size. -/
def keepsObjects : Effect → Bool
  | .copyNewArray _ _ _ _ | .copyWholeArray _ _ | .move _ _ | .clear _ _ => false
  | _ => true

end Effect

/-- No address that a frame mentions lies in the object that another frame allocates. -/
def Frame.Ignores (base : UInt64) (frame other : Frame) : Prop :=
  ∀ address ∈ frame.effect.mentions, ∀ object ∈ other.allocation?, ¬ object.Covers base address

-- the instance goes through the list: there are too many words to try them all
instance (base : UInt64) (frame other : Frame) : Decidable (frame.Ignores base other) :=
  List.decidableBAll (fun address => ∀ object ∈ other.allocation?, ¬ object.Covers base address)
    frame.effect.mentions

namespace Table

variable {table : Table} {object : Allocation} {src dst : UInt64}

theorem copySlots_place (srcOffset dstOffset length : UInt64) (source : object.address ≠ src)
    (target : object.address ≠ dst) :
    (table.place object).copySlots src dst srcOffset dstOffset length
      = (table.copySlots src dst srcOffset dstOffset length).place object := by
  rw [copySlots, copySlots]
  split
  · exact update_place table _ target
  · rw [find?_place_of_ne table source]
    cases table.find? src with
    | none => rfl
    | some node => exact update_place table _ target

theorem copyFields_place (offsets : List UInt64) (source : object.address ≠ src)
    (target : object.address ≠ dst) :
    (table.place object).copyFields src dst offsets
      = (table.copyFields src dst offsets).place object := by
  rw [copyFields, copyFields, find?_place_of_ne table source]
  cases table.find? src with
  | none => rfl
  | some node => exact update_place table _ target

/-- Tables with the same objects in the same places. -/
structure SameObjects (table other : Table) : Prop where
  arrayBase : other.arrayBase = table.arrayBase
  outline : other.outline = table.outline

theorem SameObjects.refl (table : Table) : SameObjects table table := ⟨rfl, rfl⟩

theorem sameObjects_update (table : Table) (target : UInt64) {change : Node → Node}
    (keeps : ∀ node, (change node).kind = node.kind ∧ (change node).size = node.size) :
    SameObjects table (table.update target change) :=
  ⟨rfl, table.outline_update target keeps⟩

theorem sameObjects_copySlots (table : Table) (src dst srcOffset dstOffset length : UInt64) :
    SameObjects table (table.copySlots src dst srcOffset dstOffset length) := by
  rw [copySlots]
  split
  · exact sameObjects_update table dst fun _ => ⟨rfl, rfl⟩
  · split
    · exact .refl table
    · exact sameObjects_update table dst fun _ => ⟨rfl, rfl⟩

theorem sameObjects_copyFields (table : Table) (src dst : UInt64) (offsets : List UInt64) :
    SameObjects table (table.copyFields src dst offsets) := by
  rw [copyFields]
  split
  · exact .refl table
  · exact sameObjects_update table dst fun _ => ⟨rfl, rfl⟩

end Table

namespace Replay

variable {config : Config} {progress : Progress} {object : Allocation} {effect : Effect}

theorem sameObjects_copySlots {reached : Progress} {src dst srcOffset dstOffset length : UInt64}
    (copied : progress.copySlots config src dst srcOffset dstOffset length = .ok reached) :
    progress.table.SameObjects reached.table := by
  rw [Progress.copySlots] at copied
  split at copied
  · cases copied
  · cases copied
    exact progress.table.sameObjects_copySlots ..

/-- Effects that keep objects leave them where they are. -/
theorem sameObjects_perform (keeps : effect.keepsObjects = true) {reached : Progress}
    (performed : progress.perform config effect = .ok reached) :
    progress.table.SameObjects reached.table := by
  cases effect with
  | nothing =>
    cases performed
    exact .refl _
  | unrecognized =>
    cases performed
    exact .refl _
  | store slot value =>
    rw [Progress.perform, Progress.setField] at performed
    split at performed
    · cases performed
      exact .refl _
    · cases performed
      exact progress.table.sameObjects_update _ fun _ => ⟨rfl, rfl⟩
  | copyObject src dst =>
    rw [Progress.perform, Progress.copyObject] at performed
    split at performed
    · cases performed
      exact progress.table.sameObjects_copyFields ..
    · cases performed
      exact .refl _
  | copyElements src dst length =>
    rw [Progress.perform, Progress.copyElements] at performed
    split at performed
    · exact sameObjects_copySlots performed
    · cases performed
      exact .refl _
  | copyWithin array length srcIndex dstIndex =>
    rw [Progress.perform, Progress.copyWithin] at performed
    split at performed
    · cases performed
      exact .refl _
    · exact sameObjects_copySlots performed
  | copyNewArray src dst length srcIndex => cases keeps
  | copyWholeArray src dst => cases keeps
  | move src dst => cases keeps
  | clear start stop => cases keeps

/-! ## Objects placed ahead of time -/

/-- Places an object ahead of time. -/
def Progress.place (progress : Progress) (object : Allocation) : Progress :=
  { progress with table := progress.table.place object }

theorem copySlots_place {src dst : UInt64} (srcOffset dstOffset length : UInt64)
    (source : object.address ≠ src) (target : object.address ≠ dst) :
    (progress.place object).copySlots config src dst srcOffset dstOffset length
      = mapReached (Progress.place · object)
        (progress.copySlots config src dst srcOffset dstOffset length) := by
  have table : (progress.place object).table = progress.table.place object := rfl
  rw [Progress.copySlots, Progress.copySlots, table, Table.copySlots_place _ _ _ source target]
  split <;> rfl

/-- **An effect does not see an object** that lies apart from all the others and that it does not
mention. -/
theorem perform_place (keeps : effect.keepsObjects = true)
    (apart : ∀ start node, progress.table.find? start = some node →
      (node.allocation start).Apart progress.table.arrayBase object)
    (unmentioned : ∀ address ∈ effect.mentions,
      ¬ object.Covers progress.table.arrayBase address) :
    (progress.place object).perform config effect
      = mapReached (Progress.place · object) (progress.perform config effect) := by
  have table : (progress.place object).table = progress.table.place object := rfl
  have elsewhere : ∀ address ∈ effect.mentions, object.address ≠ address := by
    rintro address member rfl
    exact unmentioned _ member (object.covers_self _)
  have find? : ∀ address ∈ effect.mentions,
      (progress.table.place object).find? address = progress.table.find? address :=
    fun address member => progress.table.find?_place_of_ne (elsewhere address member)
  have lookup? : ∀ address ∈ effect.mentions,
      (progress.table.place object).lookup? address = progress.table.lookup? address :=
    fun address member => Table.lookup?_place apart (unmentioned address member)
  have owned : ∀ {address start : UInt64} {node : Node},
      progress.table.lookup? address = some (start, node) → object.address ≠ start := by
    intro address start node found
    obtain ⟨present, -, -⟩ := Table.lookup?_eq_some_iff.mp found
    exact (apart start node present).ne.symm
  cases effect with
  | nothing => rfl
  | unrecognized => rfl
  | store slot value =>
    simp only [Progress.perform, Progress.setField, table, lookup? slot List.mem_cons_self]
    cases found : progress.table.lookup? slot with
    | none => rfl
    | some entry =>
      obtain ⟨start, node⟩ := entry
      exact congrArg (fun table => Except.ok { progress with table := table })
        (progress.table.update_place _ (owned found))
  | copyObject src dst =>
    have source := elsewhere src List.mem_cons_self
    have target := elsewhere dst (List.mem_cons_of_mem _ List.mem_cons_self)
    simp only [Progress.perform, Progress.copyObject, table, find? src List.mem_cons_self,
      find? dst (List.mem_cons_of_mem _ List.mem_cons_self),
      Table.copyFields_place _ source target]
    cases progress.table.find? src <;> cases progress.table.find? dst <;> rfl
  | copyElements src dst length =>
    simp only [Progress.perform, Progress.copyElements, table, lookup? src List.mem_cons_self,
      lookup? dst (List.mem_cons_of_mem _ List.mem_cons_self)]
    cases source : progress.table.lookup? src with
    | none => rfl
    | some first =>
      cases target : progress.table.lookup? dst with
      | none => rfl
      | some second => exact copySlots_place _ _ _ (owned source) (owned target)
  | copyWithin array length srcIndex dstIndex =>
    have here := elsewhere array List.mem_cons_self
    simp only [Progress.perform, Progress.copyWithin, table, find? array List.mem_cons_self]
    cases progress.table.find? array with
    | none => rfl
    | some node => exact copySlots_place _ _ _ here here
  | copyNewArray src dst length srcIndex => cases keeps
  | copyWholeArray src dst => cases keeps
  | move src dst => cases keeps
  | clear start stop => cases keeps

/-- Objects that lie apart from each other and from those of a table. -/
structure Roomy (table : Table) (objects : List Allocation) : Prop where
  present : ∀ start held, table.outline.find? start = some held → ∀ object ∈ objects,
    held.Apart table.arrayBase object
  coming : objects.Pairwise (Allocation.Apart table.arrayBase)

namespace Roomy

variable {table other : Table} {objects : List Allocation}

theorem congr (roomy : Roomy table objects) (same : table.SameObjects other) :
    Roomy other objects := by
  obtain ⟨base, outline⟩ := same
  refine ⟨?_, ?_⟩
  · rw [base, outline]
    exact roomy.present
  · rw [base]
    exact roomy.coming

theorem apart (roomy : Roomy table (object :: objects)) (start : UInt64) (node : Node)
    (found : table.find? start = some node) :
    (node.allocation start).Apart table.arrayBase object := by
  refine roomy.present start _ ?_ object List.mem_cons_self
  rw [Table.find?_outline, found]
  rfl

theorem place (roomy : Roomy table (object :: objects)) : Roomy (table.place object) objects := by
  obtain ⟨first, others⟩ := List.pairwise_cons.mp roomy.coming
  refine ⟨fun start held found other member => ?_, others⟩
  rw [Table.find?_outline] at found
  by_cases here : object.address = start
  · subst here
    rw [Table.find?_place_self] at found
    cases found
    exact first other member
  · rw [Table.find?_place_of_ne table here, ← Table.find?_outline] at found
    exact roomy.present start held found other (List.mem_cons_of_mem _ member)

end Roomy

/-- An effect does not see objects still to come. -/
theorem perform_foldl_place {objects : List Allocation} (keeps : effect.keepsObjects = true)
    (roomy : Roomy progress.table objects)
    (unmentioned : ∀ address ∈ effect.mentions, ∀ object ∈ objects,
      ¬ object.Covers progress.table.arrayBase address) :
    (objects.foldl Progress.place progress).perform config effect
      = mapReached (objects.foldl Progress.place) (progress.perform config effect) := by
  induction objects generalizing progress with
  | nil =>
    show progress.perform config effect = mapReached id _
    cases progress.perform config effect <;> rfl
  | cons object rest onward =>
    have later : (rest.foldl Progress.place (progress.place object)).perform config effect = _ :=
      onward roomy.place fun address member other present =>
        unmentioned address member other (List.mem_cons_of_mem _ present)
    have here := @perform_place config progress object effect keeps roomy.apart
      fun address member => unmentioned address member object List.mem_cons_self
    rw [List.foldl_cons, later, here]
    cases progress.perform config effect <;> rfl

/-! ## In order -/

/-- Places the object of a frame and applies the frame. -/
def Progress.advance (config : Config) (progress : Progress) (frame : Frame) :
    Except Halt Progress :=
  Progress.apply config { progress with table := allocate progress.table frame } frame

/-- **Replays segments in one pass.** -/
def runInOrder (config : Config) (table : Table) (segments : List (List Event)) : Replayed :=
  conclude segments ((frames config segments).foldlM (Progress.advance config) ⟨table, ∅, {}⟩)

/-- Frames that can be replayed in one pass: objects neither move nor disappear, and no array is
allocated as a copy; the ranges of all objects lie apart; and no frame mentions an address in the
range of an object that a later frame allocates. -/
structure Sequential (base : UInt64) (frames : List Frame) : Prop where
  keeps : ∀ frame ∈ frames, frame.kind ∉ [.moveObject, .clearContiguousSpace, .copyNewArray,
    .copyNewArrayOfSameLength]
  apart : (frames.filterMap Frame.allocation?).Pairwise (Allocation.Apart base)
  timely : frames.Pairwise (Frame.Ignores base)

theorem keepsObjects_effect {frame : Frame} (keeps : frame.kind ∉ [.moveObject,
    .clearContiguousSpace, .copyNewArray, .copyNewArrayOfSameLength]) :
    frame.effect.keepsObjects = true := by
  obtain ⟨kind, event, operand, index⟩ := frame
  cases kind with
  | moveObject | clearContiguousSpace | copyNewArray | copyNewArrayOfSameLength =>
    exact absurd (by simp) keeps
  | _ => cases operand <;> rfl

/-- Placing the objects of frames starts with the object of the first one. -/
theorem foldl_place_cons (progress : Progress) (frame : Frame) (rest : List Frame) :
    ((frame :: rest).filterMap Frame.allocation?).foldl Progress.place progress
      = (rest.filterMap Frame.allocation?).foldl Progress.place
        { progress with table := allocate progress.table frame } := by
  rw [List.filterMap_cons, allocate_eq_place]
  cases frame.allocation? <;> rfl

theorem Roomy.allocate {table : Table} {frame : Frame} {rest : List Frame}
    (roomy : Roomy table ((frame :: rest).filterMap Frame.allocation?)) :
    Roomy (allocate table frame) (rest.filterMap Frame.allocation?) := by
  rw [List.filterMap_cons] at roomy
  rw [allocate_eq_place]
  cases allocates : frame.allocation? with
  | none =>
    rw [allocates] at roomy
    exact roomy
  | some object =>
    rw [allocates] at roomy
    exact roomy.place

/-- **The two passes in step with one**: with the objects still to come placed ahead of time, the
effects of frames come to the same as the frames in order. -/
theorem foldlM_perform_eq_advance {base : UInt64} {frames : List Frame}
    (keeps : ∀ frame ∈ frames, frame.effect.keepsObjects = true)
    (timely : frames.Pairwise (Frame.Ignores base))
    (same : progress.table.arrayBase = base)
    (roomy : Roomy progress.table (frames.filterMap Frame.allocation?)) :
    ((frames.map Frame.effect).foldlM (Progress.perform config)
        ((frames.filterMap Frame.allocation?).foldl Progress.place progress)).mapError Halt.cause
      = (frames.foldlM (Progress.advance config) progress).mapError Halt.cause := by
  induction frames generalizing progress with
  | nil => rfl
  | cons frame rest onward =>
    obtain ⟨unmentioned, later⟩ := List.pairwise_cons.mp timely
    have kept := keeps frame List.mem_cons_self
    have room := roomy.allocate
    have base' : (allocate progress.table frame).arrayBase = base := by
      rw [allocate_eq_place, arrayBase_foldl_place, same]
    rw [foldl_place_cons, List.map_cons, List.foldlM_cons, List.foldlM_cons, Progress.advance,
      apply_eq_perform]
    generalize placed :
      ({ progress with table := allocate progress.table frame } : Progress) = current
    have table : current.table = allocate progress.table frame := by rw [← placed]
    rw [← table] at room base'
    rw [perform_foldl_place kept room (by
      intro address member object listed
      obtain ⟨other, present, allocates⟩ := List.mem_filterMap.mp listed
      rw [base']
      exact unmentioned other present address member object allocates)]
    cases performed : current.perform config frame.effect with
    | error halt => rfl
    | ok reached =>
      have objects := sameObjects_perform kept performed
      exact onward (fun other member => keeps other (List.mem_cons_of_mem _ member)) later
        (objects.arrayBase.trans base') (room.congr objects)

/-- Replays whose passes end alike end alike. -/
theorem conclude_mapError {first second : Except Halt Progress}
    (alike : first.mapError Halt.cause = second.mapError Halt.cause)
    (segments : List (List Event)) :
    (conclude segments first).outcome = (conclude segments second).outcome
      ∧ ∀ stats, (conclude segments first).outcome = .ok stats →
        conclude segments first = conclude segments second := by
  cases first with
  | ok progress =>
    cases second with
    | ok other =>
      cases alike
      exact ⟨rfl, fun _ _ => rfl⟩
    | error halt => cases alike
  | error halt =>
    cases second with
    | ok other => cases alike
    | error other =>
      have causes : halt.cause = other.cause := Except.error.inj alike
      refine ⟨congrArg Except.error causes, fun stats impossible => ?_⟩
      cases impossible

theorem foldl_place_eq (objects : List Allocation) (progress : Progress) :
    objects.foldl Progress.place progress
      = { progress with table := objects.foldl Table.place progress.table } := by
  induction objects generalizing progress with
  | nil => rfl
  | cons object rest onward =>
    rw [List.foldl_cons, onward]
    rfl

/-- **Two passes do what one pass does** for frames that can be replayed in order, from the empty
table.  They come to the same counts or stop for the same cause, and if they do not stop they
leave the same table. -/
theorem run_eq_runInOrder (config : Config) (base : UInt64) (segments : List (List Event))
    (sequential : Sequential base (frames config segments)) :
    (run config (.empty base) segments).outcome = (runInOrder config (.empty base) segments).outcome
      ∧ ∀ stats, (run config (.empty base) segments).outcome = .ok stats →
        (run config (.empty base) segments).table
          = (runInOrder config (.empty base) segments).table := by
  have keeps : ∀ frame ∈ frames config segments, frame.effect.keepsObjects = true :=
    fun frame member => keepsObjects_effect (sequential.keeps frame member)
  have roomy : Roomy (.empty base) (allocations config segments) := by
    refine ⟨fun start held found => ?_, sequential.apart⟩
    rw [Table.find?_outline] at found
    cases found
  have alike := @foldlM_perform_eq_advance config ⟨.empty base, ∅, {}⟩ base
    (frames config segments) keeps sequential.timely rfl roomy
  rw [foldl_place_eq] at alike
  obtain ⟨outcome, returns⟩ := conclude_mapError alike segments
  rw [run_eq_conclude]
  exact ⟨outcome, fun stats returned => congrArg Replayed.table (returns stats returned)⟩

/-- An object with a new object in its second field. -/
def pairing : List Event :=
  [Event.encode .newObject ⟨2, 0x10000100⟩,
    Event.encode .fieldSetWithNewObject ⟨0x10000200, 0x10000108⟩, Event.encode .dummy ⟨16, 0⟩]

/-- A copy of that object, a store in the new one, and an array with elements copied from the object
and inside itself. -/
def copying : List Event :=
  [Event.encode .copyNewObject ⟨0x100001000010, 0x10000300⟩, ⟨0x10000100, 0x10000200⟩,
    Event.encode .newArray ⟨4, 0x10000400⟩,
    Event.encode .copyArray ⟨0x10000100, 0x10000410⟩, Event.encode .copyArrayLength ⟨2, 0⟩,
    Event.encode .copySameArray ⟨0x10000400, 1⟩, Event.encode .copyArrayOffsets ⟨1, 2⟩]

/-- Allocations, stores and copies are replayed as in one pass. -/
theorem run_eq_runInOrder_copying :
    Sequential 16 (frames .plain [pairing, copying])
    ∧ (run .plain (.empty 16) [pairing, copying]).table
      = (runInOrder .plain (.empty 16) [pairing, copying]).table
    ∧ (runInOrder .plain (.empty 16) [pairing, copying]).outcome.toOption
      = some { events := 10, nodes := 4, edges := 5 } := by
  have sequential : Sequential 16 (frames .plain [pairing, copying]) :=
    ⟨by decide +kernel, by decide +kernel, by decide +kernel⟩
  obtain ⟨outcome, table⟩ := run_eq_runInOrder .plain 16 [pairing, copying] sequential
  have returned : (run .plain (.empty 16) [pairing, copying]).outcome.toOption
      = some { events := 10, nodes := 4, edges := 5 } := by decide +kernel
  refine ⟨sequential, ?_, outcome ▸ returned⟩
  cases ended : (run .plain (.empty 16) [pairing, copying]).outcome with
  | ok stats => exact table stats ended
  | error cause =>
    rw [ended] at returned
    cases returned

end Replay

end HeapAudit
