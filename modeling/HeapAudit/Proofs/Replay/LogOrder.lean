import HeapAudit.Proofs.Replay.Effect
import HeapAudit.Shadow.Digest
import Mathlib.Data.List.Pairwise

/-!
# The order of independent logs

Nothing fixes the order in which the logs of different mutators are replayed.  For logs that
allocate and store (`Frame.Allocates`), it does not matter as long as no two of them allocate at
one address or store in one slot (`Replay.Independent`): a replay of the logs in any order comes
to the same graph and the same counts (`Replay.run_permuted`).

A store may go to an object of another log, even of a later one.  The first pass has placed all
objects by then, and storing does not change where they lie, so that every slot belongs to the
same object whenever it is stored to.
-/

namespace HeapAudit

set_option autoImplicit false

/-! ## Folding over blocks that can be exchanged -/

section Blocks

variable {α β σ : Type} {step : σ → α → σ}

theorem foldl_step_comm {last : α} {items : List α}
    (exchange : ∀ item ∈ items, ∀ state, step (step state last) item = step (step state item) last)
    (state : σ) : items.foldl step (step state last) = step (items.foldl step state) last := by
  induction items generalizing state with
  | nil => rfl
  | cons item rest onward =>
    rw [List.foldl_cons, exchange item List.mem_cons_self,
      onward fun other member => exchange other (List.mem_cons_of_mem _ member)]
    rfl

theorem foldl_foldl_comm {first second : List α}
    (exchange : ∀ item ∈ first, ∀ other ∈ second, ∀ state,
      step (step state item) other = step (step state other) item) (state : σ) :
    second.foldl step (first.foldl step state) = first.foldl step (second.foldl step state) := by
  induction first generalizing state with
  | nil => rfl
  | cons item rest onward =>
    rw [List.foldl_cons, onward fun other member => exchange other (List.mem_cons_of_mem _ member),
      foldl_step_comm (exchange item List.mem_cons_self)]
    rfl

/-- Blocks whose items can be exchanged can be folded over in any order. -/
theorem foldl_flatMap_perm {items : β → List α} {blocks others : List β}
    (permuted : blocks.Perm others)
    (exchange : blocks.Pairwise fun first second => ∀ item ∈ items first, ∀ other ∈ items second,
      ∀ state, step (step state item) other = step (step state other) item) (start : σ) :
    (blocks.flatMap items).foldl step start = (others.flatMap items).foldl step start := by
  rw [List.foldl_flatMap, List.foldl_flatMap]
  have symmetric : Std.Symm fun first second => ∀ item ∈ items first, ∀ other ∈ items second,
      ∀ state, step (step state item) other = step (step state other) item :=
    ⟨fun _ _ exchange item member other present state =>
      (exchange other present item member state).symm⟩
  refine permuted.foldl_eq' (fun first present second listed state => ?_) start
  by_cases same : first = second
  · rw [same]
  · exact foldl_foldl_comm (exchange.forall present listed same) state

end Blocks

/-! ## Logs that allocate and store -/

/-- The slot that an effect stores in. -/
def Effect.slot? : Effect → Option UInt64
  | .store slot _ => some slot
  | _ => none

/-- The effects of frames that allocate or store, or have no meaning. -/
def Effect.Mild (effect : Effect) : Prop :=
  effect = .nothing ∨ effect = .unrecognized ∨ ∃ slot value, effect = .store slot value

/-- A frame that allocates or stores, or one without meaning. -/
def Frame.Allocates (frame : Frame) : Prop :=
  frame.kind ∈ [.newObject, .newArray, .newPrimitiveArray, .newObjectSizeInBits,
    .fieldSetWithNewObject, .fieldSet, .arrayElemSet]
  ∨ frame.effect = .unrecognized

instance (frame : Frame) : Decidable frame.Allocates := inferInstanceAs (Decidable (_ ∨ _))

theorem Frame.Allocates.mild {frame : Frame} (allocates : frame.Allocates) : frame.effect.Mild := by
  rcases allocates with known | unrecognized
  · obtain ⟨kind, event, operand, index⟩ := frame
    simp only [List.mem_cons, List.not_mem_nil, or_false] at known
    rcases known with rfl | rfl | rfl | rfl | rfl | rfl | rfl
    · exact .inl rfl
    · exact .inl rfl
    · exact .inl rfl
    · exact .inl rfl
    · cases operand with
      | none => exact .inr (.inl rfl)
      | some operand => exact .inr (.inr ⟨_, _, rfl⟩)
    · exact .inr (.inr ⟨_, _, rfl⟩)
    · exact .inr (.inr ⟨_, _, rfl⟩)
  · exact .inr (.inl unrecognized)

namespace Replay

/-- The objects that a log allocates. -/
def allocatedBy (config : Config) (segment : List Event) : List Allocation :=
  (Frame.ofSlots config.range segment).filterMap Frame.allocation?

/-- What the frames of a log do in the second pass. -/
def effectsOf (config : Config) (segment : List Event) : List Effect :=
  (Frame.ofSlots config.range segment).map Frame.effect

/-- The slots that a log stores in. -/
def storedBy (config : Config) (segment : List Event) : List UInt64 :=
  (effectsOf config segment).filterMap Effect.slot?

/-- Two logs that neither allocate at one address nor store in one slot. -/
structure Independent (config : Config) (first second : List Event) : Prop where
  allocated : ∀ object ∈ allocatedBy config first, ∀ other ∈ allocatedBy config second,
    object.address ≠ other.address
  stored : ∀ slot ∈ storedBy config first, ∀ other ∈ storedBy config second, slot ≠ other

-- slots are compared one by one from the lists: there are too many words to try them all
instance (config : Config) (first second : List Event) :
    Decidable (Independent config first second) :=
  have : Decidable (∀ slot ∈ storedBy config first, ∀ other ∈ storedBy config second,
      slot ≠ other) :=
    @List.decidableBAll _ _ (fun _ => List.decidableBAll _ _) _
  decidable_of_iff ((∀ object ∈ allocatedBy config first, ∀ other ∈ allocatedBy config second,
      object.address ≠ other.address)
    ∧ ∀ slot ∈ storedBy config first, ∀ other ∈ storedBy config second, slot ≠ other)
    ⟨fun both => ⟨both.1, both.2⟩, fun apart => ⟨apart.allocated, apart.stored⟩⟩

theorem allocations_eq (config : Config) (segments : List (List Event)) :
    allocations config segments = segments.flatMap (allocatedBy config) :=
  List.filterMap_flatMap

theorem effects_eq (config : Config) (segments : List (List Event)) :
    effects config segments = segments.flatMap (effectsOf config) :=
  List.map_flatMap

/-! ## Storing in different slots -/

/-- Edges in different slots can be set in any order. -/
theorem setEdge_comm (table : Table) {first second slot other : UInt64} (value held : UInt64)
    (different : slot ≠ other) :
    (table.setEdge first (slot - first) value).setEdge second (other - second) held
      = (table.setEdge second (other - second) held).setEdge first (slot - first) value := by
  refine table.update_comm ?_
  rintro rfl node
  have apart : slot - first ≠ other - first := by
    intro same
    exact different ((UInt64.sub_left_inj first).mp same)
  dsimp only
  rw [WordMap.insert_insert_of_ne apart]

namespace Progress

/-- Records a reference in a slot of the object at an address, or counts a store to an unknown
object. -/
def assign (progress : Progress) (slot value : UInt64) : Option UInt64 → Progress
  | none =>
    { progress with
      stats := { progress.stats with
        unresolvedFieldSets := progress.stats.unresolvedFieldSets + 1 } }
  | some start => { progress with table := progress.table.setEdge start (slot - start) value }

theorem setField_eq_assign (progress : Progress) (slot value : UInt64) :
    progress.setField slot value = progress.assign slot value (progress.table.owner? slot) := by
  rw [setField, Table.owner?]
  cases progress.table.lookup? slot <;> rfl

/-- Storing does not change where objects lie. -/
theorem owner?_assign (progress : Progress) (slot value : UInt64) (owner : Option UInt64)
    (address : UInt64) :
    (progress.assign slot value owner).table.owner? address = progress.table.owner? address := by
  cases owner with
  | none => rfl
  | some start =>
    have base : (progress.table.setEdge start (slot - start) value).arrayBase
        = progress.table.arrayBase := rfl
    have objects : (progress.table.setEdge start (slot - start) value).outline
        = progress.table.outline := Table.outline_update _ start fun _ => ⟨rfl, rfl⟩
    exact Table.owner?_congr base objects address

/-- **Stores in different slots can be exchanged.** -/
theorem setField_comm (progress : Progress) {slot other : UInt64} (value held : UInt64)
    (different : slot ≠ other) :
    (progress.setField slot value).setField other held
      = (progress.setField other held).setField slot value := by
  simp only [setField_eq_assign, owner?_assign]
  cases progress.table.owner? slot with
  | none => cases progress.table.owner? other <;> rfl
  | some first =>
    cases progress.table.owner? other with
    | none => rfl
    | some second =>
      exact congrArg ({ progress with table := · }) (setEdge_comm _ value held different)

/-- What allocating and storing frames do in the second pass. -/
def absorb (progress : Progress) : Effect → Progress
  | .store slot value => progress.setField slot value
  | .unrecognized => progress.skip
  | _ => progress

theorem setField_skip (progress : Progress) (slot value : UInt64) :
    progress.skip.setField slot value = (progress.setField slot value).skip := by
  have same : progress.skip.table = progress.table := rfl
  rw [setField_eq_assign, setField_eq_assign, same]
  cases progress.table.owner? slot <;> rfl

end Progress

theorem perform_of_mild (config : Config) (progress : Progress) {effect : Effect}
    (mild : effect.Mild) : progress.perform config effect = .ok (progress.absorb effect) := by
  rcases mild with rfl | rfl | ⟨slot, value, rfl⟩
  · rfl
  · rfl
  · rfl

theorem foldlM_perform_of_mild (config : Config) {effects : List Effect}
    (mild : ∀ effect ∈ effects, effect.Mild) (progress : Progress) :
    effects.foldlM (Progress.perform config) progress
      = .ok (effects.foldl Progress.absorb progress) := by
  induction effects generalizing progress with
  | nil => rfl
  | cons effect rest onward =>
    rw [List.foldlM_cons, perform_of_mild config progress (mild effect List.mem_cons_self)]
    exact onward (fun other member => mild other (List.mem_cons_of_mem _ member)) _

/-- Such effects can be exchanged if they do not store in one slot. -/
theorem absorb_comm {first second : Effect} (mild : first.Mild) (modest : second.Mild)
    (different : ∀ slot ∈ first.slot?, ∀ other ∈ second.slot?, slot ≠ other)
    (progress : Progress) :
    (progress.absorb first).absorb second = (progress.absorb second).absorb first := by
  rcases mild with rfl | rfl | ⟨slot, value, rfl⟩
  · rfl
  · rcases modest with rfl | rfl | ⟨other, held, rfl⟩
    · rfl
    · rfl
    · exact progress.setField_skip other held
  · rcases modest with rfl | rfl | ⟨other, held, rfl⟩
    · rfl
    · exact (progress.setField_skip slot value).symm
    · exact progress.setField_comm value held (different slot rfl other rfl)

/-! ## Replaying in another order -/

variable {config : Config} {segments others : List (List Event)}

/-- The first pass places the same nodes in any order of the logs. -/
theorem settle_permuted (permuted : segments.Perm others)
    (independent : segments.Pairwise (Independent config)) (nodes : WordMap Node) :
    (allocations config segments).foldl settle nodes
      = (allocations config others).foldl settle nodes := by
  rw [allocations_eq, allocations_eq]
  refine foldl_flatMap_perm permuted (independent.imp fun {first second} apart => ?_) nodes
  intro object present other listed state
  exact WordMap.insert_insert_of_ne (apart.allocated object present other listed)

/-- The second pass comes to the same in any order of the logs. -/
theorem absorb_permuted (permuted : segments.Perm others)
    (mild : ∀ effect ∈ effects config segments, effect.Mild)
    (independent : segments.Pairwise (Independent config)) (progress : Progress) :
    (effects config segments).foldl Progress.absorb progress
      = (effects config others).foldl Progress.absorb progress := by
  rw [effects_eq] at mild ⊢
  rw [effects_eq]
  refine foldl_flatMap_perm permuted ?_ progress
  refine independent.imp_of_mem fun {first second} present listed apart => ?_
  intro effect member other found state
  refine absorb_comm (mild effect (List.mem_flatMap.mpr ⟨first, present, member⟩))
    (mild other (List.mem_flatMap.mpr ⟨second, listed, found⟩))
    (fun slot held slot' held' => ?_) state
  exact apart.stored slot (List.mem_filterMap.mpr ⟨effect, member, held⟩) slot'
    (List.mem_filterMap.mpr ⟨other, found, held'⟩)

/-- The effects of frames that allocate or store, in any order of the logs. -/
theorem mild_of_permuted (permuted : segments.Perm others)
    (allocating : ∀ frame ∈ frames config segments, frame.Allocates) :
    ∀ effect ∈ effects config others, effect.Mild := by
  intro effect member
  rw [effects, frames, ((permuted.flatMap_right _).map _).symm.mem_iff] at member
  obtain ⟨frame, present, rfl⟩ := List.mem_map.mp member
  exact (allocating frame present).mild

/-- **The order of independent logs does not matter.**  A replay of logs that allocate and store
returns, and in any order of the logs it comes to the same counts, the same nodes with the same
edges, and so the same fingerprint. -/
theorem run_permuted (config : Config) (table : Table) {segments others : List (List Event)}
    (permuted : segments.Perm others)
    (allocating : ∀ frame ∈ frames config segments, frame.Allocates)
    (independent : segments.Pairwise (Independent config)) :
    ∃ stats, (run config table segments).outcome = .ok stats
      ∧ (run config table others).outcome = .ok stats
      ∧ (run config table others).table.nodes = (run config table segments).table.nodes
      ∧ (run config table others).table.digest = (run config table segments).table.digest := by
  have mild := mild_of_permuted (List.Perm.refl segments) allocating
  have others_mild := mild_of_permuted permuted allocating
  have length : others.flatten.length = segments.flatten.length := permuted.flatten.length_eq.symm
  -- the other order performs the effects as this one does, on the nodes that it has placed
  have reordered : run config table others
      = conclude segments ((effects config segments).foldlM (Progress.perform config)
        ⟨(allocations config others).foldl Table.place table, ∅, {}⟩) := by
    rw [run_eq_conclude, foldlM_perform_of_mild config others_mild,
      foldlM_perform_of_mild config mild, absorb_permuted permuted mild independent, conclude,
      conclude, finish, finish, length]
  have base : ((allocations config others).foldl Table.place table).arrayBase
      = ((allocations config segments).foldl Table.place table).arrayBase := by
    rw [arrayBase_foldl_place, arrayBase_foldl_place]
  have nodes : ((allocations config others).foldl Table.place table).nodes
      = ((allocations config segments).foldl Table.place table).nodes := by
    rw [nodes_foldl_place, nodes_foldl_place, settle_permuted permuted independent]
  have same := @conclude_congr config _ _ base nodes segments (effects config segments)
  rw [← reordered, ← run_eq_conclude] at same
  obtain ⟨outcome, graph⟩ := same
  have returns : ∃ stats, (run config table segments).outcome = .ok stats := by
    rw [run_eq_conclude, foldlM_perform_of_mild config mild]
    exact ⟨_, rfl⟩
  obtain ⟨stats, returned⟩ := returns
  refine ⟨stats, returned, outcome.trans returned, graph, ?_⟩
  rw [Table.digest, Table.digest, Table.digestWords, Table.digestWords, graph]

/-- A log that stores in an object of the next one. -/
def storing : List Event :=
  [Event.encode .newObject ⟨2, 0x10000100⟩, ⟨0x10000100, 0x10000208⟩, Event.encode .dummy ⟨0, 0⟩]

/-- A log that stores a new object in an object of the last one. -/
def returning : List Event :=
  [Event.encode .newObject ⟨2, 0x10000200⟩,
    Event.encode .fieldSetWithNewObject ⟨0x10000300, 0x10000100⟩, Event.encode .dummy ⟨16, 0⟩]

/-- Two logs that store in each other's objects can be replayed in either order. -/
theorem run_permuted_crossing :
    (run .plain (.empty 16) [returning, storing]).outcome.toOption
      = some { events := 6, nodes := 3, edges := 2, unrecognized := 1 }
    ∧ (run .plain (.empty 16) [returning, storing]).table.digest
      = (run .plain (.empty 16) [storing, returning]).table.digest := by
  have independent : [storing, returning].Pairwise (Independent Config.plain) := by
    decide +kernel
  obtain ⟨stats, returned, reordered, -, digest⟩ := run_permuted .plain (.empty 16)
    (List.Perm.swap returning storing []) (by decide +kernel) independent
  refine ⟨?_, digest⟩
  rw [reordered, ← returned]
  decide +kernel

end Replay

end HeapAudit
