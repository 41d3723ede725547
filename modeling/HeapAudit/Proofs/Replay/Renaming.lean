import HeapAudit.Proofs.Replay.Effect
import HeapAudit.Proofs.Replay.InOrder
import HeapAudit.Proofs.Shadow.Catalog
import Mathlib.Data.List.Induction
import Mathlib.Data.List.Nodup

/-!
# Moves rename the graph

A replay treats a move in two parts.  The node of the object goes to its new address at once, and
the references to it follow at the end of the replay, together with those to all other moved
objects.

Behind everything else, moves to vacant addresses (`Table.Vacates`) are nothing but new names for
addresses: the table that is reached is the one without the moves, with the new name in place of the
old one wherever an address occurs, as the address of a node or as the value of an edge
(`Table.Renamed`).  References to addresses without a node are renamed too.  A renaming does not
depend on the order in which its moves are made (`Replay.moves_rename_graph`).

The nodes are renamed move by move (`Table.rekeyed_foldl_relocate`).  The names that the single moves
give come to the names that the relocations of the whole replay give since no move starts where
another one ends (`Replay.image_insert`).
-/

namespace HeapAudit

set_option autoImplicit false

/-! ## Names -/

namespace WordMap

variable {β : Type}

theorem ofList_concat (bindings : List (UInt64 × β)) (binding : UInt64 × β) :
    ofList (bindings ++ [binding]) = (ofList bindings).insert binding.1 binding.2 := by
  rw [ofList, List.foldl_concat, ← ofList]

/-- A list that binds no key twice binds its keys to the values that it names. -/
theorem find?_ofList_eq_some_iff {bindings : List (UInt64 × β)}
    (distinct : (bindings.map Prod.fst).Nodup) {key : UInt64} {value : β} :
    (ofList bindings).find? key = some value ↔ (key, value) ∈ bindings := by
  induction bindings using List.reverseRecOn with
  | nil =>
    rw [List.mem_nil_iff, iff_false]
    intro found
    cases (find?_empty key).symm.trans found
  | append_singleton bindings binding onward =>
    rw [List.map_append, List.nodup_append] at distinct
    obtain ⟨before, -, fresh⟩ := distinct
    rw [ofList_concat, find?_insert, List.mem_append, List.mem_singleton]
    by_cases here : binding.1 = key
    · rw [if_pos here, Option.some.injEq]
      have unlisted : (key, value) ∉ bindings := by
        intro listed
        exact fresh key (List.mem_map_of_mem listed) binding.1 (List.mem_singleton_self _) here.symm
      simp only [unlisted, false_or, Prod.ext_iff, here, true_and]
      exact eq_comm
    · have other : (key, value) ≠ binding := fun same => here (congrArg Prod.fst same).symm
      rw [if_neg here, onward before, or_iff_left other]

theorem ofList_perm {bindings others : List (UInt64 × β)} (permuted : others.Perm bindings)
    (distinct : (bindings.map Prod.fst).Nodup) : ofList others = ofList bindings := by
  have reordered : (others.map Prod.fst).Nodup := (permuted.map Prod.fst).nodup_iff.mpr distinct
  refine ext_find? fun key => Option.ext fun value => ?_
  rw [find?_ofList_eq_some_iff reordered, find?_ofList_eq_some_iff distinct, permuted.mem_iff]

end WordMap

/-- Moves from different addresses to different addresses that are vacant: no other move leaves them
and there is no node in the table. -/
structure Table.Vacates (table : Table) (moves : List (UInt64 × UInt64)) : Prop where
  sources : (moves.map Prod.fst).Nodup
  destinations : (moves.map Prod.snd).Nodup
  apart : ∀ dst ∈ moves.map Prod.snd, dst ∉ moves.map Prod.fst
  vacant : ∀ dst ∈ moves.map Prod.snd, table.find? dst = none

namespace Replay

variable {moves : List (UInt64 × UInt64)}

/-- An address that a move leaves has the destination for a name, all others keep theirs. -/
theorem image_cases (distinct : (moves.map Prod.fst).Nodup) (value : UInt64) :
    (value, image (.ofList moves) value) ∈ moves
      ∨ value ∉ moves.map Prod.fst ∧ image (.ofList moves) value = value := by
  cases found : (WordMap.ofList moves).find? value with
  | some named =>
    have name : image (.ofList moves) value = named := by
      rw [image, found]
      rfl
    rw [name]
    exact .inl ((WordMap.find?_ofList_eq_some_iff distinct).mp found)
  | none =>
    refine .inr ⟨?_, image_of_none found⟩
    intro left
    obtain ⟨⟨src, dst⟩, listed, rfl⟩ := List.mem_map.mp left
    rw [(WordMap.find?_ofList_eq_some_iff distinct).mpr listed] at found
    cases found

/-- One more move, from an address that no earlier one leaves or leads to. -/
theorem image_concat {src : UInt64} (dst : UInt64) (distinct : (moves.map Prod.fst).Nodup)
    (fresh : src ∉ moves.map Prod.fst) (unreached : src ∉ moves.map Prod.snd) (value : UInt64) :
    image (.ofList (moves ++ [(src, dst)])) value
      = image ((∅ : WordMap UInt64).insert src dst) (image (.ofList moves) value) := by
  have listed : ∀ {key named}, (WordMap.ofList moves).find? key = some named →
      (key, named) ∈ moves := (WordMap.find?_ofList_eq_some_iff distinct).mp
  rw [WordMap.ofList_concat, image_insert]
  · rw [Option.eq_none_iff_forall_ne_some]
    intro named found
    exact fresh (List.mem_map_of_mem (listed found))
  · intro key found
    exact unreached (List.mem_map_of_mem (listed found))

end Replay

/-! ## Moving nodes -/

namespace Table

open Replay

variable {table after : Table} {moves : List (UInt64 × UInt64)}

namespace Vacates

theorem before {src dst : UInt64} (vacates : table.Vacates (moves ++ [(src, dst)])) :
    table.Vacates moves := by
  obtain ⟨sources, destinations, apart, vacant⟩ := vacates
  simp only [List.map_append, List.mem_append] at sources destinations apart vacant
  refine ⟨sources.of_append_left, destinations.of_append_left, ?_, ?_⟩
  · intro dst listed left
    exact apart dst (.inl listed) (.inl left)
  · intro dst listed
    exact vacant dst (.inl listed)

/-- The last move has nothing in common with the moves before it. -/
theorem last {src dst : UInt64} (vacates : table.Vacates (moves ++ [(src, dst)])) :
    src ∉ moves.map Prod.fst ∧ src ∉ moves.map Prod.snd ∧ dst ∉ moves.map Prod.snd
      ∧ src ≠ dst ∧ table.find? dst = none := by
  obtain ⟨sources, destinations, apart, vacant⟩ := vacates
  simp only [List.map_append, List.map_cons, List.map_nil, List.nodup_append, List.mem_append,
    List.mem_singleton] at sources destinations apart vacant
  refine ⟨?_, ?_, ?_, ?_, vacant dst (.inr rfl)⟩
  · intro left
    exact sources.2.2 src left src rfl rfl
  · intro reached
    exact apart src (.inl reached) (.inr rfl)
  · intro reached
    exact destinations.2.2 dst reached dst rfl rfl
  · rintro rfl
    exact apart src (.inr rfl) (.inr rfl)

/-- The renaming does not depend on the order of the moves. -/
theorem perm (vacates : table.Vacates moves) {others : List (UInt64 × UInt64)}
    (permuted : others.Perm moves) : table.Vacates others := by
  have lefts := permuted.map Prod.fst
  have rights := permuted.map Prod.snd
  refine ⟨lefts.nodup_iff.mpr vacates.sources, rights.nodup_iff.mpr vacates.destinations, ?_, ?_⟩
  · intro dst listed left
    exact vacates.apart dst (rights.mem_iff.mp listed) (lefts.mem_iff.mp left)
  · intro dst listed
    exact vacates.vacant dst (rights.mem_iff.mp listed)

/-- No node is moved onto another one. -/
theorem injOn (vacates : table.Vacates moves) {first second : UInt64}
    (known : table.find? first ≠ none) (present : table.find? second ≠ none)
    (same : image (.ofList moves) first = image (.ofList moves) second) : first = second := by
  rcases image_cases vacates.sources first with moved | ⟨-, stays⟩
  · rcases image_cases vacates.sources second with follows | ⟨-, rests⟩
    · rw [same] at moved
      have pair := List.inj_on_of_nodup_map vacates.destinations moved follows rfl
      exact congrArg Prod.fst pair
    · rw [same, rests] at moved
      exact absurd (vacates.vacant second (List.mem_map_of_mem moved)) present
  · rcases image_cases vacates.sources second with follows | ⟨-, rests⟩
    · rw [← same, stays] at follows
      exact absurd (vacates.vacant first (List.mem_map_of_mem follows)) known
    · rw [← stays, same, rests]

end Vacates

/-- **The nodes of a table at other addresses**, with the same edges. -/
structure Rekeyed (naming : UInt64 → UInt64) (table after : Table) : Prop where
  arrayBase : after.arrayBase = table.arrayBase
  free : after.free = table.free
  nodes : ∀ address node, after.find? address = some node
    ↔ ∃ start, table.find? start = some node ∧ naming start = address

/-- A move to a vacant address gives the node that it moves a new address. -/
theorem rekeyed_relocate {src dst : UInt64} (different : src ≠ dst)
    (vacant : table.find? dst = none) :
    Rekeyed (image ((∅ : WordMap UInt64).insert src dst)) table (table.relocate src dst) := by
  rw [relocate]
  cases held : table.find? src with
  | none =>
    refine ⟨rfl, rfl, fun address node => ?_⟩
    have elsewhere : ∀ {start}, table.find? start = some node → src ≠ start := by
      rintro start found rfl
      cases held.symm.trans found
    constructor
    · intro found
      exact ⟨address, found, image_single_of_ne dst (elsewhere found)⟩
    · rintro ⟨start, found, rfl⟩
      rwa [image_single_of_ne dst (elsewhere found)]
  | some moved =>
    have unused : (table.nodes.erase src).contains dst = false := by
      have missing : table.nodes.find? dst = none := vacant
      rw [WordMap.contains, WordMap.find?_erase, if_neg different, missing]
      rfl
    refine ⟨rfl, ?_, fun address node => ?_⟩
    · simp only [put, unused, Bool.false_eq_true, ↓reduceIte]
    · show ((table.nodes.erase src).insert dst moved).find? address = some node ↔ _
      rw [WordMap.find?_insert, WordMap.find?_erase]
      constructor
      · intro found
        split at found
        · rename_i here
          exact ⟨src, held.trans found, (image_single src dst).trans here⟩
        · split at found
          · cases found
          · rename_i elsewhere
            exact ⟨address, found, image_single_of_ne dst elsewhere⟩
      · rintro ⟨start, found, rfl⟩
        by_cases here : src = start
        · subst here
          rw [image_single, if_pos rfl, ← held, found]
        · have occupied : dst ≠ start := by
            rintro rfl
            cases vacant.symm.trans found
          rw [image_single_of_ne dst here, if_neg occupied, if_neg here]
          exact found

theorem Rekeyed.trans {last : Table} {first second : UInt64 → UInt64}
    (earlier : Rekeyed first table after) (later : Rekeyed second after last) :
    Rekeyed (fun address => second (first address)) table last where
  arrayBase := later.arrayBase.trans earlier.arrayBase
  free := later.free.trans earlier.free
  nodes := by
    intro address node
    rw [later.nodes]
    constructor
    · rintro ⟨middle, found, rfl⟩
      obtain ⟨start, present, rfl⟩ := (earlier.nodes middle node).mp found
      exact ⟨start, present, rfl⟩
    · rintro ⟨start, present, rfl⟩
      exact ⟨first start, (earlier.nodes _ node).mpr ⟨start, present, rfl⟩, rfl⟩

/-- **Moves to vacant addresses** give the nodes the addresses that the moves together give. -/
theorem rekeyed_foldl_relocate (vacates : table.Vacates moves) :
    Rekeyed (image (.ofList moves)) table
      (moves.foldl (fun table move => table.relocate move.1 move.2) table) := by
  induction moves using List.reverseRecOn with
  | nil =>
    refine ⟨rfl, rfl, fun address node => ?_⟩
    have still : ∀ value, image (.ofList []) value = value :=
      fun value => image_of_none (WordMap.find?_empty value)
    simp only [still, List.foldl_nil, exists_eq_right]
  | append_singleton moves move onward =>
    obtain ⟨src, dst⟩ := move
    have distinct := vacates.before.sources
    have earlier := onward vacates.before
    obtain ⟨fresh, unreached, unused, different, free⟩ := vacates.last
    -- none of the earlier moves goes to the destination, and it was vacant before them
    have vacant : (moves.foldl (fun table move => table.relocate move.1 move.2) table).find? dst
        = none := by
      rw [Option.eq_none_iff_forall_ne_some]
      intro node found
      obtain ⟨start, present, named⟩ := (earlier.nodes dst node).mp found
      rcases image_cases distinct start with moved | ⟨-, stays⟩
      · rw [named] at moved
        exact unused (List.mem_map_of_mem moved)
      · rw [← named, stays, present] at free
        cases free
    rw [List.foldl_concat, funext (image_concat dst distinct fresh unreached)]
    exact earlier.trans (rekeyed_relocate different vacant)

/-! ## Renaming the graph -/

/-- **A table with new names.**  Every node lies at the new name of its address and has its kind, its
size, and the new names of its references. -/
structure Renamed (names : WordMap UInt64) (table after : Table) : Prop where
  arrayBase : after.arrayBase = table.arrayBase
  free : after.free = table.free
  nodes : ∀ address node, after.find? address = some node
    ↔ ∃ start old, table.find? start = some old
      ∧ (names.find? start).getD start = address ∧ node = ⟨old.kind, old.size,
        old.edges.mapValues fun _ value => (names.find? value).getD value⟩

theorem Rekeyed.retarget {names : WordMap UInt64} (rekeyed : Rekeyed (image names) table after) :
    Renamed names table (after.retarget names) where
  arrayBase := rekeyed.arrayBase
  free := rekeyed.free
  nodes := by
    intro address node
    rw [find?, nodes_retarget, WordMap.find?_mapValues, Option.map_eq_some_iff]
    constructor
    · rintro ⟨old, found, rfl⟩
      obtain ⟨start, present, named⟩ := (rekeyed.nodes address old).mp found
      exact ⟨start, old, present, named, rfl⟩
    · rintro ⟨start, old, present, named, rfl⟩
      exact ⟨old, (rekeyed.nodes address old).mpr ⟨start, present, named⟩, rfl⟩

namespace Renamed

variable {names : WordMap UInt64}

/-- Tables with the same new names are the same. -/
theorem unique {other : Table} (renamed : Renamed names table after)
    (again : Renamed names table other) : other = after := by
  have nodes : other.nodes = after.nodes := by
    refine WordMap.ext_find? fun address => Option.ext fun node => ?_
    exact (again.nodes address node).trans (renamed.nodes address node).symm
  obtain ⟨base, graph, free⟩ := other
  obtain ⟨base', graph', free'⟩ := after
  rw [Table.mk.injEq]
  exact ⟨again.arrayBase.trans renamed.arrayBase.symm, nodes, again.free.trans renamed.free.symm⟩

theorem catalog_eq_some_iff (renamed : Renamed names table after) {address : UInt64}
    {profile : Profile} :
    after.catalog address = some profile
      ↔ ∃ start old, table.catalog start = some old ∧ image names start = address
        ∧ profile = old.retarget names := by
  simp only [catalog, Option.map_eq_some_iff]
  constructor
  · rintro ⟨node, found, rfl⟩
    obtain ⟨start, old, present, named, rfl⟩ := (renamed.nodes address node).mp found
    exact ⟨start, _, ⟨old, present, rfl⟩, named, profile_retarget names old⟩
  · rintro ⟨start, _, ⟨old, present, rfl⟩, named, rfl⟩
    exact ⟨_, (renamed.nodes address _).mpr ⟨start, old, present, named, rfl⟩,
      profile_retarget names old⟩

variable (renamed : Renamed names table after)
  (injective : Set.InjOn (image names) table.catalog.objects)
include renamed injective

/-- If no two nodes get one address, there are as many nodes as before. -/
theorem size_eq : after.size = table.size := by
  have objects : after.catalog.objects = Set.image (image names) table.catalog.objects := by
    ext address
    simp only [Catalog.objects, Set.mem_image, Set.mem_ofPred_eq, Option.isSome_iff_exists,
      renamed.catalog_eq_some_iff]
    constructor
    · rintro ⟨_, start, old, present, named, rfl⟩
      exact ⟨start, ⟨old, present⟩, named⟩
    · rintro ⟨start, ⟨old, present⟩, named⟩
      exact ⟨_, start, old, present, named, rfl⟩
  rw [size_eq_ncard, size_eq_ncard, objects, injective.ncard_image]

/-- If no two nodes get one address, there are as many edges as before. -/
theorem edgeCount_eq : after.edgeCount = table.edgeCount := by
  have slots : after.catalog.slots
      = Set.image (Prod.map (image names) id) table.catalog.slots := by
    ext ⟨address, offset⟩
    simp only [Catalog.slots, Set.mem_image, Set.mem_ofPred_eq, renamed.catalog_eq_some_iff,
      Prod.exists, Prod.map_apply, id, Prod.mk.injEq]
    constructor
    · rintro ⟨_, ⟨start, old, present, named, rfl⟩, held⟩
      rw [Profile.retarget, Option.isSome_map] at held
      exact ⟨start, offset, ⟨old, present, held⟩, named, rfl⟩
    · rintro ⟨start, _, ⟨old, present, held⟩, named, rfl⟩
      refine ⟨_, ⟨start, old, present, named, rfl⟩, ?_⟩
      rwa [Profile.retarget, Option.isSome_map]
  have apart : Set.InjOn (Prod.map (image names) id) table.catalog.slots := by
    rintro ⟨first, offset⟩ ⟨profile, known, -⟩ ⟨second, other⟩ ⟨_, present, -⟩ same
    obtain ⟨named, rfl⟩ := Prod.mk.inj same
    have equal := injective (Option.isSome_iff_exists.mpr ⟨_, known⟩)
      (Option.isSome_iff_exists.mpr ⟨_, present⟩) named
    exact Prod.ext equal rfl
  rw [edgeCount_eq_ncard, edgeCount_eq_ncard, slots, apart.ncard_image]

end Renamed

end Table

/-! ## Replays that end with moves -/

namespace Replay

variable {config : Config} {table : Table} {segments : List (List Event)} {log : List Event}

/-- No object was moved on the way from one state of the second pass to another. -/
structure Unmoved (progress reached : Progress) : Prop where
  relocations : reached.relocations = progress.relocations
  moves : reached.stats.moves = progress.stats.moves

section Unmoved

variable {progress reached : Progress}

theorem unmoved_copySlots {src dst srcOffset dstOffset length : UInt64}
    (copied : progress.copySlots config src dst srcOffset dstOffset length = .ok reached) :
    Unmoved progress reached := by
  rw [Progress.copySlots] at copied
  split at copied
  · cases copied
  · cases copied
    exact ⟨rfl, rfl⟩

theorem unmoved_fillArray {src dst length srcIndex : UInt64}
    (filled : progress.fillArray config src dst length srcIndex = .ok reached) :
    Unmoved progress reached := by
  obtain ⟨relocations, moves⟩ := unmoved_copySlots filled
  exact ⟨relocations, moves⟩

/-- Only a move moves an object. -/
theorem unmoved_perform {effect : Effect} (still : ∀ src dst, effect ≠ .move src dst)
    (performed : progress.perform config effect = .ok reached) : Unmoved progress reached := by
  cases effect with
  | nothing | unrecognized | clear =>
    cases performed
    exact ⟨rfl, rfl⟩
  | store slot value =>
    rw [Progress.perform, Progress.setField] at performed
    split at performed <;> cases performed <;> exact ⟨rfl, rfl⟩
  | copyObject src dst =>
    rw [Progress.perform, Progress.copyObject] at performed
    split at performed <;> cases performed <;> exact ⟨rfl, rfl⟩
  | copyElements src dst length =>
    rw [Progress.perform, Progress.copyElements] at performed
    split at performed
    · exact unmoved_copySlots performed
    · cases performed
      exact ⟨rfl, rfl⟩
  | copyWithin array length srcIndex dstIndex =>
    rw [Progress.perform, Progress.copyWithin] at performed
    split at performed
    · cases performed
      exact ⟨rfl, rfl⟩
    · exact unmoved_copySlots performed
  | copyNewArray src dst length srcIndex =>
    rw [Progress.perform, Progress.copyNewArray] at performed
    split at performed
    · exact unmoved_fillArray performed
    · cases performed
      exact ⟨rfl, rfl⟩
  | copyWholeArray src dst =>
    rw [Progress.perform, Progress.copyWholeArray] at performed
    split at performed
    · exact unmoved_fillArray performed
    · cases performed
      exact ⟨rfl, rfl⟩
  | move src dst => exact absurd rfl (still src dst)

theorem unmoved_foldlM_perform {effects : List Effect}
    (still : ∀ effect ∈ effects, ∀ src dst, effect ≠ .move src dst)
    (performed : effects.foldlM (Progress.perform config) progress = .ok reached) :
    Unmoved progress reached := by
  induction effects generalizing progress with
  | nil =>
    cases performed
    exact ⟨rfl, rfl⟩
  | cons effect rest onward =>
    rw [List.foldlM_cons, bind_eq_ok] at performed
    obtain ⟨next, first, later⟩ := performed
    have here := unmoved_perform (still effect List.mem_cons_self) first
    have behind := onward (fun other member => still other (List.mem_cons_of_mem _ member)) later
    exact ⟨behind.relocations.trans here.relocations, behind.moves.trans here.moves⟩

end Unmoved

/-- The moves of a log: from where and to where. -/
def movesOf (config : Config) (log : List Event) : List (UInt64 × UInt64) :=
  (Frame.ofSlots config.range log).map fun frame => (frame.event.src, frame.event.dst)

/-- A log of moves. -/
def Moving (config : Config) (log : List Event) : Prop :=
  ∀ frame ∈ Frame.ofSlots config.range log, frame.kind = .moveObject

instance (config : Config) (log : List Event) : Decidable (Moving config log) :=
  List.decidableBAll _ _

theorem frames_concat (config : Config) (segments : List (List Event)) (log : List Event) :
    frames config (segments ++ [log])
      = frames config segments ++ Frame.ofSlots config.range log := by
  rw [frames, List.flatMap_append, List.flatMap_singleton, frames]

namespace Moving

/-- A log of moves allocates nothing. -/
theorem allocations (moving : Moving config log) (segments : List (List Event)) :
    allocations config (segments ++ [log]) = Replay.allocations config segments := by
  have none : (Frame.ofSlots config.range log).filterMap Frame.allocation? = [] := by
    rw [List.filterMap_eq_nil_iff]
    rintro ⟨kind, event, operand, index⟩ member
    cases moving _ member
    rfl
  rw [Replay.allocations, frames_concat, List.filterMap_append, none, List.append_nil,
    Replay.allocations]

/-- A log of moves does nothing else. -/
theorem effects (moving : Moving config log) (segments : List (List Event)) :
    effects config (segments ++ [log])
      = Replay.effects config segments
        ++ (movesOf config log).map fun move => .move move.1 move.2 := by
  have moves : (Frame.ofSlots config.range log).map Frame.effect
      = (movesOf config log).map fun move => .move move.1 move.2 := by
    rw [movesOf, List.map_map]
    refine List.map_congr_left ?_
    rintro ⟨kind, event, operand, index⟩ member
    cases moving _ member
    rfl
  rw [Replay.effects, frames_concat, List.map_append, moves, Replay.effects]

/-- A log of moves has a move in every slot. -/
theorem iff_slots : Moving config log
    ↔ ∀ slot ∈ log, (slot.classify config.range).1 = .moveObject := by
  constructor
  · intro moving
    have single := @Frame.single_of_ofSlotsFrom config.range 0 log fun frame member => by
      rw [moving frame member]
      rfl
    intro slot member
    have listed : Frame.ofSlot config.range slot
        ∈ (Frame.ofSlots config.range log).map Frame.unplaced := by
      rw [Frame.ofSlots, Frame.unplaced_ofSlotsFrom single]
      exact List.mem_map_of_mem member
    obtain ⟨frame, present, same⟩ := List.mem_map.mp listed
    rw [← moving frame present]
    exact (congrArg Frame.kind same).symm
  · intro slots frame member
    have single : ∀ slot ∈ log, (slot.classify config.range).1.isPaired = false := by
      intro slot present
      rw [slots slot present]
      rfl
    have listed : frame.unplaced ∈ log.map (Frame.ofSlot config.range) := by
      rw [← @Frame.unplaced_ofSlotsFrom config.range 0 log single]
      exact List.mem_map_of_mem member
    obtain ⟨slot, present, same⟩ := List.mem_map.mp listed
    rw [← slots slot present]
    exact (congrArg Frame.kind same).symm

/-- The moves of a log, slot by slot. -/
theorem movesOf_eq_map (moving : Moving config log) :
    movesOf config log = log.map fun slot =>
      ((slot.classify config.range).2.src, (slot.classify config.range).2.dst) := by
  have single : ∀ slot ∈ log, (slot.classify config.range).1.isPaired = false := by
    intro slot present
    rw [iff_slots.mp moving slot present]
    rfl
  have read := congrArg (List.map fun frame : Frame => (frame.event.src, frame.event.dst))
    (@Frame.unplaced_ofSlotsFrom config.range 0 log single)
  rw [List.map_map, List.map_map] at read
  exact read

theorem perm (moving : Moving config log) {other : List Event} (permuted : other.Perm log) :
    Moving config other ∧ (movesOf config other).Perm (movesOf config log) := by
  have reordered : Moving config other := by
    rw [iff_slots] at moving ⊢
    exact fun slot member => moving slot (permuted.mem_iff.mp member)
  refine ⟨reordered, ?_⟩
  rw [reordered.movesOf_eq_map, moving.movesOf_eq_map]
  exact permuted.map _

end Moving

theorem foldlM_perform_moves (config : Config) (moves : List (UInt64 × UInt64))
    (progress : Progress) :
    (moves.map fun move => .move move.1 move.2).foldlM (Progress.perform config) progress
      = .ok (moves.foldl (fun progress move => progress.move move.1 move.2) progress) := by
  induction moves generalizing progress with
  | nil => rfl
  | cons move rest onward => exact onward _

/-- Moves change the table, are remembered and counted. -/
theorem foldl_move (moves : List (UInt64 × UInt64)) (progress : Progress) :
    moves.foldl (fun progress move => progress.move move.1 move.2) progress
      = { table := moves.foldl (fun table move => table.relocate move.1 move.2) progress.table
          relocations := moves.foldl (fun map move => map.insert move.1 move.2) progress.relocations
          stats := { progress.stats with moves := progress.stats.moves + moves.length } } := by
  induction moves generalizing progress with
  | nil => rfl
  | cons move rest onward =>
    rw [List.foldl_cons, onward, List.length_cons, Nat.add_comm rest.length, ← Nat.add_assoc]
    rfl

/-- A replay that moves nothing returns the table that its second pass has reached. -/
theorem run_of_motionless {stats : Stats}
    (still : ∀ frame ∈ frames config segments, frame.kind ≠ .moveObject)
    (returned : (run config table segments).outcome = .ok stats) :
    ∃ progress, (effects config segments).foldlM (Progress.perform config)
        ⟨(allocations config segments).foldl Table.place table, ∅, {}⟩ = .ok progress
      ∧ progress.relocations = ∅ ∧ progress.stats.moves = 0
      ∧ (run config table segments).table = progress.table
      ∧ stats = { progress.stats with
        events := segments.flatten.length
        nodes := progress.table.size
        edges := progress.table.edgeCount } := by
  have motionless : ∀ effect ∈ effects config segments, ∀ src dst, effect ≠ .move src dst := by
    intro effect member src dst moves
    obtain ⟨frame, present, rfl⟩ := List.mem_map.mp member
    exact still frame present (eq_moveObject_of_effect moves).1
  rw [run_eq_conclude] at returned ⊢
  cases performed : (effects config segments).foldlM (Progress.perform config)
      ⟨(allocations config segments).foldl Table.place table, ∅, {}⟩ with
  | error halt =>
    rw [performed] at returned
    cases returned
  | ok progress =>
    obtain ⟨relocations, unmoved⟩ := unmoved_foldlM_perform motionless performed
    dsimp only at relocations unmoved
    rw [performed, conclude, finish, relocations, Table.retarget_empty] at returned
    refine ⟨progress, rfl, relocations, unmoved, ?_, (Except.ok.inj returned).symm⟩
    rw [conclude, finish, relocations, Table.retarget_empty]

/-- Moves behind it start from that table. -/
theorem run_concat_moves (moving : Moving config log) {progress : Progress}
    (performed : (effects config segments).foldlM (Progress.perform config)
      ⟨(allocations config segments).foldl Table.place table, ∅, {}⟩ = .ok progress)
    (relocations : progress.relocations = ∅) (unmoved : progress.stats.moves = 0) :
    run config table (segments ++ [log]) = finish (segments ++ [log])
      { table := (movesOf config log).foldl (fun table move => table.relocate move.1 move.2)
          progress.table
        relocations := .ofList (movesOf config log)
        stats := { progress.stats with moves := (movesOf config log).length } } := by
  rw [run_eq_conclude, moving.allocations, moving.effects, List.foldlM_append, performed]
  show conclude _ (((movesOf config log).map _).foldlM _ progress) = _
  rw [foldlM_perform_moves, foldl_move, relocations, unmoved, Nat.zero_add]
  rfl

/-- **A log of moves behind a replay** renames the table and is counted. -/
theorem renamed_of_moves {stats : Stats}
    (still : ∀ frame ∈ frames config segments, frame.kind ≠ .moveObject)
    (returned : (run config table segments).outcome = .ok stats) (moving : Moving config log)
    (vacates : (run config table segments).table.Vacates (movesOf config log)) :
    (run config table (segments ++ [log])).outcome = .ok { stats with
      events := stats.events + log.length
      moves := (movesOf config log).length }
    ∧ Table.Renamed (.ofList (movesOf config log)) (run config table segments).table
      (run config table (segments ++ [log])).table := by
  obtain ⟨progress, performed, relocations, unmoved, reached, rfl⟩ :=
    run_of_motionless still returned
  rw [reached] at vacates ⊢
  have renamed := (Table.rekeyed_foldl_relocate vacates).retarget
  have injective : Set.InjOn (image (.ofList (movesOf config log))) progress.table.catalog.objects := by
    intro first known second present same
    rw [Catalog.objects, Set.mem_ofPred_eq, Table.isSome_catalog, Option.isSome_iff_ne_none]
      at known present
    exact vacates.injOn known present same
  rw [run_concat_moves moving performed relocations unmoved, finish]
  dsimp only
  rw [renamed.size_eq injective, renamed.edgeCount_eq injective, List.flatten_append,
    List.length_append, List.flatten_singleton]
  exact ⟨rfl, renamed⟩

/-- **Moves rename the graph.**  A log of moves from different addresses to different ones that are
vacant, replayed behind logs without moves, leaves the table of those logs with every address of a
node and every value of an edge replaced by its new name.  The numbers of nodes and edges stay, the
moves are counted, and their order does not matter. -/
theorem moves_rename_graph (config : Config) (table : Table) (segments : List (List Event))
    (log : List Event) {stats : Stats}
    (still : ∀ frame ∈ frames config segments, frame.kind ≠ .moveObject)
    (returned : (run config table segments).outcome = .ok stats)
    (moving : ∀ frame ∈ Frame.ofSlots config.range log, frame.kind = .moveObject)
    (vacates : (run config table segments).table.Vacates (movesOf config log)) :
    (run config table (segments ++ [log])).outcome = .ok { stats with
      events := stats.events + log.length
      moves := (Frame.ofSlots config.range log).length }
    ∧ Table.Renamed (.ofList (movesOf config log)) (run config table segments).table
      (run config table (segments ++ [log])).table
    ∧ ∀ other : List Event, other.Perm log →
      run config table (segments ++ [other]) = run config table (segments ++ [log]) := by
  have number : (movesOf config log).length = (Frame.ofSlots config.range log).length :=
    List.length_map ..
  obtain ⟨outcome, renamed⟩ := renamed_of_moves still returned moving vacates
  rw [number] at outcome
  refine ⟨outcome, renamed, ?_⟩
  intro other permuted
  obtain ⟨reordered, moves⟩ := Moving.perm moving permuted
  obtain ⟨outcome', renamed'⟩ := renamed_of_moves still returned reordered (vacates.perm moves)
  have names : WordMap.ofList (movesOf config other) = .ofList (movesOf config log) :=
    WordMap.ofList_perm moves vacates.sources
  rw [names] at renamed'
  rw [moves.length_eq, number, permuted.length_eq] at outcome'
  have same := renamed.unique renamed'
  generalize run config table (segments ++ [other]) = second at outcome' same
  generalize run config table (segments ++ [log]) = first at outcome same
  obtain ⟨_, _⟩ := first
  obtain ⟨_, _⟩ := second
  rw [Replayed.mk.injEq]
  exact ⟨outcome'.trans outcome.symm, same⟩

/-- An object that refers to itself and to a second one, which refers to an unknown object. -/
def entangled : List Event :=
  [Event.encode .newObject ⟨2, 0x10000100⟩, Event.encode .newObject ⟨2, 0x10000200⟩,
    ⟨0x10000100, 0x10000100⟩, ⟨0x10000200, 0x10000108⟩, ⟨0x10000900, 0x10000200⟩]

/-- All three of them are moved. -/
def exodus : List Event :=
  [Event.encode .moveObject ⟨0x10000100, 0x10001100⟩,
    Event.encode .moveObject ⟨0x10000200, 0x10001200⟩,
    Event.encode .moveObject ⟨0x10000900, 0x10001900⟩]

/-- The references follow the objects, also the one to the unknown object, in either order of the
moves. -/
theorem moves_rename_graph_entangled :
    (run .plain (.empty 16) [entangled, exodus]).outcome.toOption
      = some { events := 8, nodes := 2, edges := 3, moves := 3 }
    ∧ (∃ node, (run .plain (.empty 16) [entangled, exodus]).table.find? 0x10001100 = some node
      ∧ node.edges.entries = [(0, 0x10001100), (8, 0x10001200)])
    ∧ run .plain (.empty 16) [entangled, exodus.reverse]
      = run .plain (.empty 16) [entangled, exodus] := by
  have moves : movesOf .plain exodus = [(0x10000100, 0x10001100), (0x10000200, 0x10001200),
      (0x10000900, 0x10001900)] := by decide +kernel
  have vacates : (run .plain (.empty 16) [entangled]).table.Vacates (movesOf .plain exodus) := by
    rw [moves]
    refine ⟨by decide, by decide, by simp, ?_⟩
    intro dst listed
    simp only [List.map_cons, List.map_nil, List.mem_cons, List.not_mem_nil, or_false] at listed
    rcases listed with rfl | rfl | rfl <;> decide +kernel
  have counted : (run .plain (.empty 16) [entangled]).outcome.toOption
      = some { events := 5, nodes := 2, edges := 3 } := by decide +kernel
  cases returned : (run .plain (.empty 16) [entangled]).outcome with
  | error cause =>
    rw [returned] at counted
    cases counted
  | ok stats =>
    rw [returned] at counted
    cases counted
    obtain ⟨outcome, renamed, order⟩ := moves_rename_graph .plain (.empty 16) [entangled] exodus
      (by decide +kernel) returned (by decide +kernel) vacates
    refine ⟨congrArg Except.toOption outcome, ?_, order exodus.reverse exodus.reverse_perm⟩
    refine ⟨_, (renamed.nodes 0x10001100 _).mpr ⟨0x10000100,
      ⟨.newObject, 2, .ofList [(0, 0x10000100), (8, 0x10000200)]⟩, ?_, ?_, rfl⟩, ?_⟩
    all_goals decide +kernel

end Replay

end HeapAudit
