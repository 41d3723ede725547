import HeapAudit.Proofs.Replay.Eviction
import HeapAudit.Shadow.Digest

/-!
# Replaying the same events again

Copies inside an array, and moves that lead from one address to the next, are not idempotent.  A
replay of the same events is, because its first pass starts every object over: where it places an
object, the table that it began with does not matter.

A replay forgets a table all of whose nodes lie at addresses that its first pass places objects at.
It comes to what it comes to from the empty table.  What a replay leaves is such a table if every
object is moved to an address of that kind, since nothing but a move brings a node to a new address
(`Table.Within` and `Replay.within_perform`).  Both together are `Replay.replay_self_contained`.
-/

namespace HeapAudit

set_option autoImplicit false

/-! ## Where nodes can be -/

namespace Table

/-- A table all of whose nodes lie at given addresses. -/
structure Within (base : UInt64) (addresses : List UInt64) (table : Table) : Prop where
  arrayBase : table.arrayBase = base
  nodes : ∀ start, table.find? start ≠ none → start ∈ addresses

namespace Within

variable {base : UInt64} {addresses : List UInt64} {table : Table}

theorem empty (base : UInt64) (addresses : List UInt64) : Within base addresses (.empty base) where
  arrayBase := rfl
  nodes := by
    intro start held
    exact absurd (WordMap.find?_empty start) held

/-- Other nodes at the same addresses lie within the same ones. -/
theorem congr (within : Within base addresses table) {other : Table}
    (arrayBase : other.arrayBase = table.arrayBase)
    (held : ∀ start, other.find? start ≠ none → table.find? start ≠ none) :
    Within base addresses other where
  arrayBase := arrayBase.trans within.arrayBase
  nodes := by
    intro start found
    exact within.nodes start (held start found)

theorem put (within : Within base addresses table) {address : UInt64}
    (listed : address ∈ addresses) (node : Node) : Within base addresses (table.put address node) where
  arrayBase := within.arrayBase
  nodes := by
    intro start held
    by_cases here : address = start
    · subst here
      exact listed
    · rw [find?, Table.put, WordMap.find?_insert_of_ne _ here] at held
      exact within.nodes start held

theorem place (within : Within base addresses table) {object : Allocation}
    (listed : object.address ∈ addresses) : Within base addresses (table.place object) := by
  have reused : Within base addresses { table with free := table.free - 1 } :=
    within.congr rfl fun _ held => held
  exact reused.put listed _

theorem update (within : Within base addresses table) (target : UInt64) (change : Node → Node) :
    Within base addresses (table.update target change) := by
  refine within.congr rfl ?_
  intro start held missing
  apply held
  rw [find?, Table.update, WordMap.find?_modify, ← find?, missing]
  simp

theorem erased (within : Within base addresses table) (address : UInt64) :
    Within base addresses { table with nodes := table.nodes.erase address } := by
  refine within.congr rfl ?_
  intro start held missing
  apply held
  rw [find?, WordMap.find?_erase, ← find?, missing, ite_self]

theorem erase (within : Within base addresses table) (address : UInt64) :
    Within base addresses (table.erase address) := by
  rw [Table.erase]
  split
  · exact (within.erased address).congr rfl fun _ held => held
  · exact within

theorem relocate (within : Within base addresses table) {dst : UInt64} (listed : dst ∈ addresses)
    (src : UInt64) : Within base addresses (table.relocate src dst) := by
  rw [Table.relocate]
  split
  · exact within
  · exact (within.erased src).put listed _

theorem clear (within : Within base addresses table) (start stop : UInt64) :
    Within base addresses (table.clear start stop) := by
  rw [Table.clear]
  generalize table.cleared start stop = gone
  induction gone generalizing table with
  | nil => exact within
  | cons first rest onward => exact onward (within.erase first)

theorem retarget (within : Within base addresses table) (images : WordMap UInt64) :
    Within base addresses (table.retarget images) := by
  refine within.congr rfl ?_
  intro start held missing
  apply held
  rw [find?, Table.retarget, WordMap.find?_mapValues, ← find?, missing, Option.map_none]

end Within

end Table

/-! ## What an effect can do to a table -/

namespace Replay

variable {config : Config} {progress : Progress} {effect : Effect}

section Keeping

variable {keeps : Table → Prop}
  (update : ∀ table target change, keeps table → keeps (Table.update table target change))
include update

theorem keeps_copySlots (held : keeps progress.table)
    (src dst srcOffset dstOffset length : UInt64) :
    keeps (reachedTable (progress.copySlots config src dst srcOffset dstOffset length)) := by
  rw [Progress.copySlots]
  split
  · exact held
  · rw [reachedTable, Table.copySlots]
    split
    · exact update _ _ _ held
    · split
      · exact held
      · exact update _ _ _ held

theorem keeps_fillArray (held : keeps progress.table) (src dst length srcIndex : UInt64) :
    keeps (reachedTable (progress.fillArray config src dst length srcIndex)) :=
  keeps_copySlots update (update _ _ _ held) _ _ _ _ _

/-- **An effect changes nodes where they are**, unless it moves or clears objects. -/
theorem keeps_perform (held : keeps progress.table)
    (relocate : ∀ src dst, effect = .move src dst → keeps (progress.table.relocate src dst))
    (clear : ∀ start stop, effect = .clear start stop → keeps (progress.table.clear start stop)) :
    keeps (reachedTable (progress.perform config effect)) := by
  cases effect with
  | nothing => exact held
  | unrecognized => exact held
  | store slot value =>
    rw [Progress.perform, Progress.setField]
    split
    · exact held
    · exact update _ _ _ held
  | copyObject src dst =>
    rw [Progress.perform, Progress.copyObject]
    split
    · dsimp only [reachedTable]
      rw [Table.copyFields]
      split
      · exact held
      · exact update _ _ _ held
    · exact held
  | copyElements src dst length =>
    rw [Progress.perform, Progress.copyElements]
    split
    · exact keeps_copySlots update held _ _ _ _ _
    · exact held
  | copyWithin array length srcIndex dstIndex =>
    rw [Progress.perform, Progress.copyWithin]
    split
    · exact held
    · exact keeps_copySlots update held _ _ _ _ _
  | copyNewArray src dst length srcIndex =>
    rw [Progress.perform, Progress.copyNewArray]
    split
    · exact keeps_fillArray update held _ _ _ _
    · exact held
  | copyWholeArray src dst =>
    rw [Progress.perform, Progress.copyWholeArray]
    split
    · exact keeps_fillArray update held _ _ _ _
    · exact held
  | move src dst => exact relocate src dst rfl
  | clear start stop => exact clear start stop rfl

end Keeping

/-! ## Where a replay leaves nodes -/

variable {base : UInt64} {addresses : List UInt64}

/-- Only a move brings a node to a new address. -/
theorem within_perform (within : progress.table.Within base addresses)
    (listed : ∀ src dst, effect = .move src dst → dst ∈ addresses) :
    (reachedTable (progress.perform config effect)).Within base addresses := by
  refine keeps_perform ?_ within ?_ ?_
  · intro table target change held
    exact held.update target change
  · intro src dst moves
    exact within.relocate (listed src dst moves) src
  · intro start stop _
    exact within.clear start stop

theorem within_foldlM_perform {effects : List Effect} (within : progress.table.Within base addresses)
    (listed : ∀ src dst, .move src dst ∈ effects → dst ∈ addresses) :
    (reachedTable (effects.foldlM (Progress.perform config) progress)).Within base addresses := by
  refine keeps_foldlM_perform within ?_
  intro progress effect member within
  refine within_perform within ?_
  rintro src dst rfl
  exact listed src dst member

theorem within_conclude (segments : List (List Event)) {result : Except Halt Progress}
    (within : (reachedTable result).Within base addresses) :
    (conclude segments result).table.Within base addresses := by
  cases result with
  | ok progress => exact within.retarget progress.relocations
  | error halt => exact within

theorem within_foldl_place {objects : List Allocation} {table : Table}
    (within : table.Within base addresses)
    (listed : ∀ object ∈ objects, object.address ∈ addresses) :
    (objects.foldl Table.place table).Within base addresses := by
  induction objects generalizing table with
  | nil => exact within
  | cons object rest onward =>
    refine onward (within.place (listed object List.mem_cons_self)) ?_
    intro other member
    exact listed other (List.mem_cons_of_mem _ member)

/-- The addresses at which the first pass places objects. -/
def placedAt (config : Config) (segments : List (List Event)) : List UInt64 :=
  (allocations config segments).map Allocation.address

/-- A replay from the empty table leaves nodes where it places objects and where it moves them. -/
theorem within_run (config : Config) (base : UInt64) {segments : List (List Event)}
    (returning : ∀ frame ∈ frames config segments, frame.kind = .moveObject →
      frame.event.dst ∈ placedAt config segments) :
    (run config (.empty base) segments).table.Within base (placedAt config segments) := by
  rw [run_eq_conclude]
  apply within_conclude
  apply within_foldlM_perform
  · refine within_foldl_place (.empty base _) ?_
    intro object member
    exact List.mem_map_of_mem member
  · intro src dst member
    obtain ⟨frame, present, moves⟩ := List.mem_map.mp member
    obtain ⟨kind, event⟩ := eq_moveObject_of_effect moves
    have listed := returning frame present kind
    rw [event] at listed
    exact listed

/-! ## Forgetting the past -/

/-- **A replay forgets the nodes in whose places it puts new ones.** -/
theorem run_forgets (config : Config) {table : Table} {segments : List (List Event)}
    (within : table.Within base (placedAt config segments)) :
    (run config table segments).outcome = (run config (.empty base) segments).outcome
      ∧ (run config table segments).table.nodes = (run config (.empty base) segments).table.nodes := by
  rw [run_eq_conclude, run_eq_conclude]
  refine conclude_congr ?_ ?_ _ _
  · rw [arrayBase_foldl_place, arrayBase_foldl_place]
    exact within.arrayBase
  · rw [nodes_foldl_place, nodes_foldl_place]
    apply WordMap.ext_find?
    intro start
    apply find?_foldl_settle
    cases held : table.find? start with
    | none => exact .inr (held.trans (WordMap.find?_empty start).symm)
    | some node => exact .inl (within.nodes start (by simp [held]))

/-- The fingerprint is that of the nodes. -/
theorem digest_congr {table other : Table} (nodes : other.nodes = table.nodes) :
    other.digest = table.digest := by
  rw [Table.digest, Table.digest, Table.digestWords, Table.digestWords, nodes]

/-- **A self-contained replay forgets the past and is idempotent.**  From a table whose nodes all lie
at addresses that the first pass places objects at, a replay comes to the same counts or stops for
the same cause, and it leaves the same nodes with the same edges, as from the empty table.  If every
object is moved to such an address, then replaying the same events once more changes nothing. -/
theorem replay_self_contained (config : Config) (segments : List (List Event)) :
    (∀ table : Table, (∀ address ∈ table.nodes.keys, address ∈ placedAt config segments) →
      (run config table segments).outcome = (run config (.empty table.arrayBase) segments).outcome
      ∧ (run config table segments).table.nodes
        = (run config (.empty table.arrayBase) segments).table.nodes)
    ∧ ∀ base : UInt64,
      (∀ frame ∈ frames config segments, frame.kind = .moveObject →
        frame.event.dst ∈ placedAt config segments) →
      let first := run config (.empty base) segments
      (run config first.table segments).outcome = first.outcome
      ∧ (run config first.table segments).table.nodes = first.table.nodes
      ∧ (run config first.table segments).table.digest = first.table.digest := by
  refine ⟨?_, ?_⟩
  · intro table listed
    apply run_forgets
    refine ⟨rfl, ?_⟩
    intro start held
    apply listed
    rw [WordMap.mem_keys, WordMap.contains]
    exact Option.isSome_iff_ne_none.mpr held
  · intro base returning
    obtain ⟨outcome, nodes⟩ := run_forgets config (within_run config base returning)
    exact ⟨outcome, nodes, digest_congr nodes⟩

/-- An array is copied onto itself, one element on, and an object that refers to it is moved to an
address at which another object is allocated. -/
def circular : List Event :=
  [Event.encode .newArray ⟨3, 0x10000100⟩, Event.encode .newObject ⟨2, 0x10000200⟩,
    Event.encode .newObject ⟨2, 0x10000300⟩, ⟨0x10000200, 0x10000110⟩, ⟨0x10000100, 0x10000208⟩,
    Event.encode .copySameArray ⟨0x10000100, 2⟩, Event.encode .dummy ⟨0, 1⟩,
    Event.encode .moveObject ⟨0x10000200, 0x10000300⟩]

/-- Replayed into a table with an older object or into what it left behind itself, it comes to the
same. -/
theorem replay_self_contained_circular :
    (∀ address ∈ looped.nodes.keys, address ∈ placedAt .plain [circular])
      ∧ (∀ frame ∈ frames .plain [circular], frame.kind = .moveObject →
        frame.event.dst ∈ placedAt .plain [circular])
      ∧ (run .plain looped [circular]).outcome.toOption
        = some { events := 8, nodes := 2, edges := 3, moves := 1 }
      ∧ (run .plain (run .plain (.empty 16) [circular]).table [circular]).outcome.toOption
        = some { events := 8, nodes := 2, edges := 3, moves := 1 }
      ∧ (run .plain (run .plain (.empty 16) [circular]).table [circular]).table.nodes
        = (run .plain (.empty 16) [circular]).table.nodes := by
  obtain ⟨forgets, again⟩ := replay_self_contained .plain [circular]
  have keys : looped.nodes.keys = [0x10000100] := by decide +kernel
  have placed : 0x10000100 ∈ placedAt .plain [circular] := by decide +kernel
  have listed : ∀ address ∈ looped.nodes.keys, address ∈ placedAt .plain [circular] := by
    intro address member
    rw [keys, List.mem_singleton] at member
    rw [member]
    exact placed
  have returning : ∀ frame ∈ frames .plain [circular], frame.kind = .moveObject →
      frame.event.dst ∈ placedAt .plain [circular] := by
    decide +kernel
  have counted : (run .plain (.empty 16) [circular]).outcome.toOption
      = some { events := 8, nodes := 2, edges := 3, moves := 1 } := by
    decide +kernel
  obtain ⟨outcome, nodes, -⟩ := again 16 returning
  refine ⟨listed, returning, ?_, ?_, nodes⟩
  · exact (congrArg Except.toOption (forgets looped listed).1).trans counted
  · exact (congrArg Except.toOption outcome).trans counted

end Replay

end HeapAudit
