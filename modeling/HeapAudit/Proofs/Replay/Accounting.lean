import HeapAudit.Proofs.Replay.Idempotence
import HeapAudit.Proofs.Shadow.Catalog
import Mathlib.Data.List.Count

/-!
# What a replay accounts for

The counts of a replay can be read off its frames, whatever the slots are.  Every frame that moves
an object is counted as a move, every frame without meaning as unrecognized, and no frame adds more
than one to these counts and those of unresolved stores and copies together.

Nodes are conserved.  The first pass leaves a node at every address at which there was one or at
which it places one.  From then on a node disappears in two ways only: it is cleared, and that is
counted, or another node is moved to its address (`Replay.collisions`).

Both are shown for one frame (`Replay.booked_apply`) and from it for all frames of the second pass
(`Replay.booked_foldlM_apply`).
-/

namespace HeapAudit

set_option autoImplicit false

/-! ## The number of nodes -/

namespace Table

variable (table : Table)

theorem size_update (target : UInt64) (change : Node → Node) :
    (table.update target change).size = table.size :=
  WordMap.size_modify ..

theorem size_retarget (images : WordMap UInt64) : (table.retarget images).size = table.size :=
  WordMap.size_mapValues ..

/-- Two different nodes meet if one is moved. -/
def Collides (src dst : UInt64) : Prop :=
  src ≠ dst ∧ (table.find? src).isSome ∧ (table.find? dst).isSome

instance (src dst : UInt64) : Decidable (table.Collides src dst) :=
  inferInstanceAs (Decidable (_ ∧ _ ∧ _))

/-- **A move loses a node** exactly if two different ones meet. -/
theorem size_relocate (src dst : UInt64) :
    (table.relocate src dst).size + (if table.Collides src dst then 1 else 0) = table.size := by
  rw [relocate]
  cases found : table.find? src with
  | none =>
    have apart : ¬ table.Collides src dst := by
      rintro ⟨-, present, -⟩
      rw [found] at present
      cases present
    rw [if_neg apart, Nat.add_zero]
  | some node =>
    have lifted : (table.nodes.erase src).size + 1 = table.size :=
      WordMap.size_erase_of_find? found
    have settled : ({ table with nodes := table.nodes.erase src }.put dst node).size
        = if (table.nodes.erase src).contains dst then (table.nodes.erase src).size
          else (table.nodes.erase src).size + 1 :=
      WordMap.size_insert ..
    have met : (table.nodes.erase src).contains dst = true ↔ table.Collides src dst := by
      rw [WordMap.contains, WordMap.find?_erase, Collides, found]
      split
      · rename_i same
        exact iff_of_false Bool.false_ne_true fun collides => collides.1 same
      · rename_i different
        exact ⟨fun present => ⟨different, rfl, present⟩, fun collides => collides.2.2⟩
    dsimp only
    rw [settled]
    simp only [met]
    split <;> omega

/-- Removing present nodes one by one loses as many. -/
theorem size_foldl_erase {addresses : List UInt64} (distinct : addresses.Nodup)
    (present : ∀ address ∈ addresses, (table.find? address).isSome) :
    (addresses.foldl erase table).size + addresses.length = table.size := by
  induction addresses generalizing table with
  | nil => rfl
  | cons address rest onward =>
    obtain ⟨elsewhere, distinct⟩ := List.nodup_cons.mp distinct
    obtain ⟨node, found⟩ := Option.isSome_iff_exists.mp (present address List.mem_cons_self)
    have erased : table.erase address
        = { table with nodes := table.nodes.erase address, free := table.free + 1 } :=
      if_pos (present address List.mem_cons_self)
    have fewer : (table.erase address).size + 1 = table.size := by
      rw [erased]
      exact WordMap.size_erase_of_find? found
    have left : ∀ other ∈ rest, ((table.erase address).find? other).isSome := by
      intro other member
      have different : address ≠ other := by
        rintro rfl
        exact elsewhere member
      rw [erased, find?, WordMap.find?_erase, if_neg different]
      exact present other (List.mem_cons_of_mem _ member)
    have later := onward (table.erase address) distinct left
    rw [List.foldl_cons, List.length_cons]
    omega

/-- **Clearing a range** loses the nodes that are counted. -/
theorem size_clear (start stop : UInt64) :
    (table.clear start stop).size + (table.cleared start stop).length = table.size := by
  refine table.size_foldl_erase (table.nodup_cleared start stop) fun address member => ?_
  rw [← isSome_catalog]
  exact (table.mem_cleared_iff.mp member).1

/-- The addresses of nodes after the first pass. -/
theorem isSome_find?_foldl_place {objects : List Allocation} {address : UInt64} :
    ((objects.foldl place table).find? address).isSome
      ↔ (table.find? address).isSome ∨ address ∈ objects.map Allocation.address := by
  induction objects generalizing table with
  | nil => simp
  | cons object rest onward =>
    rw [List.foldl_cons, onward, List.map_cons, List.mem_cons]
    by_cases here : object.address = address
    · subst here
      simp [find?_place_self]
    · rw [find?_place_of_ne table here]
      simp [Ne.symm here]

/-- **The first pass** leaves a node wherever there was one or one is placed. -/
theorem size_foldl_place (objects : List Allocation) :
    (objects.foldl place table).size
      = { address | (table.find? address).isSome
          ∨ address ∈ objects.map Allocation.address }.ncard := by
  rw [size_eq_ncard]
  congr 1
  ext address
  rw [Catalog.objects, Set.mem_ofPred_eq, isSome_catalog, isSome_find?_foldl_place]
  rfl

end Table

/-! ## Frames that are counted -/

namespace Frame

/-- Whether a frame moves an object. -/
def isMove (frame : Frame) : Bool := frame.kind = .moveObject

/-- Whether a frame has no meaning: its operand is cut off, or its kind stands for no event of its
own. -/
def isUnrecognized (frame : Frame) : Bool :=
  frame.kind.isPaired && frame.operand.isNone
    || match frame.kind with
      | .copyArrayOffsets | .copyArrayLength | .noEvent | .dummy | .unknown .. => true
      | _ => false

/-- A frame that moves an object to the address of a different one. -/
def Collides (table : Table) (frame : Frame) : Prop :=
  frame.kind = .moveObject ∧ table.Collides frame.event.src frame.event.dst

instance (table : Table) (frame : Frame) : Decidable (frame.Collides table) :=
  inferInstanceAs (Decidable (_ ∧ _))

end Frame

/-! ## What an effect adds to the counts -/

namespace Effect

/-- The number of moves. -/
def moved : Effect → Nat
  | move .. => 1
  | _ => 0

/-- The number of frames without meaning. -/
def skipped : Effect → Nat
  | unrecognized => 1
  | _ => 0

/-- The number of nodes that disappear without being counted. -/
def lost (table : Table) : Effect → Nat
  | move src dst => if table.Collides src dst then 1 else 0
  | _ => 0

end Effect

namespace Frame

variable (frame : Frame)

theorem moved_effect : frame.effect.moved = if frame.isMove then 1 else 0 := by
  obtain ⟨kind, event, operand, index⟩ := frame
  cases kind <;> cases operand <;> rfl

theorem skipped_effect :
    frame.effect.skipped = if frame.isUnrecognized then 1 else 0 := by
  obtain ⟨kind, event, operand, index⟩ := frame
  cases kind <;> cases operand <;> rfl

theorem lost_effect (table : Table) :
    frame.effect.lost table = if frame.Collides table then 1 else 0 := by
  obtain ⟨kind, event, operand, index⟩ := frame
  cases kind <;> cases operand <;> simp [effect, Effect.lost, Collides]

end Frame

namespace Replay

/-- The frames of a second pass that move an object to the address of a different one, each judged
by the table it is applied to. -/
def collisions (config : Config) : Progress → List Frame → Nat
  | _, [] => 0
  | progress, frame :: rest =>
    (if frame.Collides progress.table then 1 else 0)
      + match progress.apply config frame with
        | .ok next => collisions config next rest
        | .error _ => 0

/-- The frames that are counted one by one: unrecognized ones, unresolved stores and copies, and
moves. -/
def Stats.remarks (stats : Stats) : Nat :=
  stats.unrecognized + stats.unresolvedFieldSets + stats.unresolvedCopies + stats.moves

theorem collisions_cons {config : Config} {progress next : Progress} {frame : Frame}
    (applied : progress.apply config frame = .ok next) (rest : List Frame) :
    collisions config progress (frame :: rest)
      = (if frame.Collides progress.table then 1 else 0) + collisions config next rest := by
  rw [collisions, applied]

/-! ## One frame -/

/-- **How one state of the second pass accounts for the next one**: the numbers of moves, of
unrecognized frames and of lost nodes between them are given. -/
structure Booked (progress reached : Progress) (moves unrecognized frames lost : Nat) : Prop where
  moves : reached.stats.moves = progress.stats.moves + moves
  unrecognized : reached.stats.unrecognized = progress.stats.unrecognized + unrecognized
  remarks : reached.stats.remarks ≤ progress.stats.remarks + frames
  nodes : reached.table.size + reached.stats.cleared + lost
    = progress.table.size + progress.stats.cleared

section Booked

variable {config : Config} {progress reached : Progress}

/-- A frame that changes nodes where they are. -/
theorem Booked.inPlace {table : Table} (size : table.size = progress.table.size) :
    Booked progress { progress with table := table } 0 0 1 0 where
  moves := rfl
  unrecognized := rfl
  remarks := Nat.le_succ _
  nodes := congrArg (· + progress.stats.cleared) size

theorem Booked.missCopy (progress : Progress) : Booked progress progress.missCopy 0 0 1 0 where
  moves := rfl
  unrecognized := rfl
  remarks := by
    simp only [Stats.remarks, Progress.missCopy]
    omega
  nodes := rfl

theorem booked_setField (progress : Progress) (slot value : UInt64) :
    Booked progress (progress.setField slot value) 0 0 1 0 := by
  rw [Progress.setField]
  split
  · refine ⟨rfl, rfl, ?_, rfl⟩
    simp only [Stats.remarks]
    omega
  · exact .inPlace (Table.size_update ..)

theorem size_copySlots (table : Table) (src dst srcOffset dstOffset length : UInt64) :
    (table.copySlots src dst srcOffset dstOffset length).size = table.size := by
  rw [Table.copySlots]
  split
  · exact Table.size_update ..
  · split
    · rfl
    · exact Table.size_update ..

theorem booked_copySlots {table : Table} (size : table.size = progress.table.size)
    {src dst srcOffset dstOffset length : UInt64}
    (copied : Progress.copySlots config { progress with table := table } src dst srcOffset
      dstOffset length = .ok reached) : Booked progress reached 0 0 1 0 := by
  rw [Progress.copySlots] at copied
  split at copied
  · cases copied
  · cases copied
    exact .inPlace ((size_copySlots ..).trans size)

theorem booked_copyObject (config : Config) (progress : Progress) (src dst : UInt64) :
    Booked progress (progress.copyObject config src dst) 0 0 1 0 := by
  rw [Progress.copyObject]
  split
  · refine .inPlace ?_
    rw [Table.copyFields]
    split
    · rfl
    · exact Table.size_update ..
  · exact .missCopy progress

theorem booked_move (progress : Progress) (src dst : UInt64) :
    Booked progress (progress.move src dst) 1 0 1
      (if progress.table.Collides src dst then 1 else 0) where
  moves := rfl
  unrecognized := rfl
  remarks := Nat.le_refl _
  nodes := by
    have lost := progress.table.size_relocate src dst
    simp only [Progress.move]
    omega

theorem booked_clear (progress : Progress) (start stop : UInt64) :
    Booked progress (progress.clear start stop) 0 0 1 0 where
  moves := rfl
  unrecognized := rfl
  remarks := Nat.le_succ _
  nodes := by
    have lost := progress.table.size_clear start stop
    simp only [Progress.clear]
    omega

/-- **One effect of the second pass.** -/
theorem booked_perform {effect : Effect} (performed : progress.perform config effect = .ok reached) :
    Booked progress reached effect.moved effect.skipped 1 (effect.lost progress.table) := by
  cases effect with
  | nothing =>
    cases performed
    exact .inPlace rfl
  | unrecognized =>
    cases performed
    refine ⟨rfl, rfl, ?_, rfl⟩
    simp only [Stats.remarks, Progress.skip]
    omega
  | store slot value =>
    cases performed
    exact booked_setField progress slot value
  | copyObject src dst =>
    cases performed
    exact booked_copyObject config progress src dst
  | copyElements src dst length =>
    rw [Progress.perform, Progress.copyElements] at performed
    split at performed
    · exact booked_copySlots rfl performed
    · cases performed
      exact .missCopy progress
  | copyWithin array length srcIndex dstIndex =>
    rw [Progress.perform, Progress.copyWithin] at performed
    split at performed
    · cases performed
      exact .missCopy progress
    · exact booked_copySlots rfl performed
  | copyNewArray src dst length srcIndex =>
    rw [Progress.perform, Progress.copyNewArray] at performed
    split at performed
    · exact booked_copySlots (Table.size_update ..) performed
    · cases performed
      exact .missCopy progress
  | copyWholeArray src dst =>
    rw [Progress.perform, Progress.copyWholeArray] at performed
    split at performed
    · exact booked_copySlots (Table.size_update ..) performed
    · cases performed
      exact .missCopy progress
  | move src dst =>
    cases performed
    exact booked_move progress src dst
  | clear start stop =>
    cases performed
    exact booked_clear progress start stop

/-- **One frame of the second pass.** -/
theorem booked_apply {frame : Frame} (applied : progress.apply config frame = .ok reached) :
    Booked progress reached (if frame.isMove then 1 else 0)
      (if frame.isUnrecognized then 1 else 0) 1
      (if frame.Collides progress.table then 1 else 0) := by
  rw [apply_eq_perform] at applied
  rw [← frame.moved_effect, ← frame.skipped_effect, ← frame.lost_effect]
  exact booked_perform applied

/-! ## All frames -/

theorem Booked.refl (progress : Progress) : Booked progress progress 0 0 0 0 where
  moves := rfl
  unrecognized := rfl
  remarks := Nat.le_refl _
  nodes := rfl

theorem Booked.trans {next : Progress} {moves unrecognized frames lost : Nat}
    {moves' unrecognized' frames' lost' : Nat}
    (first : Booked progress next moves unrecognized frames lost)
    (second : Booked next reached moves' unrecognized' frames' lost') :
    Booked progress reached (moves + moves') (unrecognized + unrecognized') (frames + frames')
      (lost + lost') where
  moves := by rw [second.moves, first.moves, Nat.add_assoc]
  unrecognized := by rw [second.unrecognized, first.unrecognized, Nat.add_assoc]
  remarks := by
    have here := first.remarks
    have behind := second.remarks
    omega
  nodes := by
    have here := first.nodes
    have behind := second.nodes
    omega

/-- **All frames of the second pass**, one after the other. -/
theorem booked_foldlM_apply {frames : List Frame}
    (applied : frames.foldlM (Progress.apply config) progress = .ok reached) :
    Booked progress reached (frames.countP Frame.isMove) (frames.countP Frame.isUnrecognized)
      frames.length (collisions config progress frames) := by
  induction frames generalizing progress with
  | nil =>
    cases applied
    exact .refl _
  | cons frame rest onward =>
    rw [List.foldlM_cons, bind_eq_ok] at applied
    obtain ⟨next, first, later⟩ := applied
    have whole := (booked_apply first).trans (onward later)
    rw [List.countP_cons, List.countP_cons, List.length_cons, collisions_cons first,
      Nat.add_comm (rest.countP Frame.isMove), Nat.add_comm (rest.countP Frame.isUnrecognized),
      Nat.add_comm rest.length]
    exact whole

end Booked

/-- The state before the second pass. -/
def placed (config : Config) (table : Table) (segments : List (List Event)) : Progress :=
  ⟨(frames config segments).foldl allocate table, ∅, {}⟩

/-- **A replay accounts for its slots, its frames and its nodes.**  If it is not stopped, then all
slots are counted as events, the frames that move an object as moves, and those without meaning as
unrecognized; unrecognized frames, unresolved stores, unresolved copies and moves together are at
most as many as there are frames.  The nodes in the end, those that were cleared and those that had
to give way to a moved one together are as many as there are addresses with a node at the start or
in the first pass. -/
theorem replay_accounts (config : Config) (table : Table) (segments : List (List Event))
    {stats : Stats} (replayed : (run config table segments).outcome = .ok stats) :
    stats.events = segments.flatten.length
      ∧ stats.moves = (frames config segments).countP Frame.isMove
      ∧ stats.unrecognized = (frames config segments).countP Frame.isUnrecognized
      ∧ stats.unrecognized + stats.unresolvedFieldSets + stats.unresolvedCopies + stats.moves
        ≤ (frames config segments).length
      ∧ stats.nodes = (run config table segments).table.size
      ∧ stats.nodes + stats.cleared
          + collisions config (placed config table segments) (frames config segments)
        = { address | (table.find? address).isSome
            ∨ address ∈ placedAt config segments }.ncard := by
  rw [run] at replayed ⊢
  cases applied : (frames config segments).foldlM (Progress.apply config)
      (placed config table segments) with
  | error halt =>
    rw [placed] at applied
    rw [applied] at replayed
    cases replayed
  | ok reached =>
    obtain ⟨moves, unrecognized, remarks, nodes⟩ := booked_foldlM_apply applied
    rw [placed] at applied
    rw [applied] at replayed ⊢
    cases replayed
    have kept := reached.table.size_retarget reached.relocations
    have started : (placed config table segments).table.size
        = { address | (table.find? address).isSome
            ∨ address ∈ placedAt config segments }.ncard := by
      rw [placed, foldl_allocate]
      exact table.size_foldl_place _
    refine ⟨rfl, ?_, ?_, ?_, rfl, ?_⟩
    · exact moves.trans (Nat.zero_add _)
    · exact unrecognized.trans (Nat.zero_add _)
    · exact remarks.trans_eq (Nat.zero_add _)
    · rw [← kept] at nodes
      exact nodes.trans started

/-- Three objects, of which one is moved onto another one and then to where it is, and one is
cleared; a move from nowhere, a store and a copy that find no object, a place holder, and at the end
of the second log a copy without its operand. -/
def crowded : List (List Event) :=
  [[Event.encode .newObject ⟨2, 0x10000100⟩, Event.encode .newObject ⟨2, 0x10000200⟩,
      Event.encode .newObject ⟨2, 0x10000300⟩, Event.encode .moveObject ⟨0x10000100, 0x10000200⟩,
      Event.encode .moveObject ⟨0x10000200, 0x10000200⟩,
      Event.encode .moveObject ⟨0x10000900, 0x10000300⟩,
      Event.encode .clearContiguousSpace ⟨0x10000300, 0x10000308⟩, ⟨0, 0x10000900⟩],
    [Event.encode .copyObject ⟨0x10000900, 0x10000200⟩, Event.encode .dummy ⟨0, 1⟩,
      Event.encode .copyArray ⟨0x10000200, 0x10000200⟩]]

theorem replay_accounts_crowded :
    (run .plain ((Table.empty 16).insert 0x10000400 .newObject 1) crowded).outcome.toOption
      = some { events := 11, nodes := 2, unrecognized := 2, unresolvedFieldSets := 1,
               unresolvedCopies := 1, moves := 3, cleared := 1 }
    ∧ (frames .plain crowded).countP Frame.isMove = 3
    ∧ (frames .plain crowded).countP Frame.isUnrecognized = 2
    ∧ { address | (((Table.empty 16).insert 0x10000400 .newObject 1).find? address).isSome = true
        ∨ address ∈ placedAt .plain crowded }.ncard = 4 := by
  have counted : (run .plain ((Table.empty 16).insert 0x10000400 .newObject 1)
      crowded).outcome.toOption
      = some { events := 11, nodes := 2, unrecognized := 2, unresolvedFieldSets := 1,
               unresolvedCopies := 1, moves := 3, cleared := 1 } := by decide +kernel
  have once : collisions .plain
      (placed .plain ((Table.empty 16).insert 0x10000400 .newObject 1) crowded)
      (frames .plain crowded) = 1 := by decide +kernel
  cases returned : (run .plain ((Table.empty 16).insert 0x10000400 .newObject 1)
      crowded).outcome with
  | error cause =>
    rw [returned] at counted
    cases counted
  | ok stats =>
    rw [returned] at counted
    cases counted
    obtain ⟨-, moves, unrecognized, -, -, nodes⟩ := replay_accounts .plain _ crowded returned
    rw [once] at nodes
    exact ⟨rfl, moves.symm, unrecognized.symm, nodes.symm⟩

end Replay

end HeapAudit
