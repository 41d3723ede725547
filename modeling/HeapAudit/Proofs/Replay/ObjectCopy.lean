import HeapAudit.Proofs.Replay.ArrayCopy

/-!
# Copies of objects

A copy of an object goes through a list of offsets.  At each of them the destination gets the edge
of the source, or loses its own if the source has none (`Edges.find?_foldl_copyEdge`).

The offsets are those of the layout of the source.  If that is not known they are the ones at which
the source has an edge, and then the copy never comes to an offset at which the source has none.
An edge that the destination had there before stays, although a copy of array elements or one by a
layout would take it away (`Replay.copyObject_keeps_stale_edge`).  So a copy without layout leaves
the destination with the edges of the source exactly if there was no such edge before
(`Replay.copyObject_mirrors_iff`).
-/

namespace HeapAudit

set_option autoImplicit false

/-! ## Copying offset by offset -/

/-- At the offsets that are copied there are the edges of the source, elsewhere the old ones. -/
theorem Edges.find?_foldl_copyEdge (source : Edges) (offsets : List UInt64) (target : Edges)
    (offset : UInt64) :
    (offsets.foldl (fun edges place => source.copyEdge edges place place) target).find? offset
      = if offset ∈ offsets then source.find? offset else target.find? offset := by
  induction offsets generalizing target with
  | nil => rfl
  | cons place rest onward =>
    rw [List.foldl_cons, onward, find?_copyEdge]
    by_cases later : offset ∈ rest
    · rw [if_pos later, if_pos (List.mem_cons_of_mem _ later)]
    · rw [if_neg later]
      by_cases here : place = offset
      · subst here
        rw [if_pos rfl, if_pos List.mem_cons_self]
      · rw [if_neg here, if_neg]
        rw [List.mem_cons, not_or]
        exact ⟨Ne.symm here, later⟩

namespace Table

variable {table : Table} {src dst : UInt64} {source target : Node}

/-- The copied offsets of the destination have the edges of the source; everything else is as it
was. -/
structure FieldsCopied (src dst : UInt64) (source target : Node) (offsets : List UInt64)
    (table after : Table) : Prop where
  arrayBase : after.arrayBase = table.arrayBase
  free : after.free = table.free
  others : ∀ address, address ≠ dst → after.find? address = table.find? address
  copied : ∃ result, after.find? dst = some { target with edges := result }
    ∧ ∀ offset, result.find? offset
      = if offset ∈ offsets then source.edges.find? offset else target.edges.find? offset

theorem fieldsCopied_copyFields (found : table.find? src = some source)
    (held : table.find? dst = some target) (offsets : List UInt64) :
    FieldsCopied src dst source target offsets table (table.copyFields src dst offsets) := by
  rw [copyFields, found]
  refine ⟨rfl, rfl, ?_, ?_⟩
  · intro address elsewhere
    exact find?_update_of_ne table _ (Ne.symm elsewhere)
  · refine ⟨_, ?_, Edges.find?_foldl_copyEdge source.edges offsets target.edges⟩
    rw [find?_update_self, held]
    rfl

end Table

/-! ## Frames that copy objects -/

namespace Replay

variable {config : Config} {progress : Progress} {src dst : UInt64} {source target : Node}

/-- The offsets that a copy of an object goes through: those of its layout, or else those of its
edges, as far as the destination reaches. -/
def copiedOffsets (config : Config) (table : Table) (src : UInt64) (source target : Node) :
    List UInt64 :=
  ((config.referenceOffsets? src).getD source.edges.keys).filter fun offset =>
    offset < table.extent target

/-- A copy between known objects takes place. -/
theorem copyObject_performs (found : progress.table.find? src = some source)
    (held : progress.table.find? dst = some target) :
    ∃ after, progress.copyObject config src dst = { progress with table := after }
      ∧ Table.FieldsCopied src dst source target
        (copiedOffsets config progress.table src source target) progress.table after := by
  refine ⟨_, ?_, Table.fieldsCopied_copyFields found held _⟩
  rw [Progress.copyObject, found, held]
  rfl

/-- Without a layout, the offsets that the destination reaches and the source has an edge at are
copied. -/
theorem mem_copiedOffsets_iff {table : Table} (unknown : config.referenceOffsets? src = none)
    {offset : UInt64} :
    offset ∈ copiedOffsets config table src source target
      ↔ offset < table.extent target ∧ source.edges.contains offset = true := by
  rw [copiedOffsets, unknown, Option.getD_none, List.mem_filter, WordMap.mem_keys,
    decide_eq_true_eq, and_comm]

/-- **A copy of an object without layout** gives the destination every edge of the source that it
reaches.  It leaves everything else as it was, and so the destination has the edges of the source,
as far as it reaches, if and only if it had no edges there before where the source has none. -/
theorem copyObject_mirrors_iff (config : Config) (progress : Progress) {src dst : UInt64}
    {source target : Node} (operand : Option Event) (index : Nat)
    (unknown : config.referenceOffsets? src = none)
    (found : progress.table.find? src = some source)
    (held : progress.table.find? dst = some target) :
    ∃ after result,
      progress.apply config ⟨.copyObject, ⟨src, dst⟩, operand, index⟩
        = .ok { progress with table := after }
      ∧ after.arrayBase = progress.table.arrayBase ∧ after.free = progress.table.free
      ∧ (∀ address, address ≠ dst → after.find? address = progress.table.find? address)
      ∧ after.find? dst = some { target with edges := result }
      ∧ (∀ offset, result.find? offset
        = if offset < progress.table.extent target ∧ source.edges.contains offset = true
          then source.edges.find? offset else target.edges.find? offset)
      ∧ ((∀ offset < progress.table.extent target,
          result.find? offset = source.edges.find? offset)
        ↔ ∀ offset < progress.table.extent target,
          target.edges.contains offset = true → source.edges.contains offset = true) := by
  obtain ⟨after, performed, copied⟩ := @copyObject_performs config progress src dst _ _ found held
  obtain ⟨result, reached, edges⟩ := copied.copied
  simp only [mem_copiedOffsets_iff unknown] at edges
  refine ⟨after, result, ?_, copied.arrayBase, copied.free, copied.others, reached, edges, ?_⟩
  · rw [apply_eq_perform]
    exact congrArg Except.ok performed
  · refine forall₂_congr fun offset covered => ?_
    rw [edges offset]
    cases present : source.edges.find? offset with
    | some value => simp [WordMap.contains, covered, present]
    | none => simp [WordMap.contains, present]

/-- Two objects of two words; the second one has an edge in its second word and the first one has
none. -/
def mismatched : Progress where
  table := (((Table.empty 16).insert 0x10000100 .newObject 2).insert 0x10000200 .newObject 2).setEdge
    0x10000200 8 0x10000100
  relocations := ∅
  stats := {}

/-- A copy from the first object to the second one takes place and does not mirror it. -/
theorem copyObject_mirrors_iff_mismatched :
    ∃ after result,
      mismatched.apply .plain ⟨.copyObject, ⟨0x10000100, 0x10000200⟩, none, 0⟩
        = .ok { mismatched with table := after }
      ∧ after.find? 0x10000200 = some ⟨.newObject, 2, result⟩
      ∧ ¬ ∀ offset < 16, result.find? offset = (∅ : Edges).find? offset := by
  have found : mismatched.table.find? 0x10000100 = some ⟨.newObject, 2, ∅⟩ := by decide +kernel
  have held : mismatched.table.find? 0x10000200
      = some ⟨.newObject, 2, .ofList [(8, 0x10000100)]⟩ := by decide +kernel
  obtain ⟨after, result, applied, -, -, -, reached, -, mirrors⟩ :=
    copyObject_mirrors_iff .plain mismatched none 0 rfl found held
  refine ⟨after, result, applied, reached, ?_⟩
  intro same
  have stale := mirrors.mp same 8 (by decide) (by decide +kernel)
  revert stale
  decide +kernel

/-- The second object gets an edge before the first one, which has none, is copied to it. -/
def staleCopy : List Event :=
  [Event.encode .newObject ⟨2, 0x10000100⟩, Event.encode .newObject ⟨2, 0x10000200⟩,
    ⟨0x10000100, 0x10000208⟩, Event.encode .copyObject ⟨0x10000100, 0x10000200⟩]

/-- **A stale edge survives a copy.**  Replayed without layouts, the copy keeps the edge; with a
layout of the source that has the field, it takes the edge away. -/
theorem copyObject_keeps_stale_edge :
    (run .plain (.empty 16) [staleCopy]).table.nodes.entries.map
        (fun entry => (entry.1, entry.2.edges.entries))
      = [(0x10000100, []), (0x10000200, [(8, 0x10000100)])]
    ∧ (run { Config.plain with referenceOffsets? := fun _ => some [0, 8] } (.empty 16)
        [staleCopy]).table.nodes.entries.map (fun entry => (entry.1, entry.2.edges.entries))
      = [(0x10000100, []), (0x10000200, [])] := by
  decide +kernel

end Replay

end HeapAudit
