import HeapAudit.Proofs.Replay.Effect

/-!
# Copies of array elements

Elements are copied slot by slot.  Inside one array a copy reads slots that it may have written
before, and what it reads then is right only because it goes through the slots in the direction in
which the destination never runs ahead of the source.

The invariant of every copying loop is that a part of the run is copied (`Edges.CopiedRun`): the
slots between two indices of the destination hold what the source held in the beginning, and no
other slot has changed.  A loop extends the part by one slot at either end
(`Edges.CopiedRun.extend`), and so a whole copy leaves the destination as if the source had been
read at once, whichever way the two runs overlap (`Edges.copiedRun_shift`).

The four kinds of frames that copy array elements are copies of this sort between two nodes
(`Effect.arrayCopy?`).  They change the destination node and nothing else
(`Replay.array_copies_move_elements`).
-/

namespace HeapAudit

set_option autoImplicit false

/-! ## Runs of slots -/

/-- The offset of a slot, counted from the offset of another one. -/
def slotAt (start : UInt64) (index : Nat) : UInt64 := start + index.toUInt64 * wordSize

/-- A run of slots does not wrap around. -/
def RunFits (start : UInt64) (count : Nat) : Prop := start.toNat + 8 * count ≤ 2 ^ 64

instance (start : UInt64) (count : Nat) : Decidable (RunFits start count) :=
  inferInstanceAs (Decidable (_ ≤ _))

theorem slotAt_zero (start : UInt64) : slotAt start 0 = start := by
  simp [slotAt]

theorem slotAt_succ (start : UInt64) (index : Nat) :
    slotAt start (index + 1) = slotAt start index + wordSize := by
  have next : (index + 1).toUInt64 = index.toUInt64 + 1 := by simp
  rw [slotAt, slotAt, next, UInt64.add_mul, UInt64.one_mul, UInt64.add_assoc]

theorem toNat_slotAt_of_lt {start : UInt64} {index : Nat}
    (small : start.toNat + 8 * index < 18446744073709551616) :
    (slotAt start index).toNat = start.toNat + 8 * index := by
  have word : wordSize.toNat = 8 := rfl
  have number : index.toUInt64.toNat = index := toNat_toUInt64_of_lt (by omega)
  have distance : (index.toUInt64 * wordSize).toNat = 8 * index := by
    rw [toNat_mul_of_lt, number, word]
    · omega
    · rw [number, word]
      omega
  rw [slotAt, toNat_add_of_lt, distance]
  rw [distance]
  exact small

theorem toNat_slotAt {start : UInt64} {count index : Nat} (fits : RunFits start count)
    (inside : index < count) : (slotAt start index).toNat = start.toNat + 8 * index := by
  have bound : start.toNat + 8 * count ≤ 18446744073709551616 := fits
  exact toNat_slotAt_of_lt (by omega)

/-- Different slots of a run have different offsets. -/
theorem slotAt_inj {start : UInt64} {count first second : Nat} (fits : RunFits start count)
    (inFirst : first < count) (inSecond : second < count)
    (same : slotAt start first = slotAt start second) : first = second := by
  have numbers := congrArg UInt64.toNat same
  rw [toNat_slotAt fits inFirst, toNat_slotAt fits inSecond] at numbers
  omega

/-! ## Copying loops -/

namespace Edges

theorem find?_copyEdge (source target : Edges) (srcOffset dstOffset offset : UInt64) :
    (copyEdge source target srcOffset dstOffset).find? offset
      = if dstOffset = offset then source.find? srcOffset else target.find? offset := by
  rw [copyEdge]
  cases held : source.find? srcOffset with
  | some value => exact WordMap.find?_insert ..
  | none => exact WordMap.find?_erase ..

/-- **A part of a run is copied.**  The slots of the destination from the index `first` on and
before `last` hold what the source holds in its slots; apart from them everything is as in
`target`. -/
structure CopiedRun (source target : Edges) (srcOffset dstOffset : UInt64) (first last : Nat)
    (result : Edges) : Prop where
  copied : ∀ index, first ≤ index → index < last →
    result.find? (slotAt dstOffset index) = source.find? (slotAt srcOffset index)
  kept : ∀ offset, (∀ index, first ≤ index → index < last → slotAt dstOffset index ≠ offset) →
    result.find? offset = target.find? offset

section Loops

variable {source target edges : Edges} {srcOffset dstOffset : UInt64} {count : Nat}

theorem CopiedRun.none (source target : Edges) (srcOffset dstOffset : UInt64) (index : Nat) :
    CopiedRun source target srcOffset dstOffset index index target where
  copied := fun _ above below => absurd (Nat.lt_of_le_of_lt above below) (Nat.lt_irrefl _)
  kept := fun _ _ => rfl

/-- One more slot is copied, at either end of the part.  What is read is still what the source held
in the beginning. -/
theorem CopiedRun.extend {first last newFirst newLast index : Nat} {read : Edges}
    (run : CopiedRun source target srcOffset dstOffset first last edges)
    (fits : RunFits dstOffset count) (inside : newLast ≤ count)
    (joined : ∀ place, newFirst ≤ place ∧ place < newLast
      ↔ first ≤ place ∧ place < last ∨ place = index)
    (unread : read.find? (slotAt srcOffset index) = source.find? (slotAt srcOffset index)) :
    CopiedRun source target srcOffset dstOffset newFirst newLast
      (copyEdge read edges (slotAt srcOffset index) (slotAt dstOffset index)) where
  copied := by
    intro place above below
    rw [find?_copyEdge]
    rcases (joined place).mp ⟨above, below⟩ with old | rfl
    · by_cases here : slotAt dstOffset index = slotAt dstOffset place
      · have within := (joined index).mpr (.inr rfl)
        obtain rfl := slotAt_inj fits (by omega) (by omega) here
        rw [if_pos rfl]
        exact unread
      · rw [if_neg here]
        exact run.copied place old.1 old.2
    · rw [if_pos rfl]
      exact unread
  kept := by
    intro offset outside
    rw [find?_copyEdge, if_neg]
    · refine run.kept offset fun place above below => ?_
      have within := (joined place).mpr (.inl ⟨above, below⟩)
      exact outside place within.1 within.2
    · have within := (joined index).mpr (.inr rfl)
      exact outside index within.1 within.2

/-- Another object is read, which does not change. -/
theorem copiedRun_copyFrom {done rest : Nat}
    (run : CopiedRun source target srcOffset dstOffset 0 done edges)
    (fits : RunFits dstOffset (done + rest)) :
    CopiedRun source target srcOffset dstOffset 0 (done + rest)
      (source.copyFrom edges (slotAt srcOffset done) (slotAt dstOffset done) rest) := by
  induction rest generalizing done edges with
  | zero => exact run
  | succ rest onward =>
    have next : done + (rest + 1) = done + 1 + rest := by omega
    rw [next] at fits ⊢
    rw [copyFrom, ← slotAt_succ, ← slotAt_succ]
    refine onward (run.extend fits (by omega) (fun place => ?_) rfl) fits
    omega

/-- By increasing offset no slot is written before it is read. -/
theorem copiedRun_shiftUp {before : Edges} {done rest : Nat}
    (run : CopiedRun before before srcOffset dstOffset 0 done edges)
    (fits : RunFits dstOffset (done + rest))
    (ahead : ∀ read < done + rest, ∀ written < read,
      slotAt dstOffset written ≠ slotAt srcOffset read) :
    CopiedRun before before srcOffset dstOffset 0 (done + rest)
      (edges.shiftUp (slotAt srcOffset done) (slotAt dstOffset done) rest) := by
  induction rest generalizing done edges with
  | zero => exact run
  | succ rest onward =>
    have next : done + (rest + 1) = done + 1 + rest := by omega
    rw [next] at fits ahead ⊢
    rw [shiftUp, ← slotAt_succ, ← slotAt_succ]
    have unread : edges.find? (slotAt srcOffset done) = before.find? (slotAt srcOffset done) :=
      run.kept _ fun written _ below => ahead done (by omega) written below
    refine onward (run.extend fits (by omega) (fun place => ?_) unread) fits ahead
    omega

/-- By decreasing offset no slot is written before it is read. -/
theorem copiedRun_shiftDown {before : Edges} {rest : Nat}
    (run : CopiedRun before before srcOffset dstOffset rest count edges)
    (within : rest ≤ count) (fits : RunFits dstOffset count)
    (behind : ∀ written < count, ∀ read < written,
      slotAt dstOffset written ≠ slotAt srcOffset read) :
    CopiedRun before before srcOffset dstOffset 0 count
      (edges.shiftDown srcOffset dstOffset rest) := by
  induction rest generalizing edges with
  | zero => exact run
  | succ rest onward =>
    have unread : edges.find? (slotAt srcOffset rest) = before.find? (slotAt srcOffset rest) :=
      run.kept _ fun written above below => behind written below rest (by omega)
    refine onward (run.extend fits (Nat.le_refl _) (fun place => ?_) unread) (by omega)
    omega

/-- **Inside one object a copy moves the slots as if it read all of them at once**, whichever way
the two runs overlap. -/
theorem copiedRun_shift (edges : Edges) {srcOffset dstOffset length : UInt64}
    (srcFits : RunFits srcOffset length.toNat) (dstFits : RunFits dstOffset length.toNat) :
    CopiedRun edges edges srcOffset dstOffset 0 length.toNat
      (edges.shift srcOffset dstOffset length) := by
  have srcBound : srcOffset.toNat + 8 * length.toNat ≤ 18446744073709551616 := srcFits
  have dstBound : dstOffset.toNat + 8 * length.toNat ≤ 18446744073709551616 := dstFits
  have start := CopiedRun.none edges edges srcOffset dstOffset
  rw [shift]
  by_cases down : (srcOffset < dstOffset && dstOffset < srcOffset + length * wordSize) = true
  · rw [if_pos down]
    rw [Bool.and_eq_true, decide_eq_true_eq, decide_eq_true_eq, UInt64.lt_iff_toNat_lt] at down
    refine copiedRun_shiftDown (start _) (Nat.le_refl _) dstFits fun written inside read below => ?_
    intro same
    have numbers := congrArg UInt64.toNat same
    rw [toNat_slotAt dstFits inside, toNat_slotAt srcFits (by omega)] at numbers
    omega
  · rw [if_neg down]
    have fits : RunFits dstOffset (0 + length.toNat) := by rwa [Nat.zero_add]
    have run := copiedRun_shiftUp (start 0) fits
    rw [slotAt_zero, slotAt_zero, Nat.zero_add] at run
    refine run fun read inside written below => ?_
    intro same
    have numbers := congrArg UInt64.toNat same
    rw [toNat_slotAt dstFits (by omega), toNat_slotAt srcFits inside] at numbers
    -- a destination that starts above the source starts behind the end of it
    have above : srcOffset.toNat < dstOffset.toNat := by omega
    have stop : srcOffset + length * wordSize = slotAt srcOffset length.toNat := by
      rw [slotAt, Nat.toUInt64_eq, UInt64.ofNat_toNat]
    rw [Bool.and_eq_true, decide_eq_true_eq, decide_eq_true_eq, UInt64.lt_iff_toNat_lt,
      UInt64.lt_iff_toNat_lt, stop, toNat_slotAt_of_lt (by omega)] at down
    omega

-- Three slots move up by one, over themselves; the one without an edge takes an edge away.
example : (shift (.ofList [(16, 0xa), (24, 0xb), (40, 0xd)]) 16 24 3).entries
    = [(16, 0xa), (24, 0xa), (32, 0xb)] := by
  decide +kernel

end Loops

end Edges

/-! ## Copies between nodes -/

/-- A copy of array elements between the nodes at two addresses, which may be the same. -/
structure ArrayCopy where
  src : UInt64
  dst : UInt64
  srcOffset : UInt64
  dstOffset : UInt64
  length : UInt64
  /-- The length that the destination gets, if it is a new array. -/
  resized : Option UInt64
  deriving DecidableEq

namespace ArrayCopy

/-- Neither of the two runs wraps around. -/
def Fits (copy : ArrayCopy) : Prop :=
  RunFits copy.srcOffset copy.length.toNat ∧ RunFits copy.dstOffset copy.length.toNat

/-- **What a copy makes of a table.**  The destination node gets the edges that the source node had,
slot by slot, and keeps all its other edges; no other node changes. -/
structure Done (copy : ArrayCopy) (table after : Table) : Prop where
  arrayBase : after.arrayBase = table.arrayBase
  free : after.free = table.free
  others : ∀ address, address ≠ copy.dst → after.find? address = table.find? address
  moved : ∃ source target result, table.find? copy.src = some source
    ∧ table.find? copy.dst = some target
    ∧ after.find? copy.dst = some ⟨target.kind, copy.resized.getD target.size, result⟩
    ∧ Edges.CopiedRun source.edges target.edges copy.srcOffset copy.dstOffset 0
      copy.length.toNat result

end ArrayCopy

namespace Table

variable {table after : Table} {src dst : UInt64} {source target : Node}

theorem copySlots_done {srcOffset dstOffset length : UInt64}
    (found : table.find? src = some source) (held : table.find? dst = some target)
    (srcFits : RunFits srcOffset length.toNat) (dstFits : RunFits dstOffset length.toNat) :
    ArrayCopy.Done ⟨src, dst, srcOffset, dstOffset, length, none⟩ table
      (table.copySlots src dst srcOffset dstOffset length) := by
  rw [copySlots]
  split
  · rename_i here
    subst here
    refine ⟨rfl, rfl, fun address elsewhere => ?_, ?_⟩
    · exact find?_update_of_ne table _ (Ne.symm elsewhere)
    · refine ⟨source, source, _, found, found, ?_, source.edges.copiedRun_shift srcFits dstFits⟩
      rw [find?_update_self, found]
      rfl
  · rw [found]
    refine ⟨rfl, rfl, fun address elsewhere => ?_, ?_⟩
    · exact find?_update_of_ne table _ (Ne.symm elsewhere)
    · refine ⟨source, target, source.edges.copyFrom target.edges srcOffset dstOffset length.toNat,
        found, held, ?_, ?_⟩
      · rw [find?_update_self, held]
        rfl
      · have fits : RunFits dstOffset (0 + length.toNat) := by rwa [Nat.zero_add]
        have run := Edges.copiedRun_copyFrom
          (.none source.edges target.edges srcOffset dstOffset 0) fits
        rwa [slotAt_zero, slotAt_zero, Nat.zero_add] at run

/-- A copy into an array that has just got its length. -/
theorem done_resized {copy : ArrayCopy} {length : UInt64} (plain : copy.resized = none)
    (done : copy.Done (table.update copy.dst fun node => { node with size := length }) after) :
    { copy with resized := some length }.Done table after := by
  have others : ∀ address, address ≠ copy.dst →
      (table.update copy.dst fun node => { node with size := length }).find? address
        = table.find? address :=
    fun address elsewhere => find?_update_of_ne table _ (Ne.symm elsewhere)
  refine ⟨done.arrayBase, done.free, ?_, ?_⟩
  · intro address elsewhere
    rw [done.others address elsewhere, others address elsewhere]
  · obtain ⟨source, target, result, found, held, reached, run⟩ := done.moved
    rw [find?_update_self] at held
    obtain ⟨known, present, rfl⟩ := Option.map_eq_some_iff.mp held
    rw [plain] at reached
    by_cases same : copy.src = copy.dst
    · rw [same, find?_update_self, present] at found
      cases found
      refine ⟨known, known, result, ?_, present, reached, run⟩
      rw [same]
      exact present
    · rw [others _ same] at found
      exact ⟨source, known, result, found, present, reached, run⟩

end Table

/-! ## Frames that copy array elements -/

/-- The copy of array elements that an effect comes to, if the objects it names are known. -/
def Effect.arrayCopy? (table : Table) : Effect → Option ArrayCopy
  | .copyElements src dst length =>
    match table.lookup? src, table.lookup? dst with
    | some (source, _), some (target, _) =>
      some ⟨source, target, src - source, dst - target, length, none⟩
    | _, _ => none
  | .copyWithin array length srcIndex dstIndex =>
    match table.find? array with
    | some _ =>
      some ⟨array, array, table.arrayBase + srcIndex * wordSize,
        table.arrayBase + dstIndex * wordSize, length, none⟩
    | none => none
  | .copyNewArray src dst length srcIndex =>
    match table.find? src, table.find? dst with
    | some _, some _ =>
      some ⟨src, dst, table.arrayBase + srcIndex * wordSize, table.arrayBase, length, some length⟩
    | _, _ => none
  | .copyWholeArray src dst =>
    match table.find? src, table.find? dst with
    | some source, some _ =>
      some ⟨src, dst, table.arrayBase, table.arrayBase, source.size, some source.size⟩
    | _, _ => none
  | _ => none

namespace Replay

variable {config : Config} {progress : Progress}

/-- A copy of a length is not above the limit, if there is one. -/
def Config.Admits (config : Config) (length : UInt64) : Prop :=
  config.copyLimit = 0 ∨ length ≤ config.copyLimit

theorem copySlots_of_admits {length : UInt64} (admits : config.Admits length)
    (progress : Progress) (src dst srcOffset dstOffset : UInt64) :
    progress.copySlots config src dst srcOffset dstOffset length
      = .ok { progress with
        table := progress.table.copySlots src dst srcOffset dstOffset length } := by
  rw [Progress.copySlots, if_neg]
  rw [Bool.and_eq_true, decide_eq_true_eq, decide_eq_true_eq]
  rintro ⟨limited, above⟩
  rcases admits with unlimited | below
  · rw [unlimited] at limited
    exact UInt64.lt_irrefl _ limited
  · exact UInt64.lt_irrefl _ (UInt64.lt_of_lt_of_le above below)

/-- A copy that is admitted takes place between known nodes. -/
theorem copySlots_performs {src dst srcOffset dstOffset length : UInt64} {source target : Node}
    (found : progress.table.find? src = some source)
    (held : progress.table.find? dst = some target) (admits : config.Admits length)
    (srcFits : RunFits srcOffset length.toNat) (dstFits : RunFits dstOffset length.toNat) :
    ∃ after, progress.copySlots config src dst srcOffset dstOffset length
        = .ok { progress with table := after }
      ∧ ArrayCopy.Done ⟨src, dst, srcOffset, dstOffset, length, none⟩ progress.table after :=
  ⟨_, copySlots_of_admits admits .., Table.copySlots_done found held srcFits dstFits⟩

/-- A new array gets its length and its elements. -/
theorem fillArray_performs {src dst length srcIndex : UInt64} {source target : Node}
    (found : progress.table.find? src = some source)
    (held : progress.table.find? dst = some target) (admits : config.Admits length)
    (srcFits : RunFits (progress.table.arrayBase + srcIndex * wordSize) length.toNat)
    (dstFits : RunFits progress.table.arrayBase length.toNat) :
    ∃ after, progress.fillArray config src dst length srcIndex
        = .ok { progress with table := after }
      ∧ ArrayCopy.Done ⟨src, dst, progress.table.arrayBase + srcIndex * wordSize,
        progress.table.arrayBase, length, some length⟩ progress.table after := by
  have sized : ∀ address node, progress.table.find? address = some node → ∃ resized,
      (progress.table.update dst fun node => { node with size := length }).find? address
        = some resized := by
    intro address node present
    by_cases here : dst = address
    · subst here
      rw [Table.find?_update_self, present]
      exact ⟨_, rfl⟩
    · rw [Table.find?_update_of_ne _ _ here]
      exact ⟨node, present⟩
  obtain ⟨source, found⟩ := sized src source found
  obtain ⟨target, held⟩ := sized dst target held
  refine ⟨_, copySlots_of_admits admits .., ?_⟩
  exact Table.done_resized rfl (Table.copySlots_done found held srcFits dstFits)

/-- The nodes of what is looked up are known. -/
theorem find?_of_lookup? {table : Table} {address start : UInt64} {node : Node}
    (found : table.lookup? address = some (start, node)) : table.find? start = some node :=
  (Table.lookup?_eq_some_iff.mp found).1

/-- An effect that copies array elements changes its destination only. -/
theorem perform_arrayCopy {effect : Effect} {copy : ArrayCopy}
    (asks : effect.arrayCopy? progress.table = some copy) (admits : config.Admits copy.length)
    (fits : copy.Fits) :
    ∃ after, progress.perform config effect = .ok { progress with table := after }
      ∧ copy.Done progress.table after := by
  obtain ⟨srcFits, dstFits⟩ := fits
  cases effect with
  | copyElements src dst length =>
    simp only [Effect.arrayCopy?] at asks
    split at asks
    · rename_i found held
      cases asks
      rw [Progress.perform, Progress.copyElements, found, held]
      exact copySlots_performs (find?_of_lookup? found) (find?_of_lookup? held) admits srcFits
        dstFits
    · cases asks
  | copyWithin array length srcIndex dstIndex =>
    simp only [Effect.arrayCopy?] at asks
    split at asks
    · rename_i found
      cases asks
      rw [Progress.perform, Progress.copyWithin, found]
      exact copySlots_performs found found admits srcFits dstFits
    · cases asks
  | copyNewArray src dst length srcIndex =>
    simp only [Effect.arrayCopy?] at asks
    split at asks
    · rename_i found held
      cases asks
      rw [Progress.perform, Progress.copyNewArray, found, held]
      exact fillArray_performs found held admits srcFits dstFits
    · cases asks
  | copyWholeArray src dst =>
    simp only [Effect.arrayCopy?] at asks
    split at asks
    · rename_i found held
      cases asks
      rw [Progress.perform, Progress.copyWholeArray, found, held]
      have whole : progress.table.arrayBase + 0 * wordSize = progress.table.arrayBase := by
        rw [UInt64.zero_mul, UInt64.add_zero]
      have filled := fillArray_performs found held admits (whole.symm ▸ srcFits) dstFits
      rwa [whole] at filled
    · cases asks
  | nothing | unrecognized | store | copyObject | move | clear => cases asks

/-- **Copies of array elements move them as if they were read at once.**  A copy of a run of slots
that is not above the limit takes place between any two known nodes; the destination then has in
every slot of its run the edge that the source had before, or none if that had none, and everything
else is as it was.  The frames that copy array elements do exactly this to the nodes they name, and
give a new array its length. -/
theorem array_copies_move_elements (config : Config) (progress : Progress) :
    (∀ src dst srcOffset dstOffset length : UInt64,
      progress.table.nodes.contains src = true → progress.table.nodes.contains dst = true →
      config.Admits length → RunFits srcOffset length.toNat → RunFits dstOffset length.toNat →
      ∃ after, progress.copySlots config src dst srcOffset dstOffset length
          = .ok { progress with table := after }
        ∧ ArrayCopy.Done ⟨src, dst, srcOffset, dstOffset, length, none⟩ progress.table after)
    ∧ ∀ (frame : Frame) (copy : ArrayCopy), frame.effect.arrayCopy? progress.table = some copy →
      config.Admits copy.length → copy.Fits →
      ∃ after, progress.apply config frame = .ok { progress with table := after }
        ∧ copy.Done progress.table after := by
  refine ⟨?_, ?_⟩
  · intro src dst srcOffset dstOffset length found held admits srcFits dstFits
    obtain ⟨source, found⟩ := Option.isSome_iff_exists.mp found
    obtain ⟨target, held⟩ := Option.isSome_iff_exists.mp held
    exact copySlots_performs found held admits srcFits dstFits
  · intro frame copy asks admits fits
    rw [apply_eq_perform]
    exact perform_arrayCopy asks admits fits

/-- Two arrays; the first one has edges in three of its four slots. -/
def shelved : Progress where
  table := ((((Table.empty 16).insert 0x1000 .newArray 4).setEdge 0x1000 16 0xa).setEdge 0x1000 24
    0xb).setEdge 0x1000 40 0xd |>.insert 0x2000 .newArray 0
  relocations := ∅
  stats := {}

/-- A copy inside one array by one slot upwards, over itself, and one that fills a new array. -/
theorem array_copies_move_elements_overlapping :
    (∃ after, shelved.copySlots .plain 0x1000 0x1000 16 24 3
        = .ok { shelved with table := after }
      ∧ ArrayCopy.Done ⟨0x1000, 0x1000, 16, 24, 3, none⟩ shelved.table after)
    ∧ ∃ after, shelved.apply .plain ⟨.copyNewArray, ⟨0x1000, 0x2000⟩, some ⟨2, 1⟩, 0⟩
        = .ok { shelved with table := after }
      ∧ ArrayCopy.Done ⟨0x1000, 0x2000, 24, 16, 2, some 2⟩ shelved.table after := by
  obtain ⟨slots, frames⟩ := array_copies_move_elements .plain shelved
  refine ⟨slots _ _ _ _ _ ?_ ?_ (.inl rfl) ?_ ?_, frames _ _ ?_ (.inl rfl) ⟨?_, ?_⟩⟩
  all_goals decide +kernel

end Replay

end HeapAudit
