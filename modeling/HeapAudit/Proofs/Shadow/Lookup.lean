import HeapAudit.Proofs.Data.WordMap
import HeapAudit.Proofs.Foundations
import HeapAudit.Shadow.Table
import Mathlib.Data.List.Pairwise

/-!
# The node that covers an address

A node covers the bytes from its address to its end, and its own address even without bytes.
Only the nearest node that starts at or below an address is asked whether it covers the address
(`Table.lookup?_eq_some_iff`).

The answer depends on where the nodes lie and not on their edges (`Table.owner?_congr`).  A new
object that lies apart from all the others does not hide any of them: outside of its own range
every address is found where it was (`Table.lookup?_place`).  If all nodes lie apart, then none
hides another one, and what is found at an address is the node whose range it lies in
(`Table.lookup_is_exact`).
-/

namespace HeapAudit

set_option autoImplicit false

/-! ## Objects and their ranges -/

/-- An object as it is allocated. -/
structure Allocation where
  address : UInt64
  kind : Kind
  size : UInt64
  deriving DecidableEq

namespace Allocation

/-- The node of an object without references. -/
def node (allocation : Allocation) : Node := ⟨allocation.kind, allocation.size, ∅⟩

/-- Where the range of an object ends, counted without wrapping around.  An object without bytes
has its own address for a range. -/
def stop (base : UInt64) (allocation : Allocation) : Nat :=
  allocation.address.toNat + max (extent allocation.kind allocation.size base).toNat 1

/-- An address lies in the range of an object. -/
def Covers (base : UInt64) (allocation : Allocation) (address : UInt64) : Prop :=
  allocation.address.toNat ≤ address.toNat ∧ address.toNat < allocation.stop base

/-- The ranges of two objects have no address in common. -/
def Apart (base : UInt64) (first second : Allocation) : Prop :=
  first.stop base ≤ second.address.toNat ∨ second.stop base ≤ first.address.toNat

instance (base : UInt64) (allocation : Allocation) (address : UInt64) :
    Decidable (allocation.Covers base address) := inferInstanceAs (Decidable (_ ∧ _))

instance (base : UInt64) (first second : Allocation) : Decidable (first.Apart base second) :=
  inferInstanceAs (Decidable (_ ∨ _))

variable {base : UInt64} {first second : Allocation}

theorem lt_stop (base : UInt64) (allocation : Allocation) :
    allocation.address.toNat < allocation.stop base := by
  rw [stop]
  omega

theorem covers_self (base : UInt64) (allocation : Allocation) :
    allocation.Covers base allocation.address :=
  ⟨Nat.le_refl _, allocation.lt_stop base⟩

theorem Apart.ne (apart : first.Apart base second) : first.address ≠ second.address := by
  intro same
  have below := first.lt_stop base
  have behind := second.lt_stop base
  rw [Apart, same] at apart
  rw [same] at below
  omega

theorem Apart.symm (apart : first.Apart base second) : second.Apart base first := Or.symm apart

/-- An object that starts between another one and an address of the other is not apart from it. -/
theorem Apart.not_between (apart : first.Apart base second) {address : UInt64}
    (covers : first.Covers base address) (above : first.address ≤ second.address)
    (below : second.address ≤ address) : False := by
  have started := second.lt_stop base
  rw [UInt64.le_iff_toNat_le] at above below
  obtain ⟨-, inside⟩ := covers
  rcases apart with before | behind
  · omega
  · omega

end Allocation

/-- The object that a node at an address stands for. -/
def Node.allocation (node : Node) (address : UInt64) : Allocation :=
  ⟨address, node.kind, node.size⟩

namespace Table

variable {table other : Table} {address : UInt64}

/-! ## Looking up -/

/-- The test that `lookup?` makes is whether the nearest node covers the address. -/
theorem covers_iff {start : UInt64} {node : Node} (below : start ≤ address) :
    (node.allocation start).Covers table.arrayBase address
      ↔ (start = address || decide (address - start < table.extent node)) = true := by
  have distance := UInt64.toNat_sub_of_le address start below
  rw [Bool.or_eq_true, decide_eq_true_eq, decide_eq_true_eq, UInt64.lt_iff_toNat_lt, distance,
    ← UInt64.toNat_inj]
  rw [UInt64.le_iff_toNat_le] at below
  show (start.toNat ≤ address.toNat
    ∧ address.toNat < start.toNat + max (table.extent node).toNat 1) ↔ _
  omega

/-- **What is found at an address** is the nearest node at or below it, if that covers it. -/
theorem lookup?_eq_some_iff {start : UInt64} {node : Node} :
    table.lookup? address = some (start, node)
      ↔ table.find? start = some node
        ∧ (node.allocation start).Covers table.arrayBase address
        ∧ ∀ nearer, table.nodes.contains nearer = true → nearer ≤ address → nearer ≤ start := by
  constructor
  · intro found
    rw [lookup?] at found
    split at found
    · cases found
    · rename_i first held floor
      obtain ⟨present, below, nearest⟩ := WordMap.floor?_eq_some_iff.mp floor
      split at found
      · rename_i reaches
        cases found
        exact ⟨present, (covers_iff below).mpr reaches, nearest⟩
      · cases found
  · rintro ⟨present, covers, nearest⟩
    have below : start ≤ address := UInt64.le_iff_toNat_le.mpr covers.1
    rw [lookup?, WordMap.floor?_eq_some_iff.mpr ⟨present, below, nearest⟩]
    exact if_pos ((covers_iff below).mp covers)

/-- The address of the node that covers an address. -/
def owner? (table : Table) (address : UInt64) : Option UInt64 :=
  (table.lookup? address).map Prod.fst

theorem owner?_eq_some_iff {start : UInt64} :
    table.owner? address = some start ↔ ∃ node, table.lookup? address = some (start, node) := by
  rw [owner?, Option.map_eq_some_iff]
  constructor
  · rintro ⟨⟨start, node⟩, found, rfl⟩
    exact ⟨node, found⟩
  · rintro ⟨node, found⟩
    exact ⟨(start, node), found, rfl⟩

/-- The objects of a table, without their edges. -/
def outline (table : Table) : WordMap Allocation :=
  table.nodes.mapValues fun start node => node.allocation start

theorem find?_outline (table : Table) (start : UInt64) :
    table.outline.find? start = (table.find? start).map (Node.allocation · start) :=
  WordMap.find?_mapValues ..

theorem contains_nodes_iff {start : UInt64} :
    table.nodes.contains start = true ↔ ∃ object, table.outline.find? start = some object := by
  rw [WordMap.contains, Option.isSome_iff_exists]
  constructor
  · rintro ⟨node, found⟩
    exact ⟨node.allocation start, by rw [find?_outline, find?, found]; rfl⟩
  · rintro ⟨object, found⟩
    rw [find?_outline, Option.map_eq_some_iff] at found
    obtain ⟨node, found, -⟩ := found
    exact ⟨node, found⟩

/-- **Who owns an address** depends on where the objects lie. -/
theorem owner?_congr (base : other.arrayBase = table.arrayBase)
    (objects : other.outline = table.outline) (address : UInt64) :
    other.owner? address = table.owner? address := by
  have described : ∀ (table : Table) (start : UInt64), table.owner? address = some start
      ↔ ∃ object, table.outline.find? start = some object
        ∧ object.Covers table.arrayBase address
        ∧ ∀ nearer, (∃ object, table.outline.find? nearer = some object) →
          nearer ≤ address → nearer ≤ start := by
    intro table start
    simp only [owner?_eq_some_iff, lookup?_eq_some_iff, contains_nodes_iff]
    constructor
    · rintro ⟨node, found, covers, nearest⟩
      exact ⟨node.allocation start, by rw [find?_outline, found]; rfl, covers, nearest⟩
    · rintro ⟨object, found, covers, nearest⟩
      rw [find?_outline, Option.map_eq_some_iff] at found
      obtain ⟨node, found, rfl⟩ := found
      exact ⟨node, found, covers, nearest⟩
  refine Option.ext fun start => ?_
  rw [described, described, objects, base]

/-! ## Placing an object -/

/-- Places a new object in a table. -/
def place (table : Table) (allocation : Allocation) : Table :=
  table.insert allocation.address allocation.kind allocation.size

theorem nodes_place (table : Table) (allocation : Allocation) :
    (table.place allocation).nodes = table.nodes.insert allocation.address allocation.node := rfl

theorem find?_place_self (table : Table) (allocation : Allocation) :
    (table.place allocation).find? allocation.address = some allocation.node :=
  WordMap.find?_insert_self ..

theorem find?_place_of_ne (table : Table) {allocation : Allocation}
    (elsewhere : allocation.address ≠ address) :
    (table.place allocation).find? address = table.find? address :=
  WordMap.find?_insert_of_ne _ elsewhere

/-- **A new object hides no other one.**  Outside of its own range, what is found does not change
with an object that lies apart from all the others. -/
theorem lookup?_place {allocation : Allocation}
    (apart : ∀ start node, table.find? start = some node →
      (node.allocation start).Apart table.arrayBase allocation)
    (outside : ¬ allocation.Covers table.arrayBase address) :
    (table.place allocation).lookup? address = table.lookup? address := by
  refine Option.ext fun ⟨start, node⟩ => ?_
  rw [lookup?_eq_some_iff, lookup?_eq_some_iff]
  have known : ∀ nearer, table.nodes.contains nearer = true →
      (table.place allocation).nodes.contains nearer = true := by
    intro nearer held
    rw [nodes_place, WordMap.contains, WordMap.find?_insert]
    split
    · rfl
    · exact held
  constructor
  · rintro ⟨found, covers, nearest⟩
    have elsewhere : allocation.address ≠ start := by
      rintro rfl
      rw [find?_place_self] at found
      cases found
      exact outside covers
    rw [find?_place_of_ne table elsewhere] at found
    exact ⟨found, covers, fun nearer held => nearest nearer (known nearer held)⟩
  · rintro ⟨found, covers, nearest⟩
    have separate := apart start node found
    have elsewhere : allocation.address ≠ start := separate.ne.symm
    refine ⟨?_, covers, fun nearer held below => ?_⟩
    · rw [find?_place_of_ne table elsewhere, found]
    · by_cases new : allocation.address = nearer
      · -- a nearer start of the new object would lie in the range of the one that was found
        subst new
        refine UInt64.le_of_lt (UInt64.not_le.mp fun above => ?_)
        exact separate.not_between covers above below
      · refine nearest nearer ?_ below
        rwa [nodes_place, WordMap.contains, WordMap.find?_insert_of_ne _ new] at held

/-! ## Nodes that lie apart -/

/-- No two nodes have an address of their ranges in common. -/
def Separate (table : Table) : Prop :=
  table.outline.values.Pairwise (Allocation.Apart table.arrayBase)

instance (table : Table) : Decidable table.Separate := inferInstanceAs (Decidable (List.Pairwise _ _))

theorem allocation_mem_outline {start : UInt64} {node : Node}
    (found : table.find? start = some node) : node.allocation start ∈ table.outline.values := by
  refine List.mem_map.mpr ⟨(start, node.allocation start), WordMap.mem_entries.mpr ?_, rfl⟩
  rw [find?_outline, found, Option.map_some]

theorem Separate.apart (separate : table.Separate) {start second : UInt64} {node held : Node}
    (found : table.find? start = some node) (present : table.find? second = some held)
    (different : start ≠ second) :
    (node.allocation start).Apart table.arrayBase (held.allocation second) := by
  have symmetric : Std.Symm (Allocation.Apart table.arrayBase) :=
    ⟨fun _ _ => Allocation.Apart.symm⟩
  refine separate.forall (allocation_mem_outline found) (allocation_mem_outline present) ?_
  exact fun same => different (congrArg Allocation.address same)

/-- **Among nodes that lie apart, the one that covers an address is found.** -/
theorem Separate.lookup?_eq_some_iff (separate : table.Separate) {start : UInt64} {node : Node} :
    table.lookup? address = some (start, node)
      ↔ table.find? start = some node
        ∧ (node.allocation start).Covers table.arrayBase address := by
  rw [Table.lookup?_eq_some_iff]
  constructor
  · rintro ⟨found, covers, -⟩
    exact ⟨found, covers⟩
  · rintro ⟨found, covers⟩
    refine ⟨found, covers, fun nearer present below => ?_⟩
    obtain ⟨held, present⟩ := Option.isSome_iff_exists.mp present
    by_cases here : start = nearer
    · exact UInt64.le_of_eq here.symm
    · refine UInt64.le_of_lt (UInt64.not_le.mp fun above => ?_)
      exact (separate.apart found present here).not_between covers above below

/-- **Looking up an address is exact.**  In every table the node that is found is the one with the
greatest address that is not above the one sought, if that is its own address or lies less than its
extent behind it.  If the ranges of the nodes have no address in common, then a node is found
exactly if its range, counted without wrapping around, contains the address sought, and none is
found exactly if no range does. -/
theorem lookup_is_exact (table : Table) (address : UInt64) :
    (∀ start node, table.lookup? address = some (start, node)
      ↔ (table.find? start = some node ∧ start ≤ address
          ∧ ∀ other, (table.find? other).isSome → other ≤ address → other ≤ start)
        ∧ (address = start ∨ address - start < table.extent node))
    ∧ (table.Separate →
      (∀ start node, table.lookup? address = some (start, node)
        ↔ table.find? start = some node ∧ (node.allocation start).Covers table.arrayBase address)
      ∧ (table.lookup? address = none
        ↔ ∀ start node, table.find? start = some node →
          ¬ (node.allocation start).Covers table.arrayBase address)) := by
  refine ⟨fun start node => ?_, fun separate => ⟨fun start node => ?_, ?_⟩⟩
  · rw [lookup?_eq_some_iff]
    constructor
    · rintro ⟨found, covers, nearest⟩
      have below : start ≤ address := UInt64.le_iff_toNat_le.mpr covers.1
      have reaches := (covers_iff below).mp covers
      rw [Bool.or_eq_true, decide_eq_true_eq, decide_eq_true_eq] at reaches
      exact ⟨⟨found, below, nearest⟩, reaches.imp_left Eq.symm⟩
    · rintro ⟨⟨found, below, nearest⟩, reaches⟩
      refine ⟨found, (covers_iff below).mpr ?_, nearest⟩
      rw [Bool.or_eq_true, decide_eq_true_eq, decide_eq_true_eq]
      exact reaches.imp_left Eq.symm
  · exact separate.lookup?_eq_some_iff
  · simp only [Option.eq_none_iff_forall_ne_some, Prod.forall, ne_eq, separate.lookup?_eq_some_iff,
      not_and]

/-- Two objects side by side, one without bytes directly behind them, and one at the very end of
the address space. -/
def sideBySide : Table :=
  ((((empty 16).insert 0x10 .newObject 2).insert 0x20 .newArray 0).insert 0x30 .newObject 0).insert
    0xfffffffffffffff8 .newObject 1

theorem lookup_is_exact_side_by_side :
    sideBySide.Separate
      ∧ sideBySide.lookup? 0x1f = some (0x10, ⟨.newObject, 2, ∅⟩)
      ∧ sideBySide.lookup? 0x30 = some (0x30, ⟨.newObject, 0, ∅⟩)
      ∧ sideBySide.lookup? 0xffffffffffffffff = some (0xfffffffffffffff8, ⟨.newObject, 1, ∅⟩) := by
  have separate : sideBySide.Separate := by decide +kernel
  refine ⟨separate, ?_, ?_, ?_⟩
  · exact (((lookup_is_exact sideBySide 0x1f).2 separate).1 _ _).mpr (by decide +kernel)
  · exact (((lookup_is_exact sideBySide 0x30).2 separate).1 _ _).mpr (by decide +kernel)
  · exact (((lookup_is_exact sideBySide 0xffffffffffffffff).2 separate).1 _ _).mpr
      (by decide +kernel)

/-! ## Changing a node -/

theorem find?_update_self (table : Table) (address : UInt64) (change : Node → Node) :
    (table.update address change).find? address = (table.find? address).map change := by
  rw [find?, update, WordMap.find?_modify, if_pos rfl, find?]

theorem find?_update_of_ne (table : Table) {target : UInt64} (change : Node → Node)
    (elsewhere : target ≠ address) :
    (table.update target change).find? address = table.find? address := by
  rw [find?, update, WordMap.find?_modify, if_neg elsewhere, find?]

/-- A change that leaves a node its kind and its size leaves every object where it lies. -/
theorem outline_update (table : Table) (target : UInt64) {change : Node → Node}
    (keeps : ∀ node, (change node).kind = node.kind ∧ (change node).size = node.size) :
    (table.update target change).outline = table.outline := by
  refine WordMap.ext_find? fun start => ?_
  rw [find?_outline, find?_outline, find?, update, WordMap.find?_modify, find?]
  by_cases here : target = start
  · rw [if_pos here, Option.map_map]
    cases table.nodes.find? start with
    | none => rfl
    | some node =>
      obtain ⟨kind, size⟩ := keeps node
      simp only [Option.map_some, Function.comp_apply, Node.allocation, kind, size]
  · rw [if_neg here]

/-- Two changes can be exchanged if they can be exchanged on one node. -/
theorem update_comm (table : Table) {target second : UInt64} {change onward : Node → Node}
    (exchange : target = second → ∀ node, onward (change node) = change (onward node)) :
    (table.update target change).update second onward
      = (table.update second onward).update target change := by
  simp only [update]
  rw [WordMap.modify_comm exchange]

/-- A change of one node and the placing of another one can be exchanged. -/
theorem update_place (table : Table) {target : UInt64} {allocation : Allocation}
    (change : Node → Node) (elsewhere : allocation.address ≠ target) :
    (table.place allocation).update target change
      = (table.update target change).place allocation := by
  have held : (table.nodes.modify target change).contains allocation.address
      = table.nodes.contains allocation.address := by
    rw [WordMap.contains, WordMap.contains, WordMap.find?_modify, if_neg (Ne.symm elsewhere)]
  simp only [place, insert, put, update, held]
  rw [WordMap.modify_insert_of_ne change elsewhere]

end Table

end HeapAudit
